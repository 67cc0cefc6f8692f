import TerminalKernel.Proofs.Arena

namespace TerminalKernel

section

variable {F : Type} [FileSystem F]

/-- The chunks of a file that the loader reads from an offset on, and how it ends. -/
def readChunks (fs : F) (inode length offset : Nat) :
    List (Nat × Bytes) × Except KernelError Unit :=
  if offset < length then
    match FileSystem.readData fs inode offset (List.replicate loaderChunk 0) with
    | (.error e, _) => ([], .error (.fs e))
    | (.ok n, chunk) =>
      if n = 0 then ([], .error (.fs .corrupt))
      else
        let rest := readChunks fs inode length (offset + n)
        ((offset, chunk.take n) :: rest.1, rest.2)
  else ([], .ok ())
termination_by length - offset

end

structure Program where
  command : Command
  inode : Nat
  entry : UserEntry

namespace Layout

def windowPhys (l : Layout) (slot : Nat) (a : VirtAddr) : PhysAddr :=
  (l.programPhys slot).offset a.largePageOffset

def copies (l : Layout) (slot : Nat) (chunks : List (Nat × Bytes)) : List MachineCall :=
  chunks.map fun c =>
    let target := l.loadAddress.offset (UInt32.ofNat c.1)
    .copyToUser target (l.windowPhys slot target) c.2

variable {l : Layout}

theorem Valid.alignDownLarge_programPhys (h : l.Valid) {slot : Nat} (hs : slot < processCapacity) :
    (l.programPhys slot).alignDownLarge = l.programPhys slot := by
  apply physAddr_ext
  rw [alignDownLarge_toNat, h.programPhys_toNat hs]
  have := h.phys_mod
  omega

theorem Valid.page_of_inProgramWindow (h : l.Valid) {a : VirtAddr}
    (ha : l.inProgramWindow a.val = true) : a.page = l.programWindow.page := by
  have ⟨hle, hlt⟩ := (h.inProgramWindow_iff a.val).mp ha
  have hw := h.window_pos
  have hm := h.window_mod
  rw [VirtAddr.page_of_large (a.isLargeRegion_iff.mpr (by omega)),
    VirtAddr.page_of_large (l.programWindow.isLargeRegion_iff.mpr hw)]
  refine congrArg Page.large (Fin.ext ?_)
  change a.val.toNat / 0x400000 = l.programWindow.val.toNat / 0x400000
  omega

theorem Valid.room_toNat (h : l.Valid) :
    (l.programWindowEnd - l.loadAddress.val).toNat =
      l.programWindow.val.toNat + 4194304 - l.loadAddress.val.toNat := by
  have ⟨_, hlt⟩ := (h.inProgramWindow_iff _).mp h.load
  have he := h.programWindowEnd_toNat
  rw [UInt32.toNat_sub_of_le _ _ (by rw [UInt32.le_iff_toNat_le]; omega), he]

theorem Valid.load_toNat (h : l.Valid) {offset : Nat}
    (ho : offset < (l.programWindowEnd - l.loadAddress.val).toNat) :
    (l.loadAddress.offset (UInt32.ofNat offset)).val.toNat = l.loadAddress.val.toNat + offset := by
  have hw := h.window_lt
  rw [h.room_toNat] at ho
  rw [VirtAddr.offset, UInt32.toNat_add, UInt32.toNat_ofNat']
  change (_ + offset % 4294967296) % 4294967296 = _
  omega

theorem Valid.inProgramWindow_load (h : l.Valid) {offset : Nat}
    (ho : offset < (l.programWindowEnd - l.loadAddress.val).toNat) :
    l.inProgramWindow (l.loadAddress.offset (UInt32.ofNat offset)).val = true := by
  have ⟨hle, hlt⟩ := (h.inProgramWindow_iff _).mp h.load
  have hv := h.load_toNat ho
  rw [h.room_toNat] at ho
  rw [h.inProgramWindow_iff, hv]
  omega

theorem Fits.translate_window (h : l.Fits) {link : Entry} (hp : link.isPresent = true)
    (hl : link.isLarge = false) {slot : Nat} (hs : slot < processCapacity) (video : PhysAddr)
    {a : VirtAddr} (ha : l.inProgramWindow a.val = true) :
    (l.processMap link slot video).translate a = some (l.windowPhys slot a) := by
  let x : Mapping := ⟨l.programWindow, l.programPhys slot, .user ||| .writable⟩
  have hx : x ∈ l.mappings slot video := by simp [mappings, x]
  have he : (l.processMap link slot video).entryAt x.page = x.entry :=
    PageMap.entryAt_fill_of_mem (h.nodup slot video) hx
  have hxp : x.page = .large l.programWindow.dirIndex :=
    VirtAddr.page_of_large (l.programWindow.isLargeRegion_iff.mpr h.window_pos)
  have hb : x.entry.base = l.programPhys slot := by
    rw [Mapping.entry, hxp]
    exact (Entry.base_large _ (PageFlags.isCaller_and _)).trans (h.alignDownLarge_programPhys hs)
  have hpage : a.page = x.page := h.page_of_inProgramWindow ha
  rw [(isRegular_processMap hp hl slot video).translate, hpage, he, hb, Mapping.entry,
    PageMap.isPresent_entry, if_pos rfl, hxp]
  rfl

end Layout

namespace Kernel

variable {M D F : Type} [FileSystem F]

def image (inode : Nat) (k : Kernel M D F) : List (Nat × Bytes) × Except KernelError Unit :=
  match FileSystem.fileLength k.fs inode with
  | .error e => ([], .error (.fs e))
  | .ok length =>
    if (k.layout.programWindowEnd - k.layout.loadAddress.val).toNat < length then
      ([], .error .executableMalformed)
    else readChunks k.fs inode length 0

/-- The program that a command line names, if it can be launched. -/
def program (line : Bytes) (k : Kernel M D F) : Except KernelError Program :=
  match Command.parse line with
  | .error e => .error e
  | .ok command =>
    match k.findExecutable command.name.bytes with
    | .error e => .error e
    | .ok (inode, eip) =>
      match (k.image inode).2 with
      | .error e => .error e
      | .ok () => .ok ⟨command, inode, .start eip k.layout.userStackTop⟩

/-- What a command line launches depends on the files and on where programs see themselves. -/
theorem program_congr_window {M' D' : Type} {k : Kernel M D F} {k' : Kernel M' D' F}
    (hf : k'.fs = k.fs)
    (hw : k'.layout.programWindow = k.layout.programWindow)
    (hl : k'.layout.loadAddress = k.layout.loadAddress) (line : Bytes) :
    k'.program line = k.program line := by
  have he (header : Bytes) :
      Executable.entry k'.layout header = Executable.entry k.layout header := by
    unfold Executable.entry Layout.inProgramWindow Layout.programWindowEnd
    rw [hw]
  have hx (name : Bytes) : k'.findExecutable name = k.findExecutable name := by
    unfold findExecutable
    rw [hf]
    simp only [he]
  have hi (inode : Nat) : k'.image inode = k.image inode := by
    unfold image Layout.programWindowEnd
    rw [hf, hw, hl]
  unfold program Layout.userStackTop Layout.programWindowEnd
  rw [hw]
  simp only [hx, hi]

theorem program_congr {k k' : Kernel M D F} (hf : k'.fs = k.fs) (hl : k'.layout = k.layout)
    (line : Bytes) : k'.program line = k.program line :=
  program_congr_window hf (by rw [hl]) (by rw [hl]) line

theorem program_eq_ok {line : Bytes} {k : Kernel M D F} {prog : Program}
    (h : k.program line = .ok prog) :
    ∃ eip, Command.parse line = .ok prog.command ∧
      k.findExecutable prog.command.name.bytes = .ok (prog.inode, eip) ∧
      (k.image prog.inode).2 = .ok () ∧ prog.entry = .start eip k.layout.userStackTop := by
  unfold program at h
  split at h
  · cases h
  · rename_i command hc
    split at h
    · cases h
    · rename_i inode eip he
      split at h
      · cases h
      · rename_i hi
        cases h
        exact ⟨eip, hc, he, hi, rfl⟩

theorem program_of {line : Bytes} {k : Kernel M D F} {command : Command} {inode : Nat}
    {eip : UInt32} (hc : Command.parse line = .ok command)
    (he : k.findExecutable command.name.bytes = .ok (inode, eip))
    (hi : (k.image inode).2 = .ok ()) :
    k.program line = .ok ⟨command, inode, .start eip k.layout.userStackTop⟩ := by
  simp only [program, hc, he, hi]

variable [Machine M]

def performAll (calls : List MachineCall) (k : Kernel M D F) : Kernel M D F :=
  { k with machine := calls.foldl (fun m c => Machine.perform c m) k.machine }

theorem loadFrom_eq (k : Kernel M D F) (hv : k.layout.Valid) (space : SpaceId) (slot : Nat)
    (ht : ∀ a : VirtAddr, k.layout.inProgramWindow a.val = true →
      k.spaces.translate space a = some (k.layout.windowPhys slot a))
    (inode length offset : Nat)
    (hlen : length ≤ (k.layout.programWindowEnd - k.layout.loadAddress.val).toNat) :
    k.loadFrom space inode length offset =
      ((readChunks k.fs inode length offset).2,
        k.performAll (k.layout.copies slot (readChunks k.fs inode length offset).1)) := by
  induction hd : length - offset using Nat.strongRecOn generalizing k offset with
  | ind d ih =>
    rw [loadFrom, readChunks]
    split
    case isFalse => rfl
    case isTrue ho =>
      obtain ⟨r, chunk⟩ := FileSystem.readData k.fs inode offset (List.replicate loaderChunk 0)
      cases r with
      | error e => rfl
      | ok n =>
        dsimp only
        split
        case isTrue => rfl
        case isFalse hn =>
          have ha := hv.inProgramWindow_load (Nat.lt_of_lt_of_le ho hlen)
          simp only [ht _ ha]
          exact ih (length - (offset + n)) (by omega) (k.perform _) hv ht (offset + n) hlen rfl

theorem loadImage_eq (k : Kernel M D F) (hv : k.layout.Valid) (space : SpaceId) (slot : Nat)
    (ht : ∀ a : VirtAddr, k.layout.inProgramWindow a.val = true →
      k.spaces.translate space a = some (k.layout.windowPhys slot a)) (inode : Nat) :
    k.loadImage space inode =
      ((k.image inode).2, k.performAll (k.layout.copies slot (k.image inode).1)) := by
  unfold loadImage image
  cases FileSystem.fileLength k.fs inode with
  | error e => rfl
  | ok length =>
    dsimp only
    split
    case isTrue => rfl
    case isFalse hr => exact k.loadFrom_eq hv space slot ht inode length 0 (Nat.le_of_not_lt hr)

end Kernel

end TerminalKernel
