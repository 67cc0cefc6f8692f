import TerminalKernel.Proofs.FileContents
import TerminalKernel.Proofs.Launching

namespace TerminalKernel

def MachineCall.isCopy : MachineCall → Bool
  | .copyToUser .. => true
  | _ => false

theorem countP_isCopy {calls : List MachineCall} (h : ∀ c ∈ calls, c.isCopy = false) :
    calls.countP MachineCall.isCopy = 0 := by
  rw [List.countP_eq_zero]
  intro c hc
  rw [h c hc]
  simp

namespace Layout

abbrev room (l : Layout) : Nat := (l.programWindowEnd - l.loadAddress.val).toNat

def Backs (l : Layout) (slot : Nat) (target : VirtAddr) (phys : PhysAddr) : Prop :=
  phys.val.toNat + l.programWindow.val.toNat =
    (l.programPhys slot).val.toNat + target.val.toNat

/-- Calls that store bytes chunk by chunk, without gaps, from an offset to the load address on. -/
inductive Stores (l : Layout) (slot : Nat) : Nat → List MachineCall → Bytes → Prop
  | nil {offset : Nat} : Stores l slot offset [] []
  | cons {offset : Nat} {target : VirtAddr} {phys : PhysAddr} {chunk : Bytes}
      {calls : List MachineCall} {rest : Bytes} (hne : chunk ≠ [])
      (hchunk : chunk.length ≤ loaderChunk)
      (htarget : target.val.toNat = l.loadAddress.val.toNat + offset)
      (hphys : l.Backs slot target phys)
      (hrest : Stores l slot (offset + chunk.length) calls rest) :
      Stores l slot offset (.copyToUser target phys chunk :: calls) (chunk ++ rest)

def InWindow (l : Layout) (slot : Nat) : MachineCall → Prop
  | .copyToUser target phys bytes =>
    l.programWindow.val ≤ target.val ∧
      target.val.toNat + bytes.length ≤ l.programWindowEnd.toNat ∧ l.Backs slot target phys
  | _ => True

/-- Between other calls, and with the directory at `root` loaded, the copies store these bytes. -/
def Loads (l : Layout) (root : PhysAddr) (slot : Nat) (bs : Bytes) (calls : List MachineCall) :
    Prop :=
  ∃ before copies after, calls = before ++ .loadPageDirectory root :: (copies ++ after) ∧
    l.Stores slot 0 copies bs ∧ (∀ c ∈ before, c.isCopy = false) ∧ ∀ c ∈ after, c.isCopy = false

variable {l : Layout} {slot offset : Nat} {calls : List MachineCall} {bs : Bytes} {root : PhysAddr}

theorem Valid.backs_windowPhys (h : l.Valid) (hs : slot < processCapacity) {a : VirtAddr}
    (ha : l.inProgramWindow a.val = true) : l.Backs slot a (l.windowPhys slot a) := by
  have ⟨hle, hlt⟩ := (h.inProgramWindow_iff a.val).mp ha
  have hm := h.window_mod
  have hp := h.phys_le
  have hs' : slot < 6 := hs
  rw [Backs, windowPhys, PhysAddr.offset, UInt32.toNat_add, h.programPhys_toNat hs,
    VirtAddr.largePageOffset, UInt32.toNat_mod]
  change (_ + a.val.toNat % 4194304) % 4294967296 + _ = _
  omega

theorem inWindow_of_not_isCopy {call : MachineCall} (h : call.isCopy = false) :
    l.InWindow slot call := by
  cases call with
  | copyToUser => cases h
  | disableInterrupts | enableInterrupts | loadPageDirectory | setKernelStack | endOfInterrupt
    | setIrqMask | programTimer => trivial

theorem Stores.inWindow (h : l.Stores slot offset calls bs) (hv : l.Valid)
    (hr : offset + bs.length ≤ l.room) : ∀ c ∈ calls, l.InWindow slot c := by
  induction h with
  | nil => simp
  | @cons offset target phys chunk calls rest hne hchunk htarget hphys hrest ih =>
    rw [List.length_append] at hr
    have ⟨hle, hlt⟩ := (hv.inProgramWindow_iff _).mp hv.load
    rw [List.forall_mem_cons]
    refine ⟨⟨?_, ?_, hphys⟩, ih (by omega)⟩
    · rw [UInt32.le_iff_toNat_le, htarget]
      omega
    · rw [room, hv.room_toNat] at hr
      rw [hv.programWindowEnd_toNat, htarget]
      omega

theorem Stores.length_le (h : l.Stores slot offset calls bs) : calls.length ≤ bs.length := by
  induction h with
  | nil => simp
  | cons hne hchunk htarget hphys hrest ih =>
    have := List.length_pos_of_ne_nil hne
    rw [List.length_cons, List.length_append]
    omega

theorem Loads.enclosed (h : l.Loads root slot bs calls) {before after : List MachineCall}
    (hb : ∀ c ∈ before, c.isCopy = false) (ha : ∀ c ∈ after, c.isCopy = false) :
    l.Loads root slot bs (before ++ (calls ++ after)) := by
  obtain ⟨before', copies, after', rfl, hs, hb', ha'⟩ := h
  refine ⟨before ++ before', copies, after' ++ after, ?_, hs, ?_, ?_⟩
  · simp only [List.append_assoc, List.cons_append]
  · rw [List.forall_mem_append]
    exact ⟨hb, hb'⟩
  · rw [List.forall_mem_append]
    exact ⟨ha', ha⟩

theorem Loads.inWindow (h : l.Loads root slot bs calls) (hv : l.Valid) (hr : bs.length ≤ l.room) :
    ∀ c ∈ calls, l.InWindow slot c := by
  obtain ⟨before, copies, after, rfl, hs, hb, ha⟩ := h
  rw [List.forall_mem_append, List.forall_mem_cons, List.forall_mem_append]
  refine ⟨?_, trivial, hs.inWindow hv (by rwa [Nat.zero_add]), ?_⟩
  · exact fun c hc => inWindow_of_not_isCopy (hb c hc)
  · exact fun c hc => inWindow_of_not_isCopy (ha c hc)

theorem Loads.countP_le (h : l.Loads root slot bs calls) :
    calls.countP MachineCall.isCopy ≤ bs.length := by
  obtain ⟨before, copies, after, rfl, hs, hb, ha⟩ := h
  rw [List.countP_append, List.countP_cons_of_neg (by simp [MachineCall.isCopy]),
    List.countP_append, countP_isCopy hb, countP_isCopy ha, Nat.zero_add, Nat.add_zero]
  exact List.countP_le_length.trans hs.length_le

end Layout

section

variable {l : Layout} {f : FileImage} {slot inode length : Nat}

theorem readChunks_of_lt (hl : f.fileLength inode = .ok length) {offset : Nat}
    (ho : offset < length) :
    (∃ piece, piece ≠ [] ∧ piece.length = min loaderChunk (length - offset) ∧
      f.Holds inode offset piece ∧ readChunks f inode length offset =
        ((offset, piece) :: (readChunks f inode length (offset + piece.length)).1,
          (readChunks f inode length (offset + piece.length)).2)) ∨
    (∀ bs, bs.length = length - offset → ¬f.Holds inode offset bs) ∧
      readChunks f inode length offset = ([], .error (.fs .corrupt)) := by
  have hbuf : List.replicate loaderChunk (0 : UInt8) ≠ [] := by simp
  rw [readChunks, if_pos ho]
  obtain ⟨piece, hpl, hph, hread⟩ | ⟨hnone, hread⟩ := FileImage.readData_eq hl ho hbuf
  · left
    have hread' : FileSystem.readData f inode offset (List.replicate loaderChunk 0) =
        (.ok piece.length, Bytes.fill (List.replicate loaderChunk 0) piece) := hread
    rw [List.length_replicate] at hpl
    have hpos : piece.length ≠ 0 := by
      have : 0 < loaderChunk := by decide
      omega
    have htake : (Bytes.fill (List.replicate loaderChunk 0) piece).take piece.length = piece := by
      rw [Bytes.fill, List.take_left]
    refine ⟨piece, fun h => hpos (congrArg List.length h), hpl, hph, ?_⟩
    simp only [hread', if_neg hpos, htake]
  · right
    have hread' : (FileSystem.readData f inode offset (List.replicate loaderChunk 0)).1 =
        .error .corrupt := hread
    constructor
    · intro bs hbl hbh
      refine hnone (bs.take (min loaderChunk (length - offset))) ?_ (hbh.take _)
      rw [List.length_take, List.length_replicate]
      omega
    · obtain ⟨r, chunk, hrc⟩ : ∃ r chunk, FileSystem.readData f inode offset
          (List.replicate loaderChunk 0) = (r, chunk) := ⟨_, _, rfl⟩
      rw [hrc] at hread'
      cases hread'
      simp only [hrc]

/-- The loader stores what it reads, up to the end of the file or to the first chunk that is not all
there. -/
theorem stores_readChunks (hv : l.Valid) (hs : slot < processCapacity)
    (hl : f.fileLength inode = .ok length) (hr : length ≤ l.room) {offset : Nat}
    (ho : offset ≤ length) :
    ∃ bs, l.Stores slot offset (l.copies slot (readChunks f inode length offset).1) bs ∧
      f.Holds inode offset bs ∧ offset + bs.length ≤ length ∧
      ((readChunks f inode length offset).2 = .ok () ∧ offset + bs.length = length ∨
        (readChunks f inode length offset).2 = .error (.fs .corrupt) ∧
          ∀ cs, cs.length = length - offset → ¬f.Holds inode offset cs) := by
  -- The loader goes on behind the chunk it has, so what is left of the file gets shorter.
  induction hd : length - offset using Nat.strongRecOn generalizing offset with
  | ind d ih =>
    obtain hend | hlt := Nat.eq_or_lt_of_le ho
    · rw [readChunks, if_neg (Nat.not_lt.mpr hend.ge)]
      exact ⟨[], .nil, FileImage.holds_nil, ho, Or.inl ⟨rfl, hend⟩⟩
    · obtain ⟨piece, hne, hpl, hph, hstep⟩ | ⟨hnone, hstep⟩ := readChunks_of_lt hl hlt
      · have hpos : 0 < piece.length := List.length_pos_iff.mpr hne
        have hle : piece.length ≤ length - offset := hpl ▸ Nat.min_le_right ..
        have hwindow := Nat.lt_of_lt_of_le hlt hr
        obtain ⟨rest, hst, hrh, hrl, hend⟩ := ih (length - (offset + piece.length)) (by omega)
          (by omega) rfl
        rw [hstep]
        refine ⟨piece ++ rest, ?_, FileImage.holds_append.mpr ⟨hph, hrh⟩, ?_, ?_⟩
        · have hbacks := hv.backs_windowPhys hs (hv.inProgramWindow_load hwindow)
          exact .cons hne (hpl ▸ Nat.min_le_left ..) (hv.load_toNat hwindow) hbacks hst
        · rw [List.length_append]
          omega
        · rw [List.length_append, ← Nat.add_assoc]
          refine hend.imp_right ?_
          rintro ⟨he, hno⟩
          refine ⟨he, ?_⟩
          intro cs hcl hch
          refine hno (cs.drop piece.length) ?_ (hch.split (by omega)).2
          rw [List.length_drop]
          omega
      · rw [hstep]
        exact ⟨[], .nil, FileImage.holds_nil, ho, Or.inr ⟨rfl, hd ▸ hnone⟩⟩

end

namespace Kernel

variable {M D : Type} {k : Kernel M D FileImage}

theorem stores_image (hv : k.layout.Valid) {slot : Nat} (hs : slot < processCapacity)
    (inode : Nat) :
    ∃ bs, k.layout.Stores slot 0 (k.layout.copies slot (k.image inode).1) bs ∧
      bs.length ≤ k.layout.room ∧ ((k.image inode).2 = .ok () → k.fs.Content inode bs) := by
  unfold image
  cases hl : FileSystem.fileLength k.fs inode with
  | error e => exact ⟨[], .nil, Nat.zero_le _, nofun⟩
  | ok length =>
    dsimp only
    by_cases hr : k.layout.room < length
    · rw [if_pos hr]
      exact ⟨[], .nil, Nat.zero_le _, nofun⟩
    · rw [if_neg hr]
      have hr' := Nat.le_of_not_lt hr
      obtain ⟨bs, hst, hh, hle, hend⟩ := stores_readChunks hv hs hl hr' (Nat.zero_le length)
      rw [Nat.zero_add] at hle hend
      refine ⟨bs, hst, hle.trans hr', ?_⟩
      intro hok
      obtain ⟨-, hbl⟩ | ⟨he, -⟩ := hend
      · exact ⟨hbl ▸ hl, hh⟩
      · rw [he] at hok
        cases hok

end Kernel

end TerminalKernel
