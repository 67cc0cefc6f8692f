import TerminalKernel.Proofs.Violations
import TerminalKernel.Sample

namespace TerminalKernel

namespace Kernel

variable {M D F : Type} [FileSystem F] {k k' : Kernel M D F} {σ : TerminalId → List ProcessId}

structure Bootable (k : Kernel M D F) : Prop where
  valid : k.layout.validate = .ok ()
  fits : k.layout.Fits
  timer : ∃ program, k.timer.program = .ok program
  shell : ∃ prog, k.program shell = .ok prog

theorem Consistent.firstFree_isSome (h : k.Consistent σ) (hs : ∀ t, ∀ x ∈ σ t, σ t = [x]) :
    ∃ pid, k.processes.firstFree? = some pid := by
  by_contra hn
  rw [not_exists] at hn
  have hlive (x : ProcessId) : ∃ p, k.processes.get? x = some p := by
    cases hx : k.processes.get? x with
    | some p => exact ⟨p, rfl⟩
    | none =>
      obtain ⟨y, hy⟩ := ProcessTable.firstFree_isSome hx
      exact absurd hy (hn y)
  choose record hrecord using hlive
  -- more slots than terminals, so two processes share one
  obtain ⟨x, y, hne, hxy⟩ := Fintype.exists_ne_map_eq_of_card_lt
    (fun x => (record x).terminal) (by decide : Fintype.card TerminalId < Fintype.card ProcessId)
  have hx := h.stacked.complete x _ (hrecord x)
  have hy := h.stacked.complete y _ (hrecord y)
  have hxy' : (record x).terminal = (record y).terminal := hxy
  rw [← hxy', hs _ x hx, List.mem_singleton] at hy
  exact hne hy.symm

variable [Machine M]

theorem launch_isOk (h : k.Consistent σ) (hf : k.layout.Fits) (t : TerminalId) {pid : ProcessId}
    (hfree : k.processes.firstFree? = some pid) {prog : Program}
    (hprog : k.program shell = .ok prog) :
    ∃ transfer k', k.launch shell (.kernel t none) = (.ok transfer, k') := by
  have hm : k.masked.Consistent σ := h.of_sameCore k.sameCore_masked
  have hfree' : k.masked.processes.firstFree? = some pid := hfree
  have hprog' : k.masked.program shell = .ok prog := hprog
  rw [launch, critical_eq, launchLocked_eq hm hf shell (.kernel t none) rfl]
  simp only [if_neg (beforeNul_ne_nil hprog), hfree', hprog']
  exact ⟨_, _, rfl⟩

theorem launchShells_isOk {ts : List TerminalId} (hn : ts.Nodup) (h : k.Consistent σ)
    (hf : k.layout.Fits) (ht : ∀ t ∈ ts, σ t = []) (hs : ∀ t, ∀ x ∈ σ t, σ t = [x])
    {prog : Program} (hprog : k.program shell = .ok prog) (last : Transfer) :
    ∃ first k', k.launchShells ts last = (.ok first, k') := by
  induction ts generalizing k σ last with
  | nil => exact ⟨last, k, rfl⟩
  | cons t ts ih =>
    rw [List.nodup_cons] at hn
    obtain ⟨free, hfree⟩ := h.firstFree_isSome hs
    obtain ⟨transfer, k₂, hlaunch⟩ := launch_isOk h hf t hfree hprog
    obtain ⟨pid, prog', k₁, -, hfree', hprog', ho, -, ha⟩ := launch_opens h hf.toValid hlaunch
    obtain ⟨h₂, hlayout, hfs⟩ := ho.next h (ht t (List.mem_cons_self ..))
      (ProcessTable.get?_firstFree hfree') hprog' ha
    simp only [launchShells, hlaunch]
    refine ih hn.2 h₂ (by rwa [hlayout]) (update_eq_nil hn.1 ht [pid]) ?_
      (by rwa [program_congr hfs hlayout]) transfer
    intro u x hx
    by_cases hut : u = t
    · rw [hut, Function.update_self, List.mem_singleton] at hx
      rw [hut, Function.update_self, hx]
    · rw [Function.update_of_ne hut] at hx ⊢
      exact hs u x hx

/-- A boot succeeds exactly when it has what it needs. -/
theorem boot_ok_iff (hu : k.Unbooted) :
    (∃ first k', k.boot = (.ok first, k')) ↔ k.Bootable := by
  constructor
  · rintro ⟨first, k', hb⟩
    obtain ⟨hv, program, ht, -⟩ := boot_eq_ok hb
    obtain ⟨hf, hl⟩ := boot_fixed hu hb
    obtain ⟨σ, h⟩ := sound_boot hu hb
    obtain ⟨prog, hprog⟩ := h.shell
    refine ⟨hv, ?_, ⟨program, ht⟩, prog, ?_⟩
    · rw [← hl]
      exact h.fits
    · rwa [← program_congr hf hl]
  · rintro ⟨hv, hf, ⟨program, ht⟩, prog, hprog⟩
    obtain ⟨hfs, hl⟩ := k.startMachine_fixed program
    have h₀ := hu.startMachine program
    have hf₀ : (k.startMachine program).layout.Fits := by rwa [hl]
    have hnodup : TerminalId.all.reverse.Nodup := by decide
    obtain ⟨first, k₁, hs⟩ := launchShells_isOk hnodup h₀ hf₀ (fun _ _ => rfl) (by simp)
      (by rwa [program_congr hfs hl]) .idle
    obtain ⟨-, σ, h₁, -, -, hlast⟩ := launchShells_induct (P := fun _ => True)
      (fun _ _ _ _ _ _ _ => trivial) hnodup h₀ hf₀.toValid (fun _ _ => rfl) trivial hs
    obtain ⟨-, pid, -, hc, -⟩ := hlast (by decide)
    have hcheck : k₁.checkInvariants = (.ok (), k₁) := by
      rw [checkInvariants, h₁.findViolation_eq hc]
    refine ⟨first, k₁, ?_⟩
    simp only [boot, hv, ht, hs, hcheck]

end Kernel

namespace FileImage

theorem slice?_eq {image : Array UInt8} {pos n : Nat} (h : pos + n ≤ image.size) :
    slice? image pos n = some ((image.toList.drop pos).take n) := by
  rw [slice?, if_pos h, Array.toList_extract, List.extract_eq_take_drop, Nat.add_sub_cancel_left]

def block (b : Bytes) : Bytes := b ++ List.replicate (blockSize - b.length) 0

theorem length_block {b : Bytes} (h : b.length ≤ blockSize) : (block b).length = blockSize := by
  rw [block, List.length_append, List.length_replicate, Nat.add_sub_of_le h]

def ofBlocks (blocks : List Bytes) : Array UInt8 := (blocks.flatMap block).toArray

variable {blocks : List Bytes} (h : ∀ b ∈ blocks, b.length ≤ blockSize)

include h in
theorem size_ofBlocks : (ofBlocks blocks).size = blocks.length * blockSize := by
  rw [ofBlocks, List.size_toArray]
  induction blocks with
  | nil => rfl
  | cons b bs ih =>
    rw [List.forall_mem_cons] at h
    rw [List.flatMap_cons, List.length_append, length_block h.1, ih h.2, List.length_cons,
      Nat.succ_mul, Nat.add_comm]

include h in
theorem take_drop_blocks {i : Nat} {b : Bytes} (hb : blocks[i]? = some b) (pos : Nat)
    {n : Nat} (hn : pos + n ≤ b.length) :
    ((blocks.flatMap block).drop (i * blockSize + pos)).take n = (b.drop pos).take n := by
  induction blocks generalizing i with
  | nil => cases hb
  | cons c bs ih =>
    rw [List.forall_mem_cons] at h
    rw [List.flatMap_cons]
    cases i with
    | zero =>
      cases hb
      have hd : n ≤ (b.drop pos).length := by
        rw [List.length_drop]
        omega
      rw [Nat.zero_mul, Nat.zero_add, block, List.append_assoc,
        List.drop_append_of_le_length (by omega), List.take_append_of_le_length hd]
    | succ i =>
      have hpos : (i + 1) * blockSize + pos = (block c).length + (i * blockSize + pos) := by
        rw [length_block h.1, Nat.succ_mul]
        omega
      rw [hpos, List.drop_length_add_append]
      exact ih h.2 hb

include h in
theorem slice?_ofBlocks {i : Nat} {b : Bytes} (hb : blocks[i]? = some b) (pos : Nat)
    {n : Nat} (hn : pos + n ≤ b.length) :
    slice? (ofBlocks blocks) (i * blockSize + pos) n = some ((b.drop pos).take n) := by
  obtain ⟨hi, hbi⟩ := List.getElem?_eq_some_iff.mp hb
  have hle : b.length ≤ blockSize := h b (hbi ▸ List.getElem_mem hi)
  have hroom : i * blockSize + pos + n ≤ (ofBlocks blocks).size := calc
    i * blockSize + pos + n = i * blockSize + (pos + n) := Nat.add_assoc ..
    _ ≤ i * blockSize + blockSize := Nat.add_le_add_left (hn.trans hle) _
    _ = (i + 1) * blockSize := (Nat.succ_mul i blockSize).symm
    _ ≤ blocks.length * blockSize := Nat.mul_le_mul_right blockSize hi
    _ = (ofBlocks blocks).size := (size_ofBlocks h).symm
  rw [slice?_eq hroom]
  exact congrArg some (take_drop_blocks h hb pos hn)

include h in
theorem word_ofBlocks {i : Nat} {b : Bytes} (hb : blocks[i]? = some b) {pos : Nat}
    (hn : pos + 4 ≤ b.length) :
    word (ofBlocks blocks) (i * blockSize + pos) = .ok (Bytes.toWord (b.drop pos)) := by
  rw [word, slice?_ofBlocks h hb pos hn]
  simp only [Bytes.toWord, List.take_take, Nat.min_self]

end FileImage

namespace Sample

open FileImage Kernel

/-- The directory of a file system with a shell and nothing else. -/
def directoryBlock : Bytes :=
  let counts := Bytes.ofWord 1 ++ Bytes.ofWord 1 ++ Bytes.ofWord 1 ++ List.replicate 52 0
  let name := shell ++ List.replicate (maxFileName - shell.length) 0
  counts ++ name ++ Bytes.ofWord FileType.regular.code ++ Bytes.ofWord 0

def inodeBlock : Bytes := Bytes.ofWord 40 ++ Bytes.ofWord 0

def shellBlocks : List Bytes := [directoryBlock, inodeBlock, program shellEntry 40]

def shellFiles : FileImage := ⟨ofBlocks shellBlocks, 1, 1, 1⟩

theorem length_shellBlocks : ∀ b ∈ shellBlocks, b.length ≤ blockSize := by decide +kernel

theorem word_shellBlocks {i : Nat} {b : Bytes} (hb : shellBlocks[i]? = some b) (pos : Nat)
    {w : UInt32} (h : pos + 4 ≤ b.length ∧ Bytes.toWord (b.drop pos) = w) :
    word (ofBlocks shellBlocks) (i * blockSize + pos) = .ok w := by
  rw [word_ofBlocks length_shellBlocks hb h.1, h.2]

theorem open_shellFiles : FileImage.open? (ofBlocks shellBlocks) = .ok shellFiles := by
  have h₀ : word (ofBlocks shellBlocks) 0 = .ok 1 :=
    word_shellBlocks (i := 0) rfl 0 (by decide +kernel)
  have h₄ : word (ofBlocks shellBlocks) 4 = .ok 1 :=
    word_shellBlocks (i := 0) rfl 4 (by decide +kernel)
  have h₈ : word (ofBlocks shellBlocks) 8 = .ok 1 :=
    word_shellBlocks (i := 0) rfl 8 (by decide +kernel)
  have hsize : (ofBlocks shellBlocks).size = 3 * blockSize := size_ofBlocks length_shellBlocks
  rw [FileImage.open?, h₀, h₄, h₈]
  simp only [hsize]
  rfl

theorem dentry_shell : shellFiles.dentry 0 = .ok ⟨shell, .regular, 0⟩ := by
  have hname : slice? (ofBlocks shellBlocks) 64 maxFileName =
      some ((directoryBlock.drop 64).take maxFileName) :=
    slice?_ofBlocks length_shellBlocks (i := 0) rfl 64 (by decide +kernel)
  have htype : word (ofBlocks shellBlocks) 96 = .ok 2 :=
    word_shellBlocks (i := 0) rfl 96 (by decide +kernel)
  have hinode : word (ofBlocks shellBlocks) 100 = .ok 0 :=
    word_shellBlocks (i := 0) rfl 100 (by decide +kernel)
  have hfield : Dentry.ofField ((directoryBlock.drop 64).take maxFileName) .regular 0 =
      ⟨shell, .regular, 0⟩ := by decide +kernel
  rw [← hfield, FileImage.dentry]
  simp only [shellFiles, Nat.mul_zero, Nat.add_zero, hname, htype, hinode]
  rfl

theorem lookup_shell : FileSystem.lookup shellFiles shell = .ok ⟨shell, .regular, 0⟩ := by
  have hs : shellFiles.search shell 0 = .ok ⟨shell, .regular, 0⟩ := by
    have hlt : 0 < shellFiles.dentries := Nat.one_pos
    rw [FileImage.search, if_pos hlt, dentry_shell]
    exact if_pos rfl
  have hlen : ¬(shell = [] ∨ maxFileName < shell.length) := by decide +kernel
  change shellFiles.lookup shell = _
  rw [FileImage.lookup, if_neg hlen, hs]

theorem inodeBase_shell : shellFiles.inodeBase 0 = .ok blockSize := rfl

theorem length_shell : word shellFiles.image blockSize = .ok 40 :=
  word_shellBlocks (i := 1) rfl 0 (by decide +kernel)

theorem fileLength_shell : FileSystem.fileLength shellFiles 0 = .ok 40 := by
  change shellFiles.fileLength 0 = _
  rw [fileLength, inodeBase_shell]
  change UInt32.toNat <$> word shellFiles.image blockSize = _
  rw [length_shell]
  rfl

theorem readBlocks_shell :
    shellFiles.readBlocks blockSize 0 40 = (.ok (), program shellEntry 40) := by
  have hb : word shellFiles.image (blockSize + 4 + 4 * 0) = .ok 0 :=
    word_shellBlocks (i := 1) rfl 4 (by decide +kernel)
  have hslot : shellFiles.slotBase blockSize (0 / blockSize) = .ok (2 * blockSize) := by
    have hz : 0 / blockSize = 0 := rfl
    rw [hz, slotBase, if_neg (by decide), hb]
    rfl
  have hd : slice? shellFiles.image (2 * blockSize + 0) 40 = some (program shellEntry 40) := by
    refine (slice?_ofBlocks length_shellBlocks (i := 2) rfl 0 (by decide +kernel)).trans ?_
    decide +kernel
  have hmin : min (blockSize - 0 % blockSize) 40 = 40 := rfl
  have hpos : 2 * blockSize + 0 % blockSize = 2 * blockSize + 0 := rfl
  rw [readBlocks, if_neg (by decide)]
  simp only [hmin, hslot, hpos, hd, Nat.sub_self, Nat.zero_add]
  rw [readBlocks, if_pos rfl, List.append_nil]

theorem readData_shell {n : Nat} (h : 40 ≤ n) :
    FileSystem.readData shellFiles 0 0 (List.replicate n 0) =
      (.ok 40, Bytes.fill (List.replicate n 0) (program shellEntry 40)) := by
  have hmin : min n (40 - 0) = 40 := Nat.min_eq_right h
  have hl : (40 : UInt32).toNat = 40 := rfl
  have hne : ¬((40 : UInt32).toNat ≤ 0 ∨ List.replicate n (0 : UInt8) = []) := by
    rw [List.replicate_eq_nil_iff, hl]
    omega
  change shellFiles.readData 0 0 _ = _
  rw [readData, inodeBase_shell]
  simp only [length_shell]
  rw [if_neg hne]
  simp only [List.length_replicate, hl, hmin, readBlocks_shell]
  rfl

theorem shell_eq : shell = [115, 104, 101, 108, 108] := by decide +kernel

theorem findExecutable_shell :
    (kernel shellFiles).findExecutable shell = .ok (0, shellEntry) := by
  have he : Executable.entry (kernel shellFiles).layout
      ((Bytes.fill (List.replicate Executable.headerLength 0) (program shellEntry 40)).take 40) =
        .ok shellEntry := by
    rfl
  have hf : (kernel shellFiles).fs = shellFiles := rfl
  rw [findExecutable, hf, lookup_shell]
  simp only [readData_shell (Nat.le_refl 40), he]
  rfl

theorem image_shell : ((kernel shellFiles).image 0).2 = .ok () := by
  have hf : (kernel shellFiles).fs = shellFiles := rfl
  have hroom : ¬((kernel shellFiles).layout.programWindowEnd -
      (kernel shellFiles).layout.loadAddress.val).toNat < 40 := by decide
  rw [Kernel.image, hf, fileLength_shell]
  simp only [if_neg hroom]
  rw [readChunks, if_pos (by decide)]
  simp only [readData_shell (show 40 ≤ loaderChunk by decide)]
  rw [if_neg (by decide), readChunks, if_neg (by decide)]

theorem parse_shell : ∃ c, Command.parse shell = .ok c ∧ c.name.bytes = shell := by
  rw [shell_eq]
  exact ⟨_, rfl, rfl⟩

theorem program_shellFiles : ∃ prog, (kernel shellFiles).program shell = .ok prog := by
  obtain ⟨command, hc, hn⟩ := parse_shell
  exact ⟨_, program_of hc (hn ▸ findExecutable_shell) image_shell⟩

/-- A kernel over these files boots on any machine, if programs see themselves at the usual
place. -/
theorem boot_fresh {M D : Type} [Machine M] [Devices D] (machine : M) (devices : D)
    {layout : Layout} (hv : layout.validate = .ok ()) (hf : layout.Fits)
    (hw : layout.programWindow = Layout.programWindow {})
    (hl : layout.loadAddress = Layout.loadAddress {}) :
    ∃ first k, (Kernel.fresh machine devices shellFiles layout {}).boot = (.ok first, k) := by
  have hfs : (Kernel.fresh machine devices shellFiles layout {}).fs = (kernel shellFiles).fs := rfl
  obtain ⟨prog, hprog⟩ := program_shellFiles
  rw [← program_congr_window hfs hw hl] at hprog
  exact (boot_ok_iff (unbooted_fresh ..)).mpr ⟨hv, hf, ⟨_, rfl⟩, prog, hprog⟩

def kernelIn (layout : Layout) : Kernel MachineRecorder DeviceRecorder FileImage :=
  .fresh {} {} shellFiles layout {}

theorem boot_kernelIn {layout : Layout} (hv : layout.validate = .ok ()) (hf : layout.Fits)
    (hw : layout.programWindow = Layout.programWindow {})
    (hl : layout.loadAddress = Layout.loadAddress {}) :
    ∃ first k, (kernelIn layout).boot = (.ok first, k) :=
  boot_fresh _ _ hv hf hw hl

theorem boot_shellFiles : ∃ first k, (kernel shellFiles).boot = (.ok first, k) :=
  boot_fresh _ _ rfl ⟨Layout.valid_of_validate rfl, by decide⟩ rfl rfl

end Sample

end TerminalKernel
