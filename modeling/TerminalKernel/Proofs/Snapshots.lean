import TerminalKernel.Proofs.Registers

namespace TerminalKernel

namespace SpaceArena

variable {a : SpaceArena} {space other : SpaceId}

def spaceIds : List SpaceId := .kernel :: (List.range processCapacity).map .process

theorem process_mem_spaceIds (pid : ProcessId) : .process pid ∈ spaceIds :=
  List.mem_cons_of_mem _ (List.mem_map_of_mem (List.mem_range.mpr pid.isLt))

abbrev arenaPages : Nat := 2 + 2 * processCapacity

theorem directoryPage_lt (h : space ∈ spaceIds) : directoryPage space < arenaPages := by
  obtain rfl | h := List.mem_cons.mp h
  · exact Nat.succ_pos _
  · obtain ⟨slot, hs, rfl⟩ := List.mem_map.mp h
    have hslot := List.mem_range.mp hs
    change 2 + slot < 2 + 2 * processCapacity
    omega

theorem directoryPage_inj (h : directoryPage space = directoryPage other) : space = other := by
  cases space with
  | kernel =>
    cases other with
    | kernel => rfl
    | process slot => exact absurd h (by simp only [directoryPage]; omega)
  | process slot =>
    cases other with
    | kernel => exact absurd h (by simp only [directoryPage]; omega)
    | process slot' => rw [Nat.add_left_cancel h]

theorem pageAddress_inj {page page' : Nat} (hp : page < arenaPages) (hp' : page' < arenaPages)
    (h : a.pageAddress page = a.pageAddress page') : page = page' := by
  have hn := congrArg (fun p => p.val.toNat) h
  simp only [pageAddress, PhysAddr.offset, UInt32.toNat_add, UInt32.toNat_mul,
    UInt32.toNat_ofNat'] at hn
  change (_ + 4096 * (page % 4294967296) % 4294967296) % 4294967296 =
    (_ + 4096 * (page' % 4294967296) % 4294967296) % 4294967296 at hn
  have hcap : arenaPages = 14 := rfl
  omega

theorem directoryAddress_inj (hs : space ∈ spaceIds) (ho : other ∈ spaceIds)
    (h : a.directoryAddress space = a.directoryAddress other) : space = other :=
  directoryPage_inj (pageAddress_inj (directoryPage_lt hs) (directoryPage_lt ho) h)

theorem spaceAt_directoryAddress (h : space ∈ spaceIds) :
    a.spaceAt (a.directoryAddress space) = some space := by
  have hsome : (a.spaceAt (a.directoryAddress space)).isSome := by
    rw [spaceAt, List.find?_isSome]
    exact ⟨space, h, decide_eq_true rfl⟩
  obtain ⟨found, hf⟩ := Option.isSome_iff_exists.mp hsome
  rw [spaceAt] at hf
  have hmem : found ∈ spaceIds := List.mem_of_find?_eq_some hf
  have hat := List.find?_some hf
  rw [decide_eq_true_eq] at hat
  rw [spaceAt, hf, directoryAddress_inj hmem h hat]

end SpaceArena

namespace Kernel

variable {M D F : Type} [Machine M] [LawfulMachine M] [Devices D] [FileSystem F]
  {k : Kernel M D F} {σ : TerminalId → List ProcessId}

/-- The directory at `root` was loaded last, when the space behind it had the entries `snapshot`.
That space is the active one, and its entries are still the same. -/
structure UpToDate (k : Kernel M D F) (root : PhysAddr) (snapshot : PageMap) : Prop where
  loaded : k.loaded = some (root, snapshot)
  directory : LawfulMachine.directory k.machine = some root
  active : k.spaces.spaceAt root = some k.spaces.active
  entries : k.spaces.lookup k.spaces.active = .ok snapshot

omit [Devices D] in
theorem Sound.upToDate (h : k.Sound σ) (hr : k.Registered) :
    ∃ root snapshot, k.UpToDate root snapshot := by
  obtain ⟨m, hm, hl⟩ := h.loaded
  obtain ⟨pid, hc⟩ := h.runs
  have hmem : k.spaces.active ∈ SpaceArena.spaceIds := by
    rw [h.active, hc]
    exact SpaceArena.process_mem_spaceIds pid
  exact ⟨_, m, hl, hr.directory, SpaceArena.spaceAt_directoryAddress hmem, hm⟩

/-- After every operation the entries of the active space are those that were loaded last. -/
theorem upToDate_run {machine : M} {devices : D} {fs : F} {layout : Layout} {timer : TimerConfig}
    {first : Transfer} (hb : (fresh machine devices fs layout timer).boot = (.ok first, k))
    (ops : List Operation) : ∃ root snapshot, (k.run ops).2.UpToDate root snapshot := by
  obtain ⟨σ, h, hr⟩ := registered_run hb ops
  exact h.upToDate hr

theorem upToDate_run_shellFiles :
    ∃ first k, (Sample.kernel Sample.shellFiles).boot = (.ok first, k) ∧
      ∀ ops, ∃ root snapshot, (k.run ops).2.UpToDate root snapshot := by
  obtain ⟨first, k, hb⟩ := Sample.boot_shellFiles
  exact ⟨first, k, hb, upToDate_run hb⟩

end Kernel

end TerminalKernel
