import TerminalKernel.Proofs.Conflicts
import TerminalKernel.Proofs.RoundRobin
import TerminalKernel.Proofs.Tracking

namespace TerminalKernel.Kernel

variable {M D F : Type} [FileSystem F] {k k' : Kernel M D F} {σ : TerminalId → List ProcessId}

/-- No process is alive, no address space of a process has an owner or a page, every terminal is
empty, and the kernel's own space is active. -/
structure Vacant (k : Kernel M D F) : Prop where
  processes : ∀ x, k.processes.get? x = none
  current : k.current = none
  given : ∀ x, k.spaces.isGiven x = false
  maps : ∀ x, k.spaces.slotMap x = .empty
  terminals : ∀ t, k.terminals.get t = {}
  active : k.spaces.active = .kernel

theorem Consistent.vacant (h : k.Consistent fun _ => []) : k.Vacant := by
  have hnone (x : ProcessId) : k.processes.get? x = none := by
    cases hx : k.processes.get? x with
    | none => rfl
    | some p => cases h.stacked.complete x p hx
  have hcur : k.current = none := by
    cases hc : k.current with
    | none => rfl
    | some x =>
      obtain ⟨p, hp⟩ := h.current_live hc
      rw [hnone] at hp
      cases hp
  refine ⟨hnone, hcur, ?_, ?_, h.terminals, ?_⟩
  · intro x
    exact h.isGiven_free (hnone x)
  · intro x
    exact h.slotMap_free (hnone x)
  · rw [h.active, hcur]
    rfl

omit [FileSystem F] in
theorem Unbooted.vacant (hu : k.Unbooted) : k.Vacant := by
  refine ⟨?_, ?_, ?_, ?_, ?_, ?_⟩
  · intro x
    rw [hu.processes]
    exact ProcessTable.get?_empty ..
  · rw [current, hu.processes]
    rfl
  · intro x
    rw [hu.spaces, SpaceArena.isGiven, Vector.get_eq_getElem, Vector.getElem_replicate]
  · intro x
    rw [hu.spaces, SpaceArena.slotMap, Vector.get_eq_getElem, Vector.getElem_replicate]
  · intro t
    rw [hu.terminals, Vector.get_eq_getElem, Vector.getElem_replicate]
  · rw [hu.spaces]

/-- Every terminal has one process, which is a shell. That of the first terminal runs and is the one
that is entered. The others wait for their first turn. -/
structure Opened (k : Kernel M D F) (first : Transfer) : Prop where
  single : ∀ t, ∃! x, ∃ p, k.processes.get? x = some p ∧ p.terminal = t
  shells : ∀ x p, k.processes.get? x = some p → p.name.bytes = shell ∧ p.parent = none
  top : ∀ x p, k.processes.get? x = some p → k.terminals.get p.terminal = ⟨some x, 1⟩
  entered : ∃ x p e, k.current = some x ∧ k.processes.get? x = some p ∧ p.terminal = .first ∧
    p.state = .running ∧ p.entry = some e ∧ first = .enterUser x e
  waiting : ∀ x p, k.processes.get? x = some p → p.terminal ≠ .first →
    ∃ e, p.state = .ready e ∧ p.entry = some e

theorem Launched.entry_eq {pid : ProcessId} {p : ProcessRecord} (h : k.Launched pid p)
    {line : Bytes} {prog : Program} (hprog : k.program line = .ok prog)
    (hp : p.name = prog.command.name) : p.entry = some prog.entry := by
  obtain ⟨inode, eip, hfound, hentry⟩ := h.entry
  obtain ⟨eip', -, hfound', -, hentry'⟩ := program_eq_ok hprog
  rw [hp, hfound'] at hfound
  cases hfound
  rw [hentry, hentry']

variable [Machine M]

/-- If a launch of shells fails, it is the first one, and nothing but the machine has changed. -/
theorem sameCore_launchShells {ts : List TerminalId} (hn : ts.Nodup) (h : k.Consistent σ)
    (hv : k.layout.Valid) (ht : ∀ t ∈ ts, σ t = []) (hs : ∀ t, ∀ x ∈ σ t, σ t = [x])
    {last : Transfer} {e : KernelError} (hl : k.launchShells ts last = (.error e, k')) :
    k'.SameCore k := by
  cases ts with
  | nil => cases hl
  | cons t ts =>
    cases hlaunch : k.launch shell (.kernel t none) with
    | mk result k₁ =>
      cases result with
      | error e' =>
        simp only [launchShells, hlaunch] at hl
        cases hl
        exact h.sameCore_launch hv rfl hlaunch
      | ok transfer =>
        -- what the first launch found is there for all the others
        obtain ⟨_, prog, _, hf, -, hprog, -⟩ := launch_opens h hv hlaunch
        obtain ⟨first, k₂, hok⟩ := launchShells_isOk hn h hf ht hs hprog last
        rw [hok] at hl
        cases hl

theorem Unbooted.vacant_boot (hu : k.Unbooted) {e : KernelError} (hb : k.boot = (.error e, k')) :
    k'.Vacant := by
  unfold boot at hb
  split at hb
  case h_1 | h_2 =>
    cases hb
    exact hu.vacant
  case h_3 program hv ht =>
    have hnodup : TerminalId.all.reverse.Nodup := by decide
    have h₀ := hu.startMachine program
    have hv₀ : (k.startMachine program).layout.Valid := by
      rw [(k.startMachine_fixed program).2]
      exact Layout.valid_of_validate hv
    split at hb
    case h_1 e' k₁ hl =>
      cases hb
      have hsame := sameCore_launchShells hnodup h₀ hv₀ (fun _ _ => rfl) (by simp) hl
      exact (h₀.of_sameCore hsame).vacant
    case h_2 first k₁ hl =>
      -- the check at the end finds nothing
      obtain ⟨-, σ, h₁, -, -, hlast⟩ := launchShells_induct (P := fun _ => True)
        (fun _ _ _ _ _ _ _ => trivial) hnodup h₀ hv₀ (fun _ _ => rfl) trivial hl
      obtain ⟨-, pid, -, hc, -⟩ := hlast (by decide)
      have hcheck : k₁.checkInvariants = (.ok (), k₁) := by
        rw [checkInvariants, h₁.findViolation_eq hc]
      rw [hcheck] at hb
      cases hb

theorem Unbooted.name_boot (hu : k.Unbooted) {first : Transfer} (hb : k.boot = (.ok first, k'))
    {prog : Program} (hprog : k'.program shell = .ok prog) {x : ProcessId} {p : ProcessRecord}
    (hp : k'.processes.get? x = some p) : p.name = prog.command.name ∧ p.name.bytes = shell := by
  obtain ⟨_, hparse, -⟩ := program_eq_ok hprog
  obtain ⟨-, command, hcommand, hn⟩ := isFreshShell_boot hu hb x p hp
  obtain ⟨command', hcommand', hbytes⟩ := Sample.parse_shell
  rw [hparse] at hcommand hcommand'
  cases hcommand
  cases hcommand'
  exact ⟨hn, by rw [hn, hbytes]⟩

section

variable (hu : k.Unbooted) {first : Transfer} (hb : k.boot = (.ok first, k')) (h : k'.Sound σ)
  {x : ProcessId} {p : ProcessRecord} (hp : k'.processes.get? x = some p)

include hu hb h

theorem Unbooted.stack_boot (t : TerminalId) : ∃ x, σ t = [x] := by
  have hlen := live_boot hu hb t
  rw [h.terminals] at hlen
  exact List.length_eq_one_iff.mp
    (Nat.le_antisymm hlen (List.length_pos_iff.mpr (h.inhabited t)))

include hp

theorem Unbooted.stack_boot_of_get? : σ p.terminal = [x] := by
  obtain ⟨y, hy⟩ := hu.stack_boot hb h p.terminal
  have hx := h.stacked.complete x p hp
  rw [hy, List.mem_singleton] at hx
  rw [hy, hx]

theorem Unbooted.current_boot_iff : k'.current = some x ↔ p.terminal = .first := by
  rw [← turnOf_boot hu hb]
  constructor
  · intro hx
    exact (h.turnOf_eq hx (h.stacked.complete x p hp)).symm
  · intro ht
    obtain ⟨pid, hc⟩ := h.runs
    have hmem := h.mem_turnOf hc
    rw [← ht, hu.stack_boot_of_get? hb h hp, List.mem_singleton] at hmem
    rw [hc, hmem]

end

theorem Unbooted.opened_boot (hu : k.Unbooted) {first : Transfer}
    (hb : k.boot = (.ok first, k')) : k'.Opened first := by
  obtain ⟨σ, pid, prog, h, hc, hprog, rfl⟩ := boot_enters hu hb
  refine ⟨?_, ?_, ?_, ?_, ?_⟩
  · intro t
    obtain ⟨x, hx⟩ := hu.stack_boot hb h t
    refine ⟨x, h.stacked.mem_iff.mp (by rw [hx]; exact List.mem_singleton_self x), ?_⟩
    intro y hy
    have hmem := h.stacked.mem_iff.mpr hy
    rwa [hx, List.mem_singleton] at hmem
  · intro x p hp
    refine ⟨(hu.name_boot hb hprog hp).2, (h.stacked.stack p.terminal).root x ?_ p hp⟩
    rw [hu.stack_boot_of_get? hb h hp]
    rfl
  · intro x p hp
    rw [h.terminals, hu.stack_boot_of_get? hb h hp]
    rfl
  · obtain ⟨p, hp⟩ := h.current_live hc
    exact ⟨pid, p, prog.entry, hc, hp, (hu.current_boot_iff hb h hp).mp hc,
      h.current_running hc hp, (h.launched pid p hp).entry_eq hprog (hu.name_boot hb hprog hp).1,
      rfl⟩
  · intro x p hp ht
    obtain ⟨hrun | ⟨e, he⟩, -⟩ := isFreshShell_boot hu hb x p hp
    · exact absurd ((hu.current_boot_iff hb h hp).mp (h.stacked.eq_current hp hrun)) ht
    · exact ⟨e, he, (h.launched x p hp).ready e he⟩

/-- A boot is all or nothing, whatever the machine, the devices, the files and the configuration:
it returns the first shell to be entered, with one shell on every terminal, or an error, with
nothing in use. -/
theorem boot_allOrNothing (machine : M) (devices : D) (fs : F) (layout : Layout)
    (timer : TimerConfig) :
    match (fresh machine devices fs layout timer).boot with
    | (.ok first, k) => k.Opened first
    | (.error _, k) => k.Vacant := by
  have hu := unbooted_fresh machine devices fs layout timer
  cases hb : (fresh machine devices fs layout timer).boot with
  | mk result k =>
    cases result with
    | ok first => exact hu.opened_boot hb
    | error e => exact hu.vacant_boot hb

end TerminalKernel.Kernel
