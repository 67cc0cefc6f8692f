import TerminalKernel.Proofs.Survivors

namespace TerminalKernel

namespace FileTable

variable {t : FileTable} {fd : Nat} {file : Option OpenFile}

def kind? (t : FileTable) (fd : Nat) : Option FileKind := (t.get? fd).map OpenFile.kind

/-- Descriptor 0 is standard input, descriptor 1 is standard output, and there are no others. -/
structure Standard (t : FileTable) : Prop where
  stdin_iff : ∀ fd, t.kind? fd = some .stdin ↔ fd = 0
  stdout_iff : ∀ fd, t.kind? fd = some .stdout ↔ fd = 1

theorem standard_standard : standard.Standard := by
  have hout {fd : Nat} (h : 2 ≤ fd) : standard.kind? fd = none := by
    rw [kind?, get?_standard h]
    rfl
  have hcases (fd : Nat) : fd = 0 ∨ fd = 1 ∨ 2 ≤ fd := by omega
  refine ⟨?_, ?_⟩ <;>
  · intro fd
    obtain rfl | rfl | h := hcases fd
    · decide
    · decide
    · rw [hout h]
      simp only [reduceCtorEq, false_iff]
      omega

theorem Standard.exists_stdin (h : t.Standard) :
    ∃ f, t.get? 0 = some f ∧ f.kind = .stdin :=
  Option.map_eq_some_iff.mp ((h.stdin_iff 0).mpr rfl)

theorem Standard.exists_stdout (h : t.Standard) :
    ∃ f, t.get? 1 = some f ∧ f.kind = .stdout :=
  Option.map_eq_some_iff.mp ((h.stdout_iff 1).mpr rfl)

theorem Standard.kind_ne_stdin (h : t.Standard) {f : OpenFile}
    (hfile : t.get? fd = some f) (hfd : fd ≠ 0) : f.kind ≠ .stdin := by
  intro hk
  refine hfd ((h.stdin_iff fd).mp ?_)
  rw [kind?, hfile, Option.map_some, hk]

theorem Standard.kind_ne_stdout (h : t.Standard) {f : OpenFile}
    (hfile : t.get? fd = some f) (hfd : fd ≠ 1) : f.kind ≠ .stdout := by
  intro hk
  refine hfd ((h.stdout_iff fd).mp ?_)
  rw [kind?, hfile, Option.map_some, hk]

theorem kind?_put (t : FileTable) (fd i : Nat) (file : Option OpenFile) :
    (t.put fd file).kind? i =
      if i = fd ∧ fd < maxOpenFiles then file.map OpenFile.kind else t.kind? i := by
  rw [kind?, get?_put]
  split <;> rfl

theorem Standard.of_kind? {t' : FileTable} (h : t.Standard) (hk : ∀ i, t'.kind? i = t.kind? i) :
    t'.Standard :=
  ⟨fun i => by rw [hk, h.stdin_iff], fun i => by rw [hk, h.stdout_iff]⟩

theorem Standard.put_same (h : t.Standard) (hk : file.map OpenFile.kind = t.kind? fd) :
    (t.put fd file).Standard := by
  refine h.of_kind? ?_
  intro i
  rw [kind?_put]
  split
  · rename_i hi
    rw [hi.1, hk]
  · rfl

/-- Behind another descriptor a file that is no standard stream may come and go. -/
theorem Standard.put_user (h : t.Standard) (hfd : firstUserDescriptor ≤ fd)
    (hin : file.map OpenFile.kind ≠ some .stdin) (hout : file.map OpenFile.kind ≠ some .stdout) :
    (t.put fd file).Standard := by
  have hfd' : 2 ≤ fd := hfd
  refine ⟨?_, ?_⟩
  · intro i
    rw [kind?_put]
    split
    · exact iff_of_false hin (by omega)
    · exact h.stdin_iff i
  · intro i
    rw [kind?_put]
    split
    · exact iff_of_false hout (by omega)
    · exact h.stdout_iff i

theorem findFree_ge (h : t.findFree = some fd) : firstUserDescriptor ≤ fd := by
  have hmem := List.mem_of_find?_eq_some h
  rw [userDescriptors, List.mem_range'_1] at hmem
  exact hmem.1

end FileTable

namespace Records

variable {g : Records} {P : ProcessRecord → Prop} {x : ProcessId} {r : Option ProcessRecord}

def All (P : ProcessRecord → Prop) (g : Records) : Prop := ∀ x p, g x = some p → P p

theorem All.update (h : Records.All P g) (hr : ∀ p ∈ r, P p) :
    Records.All P (Function.update g x r) := by
  intro y p hp
  obtain ⟨-, rfl⟩ | ⟨-, hy⟩ := Records.update_eq_some_iff.mp hp
  · exact hr p rfl
  · exact h y p hy

end Records

namespace Kernel

variable {M D F : Type} [Machine M] [Devices D] [FileSystem F] {k k' : Kernel M D F}
  {σ σ' : TerminalId → List ProcessId} {request : Request} {transfer : Transfer}

/-- What holds of a process whatever its run state, and of every new one, outlasts all effects but
those of services. -/
theorem Effect.all {P : ProcessRecord → Prop}
    (restated : ∀ {p : ProcessRecord} (state : RunState), P p → P { p with state })
    (new : ∀ {k : Kernel M D F} {pid : ProcessId} {t : TerminalId} {prog : Program}
      {parent : Option ProcessId}, P (k.newRecord pid t prog parent))
    (hb : k.Sound σ) (he : k.Effect σ request transfer k' σ') (hr : request ≠ .service)
    (h : Records.All P k.processes.get?) : Records.All P k'.processes.get? := by
  have hstate {g : Records} {x : ProcessId} {p : ProcessRecord} (hg : Records.All P g)
      (hp : k.processes.get? x = some p) (state : RunState) :
      Records.All P (Function.update g x (some { p with state })) := by
    refine hg.update ?_
    intro q hq
    rw [Option.mem_some_iff] at hq
    rw [← hq]
    exact restated state (h x p hp)
  have hnew {g : Records} {k₀ : Kernel M D F} (hg : Records.All P g) (x : ProcessId)
      (t : TerminalId) (prog : Program) (parent : Option ProcessId) :
      Records.All P (Function.update g x (some (k₀.newRecord x t prog parent))) := by
    refine hg.update ?_
    intro q hq
    rw [Option.mem_some_iff] at hq
    rw [← hq]
    exact new
  cases he with
  | refused | kept | shown =>
    rw [processes_leave]
    exact h
  | launched hc hp hfree hprog =>
    rw [get?_afterLaunch hb.toConsistent hp (ProcessTable.get?_firstFree hfree)]
    exact hnew (hstate h hp _) _ _ _ _
  | returned hc hp hq hs hσ =>
    rw [get?_afterReturn hb.toConsistent hq hσ]
    exact hstate (h.update (r := none) nofun) hq _
  | relaunched hc hp hσ hfree hprog =>
    rw [get?_afterRelaunch hb.toConsistent]
    exact hnew (h.update (r := none) nofun) _ _ _ _
  | turned hc hp hq ht htop hne hres =>
    rw [get?_afterTurn hp hq hne]
    exact hstate (hstate h hp _) hq _
  | served => exact absurd rfl hr

def Streamed (k : Kernel M D F) : Prop :=
  Records.All (fun p => p.files.Standard) k.processes.get?

omit [Devices D] in
theorem streamed_boot (hu : k.Unbooted) {first : Transfer} (hb : k.boot = (.ok first, k')) :
    k'.Streamed :=
  records_boot (P := fun p => p.files.Standard) (fun _ => FileTable.standard_standard)
    (fun _ hp => hp) hu hb

theorem Streamed.effect (hs : k.Streamed) (h : k.Sound σ)
    (he : k.Effect σ request transfer k' σ') (hr : request ≠ .service) : k'.Streamed :=
  he.all (P := fun p => p.files.Standard) (fun _ hp => hp) FileTable.standard_standard h hr hs

end Kernel

end TerminalKernel
