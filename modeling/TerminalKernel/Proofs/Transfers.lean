import TerminalKernel.Proofs.Tracking

namespace TerminalKernel

variable {M D F : Type} [Machine M] [Devices D] [FileSystem F] {s : Step M D F}
  {past : History M D F} {first : Transfer} {k' : Kernel M D F}
  {σ σ' : TerminalId → List ProcessId} {request : Request} {transfer : Transfer}

open History

def IsEntryOf (fs : F) (l : Layout) (line : Bytes) (e : UserEntry) : Prop :=
  ∃ command d n header eip, Command.parse line = .ok command ∧
    FileSystem.lookup fs command.name.bytes = .ok d ∧
    FileSystem.readData fs d.inode 0 (List.replicate Executable.headerLength 0) =
      (.ok n, header) ∧
    Executable.entry l (header.take n) = .ok eip ∧ e = .start eip l.userStackTop

omit [Machine M] [Devices D] in
theorem isEntryOf_of_findExecutable {k : Kernel M D F} {line : Bytes} {command : Command}
    {inode : Nat} {eip : UInt32} (hc : Command.parse line = .ok command)
    (hf : k.findExecutable command.name.bytes = .ok (inode, eip)) :
    IsEntryOf k.fs k.layout line (.start eip k.layout.userStackTop) := by
  unfold Kernel.findExecutable at hf
  split at hf
  · cases hf
  · rename_i d hd
    split at hf
    · cases hf
    · split at hf
      · cases hf
      · rename_i n header hr
        cases he : Executable.entry k.layout (header.take n) with
        | error e =>
          rw [he] at hf
          cases hf
        | ok eip' =>
          rw [he] at hf
          cases hf
          exact ⟨command, d, n, header, eip, hc, hd, hr, he, rfl⟩

omit [Machine M] [Devices D] in
theorem isEntryOf_of_program {k : Kernel M D F} {line : Bytes} {prog : Program}
    (h : k.program line = .ok prog) : IsEntryOf k.fs k.layout line prog.entry := by
  obtain ⟨eip, hc, hf, -, he⟩ := Kernel.program_eq_ok h
  rw [he]
  exact isEntryOf_of_findExecutable hc hf

/-- What a step that names a process may do, after a history. -/
inductive Proper (first : Transfer) (fs : F) (l : Layout) (past : History M D F) (s : Step M D F)
    (x : ProcessId) : Prop
  | enter {e : UserEntry} (hnew : s.Launches x ∨ ¬Named first x past)
      (he : IsEntryOf fs l (line x (s :: past)) e) (ht : s.transfer = .enterUser x e)
  | turn {u : Step M D F} {older : History M D F} {i j : SavedContext} (hold : ¬s.Launches x)
      (hn : Named first x past) (hu : suspension x past = u :: older)
      (hi : u.op.request = .turn i) (hj : s.op.request = .turn j)
      (ht : s.transfer =
        .resume x ⟨i.esp, i.ebp, ⟨Selector.kernelData, l.kernelStackTop x⟩⟩ none)
  | finish {u : Step M D F} {older : History M D F} {program : Bytes} {i : SavedContext}
      {child : ProcessId} {cause : HaltCause} {status : Int} (hold : ¬s.Launches x)
      (hn : Named first x past) (hu : suspension x past = u :: older)
      (hi : u.op.request = .execute program i) (hc : launch child past = u :: older)
      (he : s.Ends child) (hcause : s.op.request = .finish cause)
      (hstatus : status =
        match cause with
        | .exit code => code.toNat
        | .exception _ => 256)
      (ht : s.transfer =
        .resume x ⟨i.esp, i.ebp, ⟨Selector.kernelData, l.kernelStackTop x⟩⟩ (some status))

theorem SavedContext.Continues.eq_mk {c i : SavedContext} {stack : KernelStack}
    (h : c.Continues i) (hs : c.stack = stack) : c = ⟨i.esp, i.ebp, stack⟩ := by
  cases c
  obtain ⟨he, hb⟩ := h
  cases he
  cases hb
  cases hs
  rfl

section

variable {x : ProcessId} {q : ProcessRecord} {context : SavedContext}

theorem Proper.of_launches {program : Bytes} {prog : Program} (hnew : s.Launches x)
    (hline : line x (s :: past) = program) (hprog : s.before.program program = .ok prog)
    (ht : s.transfer = .enterUser x prog.entry) :
    Proper first s.before.fs s.before.layout past s x := by
  refine .enter (Or.inl hnew) ?_ ht
  rw [hline]
  exact isEntryOf_of_program hprog

theorem Proper.of_ready {e : UserEntry} (h : Tracks first x past q)
    (hlaunched : s.before.Launched x q) (hl : ¬s.Launches x) (hs : q.state = .ready e)
    (ht : s.transfer = .enterUser x e) : Proper first s.before.fs s.before.layout past s x := by
  have hn := h.state
  rw [hs] at hn
  obtain ⟨command, hparse, hname⟩ := h.program
  obtain ⟨inode, eip, hfind, hentry⟩ := hlaunched.entry
  have he := hlaunched.ready e hs
  rw [hentry, Option.some.injEq] at he
  rw [hname] at hfind
  refine .enter (Or.inr hn) ?_ ht
  rw [line_cons hl, ← he]
  exact isEntryOf_of_findExecutable hparse hfind

variable [LawfulMachine M]

theorem Proper.of_preempted {interrupted : SavedContext} (h : Tracks first x past q)
    (hr : s.before.Registered) (hq : s.before.processes.get? x = some q) (hl : ¬s.Launches x)
    (hs : q.state = .preempted context) (hturn : s.op.request = .turn interrupted)
    (ht : s.transfer = .resume x context none) :
    Proper first s.before.fs s.before.layout past s x := by
  have hstate := h.state
  rw [hs] at hstate
  obtain ⟨hn, u, older, i, hu, hi, hcontext⟩ := hstate
  have hstack := hr.saved x q context hq (by rw [hs]; rfl)
  refine .turn hl hn hu hi hturn ?_
  rw [ht, hcontext.eq_mk hstack]
  rfl

theorem Proper.of_awaitingChild {child : ProcessId} {cause : HaltCause}
    (h : Tracks first x past q) (hr : s.before.Registered)
    (hq : s.before.processes.get? x = some q) (hl : ¬s.Launches x)
    (hs : q.state = .awaitingChild child context) (hends : s.Ends child)
    (hcause : s.op.request = .finish cause)
    (ht : s.transfer = .resume x context (some cause.status)) :
    Proper first s.before.fs s.before.layout past s x := by
  have hstate := h.state
  rw [hs] at hstate
  obtain ⟨hn, u, older, program, i, hu, hi, hcontext, hchild⟩ := hstate
  have hstack := hr.saved x q context hq (by rw [hs]; rfl)
  refine .finish hl hn hu hi hchild hends hcause (?_ : cause.status = _) ?_
  · cases cause <;> rfl
  · rw [ht, hcontext.eq_mk hstack]
    rfl

end

namespace Kernel

variable [LawfulMachine M] {k : Kernel M D F}

theorem Effect.proper (hb : s.before.Sound σ) (hr : s.before.Registered)
    (h : Tracked first past s.before) (he : s.before.Effect σ request transfer k' σ')
    (hd : s.Did request transfer k') {x : ProcessId} (hx : transfer.target? = some x) :
    Proper first s.before.fs s.before.layout past s x := by
  have hlaunches := he.launches hb hd hx
  cases he with
  | refused | kept | shown | served => cases hx
  | @launched line caller cur pid p prog hc hp hfree hprog =>
    obtain rfl : pid = x := Option.some.inj hx
    have hnew := hlaunches (Or.inl (ProcessTable.get?_firstFree hfree))
    refine .of_launches hnew ?_ hprog hd.transfer
    rw [line_cons_of_launches hnew, hd.request]
  | @returned cause pid parent p q context l hc hp hq hs hσ =>
    obtain rfl : parent = x := Option.some.inj hx
    have hne := hb.stacked.ne_below hσ
    have hnl : ¬s.Launches parent := Step.not_launches hq fun he => hne (he.eq_current hc)
    have hends : s.Ends pid := ⟨hc, by rw [hd.request]; rfl⟩
    exact .of_awaitingChild (h parent q hq) hr hq hnl hs hends hd.request hd.transfer
  | @relaunched cause pid new p prog hc hp hσ hfree hprog =>
    obtain rfl : new = x := Option.some.inj hx
    have hnew := hlaunches (hd.free_or_ends hc hfree)
    refine .of_launches hnew ?_ hprog hd.transfer
    rw [line_cons_of_launches hnew, hd.request]
  | @turned interrupted cur target p q stack transfer hc hp hq ht htop hne hres =>
    have hnl : ¬s.Launches target := Step.not_launches hq (hd.not_ends rfl)
    unfold ProcessRecord.resumption at hres
    cases hs : q.state with
    | preempted c =>
      rw [hs] at hres
      cases hres
      cases hx
      exact .of_preempted (h x q hq) hr hq hnl hs hd.request hd.transfer
    | ready e =>
      rw [hs] at hres
      cases hres
      cases hx
      exact .of_ready (h x q hq) (hb.launched x q hq) hnl hs hd.transfer
    | launching | running | awaitingChild =>
      rw [hs] at hres
      cases hres

omit [LawfulMachine M] [Devices D] in
theorem isEntryOf_boot (hu : k.Unbooted) (hb : k.boot = (.ok first, k')) :
    ∃ x e, first = .enterUser x e ∧ IsEntryOf k.fs k.layout shell e := by
  obtain ⟨_, pid, prog, -, -, hprog, rfl⟩ := boot_enters hu hb
  obtain ⟨hf, hl⟩ := boot_fixed hu hb
  refine ⟨pid, prog.entry, rfl, ?_⟩
  rw [← hf, ← hl]
  exact isEntryOf_of_program hprog

/-- In every run the boot enters a shell, and every step that names a process does what it may. -/
theorem proper_run {machine : M} {devices : D} {fs : F} {layout : Layout} {timer : TimerConfig}
    (hb : (fresh machine devices fs layout timer).boot = (.ok first, k)) :
    (∃ x e, first = .enterUser x e ∧ IsEntryOf fs layout shell e) ∧
      ∀ ops op x, (Step.mk (k.run ops).2 op).transfer.target? = some x →
        Proper first fs layout (history ops k []) ⟨(k.run ops).2, op⟩ x := by
  have hu := unbooted_fresh machine devices fs layout timer
  obtain ⟨σ₀, h₀⟩ := sound_boot hu hb
  have ht₀ := tracked_boot hu hb
  refine ⟨isEntryOf_boot hu hb, ?_⟩
  intro ops op x hx
  obtain ⟨σ, h⟩ := h₀.run ops
  have hr := (registered_boot hu hb).run h₀ ops
  have ht := h₀.tracked_run ht₀ ops
  have hf : (k.run ops).2.fs = fs := (h₀.run_fixed ops).1.trans (boot_fixed hu hb).1
  have hl : (k.run ops).2.layout = layout := (h₀.run_fixed ops).2.trans (boot_fixed hu hb).2
  obtain ⟨transfer, k', σ', he, hd, -⟩ := h.did op
  rw [hd.transfer] at hx
  have hp := he.proper (s := ⟨(k.run ops).2, op⟩) h hr ht hd hx
  simp only [hf, hl] at hp
  exact hp

theorem proper_run_shellFiles :
    ∃ first k, (Sample.kernel Sample.shellFiles).boot = (.ok first, k) ∧
      (∃ x e, first = .enterUser x e ∧ IsEntryOf Sample.shellFiles {} shell e) ∧
      ∀ ops op x, (Step.mk (k.run ops).2 op).transfer.target? = some x →
        Proper first Sample.shellFiles {} (history ops k []) ⟨(k.run ops).2, op⟩ x := by
  obtain ⟨first, k, hb⟩ := Sample.boot_shellFiles
  exact ⟨first, k, hb, proper_run hb⟩

end Kernel

end TerminalKernel
