import TerminalKernel.Proofs.Interrupts
import TerminalKernel.Proofs.MachineMaps
import TerminalKernel.Proofs.Streaming

namespace TerminalKernel

inductive Stimulus (D : Type) where
  | boot
  | operation (op : Operation)
  | check
  | devices (change : D → D)

inductive Response where
  | booted (result : Except KernelError Transfer)
  | replied (reply : Reply)
  | checked (result : Except Violation Unit)
  | silent

namespace Machine

variable {M N : Type} [Machine M] [Machine N]

def performAll (calls : List MachineCall) (m : M) : M :=
  calls.foldl (fun m call => Machine.perform call m) m

theorem performAll_append (calls : List MachineCall) (call : MachineCall) (m : M) :
    performAll (calls ++ [call]) m = Machine.perform call (performAll calls m) :=
  List.foldl_append ..

/-- A kernel sees no difference between two machines. -/
structure LooksLike (m : M) (n : N) : Prop where
  interruptsEnabled : Machine.interruptsEnabled n = Machine.interruptsEnabled m
  kernelStack : Machine.kernelStack n = Machine.kernelStack m

theorem LooksLike.refl (m : M) : LooksLike m m := ⟨rfl, rfl⟩

variable [LawfulMachine M] [LawfulInterrupts M] [LawfulMachine N] [LawfulInterrupts N] {m : M}
  {n : N}

theorem LooksLike.perform (h : LooksLike m n) (call : MachineCall) :
    LooksLike (Machine.perform call m) (Machine.perform call n) where
  interruptsEnabled := by
    rw [LawfulInterrupts.interruptsEnabled_perform, LawfulInterrupts.interruptsEnabled_perform,
      h.interruptsEnabled]
  kernelStack := by
    rw [LawfulMachine.kernelStack_perform, LawfulMachine.kernelStack_perform, h.kernelStack]

theorem LooksLike.performAll (h : LooksLike m n) (calls : List MachineCall) :
    LooksLike (Machine.performAll calls m) (Machine.performAll calls n) := by
  induction calls generalizing m n with
  | nil => exact h
  | cons call calls ih => exact ih (h.perform call)

end Machine

open Machine (performAll LooksLike)

/-- A machine of which nothing is kept but the calls of a kernel since it was `start`. Every machine
that a kernel cannot tell from `start` is a replay of it. -/
structure Script {M : Type} (start : M) where
  calls : List MachineCall
  fromKernel : ∀ call ∈ calls, call.FromKernel

namespace Script

variable {M N : Type} [Machine M] [Machine N] {start : M}

def empty (start : M) : Script start := ⟨[], nofun⟩

instance : Machine (Script start) where
  interruptsEnabled s := Machine.interruptsEnabled (performAll s.calls start)
  kernelStack s := Machine.kernelStack (performAll s.calls start)
  perform call s :=
    if h : call.FromKernel then
      ⟨s.calls ++ [call], fun c hc => by
        obtain hc | hc := List.mem_append.mp hc
        · exact s.fromKernel c hc
        · exact List.mem_singleton.mp hc ▸ h⟩
    else s

variable [LawfulMachine M] [LawfulInterrupts M] [LawfulMachine N] [LawfulInterrupts N]

def replay {n : N} (h : LooksLike start n) : MachineMap (Script start) N where
  toFun s := performAll s.calls n
  interruptsEnabled s := (h.performAll s.calls).interruptsEnabled
  kernelStack s := (h.performAll s.calls).kernelStack
  perform call hc s := by
    simp only [Machine.perform, dif_pos hc]
    exact Machine.performAll_append s.calls call n

end Script

namespace Kernel

variable {M N D F : Type} [Machine M] [Machine N] [Devices D] [FileSystem F]

def respond (stimulus : Stimulus D) (k : Kernel M D F) : Response × Kernel M D F :=
  match stimulus with
  | .boot => k.boot.map Response.booted id
  | .operation op => (k.operate op).map Response.replied id
  | .check => k.checkInvariants.map Response.checked id
  | .devices change => (.silent, { k with devices := change k.devices })

def respondAll : List (Stimulus D) → Kernel M D F → List Response × Kernel M D F
  | [], k => ([], k)
  | stimulus :: stimuli, k =>
    let (response, k) := k.respond stimulus
    let (responses, k) := respondAll stimuli k
    (response :: responses, k)

def calls (stimuli : List (Stimulus D)) (k : Kernel M D F) : List MachineCall :=
  ((k.withMachine (⟨k.machine, #[]⟩ : Traced M)).respondAll stimuli).2.machine.calls.toList

theorem respond_mapMachine (φ : MachineMap M N) (k : Kernel M D F) (stimulus : Stimulus D) :
    (k.mapMachine φ).respond stimulus = (k.respond stimulus).map id (mapMachine φ) := by
  cases stimulus with
  | boot => simp only [respond, boot_mapMachine, Prod.map, id_eq]
  | operation op => simp only [respond, operate_mapMachine, Prod.map, id_eq]
  | check => simp only [respond, checkInvariants_mapMachine, Prod.map, id_eq]
  | devices change => rfl

theorem respondAll_mapMachine (φ : MachineMap M N) (k : Kernel M D F)
    (stimuli : List (Stimulus D)) :
    (k.mapMachine φ).respondAll stimuli = (k.respondAll stimuli).map id (mapMachine φ) := by
  induction stimuli generalizing k with
  | nil => rfl
  | cons stimulus stimuli ih =>
    simp only [respondAll, respond_mapMachine, Prod.map, id_eq, ih]

def script (stimuli : List (Stimulus D)) (k : Kernel M D F) :
    List Response × Kernel (Script k.machine) D F :=
  (k.withMachine (Script.empty k.machine)).respondAll stimuli

section

variable [LawfulMachine M] [LawfulInterrupts M] [LawfulMachine N] [LawfulInterrupts N]
  (k : Kernel M D F) {n : N} (h : LooksLike k.machine n) (stimuli : List (Stimulus D))

include h

theorem respondAll_script :
    (k.withMachine n).respondAll stimuli =
      ((k.script stimuli).1, (k.script stimuli).2.withMachine
        (Machine.performAll (k.script stimuli).2.machine.calls n)) :=
  respondAll_mapMachine (Script.replay h) (k.withMachine (Script.empty k.machine)) stimuli

theorem calls_script : (k.withMachine n).calls stimuli = (k.script stimuli).2.machine.calls := by
  have hn : LooksLike k.machine (⟨n, #[]⟩ : Traced N) := ⟨h.interruptsEnabled, h.kernelStack⟩
  have hr := k.respondAll_script hn stimuli
  have hc : (k.withMachine n).calls stimuli =
      ((k.withMachine (⟨n, #[]⟩ : Traced N)).respondAll stimuli).2.machine.calls.toList := rfl
  rw [hc, hr]
  exact Traced.calls_foldl _ _

theorem respondAll_withMachine :
    (k.withMachine n).respondAll stimuli =
      ((k.respondAll stimuli).1, (k.respondAll stimuli).2.withMachine
        (Machine.performAll (k.calls stimuli) n)) := by
  have hk : k.respondAll stimuli = _ := k.respondAll_script (LooksLike.refl k.machine) stimuli
  have hc : k.calls stimuli = _ := k.calls_script (LooksLike.refl k.machine) stimuli
  rw [respondAll_script k h, hk, hc]
  rfl

theorem calls_withMachine : (k.withMachine n).calls stimuli = k.calls stimuli :=
  (k.calls_script h stimuli).trans (k.calls_script (LooksLike.refl k.machine) stimuli).symm

omit h

theorem machine_respondAll :
    (k.respondAll stimuli).2.machine = Machine.performAll (k.calls stimuli) k.machine :=
  congrArg (fun r => r.2.machine) (k.respondAll_withMachine (LooksLike.refl k.machine) stimuli)

theorem fromKernel_of_mem_calls : ∀ call ∈ k.calls stimuli, call.FromKernel := by
  have hc : k.calls stimuli = _ := k.calls_script (LooksLike.refl k.machine) stimuli
  rw [hc]
  exact (k.script stimuli).2.machine.fromKernel

end

end Kernel

end TerminalKernel
