import TerminalKernel.Proofs.Backends

namespace TerminalKernel

open Machine (LooksLike)

def MachineCall.program? : MachineCall → Option TimerProgram
  | .programTimer program => some program
  | _ => none

def MachineCall.copyRecord? : MachineCall → Option CopyRecord
  | .copyToUser target phys bytes => some ⟨target, phys, bytes.length, Bytes.checksum bytes⟩
  | _ => none

def MachineCall.unmasks (irq : UInt8) : MachineCall → Bool
  | .setIrqMask line masked => !masked && irq == line
  | _ => false

def ProcessorEvent.write? : ProcessorEvent → Option (UInt16 × UInt8)
  | .ioWrite address value => some (address, value)
  | _ => none

namespace UserMemory

theorem load_store (m : UserMemory) (address : UInt32) (bs : Bytes) :
    (m.store address bs).load address bs.length = bs := by
  refine List.ext_getElem (by simp [load]) fun i hi hbs => ?_
  simp [load, store, hbs]

end UserMemory

namespace Processor

def writesTo (addresses : List UInt16) (p : Processor) : List (UInt16 × UInt8) :=
  (p.events.toList.filterMap ProcessorEvent.write?).filter fun w => w.1 ∈ addresses

def isMasked (p : Processor) (irq : UInt8) : Bool :=
  let (address, line) := if 8 ≤ irq then (picSlaveData, irq - 8) else (picMasterData, irq)
  p.ioValue address &&& 1 <<< line ≠ 0

/-- What programming the timer writes: the command, then the divisor, low byte first. -/
def timerWrites (program : TimerProgram) : List (UInt16 × UInt8) :=
  (pitCommand, program.command) :: (Bytes.ofNat 2 program.divisor.toNat).map (pitData, ·)

def portWrites (p : Processor) : MachineCall → List (UInt16 × UInt8)
  | .endOfInterrupt _ => [(picMasterCommand, picEnd)]
  | .setIrqMask .. => [(picMasterData, p.ioValue picMasterData &&& ~~~1)]
  | .programTimer program => timerWrites program
  | _ => []

variable (p : Processor) (addresses : List UInt16)

theorem writesTo_ioWrite (address : UInt16) (value : UInt8) :
    (p.ioWrite address value).writesTo addresses =
      p.writesTo addresses ++ [(address, value)].filter fun w => w.1 ∈ addresses := by
  simp only [writesTo, ioWrite, Array.toList_push, List.filterMap_append, List.filter_append]
  rfl

theorem writesTo_ioRead (address : UInt16) :
    (p.ioRead address).2.writesTo addresses = p.writesTo addresses := by
  simp only [writesTo, ioRead, Array.toList_push, List.filterMap_append, List.filter_append]
  exact List.append_nil _

theorem ofNat_divisor (divisor : UInt16) :
    Bytes.ofNat 2 divisor.toNat = [divisor.toUInt8, (divisor >>> 8).toUInt8] := by
  have hlow : UInt8.ofNat divisor.toNat = divisor.toUInt8 := rfl
  have hhigh : UInt8.ofNat (divisor.toNat / 256) = (divisor >>> 8).toUInt8 := by
    rw [← UInt8.toNat_inj, UInt8.toNat_ofNat', UInt16.toNat_toUInt8, UInt16.toNat_shiftRight,
      Nat.shiftRight_eq_div_pow]
    rfl
  rw [Bytes.ofNat, Bytes.ofNat, Bytes.ofNat, hlow, hhigh]

theorem writesTo_programTimer (program : TimerProgram) :
    (p.programTimer program).writesTo addresses =
      p.writesTo addresses ++ (timerWrites program).filter fun w => w.1 ∈ addresses := by
  have hbytes : timerWrites program = [(pitCommand, program.command)] ++
      [(pitData, program.divisor.toUInt8)] ++ [(pitData, (program.divisor >>> 8).toUInt8)] := by
    rw [timerWrites, ofNat_divisor]
    rfl
  rw [programTimer, writesTo_ioWrite, writesTo_ioWrite, writesTo_ioWrite, hbytes,
    List.filter_append, List.filter_append, List.append_assoc, List.append_assoc,
    List.append_assoc]

example : timerWrites ⟨0x36, 23863⟩ = [(0x43, 0x36), (0x40, 0x37), (0x40, 0x5D)] := by decide

theorem writesTo_perform {call : MachineCall} (h : call.FromKernel) :
    (Machine.perform call p).writesTo addresses =
      p.writesTo addresses ++ (p.portWrites call).filter fun w => w.1 ∈ addresses := by
  cases call with
  | programTimer program => exact p.writesTo_programTimer addresses program
  | endOfInterrupt irq =>
    obtain rfl : irq = timerIrq := h
    exact p.writesTo_ioWrite addresses _ _
  | setIrqMask irq masked =>
    obtain ⟨rfl, rfl⟩ : irq = timerIrq ∧ masked = false := h
    have hr := (p.ioRead picMasterData).2.writesTo_ioWrite addresses picMasterData
      (p.ioValue picMasterData &&& ~~~1)
    rw [writesTo_ioRead] at hr
    exact hr
  | disableInterrupts | enableInterrupts | loadPageDirectory =>
    simp only [Machine.perform, perform, writesTo, Array.toList_push, List.filterMap_append,
      List.filter_append]
    rfl
  | setKernelStack | copyToUser => exact (List.append_nil _).symm

variable {p}

theorem isMasked_eq {q : Processor} (hm : q.ioValue picMasterData = p.ioValue picMasterData)
    (hs : q.ioValue picSlaveData = p.ioValue picSlaveData) (irq : UInt8) :
    q.isMasked irq = p.isMasked irq := by
  unfold isMasked
  by_cases hirq : 8 ≤ irq
  · simp only [if_pos hirq, hs]
  · simp only [if_neg hirq, hm]

variable (p)

theorem ioValue_ioWrite (address : UInt16) (value : UInt8) {a : UInt16} (ha : a ≠ serialStatus) :
    (p.ioWrite address value).ioValue a = if a = address then value else p.ioValue a := by
  simp only [ioValue, if_neg ha, ioWrite, setIo, List.lookup_cons]
  by_cases h : a = address
  · rw [if_pos h, beq_iff_eq.mpr h]
    rfl
  · rw [if_neg h, beq_eq_false_iff_ne.mpr h]

theorem ioValue_programTimer (program : TimerProgram) {a : UInt16} (ha : a ≠ serialStatus)
    (hc : a ≠ pitCommand) (hd : a ≠ pitData) :
    (p.programTimer program).ioValue a = p.ioValue a := by
  rw [programTimer, ioValue_ioWrite _ _ _ ha, if_neg hd, ioValue_ioWrite _ _ _ ha, if_neg hd,
    ioValue_ioWrite _ _ _ ha, if_neg hc]

theorem and_unmask (v : UInt8) {irq : UInt8} (hirq : irq < 8) :
    v &&& ~~~1 &&& (1 : UInt8) <<< irq =
      if irq = timerIrq then 0 else v &&& (1 : UInt8) <<< irq := by
  have hbit : ∀ n < 8, (~~~1 : UInt8) &&& (1 : UInt8) <<< UInt8.ofNat n =
      if UInt8.ofNat n = timerIrq then 0 else (1 : UInt8) <<< UInt8.ofNat n := by decide
  have h := hbit irq.toNat hirq
  rw [UInt8.ofNat_toNat] at h
  rw [UInt8.and_assoc, h]
  split
  · exact UInt8.and_zero
  · rfl

theorem isMasked_setIrqMask (irq : UInt8) :
    (p.setIrqMask timerIrq false).isMasked irq = (p.isMasked irq && irq != timerIrq) := by
  have hq : p.setIrqMask timerIrq false = (p.ioRead picMasterData).2.ioWrite picMasterData
      (p.ioValue picMasterData &&& ~~~1) := rfl
  have hm : (p.setIrqMask timerIrq false).ioValue picMasterData =
      p.ioValue picMasterData &&& ~~~1 := by
    rw [hq, ioValue_ioWrite _ _ _ (by decide), if_pos rfl]
  have hs : (p.setIrqMask timerIrq false).ioValue picSlaveData = p.ioValue picSlaveData := by
    rw [hq, ioValue_ioWrite _ _ _ (by decide), if_neg (by decide)]
    rfl
  unfold isMasked
  by_cases hirq : 8 ≤ irq
  · have hne : irq ≠ timerIrq := by
      rintro rfl
      exact absurd hirq (by decide)
    simp only [if_pos hirq, hs, bne_iff_ne.mpr hne, Bool.and_true]
  · simp only [if_neg hirq, hm, and_unmask _ (UInt8.not_le.mp hirq)]
    by_cases hne : irq = timerIrq
    · simp [hne]
    · simp [hne]

theorem isMasked_perform {call : MachineCall} (h : call.FromKernel) (irq : UInt8) :
    (Machine.perform call p).isMasked irq = (p.isMasked irq && !call.unmasks irq) := by
  cases call with
  | setIrqMask line masked =>
    obtain ⟨rfl, rfl⟩ : line = timerIrq ∧ masked = false := h
    exact p.isMasked_setIrqMask irq
  | endOfInterrupt line =>
    obtain rfl : line = timerIrq := h
    refine (isMasked_eq ?_ ?_ irq).trans (Bool.and_true _).symm
    · exact p.ioValue_ioWrite picMasterCommand picEnd (by decide)
    · exact p.ioValue_ioWrite picMasterCommand picEnd (by decide)
  | programTimer program =>
    refine (isMasked_eq ?_ ?_ irq).trans (Bool.and_true _).symm
    · exact p.ioValue_programTimer program (by decide) (by decide) (by decide)
    · exact p.ioValue_programTimer program (by decide) (by decide) (by decide)
  | disableInterrupts | enableInterrupts | loadPageDirectory | setKernelStack | copyToUser =>
    exact (Bool.and_true _).symm

end Processor

namespace MachineRecorder

variable (r : MachineRecorder)

theorem isMasked_perform {call : MachineCall} (h : call.FromKernel) (irq : Nat)
    (hirq : irq < irqCount) :
    (Machine.perform call r).isMasked irq =
      (r.isMasked irq && !call.unmasks (UInt8.ofNat irq)) := by
  cases call with
  | setIrqMask line masked =>
    obtain ⟨rfl, rfl⟩ : line = timerIrq ∧ masked = false := h
    have hm : (Machine.perform (.setIrqMask timerIrq false) r).isMasked irq =
        ((r.masked.setIfInBounds 0 false)[irq]?).getD true := rfl
    have hu : ∀ n < irqCount, n ≠ 0 →
        MachineCall.unmasks (UInt8.ofNat n) (.setIrqMask timerIrq false) = false := by decide
    rw [hm, Vector.getElem?_setIfInBounds]
    by_cases h0 : irq = 0
    · subst h0
      exact (Bool.and_false _).symm
    · rw [if_neg (Ne.symm h0), hu irq hirq h0]
      exact (Bool.and_true _).symm
  | disableInterrupts | enableInterrupts | loadPageDirectory | setKernelStack | endOfInterrupt
    | programTimer | copyToUser => exact (Bool.and_true _).symm

theorem eoiCount_perform {call : MachineCall} (h : call.FromKernel) :
    (Machine.perform call r).eoiCount timerIrq.toNat =
      r.eoiCount timerIrq.toNat + UInt32.ofNat ([call].count (.endOfInterrupt timerIrq)) := by
  cases call with
  | endOfInterrupt irq =>
    obtain rfl : irq = timerIrq := h
    have he : (Machine.perform (.endOfInterrupt timerIrq) r).eoiCount timerIrq.toNat =
        ((r.eoi.setIfInBounds 0 (r.eoiCount 0 + 1))[0]?).getD 0 := rfl
    rw [List.count_singleton_self, he, Vector.getElem?_setIfInBounds_self]
    rfl
  | disableInterrupts | enableInterrupts | loadPageDirectory | setKernelStack | setIrqMask
    | programTimer | copyToUser => exact (UInt32.add_zero _).symm

theorem copies_perform {records : List CopyRecord}
    (h : r.copies.toList = records.take maxCopyRecords) (call : MachineCall) :
    (Machine.perform call r).copies.toList =
      (records ++ call.copyRecord?.toList).take maxCopyRecords := by
  have hsize : r.copies.size = min maxCopyRecords records.length := by
    rw [← Array.length_toList, h, List.length_take]
  cases call with
  | copyToUser target phys bytes =>
    have hc : (Machine.perform (.copyToUser target phys bytes) r).copies =
        if r.copies.size < maxCopyRecords then
          r.copies.push ⟨target, phys, bytes.length, Bytes.checksum bytes⟩
        else r.copies := rfl
    rw [hc]
    split
    case isTrue hlt =>
      have hlen : records.length < maxCopyRecords := by omega
      rw [Array.toList_push, h, List.take_of_length_le (Nat.le_of_lt hlen),
        List.take_of_length_le (by rw [List.length_append]; exact hlen)]
      rfl
    case isFalse hge =>
      rw [h, List.take_append_of_le_length (by omega)]
  | disableInterrupts | enableInterrupts | loadPageDirectory | setKernelStack | endOfInterrupt
    | setIrqMask | programTimer =>
    exact h.trans (congrArg (List.take maxCopyRecords) (List.append_nil records).symm)

end MachineRecorder

/-- What the recorder says of the calls of a kernel is what the processor holds and what it wrote
to the chips around it. -/
structure Corresponds (calls : List MachineCall) (r : MachineRecorder) (p : Processor) : Prop where
  directory : p.cr3 = r.cr3
  stack : p.taskStack = r.stack
  interrupts : p.interrupts = r.interrupts
  masks : ∀ irq < irqCount, p.isMasked (UInt8.ofNat irq) = r.isMasked irq
  timer : r.timer = (calls.filterMap MachineCall.program?).getLast?
  timerWrites : p.writesTo [Processor.pitCommand, Processor.pitData] =
    (calls.filterMap MachineCall.program?).flatMap Processor.timerWrites
  ends : p.writesTo [Processor.picMasterCommand] =
    List.replicate (calls.count (.endOfInterrupt timerIrq))
      (Processor.picMasterCommand, Processor.picEnd ||| timerIrq)
  /-- The recorder counts them in a word, which starts over after the last number. -/
  endCount : r.eoiCount timerIrq.toNat = UInt32.ofNat (calls.count (.endOfInterrupt timerIrq))
  copies : r.copies.toList = (calls.filterMap MachineCall.copyRecord?).take maxCopyRecords

namespace Corresponds

variable {calls : List MachineCall} {r : MachineRecorder} {p : Processor}

theorem fresh (enabled : Bool) (memory : UserMemory) :
    Corresponds [] { interrupts := enabled } { interrupts := enabled, memory } where
  directory := rfl
  stack := rfl
  interrupts := rfl
  masks irq hirq := by
    have hp : ∀ irq < irqCount, ({} : Processor).isMasked (UInt8.ofNat irq) = true := by decide
    have hr : ∀ irq < irqCount, ({} : MachineRecorder).isMasked irq = true := by decide
    exact (hp irq hirq).trans (hr irq hirq).symm
  timer := rfl
  timerWrites := rfl
  ends := rfl
  endCount := rfl
  copies := rfl

theorem looksLike (h : Corresponds calls r p) : LooksLike r p := ⟨h.interrupts, h.stack⟩

theorem perform (h : Corresponds calls r p) {call : MachineCall} (hc : call.FromKernel) :
    Corresponds (calls ++ [call]) (Machine.perform call r) (Machine.perform call p) where
  directory := by
    have hd : LawfulMachine.directory p = LawfulMachine.directory r := h.directory
    refine (LawfulMachine.directory_perform call p).trans
      (.trans ?_ (LawfulMachine.directory_perform call r).symm)
    rw [hd]
  stack := (h.looksLike.perform call).kernelStack
  interrupts := (h.looksLike.perform call).interruptsEnabled
  masks irq hirq := by
    rw [p.isMasked_perform hc, r.isMasked_perform hc irq hirq, h.masks irq hirq]
  timer := by
    rw [List.filterMap_append, List.getLast?_append, ← h.timer]
    cases call <;> rfl
  timerWrites := by
    rw [p.writesTo_perform _ hc, h.timerWrites, List.filterMap_append, List.flatMap_append]
    cases call <;> rfl
  ends := by
    rw [p.writesTo_perform _ hc, h.ends, List.count_append, List.replicate_add]
    cases call with
    | endOfInterrupt irq =>
      obtain rfl : irq = timerIrq := hc
      rw [List.count_singleton_self]
      rfl
    | disableInterrupts | enableInterrupts | loadPageDirectory | setKernelStack | setIrqMask
      | programTimer | copyToUser => rfl
  endCount := by
    rw [r.eoiCount_perform hc, h.endCount, List.count_append, UInt32.ofNat_add]
  copies := by
    rw [r.copies_perform h.copies, List.filterMap_append]
    cases call <;> rfl

theorem performAll (h : Corresponds [] r p) (hc : ∀ call ∈ calls, call.FromKernel) :
    Corresponds calls (Machine.performAll calls r) (Machine.performAll calls p) := by
  induction calls using List.reverseRecOn with
  | nil => exact h
  | append_singleton calls call ih =>
    rw [List.forall_mem_append, List.forall_mem_singleton] at hc
    rw [Machine.performAll_append, Machine.performAll_append]
    exact (ih hc.1).perform hc.2

theorem ends_recorded (h : Corresponds calls r p)
    (hlt : calls.count (.endOfInterrupt timerIrq) < wordCount) :
    p.writesTo [Processor.picMasterCommand] =
      List.replicate (r.eoiCount timerIrq.toNat).toNat
        (Processor.picMasterCommand, Processor.picEnd ||| timerIrq) := by
  rw [h.ends, h.endCount, UInt32.toNat_ofNat_of_lt' hlt]

end Corresponds

def Processor.CopiesArrive (p : Processor) (calls : List MachineCall) : Prop :=
  ∀ before target phys bytes after, calls = before ++ .copyToUser target phys bytes :: after →
    (Machine.performAll (before ++ [.copyToUser target phys bytes]) p).memory.load target.val
      bytes.length = bytes

theorem Processor.copiesArrive (p : Processor) (calls : List MachineCall) :
    p.CopiesArrive calls := by
  intro before target phys bytes after _
  rw [Machine.performAll_append]
  exact UserMemory.load_store _ target.val bytes

namespace Kernel

variable {M D F : Type} [Machine M] [LawfulMachine M] [Devices D] [FileSystem F]

def loadedSpace (k : Kernel M D F) : Option SpaceId :=
  (LawfulMachine.directory k.machine).bind k.spaces.spaceAt

/-- A kernel on the recorder and one on the bare machine respond the same, are left in the same
state, and leave their machines in corresponding ones. -/
structure Twins (stimuli : List (Stimulus D)) (sim : Kernel MachineRecorder D F)
    (bare : Kernel Processor D F) : Prop where
  responses : (bare.respondAll stimuli).1 = (sim.respondAll stimuli).1
  state : (bare.respondAll stimuli).2 =
    (sim.respondAll stimuli).2.withMachine (bare.respondAll stimuli).2.machine
  calls : bare.calls stimuli = sim.calls stimuli
  recorder : (sim.respondAll stimuli).2.machine =
    Machine.performAll (sim.calls stimuli) sim.machine
  processor : (bare.respondAll stimuli).2.machine =
    Machine.performAll (bare.calls stimuli) bare.machine
  machines : Corresponds (sim.calls stimuli) (sim.respondAll stimuli).2.machine
    (bare.respondAll stimuli).2.machine
  /-- One byte for each end that the recorder counts, as long as its counter does not start over. -/
  ends : (sim.calls stimuli).count (.endOfInterrupt timerIrq) < wordCount →
    (bare.respondAll stimuli).2.machine.writesTo [Processor.picMasterCommand] =
      List.replicate ((sim.respondAll stimuli).2.machine.eoiCount timerIrq.toNat).toNat
        (Processor.picMasterCommand, Processor.picEnd ||| timerIrq)
  loadedSpace : (bare.respondAll stimuli).2.loadedSpace = (sim.respondAll stimuli).2.loadedSpace
  copies : bare.machine.CopiesArrive (bare.calls stimuli)

theorem twins_withMachine (sim : Kernel MachineRecorder D F) {p : Processor}
    (h : Corresponds [] sim.machine p) (stimuli : List (Stimulus D)) :
    Twins stimuli sim (sim.withMachine p) := by
  have hr := sim.respondAll_withMachine h.looksLike stimuli
  have hc := sim.calls_withMachine h.looksLike stimuli
  have hm := sim.machine_respondAll stimuli
  have hmachines := h.performAll (sim.fromKernel_of_mem_calls stimuli)
  rw [← hm] at hmachines
  exact
    { responses := by rw [hr]
      state := by
        rw [hr]
        rfl
      calls := hc
      recorder := hm
      processor := by
        rw [hr, hc]
        rfl
      machines := by
        rw [hr]
        exact hmachines
      ends := by
        rw [hr]
        exact hmachines.ends_recorded
      loadedSpace := by
        rw [hr]
        exact congrArg (Option.bind · (sim.respondAll stimuli).2.spaces.spaceAt)
          hmachines.directory
      copies := p.copiesArrive _ }

/-- Kernels that were not booted are twins whatever happens to them, if interrupts are on for both
or off for both. -/
theorem twins_respondAll (enabled : Bool) (memory : UserMemory) (devices : D) (fs : F)
    (layout : Layout) (timer : TimerConfig) (stimuli : List (Stimulus D)) :
    Twins stimuli (fresh { interrupts := enabled } devices fs layout timer)
      (fresh { interrupts := enabled, memory } devices fs layout timer) :=
  twins_withMachine (fresh { interrupts := enabled } devices fs layout timer)
    (Corresponds.fresh enabled memory) stimuli

end Kernel

end TerminalKernel
