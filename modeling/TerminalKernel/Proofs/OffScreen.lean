import TerminalKernel.Proofs.SameWork
import TerminalKernel.Proofs.Streaming
import TerminalKernel.Proofs.TerminalTraffic

namespace TerminalKernel

namespace DeviceRecorder

variable {d d' : DeviceRecorder}

theorem exists_switches (h : d'.unshown = d.unshown) :
    ∃ switches, d' = { d with switches } := by
  refine ⟨d'.switches, ?_⟩
  cases d
  cases d'
  simp only [unshown, mk.injEq] at h ⊢
  simp only [h, and_self]

end DeviceRecorder

namespace OpenFile

variable {F : Type} [FileSystem F]

theorem read_switches (f : OpenFile) (fs : F) (t : TerminalId) (buffer : Bytes)
    (d : DeviceRecorder) (switches : List (TerminalId × TerminalId)) :
    f.read fs t buffer { d with switches } =
      { f.read fs t buffer d with
        devices := { (f.read fs t buffer d).devices with switches } } := by
  unfold read
  split
  · rfl
  · rfl
  · rfl
  · unfold readDirectory
    split
    · rfl
    · split <;> rfl
  · unfold readRegular
    split <;> rfl

theorem write_switches (f : OpenFile) (t : TerminalId) (bytes : Bytes) (d : DeviceRecorder)
    (switches : List (TerminalId × TerminalId)) :
    f.write t bytes { d with switches } =
      ((f.write t bytes d).1, { (f.write t bytes d).2 with switches }) := by
  unfold write
  split
  · rfl
  · unfold writeClock
    split <;> rfl
  · rfl

theorem open_switches (kind : FileKind) (d : DeviceRecorder)
    (switches : List (TerminalId × TerminalId)) :
    kind.open { d with switches } =
      ((kind.open d).1, { (kind.open d).2 with switches }) := by
  cases kind <;> rfl

end OpenFile

def Happening.isSwitch : Happening → Bool
  | .operation (.switchTerminal ..) => true
  | _ => false

theorem Operation.exists_display {op : Operation} (h : (Happening.operation op).isSwitch = true) :
    ∃ entered, op.request = .display entered := by
  cases op with
  | switchTerminal entered interrupted => exact ⟨entered, rfl⟩
  | execute | halt | exception | timerTick | syscall | syscallRaw => cases h

theorem Operation.request_ne_display {op : Operation}
    (h : (Happening.operation op).isSwitch = false) (entered : TerminalId) :
    op.request ≠ .display entered := by
  have hcall (call : SystemCall) (caller : SavedContext) :
      call.request caller ≠ .display entered := by
    intro he
    cases call <;> cases he
  intro he
  cases op with
  | switchTerminal => cases h
  | execute | halt | exception | timerTick => cases he
  | syscall call caller => exact hcall call caller he
  | syscallRaw number argument bytes caller =>
    rw [request] at he
    split at he
    · exact hcall _ _ he
    · cases he

namespace Kernel

variable {M F : Type} {k k' k₁ k₂ k₁' k₂' : Kernel M DeviceRecorder F}

/-- Two kernels have the same processes, and the same devices but for what was on screen. -/
structure SameWork (k₂ k₁ : Kernel M DeviceRecorder F) : Prop extends k₂.SameProcesses k₁ where
  devices : k₂.devices.unshown = k₁.devices.unshown

namespace SameWork

variable {cur : ProcessId} {p : ProcessRecord}

theorem refl (k : Kernel M DeviceRecorder F) : k.SameWork k := ⟨.refl k, rfl⟩

theorem symm (h : k₂.SameWork k₁) : k₁.SameWork k₂ := ⟨h.toSameProcesses.symm, h.devices.symm⟩

theorem trans {k₃ : Kernel M DeviceRecorder F} (h : k₃.SameWork k₂) (h' : k₂.SameWork k₁) :
    k₃.SameWork k₁ :=
  ⟨h.toSameProcesses.trans h'.toSameProcesses, h.devices.trans h'.devices⟩

theorem withDevices (h : k₂.SameWork k₁) {d₁ d₂ : DeviceRecorder} (hd : d₂.unshown = d₁.unshown) :
    ({ k₂ with devices := d₂ } : Kernel M DeviceRecorder F).SameWork { k₁ with devices := d₁ } :=
  ⟨⟨h.fs, h.layout, h.current, h.records⟩, hd⟩

theorem putFile (h : k₂.SameWork k₁) (hp₁ : k₁.processes.get? cur = some p)
    (hp₂ : k₂.processes.get? cur = some p) {d₁ d₂ : DeviceRecorder}
    (hd : d₂.unshown = d₁.unshown) (fd : Nat) (file : Option OpenFile) :
    ({ k₂ with devices := d₂ }.putFile cur fd file).SameWork
      ({ k₁ with devices := d₁ }.putFile cur fd file) := by
  rw [putFile_eq (k := { k₂ with devices := d₂ }) hp₂,
    putFile_eq (k := { k₁ with devices := d₁ }) hp₁]
  refine ⟨⟨h.fs, h.layout, h.current, ?_⟩, hd⟩
  rw [get?_withFiles (k := { k₂ with devices := d₂ }) hp₂,
    get?_withFiles (k := { k₁ with devices := d₁ }) hp₁, Records.running_update,
    Records.running_update]
  exact congrArg (fun g => Function.update g cur _) h.records

theorem leave [Machine M] (h : k₂'.SameWork k₁') (k₁ k₂ : Kernel M DeviceRecorder F) :
    (k₂.leave k₂').SameWork (k₁.leave k₁') := by
  refine ⟨h.toSameProcesses.leave .., ?_⟩
  rw [devices_leave, devices_leave, h.devices]

section

variable [FileSystem F] (h : k₂.SameWork k₁) (hc : k₁.current = some cur)
  (hp₁ : k₁.processes.get? cur = some p) (hp₂ : k₂.processes.get? cur = some p)

include h hc hp₁ hp₂

omit [FileSystem F] in
theorem requireFile (fd : Nat) : k₂.requireFile fd = k₁.requireFile fd := by
  have hc₂ : k₂.current = some cur := h.current.trans hc
  simp only [Kernel.requireFile, requireCurrent, hc, hc₂, ProcessTable.get, hp₁, hp₂, bind,
    Except.bind]

theorem readDescriptor (fd : Int) (buffer : Bytes) :
    (k₂.readDescriptor fd buffer).1 = (k₁.readDescriptor fd buffer).1 ∧
      (k₂.readDescriptor fd buffer).2.1 = (k₁.readDescriptor fd buffer).2.1 ∧
        (k₂.readDescriptor fd buffer).2.2.SameWork (k₁.readDescriptor fd buffer).2.2 := by
  obtain ⟨switches, hs⟩ := DeviceRecorder.exists_switches h.devices
  have hread (f : OpenFile) (t : TerminalId) : f.read k₂.fs t buffer k₂.devices =
      { f.read k₁.fs t buffer k₁.devices with
        devices := { (f.read k₁.fs t buffer k₁.devices).devices with switches } } := by
    rw [h.fs, hs, OpenFile.read_switches]
  simp only [Kernel.readDescriptor, h.requireFile hc hp₁ hp₂, hread]
  split
  · exact ⟨rfl, rfl, h⟩
  · split
    · exact ⟨rfl, rfl, h⟩
    · rename_i x t f hf
      obtain ⟨rfl, -⟩ := requireFile_eq_ok hc hp₁ hf
      refine ⟨rfl, rfl, h.putFile hp₁ hp₂ ?_ ..⟩
      rfl

omit [FileSystem F] in
theorem writeDescriptor (fd : Int) (bytes : Bytes) :
    (k₂.writeDescriptor fd bytes).1 = (k₁.writeDescriptor fd bytes).1 ∧
      (k₂.writeDescriptor fd bytes).2.SameWork (k₁.writeDescriptor fd bytes).2 := by
  obtain ⟨switches, hs⟩ := DeviceRecorder.exists_switches h.devices
  simp only [Kernel.writeDescriptor, h.requireFile hc hp₁ hp₂, hs, OpenFile.write_switches]
  split
  · exact ⟨rfl, h⟩
  · split
    · exact ⟨rfl, h⟩
    · exact ⟨rfl, h.withDevices rfl⟩

theorem openLocked (name : Bytes) :
    (k₂.openLocked name).1 = (k₁.openLocked name).1 ∧
      (k₂.openLocked name).2.SameWork (k₁.openLocked name).2 := by
  obtain ⟨switches, hs⟩ := DeviceRecorder.exists_switches h.devices
  have hlookup : FileSystem.lookup k₂.fs (Bytes.beforeNul name) =
      FileSystem.lookup k₁.fs (Bytes.beforeNul name) := by rw [h.fs]
  have hopen (kind : FileKind) : kind.open k₂.devices =
      ((kind.open k₁.devices).1, { (kind.open k₁.devices).2 with switches }) := by
    rw [hs, OpenFile.open_switches]
  rw [openLocked_eq hc hp₁, openLocked_eq (h.current.trans hc) hp₂]
  simp only [hlookup, hopen]
  split
  · exact ⟨rfl, h⟩
  · exact ⟨rfl, h⟩
  · rename_i d i _ _
    cases (FileKind.ofType d.fileType).open k₁.devices with
    | mk opened devices =>
      cases opened with
      | error e => exact ⟨rfl, h.withDevices rfl⟩
      | ok u =>
        refine ⟨rfl, h.putFile hp₁ hp₂ ?_ ..⟩
        rfl

omit [FileSystem F] in
theorem closeLocked (fd : Nat) :
    (k₂.closeLocked fd).1 = (k₁.closeLocked fd).1 ∧
      (k₂.closeLocked fd).2.SameWork (k₁.closeLocked fd).2 := by
  simp only [Kernel.closeLocked, h.requireFile hc hp₁ hp₂]
  split
  · exact ⟨rfl, h⟩
  · rename_i x t f hf
    obtain ⟨rfl, -⟩ := requireFile_eq_ok hc hp₁ hf
    split
    · exact ⟨rfl, h⟩
    · exact ⟨rfl, h.putFile hp₁ hp₂ h.devices ..⟩

end

variable [Machine M] [FileSystem F] {σ : TerminalId → List ProcessId}

theorem syscall (h : k₂.SameWork k₁) (hc : k₁.current = some cur)
    (hp₁ : k₁.processes.get? cur = some p) (hp₂ : k₂.processes.get? cur = some p)
    {call : SystemCall} (hcall : call.IsService) (caller : SavedContext) :
    (k₂.syscall call caller).1 = (k₁.syscall call caller).1 ∧
      (k₂.syscall call caller).2.SameWork (k₁.syscall call caller).2 := by
  have hc₂ : k₂.current = some cur := h.current.trans hc
  have hm : k₂.masked.SameWork k₁.masked :=
    ⟨⟨h.fs, h.layout, h.current, h.records⟩, h.devices⟩
  cases call with
  | halt | execute => cases hcall
  | read fd buffer =>
    obtain ⟨hr, hb, hk⟩ := h.readDescriptor hc hp₁ hp₂ fd buffer
    simp only [Kernel.syscall, hr, hb, true_and]
    exact hk
  | write fd bytes =>
    obtain ⟨hr, hk⟩ := h.writeDescriptor hc hp₁ hp₂ fd bytes
    simp only [Kernel.syscall, hr, true_and]
    exact hk
  | «open» name =>
    obtain ⟨hr, hk⟩ := hm.openLocked hc hp₁ hp₂ name
    exact ⟨congrArg (fun r => Reply.mk (answerNat r) none) hr, hk.leave ..⟩
  | close fd =>
    simp only [Kernel.syscall, closeFile]
    split
    · exact ⟨rfl, h⟩
    · split
      · exact ⟨rfl, h⟩
      · rename_i i _ _
        obtain ⟨hr, hk⟩ := hm.closeLocked hc hp₁ hp₂ i
        exact ⟨congrArg (fun r => Reply.mk (answerUnit r) none) hr, hk.leave ..⟩
  | getArguments buffer =>
    have hg : k₂.getArguments buffer = k₁.getArguments buffer := by
      simp only [getArguments, requireCurrent, hc, hc₂, ProcessTable.get, hp₁, hp₂, Except.bind]
    simp only [Kernel.syscall, hg, true_and]
    exact h
  | videoMap dest =>
    have hv : k₂.videoMap dest = k₁.videoMap dest := by
      simp only [videoMap, requireCurrent, hc, hc₂, h.layout]
    exact ⟨congrArg (fun r => Reply.mk (answerNat r) none) hv, h⟩
  | setHandler | signalReturn => exact ⟨rfl, h⟩

/-- The same operation does the same work, and passes the same over every terminal. -/
theorem operate (hw : k₂.SameWork k₁) (h₁ : k₁.Sound σ) (h₂ : k₂.Sound σ) {op : Operation}
    (hdisplay : ∀ entered, op.request ≠ .display entered) :
    (∃ σ', (k₁.operate op).2.Sound σ' ∧ (k₂.operate op).2.Sound σ') ∧
      (k₂.operate op).2.SameWork (k₁.operate op).2 ∧
        ∀ t, k₂.traffic t (.operation op) = k₁.traffic t (.operation op) := by
  obtain ⟨cur, hc⟩ := h₁.runs
  obtain ⟨p, hp₁⟩ := h₁.current_live hc
  have hc₂ : k₂.current = some cur := hw.current.trans hc
  have hp₂ : k₂.processes.get? cur = some p := hw.get?_current h₁ h₂ hc hp₁
  obtain ⟨k₁', σ₁, he₁, ha₁⟩ := operate_effect h₁ op
  obtain ⟨k₂', σ₂, he₂, ha₂⟩ := operate_effect h₂ op
  have hs₁ : (k₁.operate op).2.Sound σ₁ := (he₁.sound h₁).of_sameCore ha₁.toSameCore
  have hs₂ : (k₂.operate op).2.Sound σ₂ := (he₂.sound h₂).of_sameCore ha₂.toSameCore
  by_cases hop : op.request = .service
  case neg =>
    have htransfer (line : Bytes) (caller : SavedContext) (hr : op.request = .execute line caller) :
        (k₂.operate op).1.transfer = (k₁.operate op).1.transfer := by
      rw [operate_execute hr, operate_execute hr]
      exact hw.execute_transfer h₁ h₂ line caller
    obtain ⟨rfl, hw'⟩ := he₁.sameProcesses h₁ h₂ hw.toSameProcesses he₂ hop hdisplay htransfer
    refine ⟨⟨σ₂, hs₁, hs₂⟩, ⟨?_, ?_⟩, ?_⟩
    · exact (SameProcesses.of_sameCore ha₂.toSameCore).trans
        (hw'.trans (SameProcesses.of_sameCore ha₁.toSameCore).symm)
    · rw [h₂.unshown_operate hop, h₁.unshown_operate hop, hw.devices]
    · intro t
      rw [traffic_of_ne_service hop, traffic_of_ne_service hop]
  case pos =>
    have hreply : (k₂.operate op).1 = (k₁.operate op).1 ∧
        (k₂.operate op).2.SameWork (k₁.operate op).2 := by
      cases op with
      | execute | halt | exception | timerTick | switchTerminal => cases hop
      | syscall call caller => exact hw.syscall hc hp₁ hp₂ (isService_of_request hop) caller
      | syscallRaw number argument bytes caller =>
        simp only [Kernel.operate, syscallRaw]
        cases hd : SystemCall.decode? number argument bytes with
        | none => exact ⟨rfl, hw⟩
        | some call =>
          have hcall : call.request caller = .service := by rwa [Operation.request, hd] at hop
          exact hw.syscall hc hp₁ hp₂ (isService_of_request hcall) caller
    rw [hop] at he₁ he₂
    obtain rfl := he₁.stacks_service
    obtain rfl := he₂.stacks_service
    refine ⟨⟨σ₂, hs₁, hs₂⟩, hreply.2, ?_⟩
    intro t
    rw [traffic_operation hc₂ hp₂, traffic_operation hc hp₁, hreply.1]

theorem proceed (hw : k₂.SameWork k₁) (h₁ : k₁.Sound σ) (h₂ : k₂.Sound σ) {x : Happening}
    (hx : x.isSwitch = false) :
    (∃ σ', (k₁.proceed x).Sound σ' ∧ (k₂.proceed x).Sound σ') ∧
      (k₂.proceed x).SameWork (k₁.proceed x) ∧ ∀ t, k₂.traffic t x = k₁.traffic t x := by
  cases x with
  | operation op => exact hw.operate h₁ h₂ (Operation.request_ne_display hx)
  | input u bytes =>
    have hd : (k₂.devices.pushInput u bytes).unshown = (k₁.devices.pushInput u bytes).unshown := by
      obtain ⟨switches, hs⟩ := DeviceRecorder.exists_switches hw.devices
      rw [hs]
      rfl
    refine ⟨⟨σ, ?_, ?_⟩, hw.withDevices hd, fun t => rfl⟩
    · exact h₁.of_sameCore ⟨rfl, rfl, rfl, rfl, rfl, rfl, rfl⟩
    · exact h₂.of_sameCore ⟨rfl, rfl, rfl, rfl, rfl, rfl, rfl⟩

end SameWork

variable [Machine M] [FileSystem F] {σ : TerminalId → List ProcessId}

theorem Sound.sameWork_display (h : k.Sound σ) {op : Operation} {entered : TerminalId}
    (hop : op.request = .display entered) :
    (k.operate op).2.Sound σ ∧ (k.operate op).2.SameWork k := by
  have hservice : op.request ≠ .service := by
    rw [hop]
    exact nofun
  have hunshown := h.unshown_operate hservice
  obtain ⟨k', σ', he, ha⟩ := operate_effect h op
  have hsound : (k.operate op).2.Sound σ' := (he.sound h).of_sameCore ha.toSameCore
  rw [hop] at he
  obtain ⟨rfl, hw⟩ := he.sameProcesses_display
  exact ⟨hsound, (SameProcesses.of_sameCore ha.toSameCore).trans hw, hunshown⟩

theorem SameWork.proceedAll (hw : k₂.SameWork k₁) (h₁ : k₁.Sound σ) (h₂ : k₂.Sound σ)
    (xs : List Happening) :
    (k₂.proceedAll (xs.filter fun x => !x.isSwitch)).SameWork (k₁.proceedAll xs) ∧
      ∀ t, k₂.trafficAll t (xs.filter fun x => !x.isSwitch) = k₁.trafficAll t xs := by
  -- A switch is a step of the first kernel only, and leaves it with the same work.
  induction xs generalizing k₁ k₂ σ with
  | nil => exact ⟨hw, fun t => rfl⟩
  | cons x xs ih =>
    cases hx : x.isSwitch with
    | true =>
      rw [List.filter_cons_of_neg (by simp [hx])]
      cases x with
      | input => cases hx
      | operation op =>
        obtain ⟨entered, hop⟩ := Operation.exists_display hx
        obtain ⟨h₁', hw'⟩ := h₁.sameWork_display hop
        obtain ⟨hrest, htraffic⟩ := ih (hw.trans hw'.symm) h₁' h₂
        refine ⟨hrest, ?_⟩
        intro t
        rw [htraffic, trafficAll, traffic_of_ne_service (by rw [hop]; exact nofun)]
        rfl
    | false =>
      rw [List.filter_cons_of_pos (by simp [hx])]
      obtain ⟨⟨σ', h₁', h₂'⟩, hw', hstep⟩ := hw.proceed h₁ h₂ hx
      obtain ⟨hrest, htraffic⟩ := ih hw' h₁' h₂'
      refine ⟨hrest, ?_⟩
      intro t
      rw [trafficAll, trafficAll, hstep, htraffic]

/-- Whatever happens after a boot, the output of a terminal has grown by what its processes wrote to
standard output, in order, and the input that was there and arrived is what they got from standard
input, followed by what is still queued. It makes no difference when which terminal is on screen. -/
theorem carries_run {machine : M} {devices : DeviceRecorder} {fs : F} {layout : Layout}
    {timer : TimerConfig} {first : Transfer}
    (hb : (fresh machine devices fs layout timer).boot = (.ok first, k)) {xs : List Happening}
    (hfits : ∀ x ∈ xs, x.Fits) :
    (∀ t,
      (k.proceedAll xs).devices.output.get t =
          devices.output.get t ++ (k.trafficAll t xs).written ∧
        devices.input.get t ++ (k.trafficAll t xs).arrived =
          (k.trafficAll t xs).returned ++ (k.proceedAll xs).devices.input.get t) ∧
      ∀ ys, (ys.filter fun y => !y.isSwitch) = xs.filter (fun x => !x.isSwitch) →
        (∀ t, k.trafficAll t ys = k.trafficAll t xs) ∧
          (k.proceedAll ys).devices.output = (k.proceedAll xs).devices.output ∧
          (k.proceedAll ys).devices.input = (k.proceedAll xs).devices.input := by
  have hu := unbooted_fresh machine devices fs layout timer
  obtain ⟨σ, h⟩ := sound_boot hu hb
  have hdevices : k.devices = devices := devices_boot hu hb
  refine ⟨?_, ?_⟩
  · intro t
    have hcarries := h.traffic_proceedAll (streamed_boot hu hb) hfits t
    rw [hdevices] at hcarries
    exact ⟨hcarries.output, hcarries.input⟩
  · intro ys hys
    obtain ⟨hx, htraffic⟩ := (SameWork.refl k).proceedAll h h xs
    obtain ⟨hy, htraffic'⟩ := (SameWork.refl k).proceedAll h h ys
    rw [hys] at hy htraffic'
    have hunshown := (hy.symm.trans hx).devices
    refine ⟨fun t => (htraffic' t).symm.trans (htraffic t), ?_, ?_⟩
    · exact DeviceRecorder.output_of_unshown hunshown
    · exact DeviceRecorder.input_of_unshown hunshown

theorem carries_run_shellFiles :
    ∃ first k, (Sample.kernel Sample.shellFiles).boot = (.ok first, k) ∧
      ∀ caller t,
        let xs : List Happening := [.input t [104, 105, 10],
          .operation (.syscall (.write 1 shell) caller), .operation (.switchTerminal t none),
          .operation (.timerTick caller), .operation (.syscall (.read 0 [0, 0]) caller)]
        let ys : List Happening := [.input t [104, 105, 10],
          .operation (.syscall (.write 1 shell) caller), .operation (.timerTick caller),
          .operation (.syscall (.read 0 [0, 0]) caller)]
        (k.proceedAll xs).devices.output.get t = (k.trafficAll t xs).written ∧
          (k.trafficAll t xs).arrived =
            (k.trafficAll t xs).returned ++ (k.proceedAll xs).devices.input.get t ∧
          k.trafficAll t ys = k.trafficAll t xs := by
  obtain ⟨first, k, hb⟩ := Sample.boot_shellFiles
  refine ⟨first, k, hb, ?_⟩
  intro caller t xs ys
  have hfits : ∀ x ∈ xs, x.Fits := by
    intro x hx
    simp only [xs, List.mem_cons, List.not_mem_nil, or_false] at hx
    obtain rfl | rfl | rfl | rfl | rfl := hx
    · trivial
    all_goals
      intro buffer hread
      cases hread
    decide
  have hempty : (Vector.replicate terminalCount ([] : Bytes)).get t = [] := by
    rw [Vector.get_eq_getElem, Vector.getElem_replicate]
  obtain ⟨hcarries, hscreen⟩ := carries_run hb hfits
  obtain ⟨houtput, hinput⟩ := hcarries t
  rw [hempty, List.nil_append] at houtput hinput
  exact ⟨houtput, hinput, (hscreen ys rfl).1 t⟩

end Kernel

end TerminalKernel
