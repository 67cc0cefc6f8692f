import TerminalKernel.Proofs.Deliveries
import TerminalKernel.Proofs.StandardStreams

namespace TerminalKernel

/-- What passes over a terminal: what its processes write to standard output, what they get back
from standard input, and the input that arrives for it. -/
structure Traffic where
  written : Bytes := []
  returned : Bytes := []
  arrived : Bytes := []

instance : Append Traffic :=
  ⟨fun x y => ⟨x.written ++ y.written, x.returned ++ y.returned, x.arrived ++ y.arrived⟩⟩

namespace DeviceRecorder

variable {d d' d'' : DeviceRecorder} {t u : TerminalId} {x y : Traffic}

/-- What passed over a terminal between two states of the devices. Its output is longer by what was
written. Its input and what arrived are what was returned and what is still queued. -/
structure Carries (t : TerminalId) (d : DeviceRecorder) (x : Traffic) (d' : DeviceRecorder) :
    Prop where
  output : d'.output.get t = d.output.get t ++ x.written
  input : d.input.get t ++ x.arrived = x.returned ++ d'.input.get t

theorem Carries.of_eq (hi : d'.input = d.input) (ho : d'.output = d.output) :
    Carries t d {} d' := by
  refine ⟨?_, ?_⟩
  · rw [ho, List.append_nil]
  · rw [hi, List.append_nil, List.nil_append]

theorem Carries.trans (h : Carries t d x d') (h' : Carries t d' y d'') :
    Carries t d (x ++ y) d'' := by
  refine ⟨?_, ?_⟩
  · calc d''.output.get t
      _ = d.output.get t ++ x.written ++ y.written := by rw [h'.output, h.output]
      _ = d.output.get t ++ (x.written ++ y.written) := List.append_assoc ..
  · calc d.input.get t ++ (x.arrived ++ y.arrived)
      _ = x.returned ++ (d'.input.get t ++ y.arrived) := by
        rw [← List.append_assoc, h.input, List.append_assoc]
      _ = x.returned ++ y.returned ++ d''.input.get t := by rw [h'.input, List.append_assoc]

def unshown (d : DeviceRecorder) : DeviceRecorder := { d with switches := [] }

theorem input_of_unshown (h : d'.unshown = d.unshown) : d'.input = d.input :=
  congrArg (fun d => d.input) h

theorem output_of_unshown (h : d'.unshown = d.unshown) : d'.output = d.output :=
  congrArg (fun d => d.output) h

theorem get_set (v : Vector Bytes terminalCount) (u t : TerminalId) (bs : Bytes) :
    (v.set u bs u.isLt).get t = if u = t then bs else v.get t := by
  simp only [Vector.get_eq_getElem, Vector.getElem_set, Fin.val_inj]

theorem carries_pushInput (d : DeviceRecorder) (u : TerminalId) (bs : Bytes) :
    Carries t d (if u = t then { arrived := bs } else {}) (d.pushInput u bs) := by
  refine ⟨?_, ?_⟩
  · split <;> exact (List.append_nil _).symm
  · rw [pushInput, get_set]
    split
    case isTrue hu => rw [hu, List.nil_append]
    case isFalse => exact List.append_nil _

theorem carries_terminalWrite (d : DeviceRecorder) (u : TerminalId) (bs : Bytes) :
    Carries t d (if u = t then { written := bs } else {}) (Devices.terminalWrite u bs d).2 := by
  have hset : (Devices.terminalWrite u bs d).2.output.get t =
      if u = t then d.output.get u ++ bs else d.output.get t := get_set ..
  refine ⟨?_, ?_⟩
  · rw [hset]
    split
    case isTrue hu => rw [hu]
    case isFalse => exact (List.append_nil _).symm
  · split <;> exact List.append_nil _

def next (d : DeviceRecorder) (u : TerminalId) (buffer : Bytes) : Bytes :=
  (d.input.get u).take (min buffer.length (d.input.get u).length)

theorem length_next (d : DeviceRecorder) (u : TerminalId) (buffer : Bytes) :
    (d.next u buffer).length = min buffer.length (d.input.get u).length :=
  List.length_take_of_le (Nat.min_le_right ..)

theorem carries_terminalRead (d : DeviceRecorder) (u : TerminalId) (buffer : Bytes) :
    Carries t d (if u = t then { returned := d.next u buffer } else {})
      (Devices.terminalRead u buffer d).2.2 := by
  have hset : (Devices.terminalRead u buffer d).2.2.input.get t =
      if u = t then (d.input.get u).drop (min buffer.length (d.input.get u).length)
      else d.input.get t := get_set ..
  refine ⟨?_, ?_⟩
  · split <;> exact (List.append_nil _).symm
  · rw [hset]
    split
    case isTrue hu => rw [next, hu, List.append_nil, List.take_append_drop]
    case isFalse => exact List.append_nil _

end DeviceRecorder

open DeviceRecorder (Carries)

namespace OpenFile

variable {F : Type} [FileSystem F] {t : TerminalId}

theorem carries_read {f : OpenFile} (hf : f.kind ≠ .stdin) (fs : F) (u : TerminalId)
    (buffer : Bytes) (d : DeviceRecorder) : Carries t d {} (f.read fs u buffer d).devices := by
  unfold read
  split
  · exact absurd ‹f.kind = .stdin› hf
  · exact .of_eq rfl rfl
  · exact .of_eq rfl rfl
  · unfold readDirectory
    split
    · exact .of_eq rfl rfl
    · split <;> exact .of_eq rfl rfl
  · unfold readRegular
    split <;> exact .of_eq rfl rfl

theorem carries_write {f : OpenFile} (hf : f.kind ≠ .stdout) (u : TerminalId) (bs : Bytes)
    (d : DeviceRecorder) : Carries t d {} (f.write u bs d).2 := by
  unfold write
  split
  · exact absurd ‹f.kind = .stdout› hf
  · unfold writeClock
    split <;> exact .of_eq rfl rfl
  · exact .of_eq rfl rfl

theorem carries_open (kind : FileKind) (d : DeviceRecorder) : Carries t d {} (kind.open d).2 := by
  cases kind <;> exact .of_eq rfl rfl

end OpenFile

def SystemCall.traffic (reply : Reply) : SystemCall → Traffic
  | .write fd bytes => if fd = 1 then { written := bytes } else {}
  | .read fd _ =>
    match reply with
    | ⟨.answer n, some buffer⟩ => if fd = 0 then { returned := buffer.take n.toNat } else {}
    | _ => {}
  | _ => {}

namespace Kernel

variable {M F : Type} [Machine M] [FileSystem F] {k k' : Kernel M DeviceRecorder F}
  {cur : ProcessId} {p : ProcessRecord} {t : TerminalId} {x : Traffic} {fd : Nat}
  {file : Option OpenFile}

/-- A call of a process left the standard streams where they are, and this passed over a terminal. -/
def Moves (k k' : Kernel M DeviceRecorder F) (cur : ProcessId) (t : TerminalId) (x : Traffic) :
    Prop :=
  ∃ files d m, k' = k.served cur files d m ∧ files.Standard ∧ Carries t k.devices x d

omit [FileSystem F] [Machine M] in
theorem moves_devices (hp : k.processes.get? cur = some p) (hf : p.files.Standard)
    {d : DeviceRecorder} (hd : Carries t k.devices x d) :
    k.Moves { k with devices := d } cur t x := by
  refine ⟨p.files, d, k.machine, ?_, hf, hd⟩
  rw [served, withFiles_self hp]

omit [FileSystem F] [Machine M] in
theorem moves_refl (hp : k.processes.get? cur = some p) (hf : p.files.Standard) :
    k.Moves k cur t {} := moves_devices hp hf (.of_eq rfl rfl)

omit [FileSystem F] [Machine M] in
theorem moves_putFile (hp : k.processes.get? cur = some p) (hf : (p.files.put fd file).Standard)
    {d : DeviceRecorder} (hd : Carries t k.devices x d) :
    k.Moves ({ k with devices := d }.putFile cur fd file) cur t x :=
  ⟨p.files.put fd file, d, k.machine, putFile_eq (k := { k with devices := d }) hp fd file, hf, hd⟩

omit [FileSystem F] in
theorem Moves.leave (h : k.masked.Moves k' cur t x) : k.Moves (k.leave k') cur t x := by
  obtain ⟨files, d, m, rfl, hf, hd⟩ := h
  unfold Kernel.leave unmasked
  split
  · exact ⟨files, d, _, rfl, hf, hd⟩
  · exact ⟨files, d, _, rfl, hf, hd⟩

section

variable (hc : k.current = some cur) (hp : k.processes.get? cur = some p) (hf : p.files.Standard)

include hc hp hf

omit [Machine M] in
theorem moves_readDescriptor {fd : Int} (hfd : fd ≠ 0) (buffer : Bytes) :
    k.Moves (k.readDescriptor fd buffer).2.2 cur t {} := by
  unfold readDescriptor
  split
  · exact moves_refl hp hf
  · rename_i i hi
    obtain ⟨rfl, -⟩ := descriptorIndex_eq_ok_iff.mp hi
    split
    · exact moves_refl hp hf
    · rename_i y u f hr
      obtain ⟨rfl, hfile⟩ := requireFile_eq_ok hc hp hr
      have hi0 : i ≠ 0 := fun he => hfd (by rw [he]; rfl)
      refine moves_putFile hp (hf.put_same ?_) ?_
      · rw [Option.map_some, f.kind_read, FileTable.kind?, hfile, Option.map_some]
      · exact OpenFile.carries_read (hf.kind_ne_stdin hfile hi0) ..

omit [Machine M] in
theorem readDescriptor_stdin (buffer : Bytes) :
    ∃ k', k.readDescriptor 0 buffer = (.ok (k.devices.next p.terminal buffer).length,
        Bytes.fill buffer (k.devices.next p.terminal buffer), k') ∧
      k.Moves k' cur t
        (if p.terminal = t then { returned := k.devices.next p.terminal buffer } else {}) := by
  obtain ⟨f, hfile, hk⟩ := hf.exists_stdin
  have hread : f.read k.fs p.terminal buffer k.devices =
      ⟨.ok (k.devices.next p.terminal buffer).length,
        Bytes.fill buffer (k.devices.next p.terminal buffer), f,
        (Devices.terminalRead p.terminal buffer k.devices).2.2⟩ := by
    simp only [OpenFile.read, hk, DeviceRecorder.length_next]
    rfl
  have hr := readDescriptor_eq hc hp hfile buffer
  rw [hread] at hr
  refine ⟨_, hr, moves_putFile hp (hf.put_same ?_) (DeviceRecorder.carries_terminalRead ..)⟩
  rw [Option.map_some, FileTable.kind?, hfile, Option.map_some]

omit [Machine M] [FileSystem F] in
theorem moves_writeDescriptor {fd : Int} (hfd : fd ≠ 1) (bytes : Bytes) :
    k.Moves (k.writeDescriptor fd bytes).2 cur t {} := by
  unfold writeDescriptor
  split
  · exact moves_refl hp hf
  · rename_i i hi
    obtain ⟨rfl, -⟩ := descriptorIndex_eq_ok_iff.mp hi
    split
    · exact moves_refl hp hf
    · rename_i y u f hr
      obtain ⟨rfl, hfile⟩ := requireFile_eq_ok hc hp hr
      have hi1 : i ≠ 1 := fun he => hfd (by rw [he]; rfl)
      exact moves_devices hp hf (OpenFile.carries_write (hf.kind_ne_stdout hfile hi1) ..)

omit [Machine M] [FileSystem F] in
theorem moves_writeDescriptor_stdout (bytes : Bytes) :
    k.Moves (k.writeDescriptor 1 bytes).2 cur t
      (if p.terminal = t then { written := bytes } else {}) := by
  obtain ⟨f, hfile, hk⟩ := hf.exists_stdout
  have hi : descriptorIndex 1 = .ok 1 := rfl
  have hw : (k.writeDescriptor 1 bytes).2 =
      { k with devices := (Devices.terminalWrite p.terminal bytes k.devices).2 } := by
    simp only [writeDescriptor, hi, requireFile_eq hc hp hfile, OpenFile.write, hk]
  rw [hw]
  exact moves_devices hp hf (DeviceRecorder.carries_terminalWrite ..)

omit [Machine M] in
theorem moves_openLocked (name : Bytes) : k.Moves (k.openLocked name).2 cur t {} := by
  rw [openLocked_eq hc hp]
  split
  · exact moves_refl hp hf
  · exact moves_refl hp hf
  · rename_i d i hd hi
    have hopen := OpenFile.carries_open (t := t) (.ofType d.fileType) k.devices
    split
    · rename_i e devices he
      rw [he] at hopen
      exact moves_devices hp hf hopen
    · rename_i u devices he
      rw [he] at hopen
      refine moves_putFile hp (hf.put_user (FileTable.findFree_ge hi) ?_ ?_) hopen
      · cases d.fileType <;> exact nofun
      · cases d.fileType <;> exact nofun

omit [Machine M] [FileSystem F] in
theorem moves_closeLocked (hfd : firstUserDescriptor ≤ fd) :
    k.Moves (k.closeLocked fd).2 cur t {} := by
  unfold closeLocked
  split
  · exact moves_refl hp hf
  · rename_i y u f hr
    obtain ⟨rfl, hfile⟩ := requireFile_eq_ok hc hp hr
    split
    · exact moves_refl hp hf
    · exact moves_putFile (d := k.devices) hp (hf.put_user hfd (by simp) (by simp)) (.of_eq rfl rfl)

/-- A service passes over the terminal of its caller what it writes to standard output or gets
from standard input, and over the others nothing. -/
theorem moves_syscall {call : SystemCall} (hcall : call.IsService)
    (hfits : ∀ buffer, call = .read 0 buffer → buffer.length ≤ largePageSize.toNat)
    (caller : SavedContext) :
    k.Moves (k.syscall call caller).2 cur t
      (if p.terminal = t then call.traffic (k.syscall call caller).1 else {}) := by
  have hidle {k' : Kernel M DeviceRecorder F} {x : Traffic} (hk : k.Moves k' cur t {})
      (hx : x = {}) : k.Moves k' cur t (if p.terminal = t then x else {}) := by
    rw [hx, ite_self]
    exact hk
  cases call with
  | halt | execute => cases hcall
  | read fd buffer =>
    by_cases hfd : fd = 0
    · subst fd
      obtain ⟨k', hr, hk⟩ := readDescriptor_stdin (t := t) hc hp hf buffer
      have hlt : (k.devices.next p.terminal buffer).length < answerBound := by
        rw [DeviceRecorder.length_next]
        exact ((Nat.min_le_left ..).trans (hfits buffer rfl)).trans_lt (by decide)
      have hsyscall : k.syscall (.read 0 buffer) caller =
          (⟨.answer (k.devices.next p.terminal buffer).length,
            some (Bytes.fill buffer (k.devices.next p.terminal buffer))⟩, k') := by
        simp only [syscall, hr, answerNat, KernelError.syscallValue_natCast hlt]
      have htraffic : SystemCall.traffic (k.syscall (.read 0 buffer) caller).1 (.read 0 buffer) =
          { returned := k.devices.next p.terminal buffer } := by
        rw [hsyscall]
        simp only [SystemCall.traffic, if_true, Int.toNat_natCast, Bytes.fill, List.take_left]
      rw [htraffic, hsyscall]
      exact hk
    · refine hidle (moves_readDescriptor hc hp hf hfd buffer) ?_
      simp only [SystemCall.traffic, syscall, answerNat, if_neg hfd]
  | write fd bytes =>
    by_cases hfd : fd = 1
    · subst fd
      exact moves_writeDescriptor_stdout hc hp hf bytes
    · exact hidle (moves_writeDescriptor hc hp hf hfd bytes) (if_neg hfd)
  | «open» name => exact hidle (moves_openLocked (k := k.masked) hc hp hf name).leave rfl
  | close fd =>
    refine hidle ?_ rfl
    simp only [syscall, closeFile]
    split
    · exact moves_refl hp hf
    · split
      · exact moves_refl hp hf
      · rename_i i _ hi
        exact (moves_closeLocked (k := k.masked) hc hp hf (not_lt.mp hi)).leave
  | getArguments | videoMap | setHandler | signalReturn => exact hidle (moves_refl hp hf) rfl

end

end Kernel

end TerminalKernel
