import TerminalKernel.Kernel.SystemCall
import TerminalKernel.Proofs.Displays

namespace TerminalKernel

def SystemCall.IsService : SystemCall → Prop
  | .halt _ | .execute _ => False
  | _ => True

namespace OpenFile

variable {D F : Type} [Devices D] [FileSystem F]

theorem close_eq_of_kind {f g : OpenFile} (h : f.kind = g.kind) : f.close = g.close := by
  rw [close, close, h]

theorem close_ofType (type : FileType) (inode : Nat) :
    (OpenFile.mk (.ofType type) 0 inode).close = .ok () := by
  cases type <;> rfl

omit [Devices D] in
theorem kind_readDirectory (f : OpenFile) (fs : F) (buffer : Bytes) (d : D) :
    (f.readDirectory fs buffer d).file.kind = f.kind := by
  unfold readDirectory
  split
  · rfl
  · split <;> rfl

omit [Devices D] in
theorem kind_readRegular (f : OpenFile) (fs : F) (buffer : Bytes) (d : D) :
    (f.readRegular fs buffer d).file.kind = f.kind := by
  unfold readRegular
  split <;> rfl

theorem kind_read (f : OpenFile) (fs : F) (t : TerminalId) (buffer : Bytes) (d : D) :
    (f.read fs t buffer d).file.kind = f.kind := by
  unfold read
  split
  · rfl
  · rfl
  · rfl
  · exact kind_readDirectory ..
  · exact kind_readRegular ..

end OpenFile

namespace Kernel

variable {M D F : Type} {k : Kernel M D F} {pid : ProcessId} {p : ProcessRecord}

def served (pid : ProcessId) (files : FileTable) (d : D) (m : M) (k : Kernel M D F) :
    Kernel M D F := { k.withFiles pid files with devices := d, machine := m }

def Serves (pid : ProcessId) (m : M) (k k' : Kernel M D F) : Prop :=
  ∃ files d, FileTable.Closable files ∧ k' = k.served pid files d m

theorem Serves.refl (hp : k.processes.get? pid = some p) (hf : p.files.Closable) (d : D) :
    k.Serves pid k.machine { k with devices := d } := by
  refine ⟨p.files, d, hf, ?_⟩
  rw [served, withFiles_self hp]

theorem putFile_eq (hp : k.processes.get? pid = some p) (fd : Nat) (file : Option OpenFile) :
    k.putFile pid fd file = k.withFiles pid (p.files.put fd file) := by
  have ht : k.processes.modify pid (fun q => { q with files := q.files.put fd file }) =
      k.processes.modify pid fun q => { q with files := p.files.put fd file } := by
    refine ProcessTable.ext_get? rfl rfl ?_
    intro x
    by_cases hx : x = pid
    · simp [hx, hp]
    · simp [hx]
  exact congrArg (fun processes => ({ k with processes } : Kernel M D F)) ht

theorem Serves.putFile (hp : k.processes.get? pid = some p) (hf : p.files.Closable) {fd : Nat}
    {file : Option OpenFile} (hfile : ∀ f ∈ file, firstUserDescriptor ≤ fd → f.close = .ok ())
    (d : D) : k.Serves pid k.machine ({ k with devices := d }.putFile pid fd file) :=
  ⟨p.files.put fd file, d, hf.put hfile, putFile_eq (k := { k with devices := d }) hp fd file⟩

theorem requireFile_eq_ok {fd : Nat} {x : ProcessId} {t : TerminalId} {f : OpenFile}
    (hc : k.current = some pid) (hp : k.processes.get? pid = some p)
    (h : k.requireFile fd = .ok (x, t, f)) : x = pid ∧ p.files.get? fd = some f := by
  have hr : k.requireCurrent = .ok pid := by rw [requireCurrent, hc]
  have hg : k.processes.get pid = .ok p := by rw [ProcessTable.get, hp]
  simp only [requireFile, hr, hg, bind, Except.bind, pure, Except.pure] at h
  split at h
  · rename_i file hfile
    cases h
    exact ⟨rfl, hfile⟩
  · cases h

section

variable [Devices D] [FileSystem F]

theorem serves_readDescriptor (hc : k.current = some pid) (hp : k.processes.get? pid = some p)
    (hf : p.files.Closable) (fd : Int) (buffer : Bytes) :
    k.Serves pid k.machine (k.readDescriptor fd buffer).2.2 := by
  unfold readDescriptor
  split
  · exact .refl hp hf k.devices
  · rename_i fd _
    split
    · exact .refl hp hf k.devices
    · rename_i x t file hr
      obtain ⟨rfl, hfile⟩ := requireFile_eq_ok hc hp hr
      refine .putFile hp hf ?_ _
      intro f hfm hfd
      rw [Option.mem_some_iff] at hfm
      rw [← hfm, OpenFile.close_eq_of_kind (file.kind_read k.fs t buffer k.devices)]
      exact hf fd file hfd hfile

omit [FileSystem F] in
theorem serves_writeDescriptor (hp : k.processes.get? pid = some p) (hf : p.files.Closable)
    (fd : Int) (bytes : Bytes) : k.Serves pid k.machine (k.writeDescriptor fd bytes).2 := by
  unfold writeDescriptor
  split
  · exact .refl hp hf k.devices
  · split
    · exact .refl hp hf k.devices
    · exact .refl hp hf _

theorem serves_openLocked (hc : k.current = some pid) (hp : k.processes.get? pid = some p)
    (hf : p.files.Closable) (name : Bytes) : k.Serves pid k.machine (k.openLocked name).2 := by
  have hr : k.requireCurrent = .ok pid := by rw [requireCurrent, hc]
  simp only [openLocked, hr, bind, Except.bind, pure, Except.pure]
  split
  · exact .refl hp hf k.devices
  · rename_i x entry fd hfound
    have hx : x = pid := by
      split at hfound
      · cases hfound
      · split at hfound
        · cases hfound
        · cases hfound
          rfl
    rw [hx]
    split
    · exact .refl hp hf _
    · refine .putFile hp hf ?_ _
      intro f hfile _
      rw [Option.mem_some_iff] at hfile
      rw [← hfile]
      exact OpenFile.close_ofType entry.fileType entry.inode

end

theorem serves_closeLocked (hc : k.current = some pid) (hp : k.processes.get? pid = some p)
    (hf : p.files.Closable) (fd : Nat) : k.Serves pid k.machine (k.closeLocked fd).2 := by
  unfold closeLocked
  split
  · exact .refl hp hf k.devices
  · rename_i x t file hr
    obtain ⟨rfl, hfile⟩ := requireFile_eq_ok hc hp hr
    split
    · exact .refl hp hf k.devices
    · exact .putFile hp hf (by simp) k.devices

variable [Machine M]

theorem Serves.unmasked {m : M} {k' : Kernel M D F} (h : k.masked.Serves pid m k')
    (hm : m = k.masked.machine) (enabled : Bool) :
    k.Serves pid (k.masked.unmasked enabled).machine (k'.unmasked enabled) := by
  obtain ⟨files, d, hf, rfl⟩ := h
  refine ⟨files, d, hf, ?_⟩
  rw [hm]
  cases enabled <;> rfl

variable [Devices D] [FileSystem F]

/-- The machine after a service: as it was, or with interrupts off and on again. -/
def Serviced (k : Kernel M D F) (m : M) : Prop :=
  m = k.machine ∨ m = (k.masked.unmasked (Machine.interruptsEnabled k.machine)).machine

/-- A system call that is a service answers and changes only files and devices. -/
theorem syscall_serves (hc : k.current = some pid) (hp : k.processes.get? pid = some p)
    (hf : p.files.Closable) {call : SystemCall} (hcall : call.IsService) (caller : SavedContext) :
    ∃ value m, (k.syscall call caller).1.transfer = .answer value ∧ k.Serviced m ∧
      k.Serves pid m (k.syscall call caller).2 := by
  cases call with
  | halt code => cases hcall
  | execute line => cases hcall
  | read fd buffer =>
    exact ⟨_, k.machine, rfl, Or.inl rfl, serves_readDescriptor hc hp hf fd buffer⟩
  | write fd bytes =>
    exact ⟨_, k.machine, rfl, Or.inl rfl, serves_writeDescriptor hp hf fd bytes⟩
  | «open» name =>
    refine ⟨_, _, rfl, Or.inr rfl, ?_⟩
    exact (serves_openLocked (k := k.masked) hc hp hf name).unmasked rfl _
  | close fd =>
    simp only [syscall, closeFile]
    split
    · exact ⟨_, k.machine, rfl, Or.inl rfl, .refl hp hf k.devices⟩
    · split
      · exact ⟨_, k.machine, rfl, Or.inl rfl, .refl hp hf k.devices⟩
      · refine ⟨_, _, rfl, Or.inr rfl, ?_⟩
        exact (serves_closeLocked (k := k.masked) hc hp hf _).unmasked rfl _
  | getArguments buffer => exact ⟨_, k.machine, rfl, Or.inl rfl, .refl hp hf k.devices⟩
  | videoMap dest => exact ⟨_, k.machine, rfl, Or.inl rfl, .refl hp hf k.devices⟩
  | setHandler => exact ⟨_, k.machine, rfl, Or.inl rfl, .refl hp hf k.devices⟩
  | signalReturn => exact ⟨_, k.machine, rfl, Or.inl rfl, .refl hp hf k.devices⟩

omit [Machine M] [Devices D] in
theorem Consistent.serves {σ : TerminalId → List ProcessId} (h : k.Consistent σ)
    (hc : k.current = some pid) {m : M} {k' : Kernel M D F} (hk : k.Serves pid m k') :
    k'.Consistent σ := by
  obtain ⟨files, d, hf, rfl⟩ := hk
  obtain ⟨p, hp⟩ := h.current_live hc
  exact (h.withFiles hc hp hf).of_sameCore ⟨rfl, rfl, rfl, rfl, rfl, rfl, rfl⟩

end Kernel

end TerminalKernel
