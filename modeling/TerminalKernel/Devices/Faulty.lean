import TerminalKernel.Devices.Basic

namespace TerminalKernel

/-- What a call does instead of reaching the device. -/
inductive DeviceFault where
  | fails
  | claims (count : Nat)
  deriving DecidableEq

namespace DeviceFault

def transfer : DeviceFault → Except KernelError Nat
  | fails => .error .device
  | claims n => .ok n

end DeviceFault

structure FaultyDevices (D : Type) where
  devices : D
  terminalRead : Option DeviceFault := none
  terminalWrite : Option DeviceFault := none
  rtcOpen : Option DeviceFault := none
  rtcWait : Option DeviceFault := none
  rtcSetFrequency : Option DeviceFault := none

namespace FaultyDevices

variable {D : Type} [Devices D]

def pass {α : Type} (d : FaultyDevices D) (r : α × D) : α × FaultyDevices D :=
  (r.1, { d with devices := r.2 })

def clock (d : FaultyDevices D) (fault : Option DeviceFault)
    (call : D → Except KernelError Unit × D) : Except KernelError Unit × FaultyDevices D :=
  if fault = some .fails then (.error .device, d) else d.pass (call d.devices)

instance : Devices (FaultyDevices D) where
  terminalRead t buffer d :=
    match d.terminalRead with
    | some fault => (fault.transfer, buffer, d)
    | none =>
      let r := Devices.terminalRead t buffer d.devices
      (r.1, r.2.1, { d with devices := r.2.2 })
  terminalWrite t bs d :=
    match d.terminalWrite with
    | some fault => (fault.transfer, d)
    | none => d.pass (Devices.terminalWrite t bs d.devices)
  rtcOpen d := d.clock d.rtcOpen Devices.rtcOpen
  rtcWait d := d.clock d.rtcWait Devices.rtcWait
  rtcSetFrequency hz d := d.clock d.rtcSetFrequency (Devices.rtcSetFrequency hz)
  showTerminal shown now d := { d with devices := Devices.showTerminal shown now d.devices }

end FaultyDevices

end TerminalKernel
