import TerminalKernel.Devices.Basic

namespace TerminalKernel

structure DeviceRecorder where
  input : Vector Bytes terminalCount := Vector.replicate _ []
  output : Vector Bytes terminalCount := Vector.replicate _ []
  switches : List (TerminalId × TerminalId) := []
  rtcOpens : UInt32 := 0
  rtcHz : UInt32 := 0
  rtcWaits : UInt32 := 0
  deriving DecidableEq

namespace DeviceRecorder

def pushInput (d : DeviceRecorder) (t : TerminalId) (bs : Bytes) : DeviceRecorder :=
  { d with input := d.input.set t (d.input.get t ++ bs) t.isLt }

instance : Devices DeviceRecorder where
  terminalRead t buffer d :=
    let queue := d.input.get t
    let n := min buffer.length queue.length
    (.ok n, Bytes.fill buffer (queue.take n),
      { d with input := d.input.set t (queue.drop n) t.isLt })
  terminalWrite t bs d :=
    (.ok bs.length, { d with output := d.output.set t (d.output.get t ++ bs) t.isLt })
  rtcOpen d := (.ok (), { d with rtcOpens := d.rtcOpens + 1, rtcHz := 2 })
  rtcWait d := (.ok (), { d with rtcWaits := d.rtcWaits + 1 })
  rtcSetFrequency hz d := (.ok (), { d with rtcHz := hz })
  showTerminal shown now d := { d with switches := d.switches ++ [(shown, now)] }

end DeviceRecorder

end TerminalKernel
