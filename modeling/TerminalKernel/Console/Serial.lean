import TerminalKernel.Machine.Processor

namespace TerminalKernel.Serial

def base : UInt16 := 0x3F8

/-- The writes that set the line up, by their distance from the first address. -/
def setup : List (UInt16 × UInt8) :=
  [(1, 0x00), (3, 0x80), (0, 0x01), (1, 0x00), (3, 0x03), (2, 0xC7), (4, 0x0B)]

def start (p : Processor) : Processor :=
  setup.foldl (fun p w => p.ioWrite (base + w.1) w.2) p

/-- Read the status until the line is ready, at most `n + 1` times. -/
def await : Nat → Processor → Processor
  | 0, p => (p.ioRead Processor.serialStatus).2
  | n + 1, p =>
    let (status, q) := p.ioRead Processor.serialStatus
    if status &&& Processor.serialReady = 0 then await n q else q

def writeByte (p : Processor) (b : UInt8) : Processor := (await p.busy p).ioWrite base b

def write (p : Processor) (bs : Bytes) : Processor := bs.foldl writeByte p

def endLine (p : Processor) : Processor := write p [13, 10]

end TerminalKernel.Serial
