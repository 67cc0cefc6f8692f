import TerminalKernel.Bytes

namespace TerminalKernel

abbrev screenHeight : Nat := 25

abbrev screenWidth : Nat := 80

structure Cell where
  char : UInt8
  color : UInt8
  deriving DecidableEq

abbrev ScreenRow := Vector Cell screenWidth

structure Screen where
  rows : Vector ScreenRow screenHeight := Vector.replicate _ (Vector.replicate _ ⟨0, 0⟩)
  column : Nat := 0
  color : UInt8 := 7
  deriving DecidableEq

namespace Screen

def textColor : UInt8 := 0x07

def errorColor : UInt8 := 0x0C

def blank (color : UInt8) : ScreenRow := Vector.replicate _ ⟨32, color⟩

def start (s : Screen) : Screen := { s with column := 0, color := textColor }

/-- Move all rows up. The new row is blank in the colour of the line that ends. -/
def newLine (s : Screen) : Screen :=
  { rows := Vector.ofFn fun i =>
      if h : i.val + 1 < screenHeight then s.rows[i.val + 1] else blank s.color
    column := 0
    color := textColor }

def put (s : Screen) (b : UInt8) : Screen :=
  { s with
    rows := s.rows.set (screenHeight - 1)
      (s.rows[screenHeight - 1].setIfInBounds s.column ⟨b, s.color⟩)
    column := s.column + 1 }

/-- Write a byte. A full row is left when the next character comes. -/
def writeByte (s : Screen) (b : UInt8) : Screen :=
  if b = 10 then s.newLine
  else if screenWidth ≤ s.column then s.newLine.put b
  else s.put b

def write (s : Screen) (bs : Bytes) : Screen := bs.foldl writeByte s

def setErrorColor (s : Screen) : Screen := { s with color := errorColor }

def endLine (s : Screen) : Screen := s.write [10]

end Screen

end TerminalKernel
