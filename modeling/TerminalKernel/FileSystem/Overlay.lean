import TerminalKernel.FileSystem.Basic

namespace TerminalKernel

structure Overlay (F : Type) where
  base : F
  hidden : List Bytes := []
  lengths : List (Nat × Nat) := []

namespace Overlay

variable {F : Type} [FileSystem F]

def hide (o : Overlay F) (name : Bytes) : Overlay F := { o with hidden := name :: o.hidden }

def unhide (o : Overlay F) (name : Bytes) : Overlay F :=
  { o with hidden := o.hidden.filter (· != name) }

/-- Let a file claim a length. What can be read stays the same. -/
def setLength (o : Overlay F) (inode length : Nat) : Overlay F :=
  { o with lengths := (inode, length) :: o.lengths }

instance : FileSystem (Overlay F) where
  lookup o name := if name ∈ o.hidden then .error .notFound else FileSystem.lookup o.base name
  dentryAt o := FileSystem.dentryAt o.base
  dentryCount o := FileSystem.dentryCount o.base
  fileLength o inode :=
    match o.lengths.lookup inode with
    | some n => .ok n
    | none => FileSystem.fileLength o.base inode
  readData o := FileSystem.readData o.base

end Overlay

end TerminalKernel
