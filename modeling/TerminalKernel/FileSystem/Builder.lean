import TerminalKernel.FileSystem.Image

namespace TerminalKernel

inductive ImageEntry where
  | directory (name : Bytes)
  | rtc (name : Bytes)
  /-- A file with its data, and the length to declare when it is not that of the data. -/
  | file (name data : Bytes) (declared : Option UInt32)

namespace ImageEntry

def name : ImageEntry → Bytes
  | directory n => n
  | rtc n => n
  | file n _ _ => n

def fileType : ImageEntry → FileType
  | directory _ => .directory
  | rtc _ => .rtc
  | file .. => .regular

end ImageEntry

structure Piece where
  pos : Nat
  bytes : Bytes

namespace ImageBuilder

def files (es : List ImageEntry) : List (Bytes × UInt32) :=
  es.filterMap fun
    | .file _ data declared => some (data, declared.getD (UInt32.ofNat data.length))
    | _ => none

def blocksFor (n : Nat) : Nat := (n + (blockSize - 1)) / blockSize

def dentryPieces (i inode : Nat) : List ImageEntry → List Piece
  | [] => []
  | e :: es =>
    let base := dentrySize + dentrySize * i
    let head : List Piece := [⟨base, e.name⟩, ⟨base + 32, Bytes.ofWord e.fileType.code⟩]
    match e with
    | .file .. =>
      head ++ ⟨base + 36, Bytes.ofWord (UInt32.ofNat inode)⟩ :: dentryPieces (i + 1) (inode + 1) es
    | _ => head ++ dentryPieces (i + 1) inode es

/-- Data and inode blocks of the files from inode `i` on; `block` numbers the next data block. A file
takes its numbers after its data: those that its inode block cannot hold replace what follows it. -/
def filePieces (inodes i block : Nat) : List (Bytes × UInt32) → List Piece
  | [] => []
  | (data, length) :: fs =>
    let n := blocksFor data.length
    let numbers := (List.range n).flatMap fun k => Bytes.ofWord (UInt32.ofNat (block + k))
    ⟨blockSize * (1 + inodes + block), data⟩ ::
      ⟨blockSize * (1 + i), Bytes.ofWord length ++ numbers⟩ ::
      filePieces inodes (i + 1) (block + n) fs

def build (es : List ImageEntry) : Array UInt8 :=
  let fs := files es
  let blocks := fs.foldl (fun n f => n + blocksFor f.1.length) 0
  let counts := [es.length, fs.length, blocks].flatMap fun n => Bytes.ofWord (UInt32.ofNat n)
  let pieces := ⟨0, counts⟩ :: dentryPieces 0 0 es ++ filePieces fs.length 0 0 fs
  pieces.foldl (fun image p => Bytes.storeAt image p.pos p.bytes)
    (Array.replicate (blockSize * (1 + fs.length + blocks)) 0)

end ImageBuilder

end TerminalKernel
