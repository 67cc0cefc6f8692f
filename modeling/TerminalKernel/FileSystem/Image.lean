import TerminalKernel.FileSystem.Basic

namespace TerminalKernel

abbrev blockSize : Nat := 4096

abbrev dentrySize : Nat := 64

abbrev maxDentries : Nat := 63

abbrev blocksPerInode : Nat := 1023

structure FileImage where
  image : Array UInt8
  dentries : Nat
  inodes : Nat
  dataBlocks : Nat

namespace FileImage

def slice? (image : Array UInt8) (pos n : Nat) : Option Bytes :=
  if pos + n ≤ image.size then some (image.extract pos (pos + n)).toList else none

def word (image : Array UInt8) (pos : Nat) : Except FsError UInt32 :=
  match slice? image pos 4 with
  | some bs => .ok (Bytes.toWord bs)
  | none => .error .corrupt

def open? (image : Array UInt8) : Except FsError FileImage := do
  let dentries := (← word image 0).toNat
  let inodes := (← word image 4).toNat
  let dataBlocks := (← word image 8).toNat
  if maxDentries < dentries ∨ image.size < (1 + inodes + dataBlocks) * blockSize then
    .error .corrupt
  else
    .ok ⟨image, dentries, inodes, dataBlocks⟩

def dentry (f : FileImage) (i : Nat) : Except FsError Dentry :=
  let base := dentrySize + dentrySize * i
  match slice? f.image base maxFileName with
  | none => .error .corrupt
  | some name => do
    match FileType.ofCode? (← word f.image (base + 32)) with
    | none => .error .corrupt
    | some fileType => return .ofField name fileType (← word f.image (base + 36)).toNat

/-- Search the directory from position `i` on. An entry that cannot be read ends the search. -/
def search (f : FileImage) (name : Bytes) (i : Nat) : Except FsError Dentry :=
  if i < f.dentries then
    match f.dentry i with
    | .error e => .error e
    | .ok d => if d.name = name then .ok d else f.search name (i + 1)
  else .error .notFound
termination_by f.dentries - i

def lookup (f : FileImage) (name : Bytes) : Except FsError Dentry :=
  if name = [] ∨ maxFileName < name.length then .error .notFound else f.search name 0

def dentryAt (f : FileImage) (i : Nat) : Except FsError Dentry :=
  if i < f.dentries then f.dentry i else .error .badIndex

def inodeBase (f : FileImage) (inode : Nat) : Except FsError Nat :=
  if inode < f.inodes then .ok (blockSize * (inode + 1)) else .error .badInode

def fileLength (f : FileImage) (inode : Nat) : Except FsError Nat := do
  return (← word f.image (← f.inodeBase inode)).toNat

def blockBase (f : FileImage) (index : Nat) : Nat := blockSize * (1 + f.inodes + index)

def slotBase (f : FileImage) (base slot : Nat) : Except FsError Nat := do
  if blocksPerInode ≤ slot then .error .corrupt
  else
    let index := (← word f.image (base + 4 + 4 * slot)).toNat
    if f.dataBlocks ≤ index then .error .corrupt else return f.blockBase index

/-- The next `want` bytes of a file from a position on, block by block. What precedes a fault comes
back with it. -/
def readBlocks (f : FileImage) (base pos want : Nat) : Except FsError Unit × Bytes :=
  if want = 0 then (.ok (), [])
  else
    let inBlock := pos % blockSize
    let n := min (blockSize - inBlock) want
    match f.slotBase base (pos / blockSize) with
    | .error e => (.error e, [])
    | .ok start =>
      match slice? f.image (start + inBlock) n with
      | none => (.error .corrupt, [])
      | some piece =>
        let rest := f.readBlocks base (pos + n) (want - n)
        (rest.1, piece ++ rest.2)
termination_by want
decreasing_by
  have := Nat.mod_lt pos (show 0 < blockSize by decide)
  omega

def readData (f : FileImage) (inode offset : Nat) (buffer : Bytes) : Except FsError Nat × Bytes :=
  match f.inodeBase inode with
  | .error e => (.error e, buffer)
  | .ok base =>
    match word f.image base with
    | .error e => (.error e, buffer)
    | .ok length =>
      if length.toNat ≤ offset ∨ buffer = [] then (.ok 0, buffer)
      else
        let want := min buffer.length (length.toNat - offset)
        let got := f.readBlocks base offset want
        (got.1.map fun _ => want, Bytes.fill buffer got.2)

instance : FileSystem FileImage where
  lookup := lookup
  dentryAt := dentryAt
  dentryCount f := f.dentries
  fileLength := fileLength
  readData := readData

end FileImage

end TerminalKernel
