import TerminalKernel.Bytes
import TerminalKernel.Text

namespace TerminalKernel

abbrev maxFileName : Nat := 32

inductive FileType where
  | rtc
  | directory
  | regular
  deriving DecidableEq

namespace FileType

def ofCode? : UInt32 → Option FileType
  | 0 => some rtc
  | 1 => some directory
  | 2 => some regular
  | _ => none

def code : FileType → UInt32
  | rtc => 0
  | directory => 1
  | regular => 2

instance : ToString FileType where
  toString
    | rtc => "Rtc"
    | directory => "Directory"
    | regular => "Regular"

end FileType

structure Dentry where
  name : Bytes
  fileType : FileType
  inode : Nat
  deriving DecidableEq

namespace Dentry

/-- An entry with a name field, which ends at its first zero byte. -/
def ofField (field : Bytes) (fileType : FileType) (inode : Nat) : Dentry :=
  ⟨Bytes.beforeNul (field.take maxFileName), fileType, inode⟩

instance : ToString Dentry where
  toString d :=
    "Dentry \x7b name: " ++ Quoted.text ((Quoted.decode? d.name).getD "?") ++ ", file_type: " ++
      toString d.fileType ++ ", inode: " ++ toString d.inode ++ " \x7d"

end Dentry

inductive FsError where
  | notFound
  | badInode
  | badIndex
  | corrupt
  deriving DecidableEq

namespace FsError

def message : FsError → String
  | notFound => "file not found"
  | badInode => "bad inode"
  | badIndex => "bad directory index"
  | corrupt => "corrupt file system image"

instance : ToString FsError where
  toString
    | notFound => "NotFound"
    | badInode => "BadInode"
    | badIndex => "BadIndex"
    | corrupt => "Corrupt"

end FsError

class FileSystem (F : Type) where
  lookup : F → Bytes → Except FsError Dentry
  dentryAt : F → Nat → Except FsError Dentry
  dentryCount : F → Nat
  fileLength : F → (inode : Nat) → Except FsError Nat
  /-- Read from an offset into a buffer. The buffer comes back with the number of bytes read, which
  is 0 at the end of the file; after an error it may be partly filled. -/
  readData : F → (inode offset : Nat) → (buffer : Bytes) → Except FsError Nat × Bytes

end TerminalKernel
