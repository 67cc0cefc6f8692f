import TerminalKernel.Descriptor.OpenFile

namespace TerminalKernel

abbrev maxOpenFiles : Nat := 8

abbrev firstUserDescriptor : Nat := 2

structure FileTable where
  slots : Vector (Option OpenFile) maxOpenFiles
  deriving DecidableEq

namespace FileTable

def standard : FileTable :=
  ⟨#v[some ⟨.stdin, 0, 0⟩, some ⟨.stdout, 0, 0⟩, none, none, none, none, none, none]⟩

def get? (t : FileTable) (fd : Nat) : Option OpenFile := t.slots[fd]?.join

def put (t : FileTable) (fd : Nat) (file : Option OpenFile) : FileTable :=
  ⟨t.slots.setIfInBounds fd file⟩

def userDescriptors : List Nat :=
  List.range' firstUserDescriptor (maxOpenFiles - firstUserDescriptor)

def findFree (t : FileTable) : Option Nat := userDescriptors.find? fun fd => (t.get? fd).isNone

/-- The descriptors in use, the standard streams aside. -/
def openDescriptors (t : FileTable) : List Nat :=
  userDescriptors.filter fun fd => (t.get? fd).isSome

def install (t : FileTable) (fd : Nat) (file : OpenFile) : Except KernelError FileTable :=
  if firstUserDescriptor ≤ fd ∧ fd < maxOpenFiles ∧ (t.get? fd).isNone then
    .ok (t.put fd (some file))
  else .error .invalidDescriptor

def take (t : FileTable) (fd : Nat) : Option OpenFile × FileTable :=
  if fd < firstUserDescriptor then (none, t) else (t.get? fd, t.put fd none)

end FileTable

end TerminalKernel
