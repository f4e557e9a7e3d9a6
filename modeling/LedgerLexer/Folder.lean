/-
A folder of files given by their names and bytes, and the texts that paths lead to in
it. A path may step to the folder it stands in any number of times before it names a
file; it leads nowhere when it is empty, starts at the root, leaves the folder, or
names no file. Bytes are a text when they are valid UTF-8; a byte order mark is a
character of the text like any other.
-/

import LedgerLexer.FileReport

namespace LedgerLexer

structure File where
  name : Text
  bytes : ByteArray

abbrev Folder := List File

def isStepInPlace (part : Text) : Bool :=
  part.isEmpty || part == ['.']

/-- The name of the file that a path asks for in the folder it starts from. -/
def fileName? (path : Text) : Option Text :=
  let parts := path.splitOn '/'
  match parts.getLast? with
  | some name =>
      if path.head? == some '/' || isStepInPlace name || !parts.dropLast.all isStepInPlace then none
      else some name
  | none => none

def decodedText? (bytes : ByteArray) : Option Text :=
  (String.fromUTF8? bytes).map String.toList

def Folder.directory (folder : Folder) : Directory := fun path => do
  let name ← fileName? path
  let file ← folder.find? (fun file => file.name == name)
  decodedText? file.bytes

end LedgerLexer
