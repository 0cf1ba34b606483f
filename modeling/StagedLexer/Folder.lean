import StagedLexer.Error

/-! Writing files into a folder that is empty at first and has no folders in it. -/
namespace StagedLexer

abbrev Folder := List (String × String)

namespace Folder

inductive Target where
  | inside (name : String)
  | outside
  deriving DecidableEq, Repr

def nameLimit : Nat := 255

def pathLimit : Nat := 4095

def tooLong (part : String) : Bool := nameLimit < part.utf8ByteSize

/-- The parts of a path are looked at in order. Each but the last one would have to be a folder; the
only folders are this one and those around it. Slashes at the end ask for a folder. -/
def walk (folder : Folder) (outside : Bool) : List String → Except FileFault Target
  | [] => .error .isFolder
  | [part] =>
    if part = "" || part = "." || part = ".." then .error .isFolder
    else if tooLong part then .error .nameTooLong
    else .ok (if outside then .outside else .inside part)
  | part :: rest =>
    if part = "" || part = "." then walk folder outside rest
    else if part = ".." then walk folder true rest
    else if rest.all (· = "") then .error .isFolder
    else if tooLong part then .error .nameTooLong
    else if !outside && folder.any (·.1 = part) then .error .notFolder
    else .error .missingFolder

def target (folder : Folder) (path : String) : Except FileFault Target :=
  if path.contains '\x00' then .error .nameWithNul
  else if pathLimit < path.utf8ByteSize then .error .nameTooLong
  else walk folder (path.startsWith "/") ((path.toList.splitOn '/').map String.ofList)

def write (folder : Folder) (path content : String) : Except FileFault Folder := do
  match ← folder.target path with
  | .inside name => return folder.filter (·.1 ≠ name) ++ [(name, content)]
  | .outside => return folder

def sorted (folder : Folder) : Folder := folder.mergeSort fun a b => !decide (b.1 < a.1)

end Folder

end StagedLexer
