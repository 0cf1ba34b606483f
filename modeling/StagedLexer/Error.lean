import StagedLexer.Regex
import StagedLexer.Text.Quoted

/-! The errors of building readers and tokenizers and of writing files. Scanning has no errors of
this kind: there everything that can happen is an event. -/
namespace StagedLexer

inductive FileFault where
  | missingFolder
  | isFolder
  | notFolder
  | nameTooLong
  | nameWithNul
  deriving DecidableEq, Repr

def FileFault.message : FileFault → String
  | missingFolder => "No such file or directory (os error 2)"
  | isFolder => "Is a directory (os error 21)"
  | notFolder => "Not a directory (os error 20)"
  | nameTooLong => "File name too long (os error 36)"
  | nameWithNul => "file name contained an unexpected NUL byte"

inductive BuildError where
  | malformedRegex (pattern : String) (cause : Regex.SyntaxError)
  | unusableRegex (pattern : String) (cause : Regex.BuildFault)
  | caseMismatch (c : Char)
  | invalidRange (lo hi : UInt8)
  | unknownStage (stage : String)
  | missingImport (reader : String)
  | file (cause : FileFault)

namespace BuildError

def message : BuildError → String
  | malformedRegex pattern cause => "'" ++ pattern ++ "' " ++ cause.report pattern
  | unusableRegex pattern cause =>
    "Regex build error: '" ++ pattern ++ "': " ++
      match cause with
      | .unsupported => "error parsing pattern 0"
      | .tooLarge => "error building NFA"
  | caseMismatch c =>
    "Case-insensitive match of '" ++ String.singleton c ++
      "' is not possible: its case forms differ in length"
  | invalidRange lo hi =>
    "Invalid character range 0x" ++ Text.hex2 lo.toNat ++ "..=0x" ++ Text.hex2 hi.toNat
  | unknownStage stage => "Unknown stage '" ++ stage ++ "'"
  | missingImport reader => "No import path given for bound reader " ++ reader
  | file cause => cause.message

end BuildError

end StagedLexer
