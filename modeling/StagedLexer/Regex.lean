import StagedLexer.Regex.Parser
import StagedLexer.Regex.Search
import StagedLexer.Regex.Switches

/-! Regular expressions over texts: from a pattern to a program, and the match at a position. -/
namespace StagedLexer

structure Regex where
  pattern : String
  program : Regex.Program

namespace Regex

inductive Fault where
  | malformed (cause : SyntaxError)
  | unusable (cause : BuildFault)
  deriving DecidableEq

def ofPattern (pattern : String) : Except Fault Regex :=
  match Pattern.parse pattern with
  | .error cause => .error (.malformed cause)
  | .ok parsed =>
    match Expr.ofPattern parsed >>= Program.ofExpr with
    | .error cause => .error (.unusable cause)
    | .ok program => .ok ⟨pattern, program⟩

def matchAt? (regex : Regex) (text : Bytes) (offset : Nat) : Option Nat :=
  regex.program.matchAt? text offset

end Regex

end StagedLexer
