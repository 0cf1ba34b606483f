import StagedLexer.Text.Quoted

/-! The notes that building and scanning leave in the log. -/
namespace StagedLexer

inductive Level where
  | trace | debug | warn
  deriving DecidableEq, Repr

inductive Note where
  | neverActive (rule : Nat)
  | shadowed (rule winner : Nat)
  | treeBuilt (branches : Nat) (stages : List String)
  | deadAssignment (var : Nat)
  | singleUse (var : Nat)
  | fixedPoint (passes : Nat)
  | routineBuilt
  | stageSwitched (before : Option String) (after : String)
  | ruleFailed (rule : Nat) (code : Int) (position : Nat)
  | moduleEmitted (imports : Nat)
  | formatterMissing
  | trieDrawn (label graph : String)
  deriving DecidableEq, Repr

namespace Note

def level : Note → Level
  | treeBuilt _ _ | routineBuilt | moduleEmitted _ | trieDrawn _ _ => .debug
  | formatterMissing => .warn
  | _ => .trace

def message : Note → String
  | neverActive rule => "Rule " ++ toString rule ++ " is never active"
  | shadowed rule winner =>
    "Rule " ++ toString rule ++ " is shadowed by rule " ++ toString winner ++
      " with the same readers and is dropped"
  | treeBuilt branches stages =>
    "Rule tree: " ++ toString branches ++ " branches, stages " ++
      Text.bracketed (stages.map Text.quote)
  | deadAssignment var => "Removing dead assignment to " ++ toString var
  | singleUse var => "Substituting single use of " ++ toString var
  | fixedPoint passes => "Optimizer reached a fixed point after " ++ toString passes ++ " passes"
  | routineBuilt => "Scanning routine:"
  | stageSwitched before after =>
    "Switching from stage " ++ Text.optional (before.map Text.quote) ++ " to stage " ++ after
  | ruleFailed rule code position =>
    "Rule " ++ toString rule ++ " failed with code " ++ toString code ++ " at " ++
      toString position
  | moduleEmitted imports => "Emitted module with " ++ toString imports ++ " imports"
  | formatterMissing => "Failed to format file: No such file or directory (os error 2)"
  | trieDrawn label graph => "Rule tree " ++ label ++ "\n" ++ graph

end Note

end StagedLexer
