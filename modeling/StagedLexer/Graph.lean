import StagedLexer.Dot
import StagedLexer.Folder
import StagedLexer.Tokenizer

/-! The tries of a tokenizer as graphs. -/
namespace StagedLexer

variable {Ctx : Type}

namespace Branch

open Dot (Call)

def nodeName (id : Nat) : String := "branch_" ++ toString id

def nodeCall (id : Nat) : (rule : Option Nat) → Call
  | some rule => .node (nodeName id)
      [.circle, .red, .penWidth 3, .label (toString id ++ "\\nrule " ++ toString rule)]
  | none => .node (nodeName id) [.label (toString id)]

def edgeCall (parent : String) (id : Nat) (readers : List (Reader Ctx)) : Call :=
  .edge parent (nodeName id)
    [.label (Text.plain (String.intercalate " " (readers.map Reader.describe)))]

def under (parent : String) (branches : List (Branch Ctx)) : List (String × Branch Ctx) :=
  branches.map (parent, ·)

theorem map_snd_under (parent : String) (branches : List (Branch Ctx)) :
    (under parent branches).map (·.2) = branches := by
  simp [under, Function.comp_def]

/-- Draws the branches on a stack, the uppermost one first, each below the node it is given with.
The children of a branch are put on top of those that still wait. -/
def draw : (stack : List (String × Branch Ctx)) → List Call
  | [] => []
  | (parent, ⟨id, readers, children, rule, _⟩) :: waiting =>
    nodeCall id rule :: edgeCall parent id readers ::
      draw (under (nodeName id) children ++ waiting)
termination_by stack => (preorderAll (stack.map (·.2))).length
decreasing_by simp [preorderAll, preorder, preorderAll_append, map_snd_under]

def calls (label : String) (roots : List (Branch Ctx)) : List Call :=
  .label label :: .leftToRight :: .node "root" [.circle, .blue, .penWidth 3, .label ""] ::
    draw (under "root" roots)

def graph (label : String) (roots : List (Branch Ctx)) : String := Dot.render (calls label roots)

end Branch

namespace Tokenizer

def labelledTries (tokenizer : Tokenizer Ctx) : List (String × List (Branch Ctx)) :=
  tokenizer.lexicon.forest.tries ++ [("stageless", tokenizer.lexicon.forest.stageless)]

def writeGraphs (tokenizer : Tokenizer Ctx) : Except BuildError Folder :=
  match tokenizer.labelledTries.foldlM
      (fun folder (label, roots) =>
        Folder.write folder (label ++ ".dot") (Branch.graph label roots))
      [] with
  | .ok folder => .ok folder
  | .error fault => .error (.file fault)

def noteGraphs (tokenizer : Tokenizer Ctx) : List Note :=
  tokenizer.labelledTries.map fun (label, roots) => .trieDrawn label (Branch.graph label roots)

end Tokenizer

end StagedLexer
