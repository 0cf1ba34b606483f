import Mathlib.Data.List.Nodup
import StagedLexer.Proofs.ForestConstruction
import StagedLexer.Proofs.Literals

/-! The literals of a scanning routine: texts of its readers, sets of code units, and the names of
stages in the arms and in the transitions. -/
namespace StagedLexer

namespace ByteSet

theorem isEmpty_of_ranges_eq_nil {set : ByteSet} (none : set.ranges = []) :
    set.isEmpty = true := by
  refine isEmpty_iff.mpr fun b => ?_
  rw [← matchedBy_ranges, none]
  rfl

end ByteSet

namespace Code

/-- The string whose literal stands between two texts in a piece of code. -/
def quoted? (before after : String) : Code → Option String
  | .literal text => do
    let rest ← text.toList.dropPrefix? before.toList
    let (s, rest) ← Text.stringAt? rest
    if rest = after.toList then return s else none
  | _ => none

theorem quoted?_literal (before after s : String) :
    quoted? before after (.literal (before ++ Text.quote s ++ after)) = some s := by
  have inside : (before ++ Text.quote s ++ after).toList.dropPrefix? before.toList =
      some ((Text.quote s).toList ++ after.toList) := by
    rw [List.dropPrefix?_eq_some_iff]
    exact ⟨before.toList, by simp, beq_self_eq_true _⟩
  rw [quoted?, inside]
  simp [Text.stringAt?_quote]

end Code

/-- The stage that the head of an arm is for. -/
def armStage? (head : Code) : Option String := head.quoted? "Some(" ") => \x7b\n"

/-- The stage that a transition switches to. -/
def switchedStage? (move : Code) : Option String :=
  move.quoted? "*stage = Some(String::from(" "));\n"

theorem armStage?_armHead (stage : String) : armStage? (Stmt.armHead stage) = some stage :=
  Code.quoted?_literal ..

/-- What literals of emitted source stand for: texts of code units and names of stages are read back
from them whatever stands behind, and the pattern of a set that is not empty matches its members. So
no two arms of a routine are for one stage. -/
theorem literals_stand_for_values {Ctx : Type} :
    (∀ units rest,
      Text.byteStringAt? ((byteStringLiteral units).toList ++ rest) = some (units, rest)) ∧
    (∀ set : ByteSet, set.isEmpty = false →
      ∃ alternatives, ByteSet.pattern? set.pattern.toList = some alternatives ∧
        ∀ b, ByteSet.matchedBy alternatives b = set.contains b) ∧
    (∀ stage rest, Text.stringAt? ((Text.quote stage).toList ++ rest) = some (stage, rest)) ∧
    (∀ stage, armStage? (Stmt.armHead stage) = some stage) ∧
    (∀ (frame : Frame) rule stop stage,
      switchedStage? (frame.stageMove rule stop (.switch stage)) = some stage) ∧
    Function.Injective Stmt.armHead ∧
    ∀ (rules : List (Rule Ctx)) initialStage,
      ((Forest.ofRules rules initialStage).stages.map Stmt.armHead).Nodup := by
  have injective : Function.Injective Stmt.armHead := by
    intro stage stage' same
    have read := armStage?_armHead stage
    rw [same, armStage?_armHead] at read
    exact (Option.some.inj read).symm
  refine ⟨byteStringAt?_byteStringLiteral, ?_, Text.stringAt?_quote, armStage?_armHead, ?_,
    injective, ?_⟩
  · intro set filled
    refine ⟨set.ranges, ?_, ByteSet.matchedBy_ranges set⟩
    apply ByteSet.pattern?_pattern
    intro none
    rw [ByteSet.isEmpty_of_ranges_eq_nil none] at filled
    cases filled
  · intro frame rule stop stage
    exact Code.quoted?_literal ..
  · intro rules initialStage
    exact (Forest.nodup_stages_ofRules rules initialStage).map injective

/-- Quotes, backslashes and a range of letters in one set. -/
theorem literals_stand_for_values_quoted :
    (ByteSet.ofBytes [0x22, 0x27, 0x5c, 0x61, 0x62]).isEmpty = false ∧
      ∃ alternatives,
        ByteSet.pattern? (ByteSet.ofBytes [0x22, 0x27, 0x5c, 0x61, 0x62]).pattern.toList =
          some alternatives ∧
        ∀ b, ByteSet.matchedBy alternatives b =
          (ByteSet.ofBytes [0x22, 0x27, 0x5c, 0x61, 0x62]).contains b := by
  have filled : (ByteSet.ofBytes [0x22, 0x27, 0x5c, 0x61, 0x62]).isEmpty = false := by decide
  exact ⟨filled, (@literals_stand_for_values Unit).2.1 _ filled⟩

end StagedLexer
