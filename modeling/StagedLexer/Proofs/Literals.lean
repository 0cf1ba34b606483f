import StagedLexer.Proofs.LiteralReading
import StagedLexer.Proofs.SetRanges
import StagedLexer.Routine.Statement

/-! The literals of emitted source are read as the strings of code units and the sets that they are
written for. -/
namespace StagedLexer

theorem byteStringAt?_byteStringLiteral (units : List UInt8) (rest : List Char) :
    Text.byteStringAt? ((byteStringLiteral units).toList ++ rest) = some (units, rest) := by
  have opens := Text.opens_escapeUnit ['\r'] (by simp)
  have inside := Text.Spelling.valuesAt?_flatMap opens units rest
  have text : (byteStringLiteral units).toList ++ rest =
      'b' :: '"' :: (units.flatMap (fun b => (Text.escapeUnit b).toList) ++ '"' :: rest) := by
    simp [byteStringLiteral, String.toList_join, List.flatMap_map]
  rw [text, Text.byteStringAt?, inside]

namespace ByteSet

/-- The ranges of a set match its members. -/
theorem matchedBy_ranges (set : ByteSet) (b : UInt8) :
    matchedBy set.ranges b = set.contains b := by
  rw [Bool.eq_iff_iff, ← covers_ranges]
  simp [matchedBy, Covers]

/-- The pattern of a set is read as its ranges, if there are any. -/
theorem pattern?_pattern {set : ByteSet} (filled : set.ranges ≠ []) :
    pattern? set.pattern.toList = some set.ranges := by
  have ordered : ∀ r ∈ set.ranges, r.1 ≤ r.2 := (lists_ranges set).separated.filled
  obtain ⟨range, more, ranges⟩ := List.exists_cons_of_ne_nil filled
  rw [ranges] at ordered
  rw [pattern, ranges]
  exact pattern?_intercalate ordered

end ByteSet

end StagedLexer
