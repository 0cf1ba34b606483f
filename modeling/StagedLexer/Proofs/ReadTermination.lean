import StagedLexer.Proofs.Normalization
import StagedLexer.Proofs.Visits

/-! Reading comes to an end. A loop goes on only where its reader moves on, and a reader stays within
the text, so a repetition without an upper bound visits its reader at most once at every position
that is left. -/
namespace StagedLexer

variable {Ctx : Type}

theorem Walk.length_visits_repeatFrom {visit : Nat → Visit Ctx} {size min : Nat} {bounded : Bool}
    (inner : ∀ pos ≤ size, (visit pos).out.Within pos size) (rounds count pos : Nat)
    (le : pos ≤ size) :
    (repeatFrom visit min bounded rounds count pos).visits.length ≤ size - pos + 1 := by
  induction rounds generalizing count pos with
  | zero => exact Nat.zero_le _
  | succ rounds ih =>
    have round := inner pos le
    rw [repeatFrom]
    cases found : (visit pos).out with
    | matched stop =>
      rw [found, Reading.matched_within] at round
      by_cases still : stop = pos
      · simp [still]
      · have later := ih (count + 1) stop round.2
        simp only [still, if_false, List.length_cons]
        omega
    | noMatch | failed | endless => simp

namespace Reader

variable {text : Bytes} {ctx : Ctx}

theorem CallsWithin.visit_within {reader : Reader Ctx} (calls : reader.CallsWithin text ctx)
    {pos : Nat} (le : pos ≤ text.size) : (visit text ctx reader pos).out.Within pos text.size := by
  rw [out_visit]
  exact read_within calls pos le

theorem length_inside_visit {id min pos : Nat} {inner : Reader Ctx} {max : Option Nat}
    (calls : inner.CallsWithin text ctx) :
    (visit text ctx (repetition id inner min max) pos).inside.length ≤ text.size - pos + 1 := by
  rw [visit, enter]
  split
  · exact Nat.zero_le _
  · next inside =>
    exact Walk.length_visits_repeatFrom (fun p le => calls.visit_within le) _ _ _
      (Nat.not_lt.mp inside)

/-- Where every call stays within the text, reading a reader comes to an end, and so does every
reading on the way. Behind the end of the text nothing matches; otherwise a match ends between the
offset and the end of the text. A repetition without an upper bound, wherever it is met, reads its
reader at most once at each position from its start to the end of the text. -/
theorem read_comes_to_an_end (text : Bytes) (ctx : Ctx) (reader : Reader Ctx)
    (calls : reader.CallsWithin text ctx) (offset : Nat) :
    (text.size < offset → reader.read text ctx offset = .noMatch) ∧
    (offset ≤ text.size → (reader.read text ctx offset).Within offset text.size) ∧
    ∀ made ∈ (reader.visit text ctx offset).all, made.out ≠ .endless ∧
      ∀ id inner min, made.reader = repetition id inner min none →
        made.inside.length ≤ text.size - made.pos + 1 := by
  refine ⟨read_behind reader, read_within calls offset, fun made member => ?_⟩
  obtain ⟨part, inside, pos, rfl⟩ := mem_all_visit member
  have inner := calls.of_mem_parts (parts_subset_of_mem_parts inside)
  refine ⟨?_, fun id inner' min same => ?_⟩
  · rw [out_visit]
    exact inner.read_ne_endless pos
  · rw [reader_visit] at same
    subst same
    rw [pos_visit]
    exact length_inside_visit (inner.of_mem_parts (by simp [parts]))

/-- A loop in a loop, around a call that moves on. The inner loop takes the whole text in its first
round, so the outer one is left in its second. -/
theorem nested_loops_come_to_an_end :
    let next (text : Bytes) (pos : Nat) (_ : Unit) : Reading :=
      if pos < text.size then .matched (pos + 1) else .noMatch
    let reader : Reader Unit := repetition 3 (repetition 2 (leaf 1 (.custom next)) 0 none) 0 none
    reader.CallsWithin #[97, 98] () ∧ reader.read #[97, 98] () 0 = .matched 2 ∧
      (reader.visit #[97, 98] () 0).inside.length ≤ 3 := by
  intro next reader
  have calls : reader.CallsWithin #[97, 98] () := by
    intro id l part called offset inside
    simp only [reader, parts, List.mem_cons, List.not_mem_nil, or_false, reduceCtorEq,
      false_or] at part
    cases part
    simp only [Leaf.read, next]
    split
    · next before => exact ⟨Nat.le_succ offset, before⟩
    · trivial
  obtain ⟨-, -, rounds⟩ := read_comes_to_an_end #[97, 98] () reader calls 0
  have whole := (reader.visit #[97, 98] () 0).self_mem_all
  exact ⟨calls, rfl, (rounds _ whole).2 3 _ 0 (reader_visit reader 0)⟩

end Reader

end StagedLexer
