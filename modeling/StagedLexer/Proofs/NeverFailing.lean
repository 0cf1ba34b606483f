import StagedLexer.Proofs.RepetitionBounds

/-! Readers that are known to match everywhere. What an option, a repetition without a lower bound
and an open search read is a match or an application error, whatever they are made of: an
alternation may drop what stands behind them. -/
namespace StagedLexer

variable {Ctx : Type}

/-- A loop that needs no rounds matches when it stops, wherever its reader has gone before. -/
theorem Reading.Repeats.ne_noMatch {read : Nat → Reading} {max : Option Nat} {count pos : Nat}
    {out : Reading} (loop : Repeats read 0 max count pos out) : out ≠ .noMatch := by
  induction loop with
  | full | stopped => simp [settle]
  | failed => simp
  | round _ _ _ _ ih => exact ih

namespace Reader

variable {text : Bytes} {ctx : Ctx} {offset : Nat} {inner : Reader Ctx}

theorem neverFails_of_isAlways {reader : Reader Ctx} (everywhere : reader.isAlways = true) :
    reader.neverFails = true := by
  unfold isAlways at everywhere
  split at everywhere
  · rfl
  · cases everywhere

section Operations

/-! Each shortcut of an operation hands back a reader that never fails to match. -/

theorem neverFails_orNothing (id : Nat) (inner : Reader Ctx) :
    (orNothing id inner).neverFails = true := by
  unfold orNothing
  split
  · rfl
  · split
    · assumption
    · rfl

theorem neverFails_times (id : Nat) (inner : Reader Ctx) (max : Option Nat) :
    (times id inner 0 max).neverFails = true := by
  unfold times
  split
  · rfl
  split
  · next crossed => simp at crossed
  split
  · rfl
  split
  · next everywhere => exact neverFails_of_isAlways everywhere
  split
  · exact neverFails_orNothing id inner
  · rfl

theorem neverFails_upTo (id : Nat) (inner : Reader Ctx) (inclusive : Bool) :
    (upTo id inner inclusive true).neverFails = true := by
  unfold upTo
  split
  · next everywhere => exact neverFails_of_isAlways everywhere
  · rfl

end Operations

/-- An option is what is read, or nothing at the place of the reading, whatever its identity. -/
theorem read_orNothing_eq (id : Nat) (inside : offset ≤ text.size) :
    (orNothing id inner).read text ctx offset =
      (inner.read text ctx offset).orElse fun _ => .matched offset := by
  rw [read_orNothing id inner inside]
  simp only [read, Nat.not_lt.mpr inside, if_false]

theorem times_once (id : Nat) (inner : Reader Ctx) :
    times id inner 0 (some 1) = orNothing id inner := by
  unfold times orNothing
  by_cases nowhere : inner.isNever = true
  · simp [nowhere]
  by_cases everywhere : inner.isAlways = true
  · simp [nowhere, everywhere, neverFails_of_isAlways everywhere]
  · simp [nowhere, everywhere]

theorem read_times_once (id id' : Nat) (inner : Reader Ctx) (text : Bytes) (ctx : Ctx)
    (offset : Nat) : (times id inner 0 (some 1)).read text ctx offset =
      (orNothing id' inner).read text ctx offset := by
  rw [times_once]
  by_cases inside : offset ≤ text.size
  · rw [read_orNothing_eq id inside, read_orNothing_eq id' inside]
  · have behind : text.size < offset := Nat.not_le.mp inside
    rw [read_behind _ behind, read_behind _ behind]

/-- Where calls stay within the text there is an end, so only a match and an error are left. -/
theorem matched_or_failed_of_neverFails {reader : Reader Ctx} (never : reader.neverFails = true)
    (calls : reader.CallsWithin text ctx) (inside : offset ≤ text.size) :
    (∃ stop, reader.read text ctx offset = .matched stop ∧ offset ≤ stop ∧ stop ≤ text.size) ∨
      ∃ code, reader.read text ctx offset = .failed code := by
  have within := read_within calls offset inside
  have decided : reader.read text ctx offset ≠ .noMatch := read_ne_noMatch never inside
  cases outcome : reader.read text ctx offset with
  | matched stop =>
    rw [outcome] at within
    exact .inl ⟨stop, rfl, within⟩
  | noMatch => exact (decided outcome).elim
  | failed code => exact .inr ⟨code, rfl⟩
  | endless =>
    rw [outcome] at within
    exact within.elim

/-- A reader that is known to match everywhere never fails to match, at no position of any text and
whatever its parts do; where calls stay within the text it comes to an end, with a match or an
application error. Options, repetitions without a lower bound and open searches are made into such
readers, the loop of such a repetition stops with a match wherever it has jumped to, and a
repetition of at most one round is an option. -/
theorem never_failing_readers_match (reader : Reader Ctx) (text : Bytes) (ctx : Ctx)
    (offset : Nat) :
    (reader.neverFails = true → offset ≤ text.size →
      reader.read text ctx offset ≠ .noMatch ∧
      (reader.CallsWithin text ctx →
        (∃ stop, reader.read text ctx offset = .matched stop ∧ offset ≤ stop ∧
          stop ≤ text.size) ∨
        ∃ code, reader.read text ctx offset = .failed code)) ∧
    (∀ id max inclusive, ∀ made ∈
        [orNothing id reader, times id reader 0 max, upTo id reader inclusive true],
      made.neverFails = true ∧ (offset ≤ text.size → made.read text ctx offset ≠ .noMatch)) ∧
    (∀ max count out, Reading.Repeats (reader.read text ctx) 0 max count offset out →
      out ≠ .noMatch) ∧
    ∀ id id', (times id reader 0 (some 1)).read text ctx offset =
      (orNothing id' reader).read text ctx offset := by
  refine ⟨fun never inside => ⟨read_ne_noMatch never inside, fun calls =>
    matched_or_failed_of_neverFails never calls inside⟩, fun id max inclusive made member => ?_,
    fun _ _ _ loop => loop.ne_noMatch, fun id id' => read_times_once id id' reader text ctx offset⟩
  have never : made.neverFails = true := by
    simp only [List.mem_cons, List.not_mem_nil, or_false] at member
    rcases member with rfl | rfl | rfl
    · exact neverFails_orNothing id reader
    · exact neverFails_times id reader max
    · exact neverFails_upTo id reader inclusive
  exact ⟨never, read_ne_noMatch never⟩

/-- A loop whose reader jumps backwards and then behind the end of the text, and an option that ends
at the end of the text. -/
theorem never_failing_readers_match_jumping :
    let jump (_ : Bytes) (pos : Nat) (_ : Unit) : Reading :=
      if pos = 2 then .matched 1 else .matched 9
    let next (text : Bytes) (pos : Nat) (_ : Unit) : Reading :=
      if pos < text.size then .matched (pos + 1) else .noMatch
    let loop : Reader Unit := times 2 (custom 1 jump) 0 none
    let option : Reader Unit := orNothing 2 (custom 1 next)
    (loop.neverFails = true ∧ loop.read #[97, 98, 99] () 2 = .matched 9 ∧
      loop.read #[97, 98, 99] () 2 ≠ .noMatch) ∧
    option.neverFails = true ∧ option.CallsWithin #[97, 98, 99] () ∧
      ((∃ stop, option.read #[97, 98, 99] () 3 = .matched stop ∧ 3 ≤ stop ∧ stop ≤ 3) ∨
        ∃ code, option.read #[97, 98, 99] () 3 = .failed code) := by
  intro jump next loop option
  have calls : option.CallsWithin #[97, 98, 99] () := by
    intro id l part called offset inside
    simp only [option, orNothing, isNever, neverFails, custom, Bool.false_eq_true, if_false, parts,
      List.mem_cons, List.not_mem_nil, or_false, reduceCtorEq, false_or] at part
    cases part
    simp only [Leaf.read, next]
    split
    · next before => exact ⟨Nat.le_succ offset, before⟩
    · trivial
  obtain ⟨loops, -⟩ := never_failing_readers_match loop #[97, 98, 99] () 2
  obtain ⟨options, -⟩ := never_failing_readers_match option #[97, 98, 99] () 3
  refine ⟨⟨rfl, rfl, (loops rfl (by decide)).1⟩, rfl, calls, ?_⟩
  exact (options rfl (by decide)).2 calls

end Reader

end StagedLexer
