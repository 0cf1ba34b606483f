import Mathlib.Data.Finset.Card
import Mathlib.Order.Interval.Finset.Nat
import StagedLexer.Proofs.Normalization

/-! Repetitions and their bounds. A repetition is a loop that counts the rounds that move on. The
operation that makes one takes shortcuts, and three of them leave the loop: bounds that exclude each
other, with an upper bound of zero or without one, and a reader that always matches. -/
namespace StagedLexer

variable {Ctx : Type}

namespace Reading

/-- The loop of a repetition at `pos`, with `count` rounds counted before, and its outcome. -/
inductive Repeats (read : Nat → Reading) (min : Nat) (max : Option Nat) :
    (count pos : Nat) → Reading → Prop
  | full {count pos : Nat} (reached : ∃ upper ∈ max, upper ≤ count) :
      Repeats read min max count pos (settle min count pos)
  | stopped {count pos : Nat} (below : ∀ upper ∈ max, count < upper)
      (still : read pos = .noMatch ∨ read pos = .matched pos) :
      Repeats read min max count pos (settle min count pos)
  | failed {count pos : Nat} {code : ErrorCode} (below : ∀ upper ∈ max, count < upper)
      (error : read pos = .failed code) : Repeats read min max count pos (.failed code)
  | round {count pos stop : Nat} {out : Reading} (below : ∀ upper ∈ max, count < upper)
      (found : read pos = .matched stop) (moved : stop ≠ pos)
      (behind : Repeats read min max (count + 1) stop out) : Repeats read min max count pos out

/-- From `pos` on the loop moves `n` times. -/
inductive Moves (read : Nat → Reading) : (n pos : Nat) → Prop
  | rest {pos : Nat} (still : ∀ stop, read pos = .matched stop → stop = pos) : Moves read 0 pos
  | move {n pos stop : Nat} (found : read pos = .matched stop) (moved : stop ≠ pos)
      (behind : Moves read n stop) : Moves read (n + 1) pos

section Moves

variable {read : Nat → Reading} {n pos : Nat}

theorem Moves.unique {m : Nat} (first : Moves read n pos) (second : Moves read m pos) : n = m := by
  induction first generalizing m with
  | rest still =>
    cases second with
    | rest => rfl
    | move found moved => exact (moved (still _ found)).elim
  | move found moved _ ih =>
    cases second with
    | rest still => exact (moved (still _ found)).elim
    | move found' _ behind =>
      obtain rfl := Reading.matched.inj (found.symm.trans found')
      rw [ih behind]

private theorem Moves.exists_at {size : Nat} (silent : ∀ p, size < p → read p = .noMatch)
    (moves : Moves read n pos) : ∀ k, 0 < k → k ≤ n → ∃ p ≤ size, Moves read k p := by
  induction moves with
  | rest => intro k positive le; omega
  | @move n pos stop found moved behind ih =>
    intro k positive le
    rcases Nat.lt_or_eq_of_le le with before | rfl
    · exact ih k positive (Nat.le_of_lt_succ before)
    · refine ⟨pos, ?_, .move found moved behind⟩
      by_contra outside
      rw [silent pos (Nat.not_le.mp outside)] at found
      cases found

/-- No position is met twice on the way to the end, so there are not more moves than positions. -/
theorem Moves.le {size : Nat} (silent : ∀ p, size < p → read p = .noMatch)
    (moves : Moves read n pos) : n ≤ size + 1 := by
  choose! place inside left using moves.exists_at silent
  have few : (Finset.Icc 1 n).card ≤ (Finset.range (size + 1)).card := by
    apply Finset.card_le_card_of_injOn place
    · intro k member
      obtain ⟨low, high⟩ := Finset.mem_Icc.mp member
      exact Finset.mem_coe.mpr (Finset.mem_range.mpr (Nat.lt_succ_of_le (inside k low high)))
    · intro k member k' member' same
      obtain ⟨low, high⟩ := Finset.mem_Icc.mp member
      obtain ⟨low', high'⟩ := Finset.mem_Icc.mp member'
      have first := left k low high
      rw [same] at first
      exact first.unique (left k' low' high')
  simpa using few

end Moves

section Loop

variable {read : Nat → Reading} {min : Nat} {max : Option Nat} {count pos : Nat} {out : Reading}

theorem repeats_of_repeatFrom {rounds : Nat} (room : ∀ upper ∈ max, count + rounds = upper)
    (ends : out ≠ .endless) (run : repeatFrom read min max.isSome rounds count pos = out) :
    Repeats read min max count pos out := by
  induction rounds generalizing count pos with
  | zero =>
    cases max with
    | none => exact (ends run.symm).elim
    | some upper =>
      rw [← run]
      exact .full ⟨upper, rfl, (room upper rfl).ge⟩
  | succ rounds ih =>
    have below : ∀ upper ∈ max, count < upper := by
      intro upper member
      have := room upper member
      omega
    rw [repeatFrom] at run
    cases found : read pos with
    | matched stop =>
      simp only [found] at run
      split at run
      · next still =>
        rw [← run]
        exact .stopped below (.inr (still ▸ found))
      · next moved =>
        refine .round below found moved (ih (fun upper member => ?_) run)
        have := room upper member
        omega
    | noMatch =>
      simp only [found] at run
      rw [← run]
      exact .stopped below (.inl found)
    | failed code =>
      simp only [found] at run
      rw [← run]
      exact .failed below found
    | endless =>
      simp only [found] at run
      exact (ends run.symm).elim

section Round

variable {bounded : Bool} {rounds : Nat}

private theorem repeatFrom_stopped (more : 0 < rounds)
    (still : read pos = .noMatch ∨ read pos = .matched pos) :
    repeatFrom read min bounded rounds count pos = settle min count pos := by
  obtain ⟨left, rfl⟩ := Nat.exists_eq_add_one.mpr more
  rcases still with found | found <;> simp [repeatFrom, found]

private theorem repeatFrom_failed (more : 0 < rounds) {code : ErrorCode}
    (error : read pos = .failed code) :
    repeatFrom read min bounded rounds count pos = .failed code := by
  obtain ⟨left, rfl⟩ := Nat.exists_eq_add_one.mpr more
  simp [repeatFrom, error]

private theorem repeatFrom_round {stop : Nat} (found : read pos = .matched stop)
    (moved : stop ≠ pos) :
    repeatFrom read min bounded (rounds + 1) count pos =
      repeatFrom read min bounded rounds (count + 1) stop := by
  simp [repeatFrom, found, moved]

end Round

theorem Repeats.repeatFrom_bounded {upper : Nat} (loop : Repeats read min (some upper) count pos out)
    {rounds : Nat} (room : count + rounds = upper) :
    repeatFrom read min true rounds count pos = out := by
  induction loop generalizing rounds with
  | full reached =>
    obtain ⟨upper', member, le⟩ := reached
    obtain rfl := Option.some.inj member
    obtain rfl : rounds = 0 := by omega
    rfl
  | stopped below still =>
    have := below upper rfl
    exact repeatFrom_stopped (by omega) still
  | failed below error =>
    have := below upper rfl
    exact repeatFrom_failed (by omega) error
  | round below found moved _ ih =>
    have := below upper rfl
    obtain ⟨left, rfl⟩ := Nat.exists_eq_add_one.mpr (by omega : 0 < rounds)
    rw [repeatFrom_round found moved]
    exact ih (by omega)

theorem Repeats.repeatFrom_unbounded (loop : Repeats read min none count pos out) :
    ∃ n, Moves read n pos ∧
      ∀ rounds, n < rounds → repeatFrom read min false rounds count pos = out := by
  induction loop with
  | full reached =>
    obtain ⟨_, none, _⟩ := reached
    cases none
  | @stopped count pos _ still =>
    refine ⟨0, .rest fun stop found => ?_, fun rounds more => repeatFrom_stopped more still⟩
    rcases still with other | other
    · rw [other] at found
      cases found
    · exact Reading.matched.inj (found.symm.trans other)
  | @failed count pos code _ error =>
    refine ⟨0, .rest fun stop found => ?_, fun rounds more => repeatFrom_failed more error⟩
    rw [error] at found
    cases found
  | round _ found moved _ ih =>
    obtain ⟨n, moves, runs⟩ := ih
    refine ⟨n + 1, .move found moved moves, fun rounds more => ?_⟩
    obtain ⟨left, rfl⟩ := Nat.exists_eq_add_one.mpr (Nat.zero_lt_of_lt more)
    rw [repeatFrom_round found moved]
    exact runs left (Nat.lt_of_succ_lt_succ more)

end Loop

end Reading

namespace Reader

variable {text : Bytes} {ctx : Ctx} {offset : Nat}

/-- A repetition is the loop; it has no end exactly if the loop has no outcome. -/
theorem read_repetition_iff (id : Nat) (inner : Reader Ctx) (min : Nat) (max : Option Nat)
    (inside : offset ≤ text.size) {out : Reading} (ends : out ≠ .endless) :
    (repetition id inner min max).read text ctx offset = out ↔
      Reading.Repeats (inner.read text ctx) min max 0 offset out := by
  simp only [read, Nat.not_lt.mpr inside, if_false]
  constructor
  · apply Reading.repeats_of_repeatFrom _ ends
    rintro upper rfl
    simp [rounds]
  · intro loop
    cases max with
    | some upper => exact loop.repeatFrom_bounded (Nat.zero_add _)
    | none =>
      obtain ⟨n, moves, runs⟩ := loop.repeatFrom_unbounded
      have few := moves.le fun p behind => read_behind inner behind
      exact runs (text.size + 2) (by omega)

private theorem settle_ne_endless (min count pos : Nat) :
    Reading.settle min count pos ≠ .endless := by
  unfold Reading.settle
  split <;> simp

private theorem read_repetition_full (id : Nat) (inner : Reader Ctx) (min : Nat)
    (inside : offset ≤ text.size) :
    (repetition id inner min (some 0)).read text ctx offset = .settle min 0 offset := by
  apply (read_repetition_iff id inner min (some 0) inside (settle_ne_endless min 0 offset)).mpr
  exact .full ⟨0, rfl, Nat.le_refl 0⟩

private theorem read_repetition_stopped (id : Nat) (inner : Reader Ctx) (min : Nat)
    {max : Option Nat} (positive : max ≠ some 0) (inside : offset ≤ text.size)
    (still : inner.read text ctx offset = .noMatch ∨
      inner.read text ctx offset = .matched offset) :
    (repetition id inner min max).read text ctx offset = .settle min 0 offset := by
  apply (read_repetition_iff id inner min max inside (settle_ne_endless min 0 offset)).mpr
  refine .stopped (fun upper member => Nat.pos_of_ne_zero ?_) still
  rintro rfl
  exact positive member

private theorem read_repetition_once (id : Nat) (inner : Reader Ctx)
    (inside : offset ≤ text.size) :
    (repetition id inner 0 (some 1)).read text ctx offset =
      (optional id inner).read text ctx offset := by
  simp only [read, Nat.not_lt.mpr inside, if_false, rounds, Option.getD_some, Reading.repeatFrom]
  cases inner.read text ctx offset with
  | matched stop =>
    by_cases still : stop = offset <;> simp [Reading.orElse, Reading.settle, still]
  | noMatch => rfl
  | failed | endless => rfl

/-- The operation follows the loop but for three shortcuts. -/
theorem read_times (id : Nat) (inner : Reader Ctx) (min : Nat) (max : Option Nat)
    (other : ¬ (min = 1 ∧ max = some 1)) (inside : offset ≤ text.size) :
    (times id inner min max).read text ctx offset =
      if max = some 0 then .matched offset
      else if max.any (· < min) then .noMatch
      else if inner.isAlways then .matched offset
      else (repetition id inner min max).read text ctx offset := by
  unfold times
  simp only [beq_iff_eq, Bool.and_eq_true, decide_eq_true_eq]
  split
  · exact read_of_isAlways rfl inside
  next positive =>
  split
  · exact read_of_isNever rfl offset
  split
  · next nowhere =>
    have silent : inner.read text ctx offset = .noMatch := read_of_isNever nowhere offset
    have differs : inner.isAlways = false := by
      cases inner with
      | leaf id l => cases l <;> first | rfl | cases nowhere
      | sequence | alternation | repetition | optional | lookahead | seek => rfl
    rw [differs, read_repetition_stopped id inner min positive inside (.inl silent)]
    simp only [Bool.false_eq_true, if_false, Reading.settle, Nat.le_zero]
    split
    · exact read_of_isAlways rfl inside
    · exact read_of_isNever rfl offset
  split
  · next everywhere => exact read_of_isAlways everywhere inside
  split
  · next once =>
    obtain ⟨rfl, rfl⟩ := once
    rw [read_orNothing id inner inside, read_repetition_once id inner inside]
  · rfl

theorem eq_iff_of_ends {reading loop : Reading} :
    (∀ out, out ≠ .endless → (reading = out ↔ loop = out)) ↔ reading = loop := by
  constructor
  · intro same
    by_cases ends : reading = .endless
    · by_contra differs
      have back := same loop (fun endless => differs (ends.trans endless.symm))
      exact differs (back.mpr rfl)
    · exact ((same reading ends).mp rfl).symm
  · rintro rfl out _
    rfl

private theorem matched_eq_settle_iff {min : Nat} :
    Reading.matched offset = .settle min 0 offset ↔ min = 0 := by
  unfold Reading.settle
  split <;> simp_all

private theorem read_times_eq_iff (id : Nat) (inner : Reader Ctx) (min : Nat) (max : Option Nat)
    (other : ¬ (min = 1 ∧ max = some 1)) (inside : offset ≤ text.size) :
    (times id inner min max).read text ctx offset =
      (repetition id inner min max).read text ctx offset ↔
    ¬ (max = some 0 ∧ 0 < min) ∧
    ¬ (inner.isAlways = true ∧ 0 < min ∧ ∀ upper ∈ max, min ≤ upper) ∧
    ((∃ upper ∈ max, 0 < upper ∧ upper < min) →
      (repetition id inner min max).read text ctx offset = .noMatch) := by
  rw [read_times id inner min max other inside]
  split
  · next zero =>
    obtain rfl := zero
    rw [read_repetition_full id inner min inside, matched_eq_settle_iff]
    constructor
    · rintro rfl
      simp
    · rintro ⟨counted, -⟩
      by_contra positive
      exact counted ⟨rfl, Nat.pos_of_ne_zero positive⟩
  next positive =>
  split
  · next crossed =>
    obtain ⟨upper, rfl, less⟩ : ∃ upper, max = some upper ∧ upper < min := by
      simpa [Option.any_eq_true] using crossed
    have low : 0 < upper := Nat.pos_of_ne_zero fun zero => positive (by rw [zero])
    constructor
    · intro same
      exact ⟨fun zero => positive zero.1, fun always => Nat.not_le.mpr less (always.2.2 upper rfl),
        fun _ => same.symm⟩
    · rintro ⟨-, -, unhidden⟩
      exact (unhidden ⟨upper, rfl, low, less⟩).symm
  next fitting =>
  have fits : ∀ upper ∈ max, min ≤ upper := by
    simpa [Option.any_eq_false] using fitting
  have uncrossed : ¬ ∃ upper ∈ max, 0 < upper ∧ upper < min := by
    rintro ⟨upper, member, -, less⟩
    exact Nat.not_le.mpr less (fits upper member)
  split
  · next everywhere =>
    have here : inner.read text ctx offset = .matched offset := read_of_isAlways everywhere inside
    rw [read_repetition_stopped id inner min positive inside (.inr here), matched_eq_settle_iff]
    constructor
    · rintro rfl
      exact ⟨fun zero => positive zero.1, fun always => Nat.lt_irrefl 0 always.2.1,
        fun crossed => (uncrossed crossed).elim⟩
    · rintro ⟨-, counted, -⟩
      by_contra needed
      exact counted ⟨everywhere, Nat.pos_of_ne_zero needed, fits⟩
  · next otherwise =>
    refine iff_of_true rfl ⟨fun zero => positive zero.1, fun always => otherwise always.1, ?_⟩
    exact fun crossed => (uncrossed crossed).elim

/-- The operation has the outcomes of the loop unless a shortcut leaves it: an upper bound of zero
below the lower bound and a reader that always matches are taken for a match without a counted
round, and any other upper bound below the lower one hides what stops the loop early. -/
theorem times_follows_loop_iff (id : Nat) (inner : Reader Ctx) (min : Nat) (max : Option Nat)
    (other : ¬ (min = 1 ∧ max = some 1)) (text : Bytes) (ctx : Ctx) (offset : Nat)
    (inside : offset ≤ text.size) :
    (∀ out, out ≠ .endless → ((times id inner min max).read text ctx offset = out ↔
      Reading.Repeats (inner.read text ctx) min max 0 offset out)) ↔
    ¬ (max = some 0 ∧ 0 < min) ∧
    ¬ (inner.isAlways = true ∧ 0 < min ∧ ∀ upper ∈ max, min ≤ upper) ∧
    ((∃ upper ∈ max, 0 < upper ∧ upper < min) →
      Reading.Repeats (inner.read text ctx) min max 0 offset .noMatch) := by
  have loop (out : Reading) (ends : out ≠ .endless) :
      Reading.Repeats (inner.read text ctx) min max 0 offset out ↔
        (repetition id inner min max).read text ctx offset = out :=
    (read_repetition_iff id inner min max inside ends).symm
  rw [loop .noMatch (by simp), ← read_times_eq_iff id inner min max other inside, ← eq_iff_of_ends]
  constructor
  · intro follows out ends
    rw [follows out ends, loop out ends]
  · intro same out ends
    rw [same out ends, loop out ends]

theorem times_follows_loop_on_letters :
    let letter : Reader Unit := .text 1 [97]
    (times 2 letter 2 (some 3)).read #[97, 97, 97, 97] () 0 = .matched 3 ∧
      Reading.Repeats (letter.read #[97, 97, 97, 97] ()) 2 (some 3) 0 0 (.matched 3) := by
  intro letter
  have follows := (times_follows_loop_iff 2 letter 2 (some 3) (by decide) #[97, 97, 97, 97] () 0
    (by decide)).mpr ⟨by decide, by simp [letter, Reader.text, isAlways], by
      rintro ⟨upper, member, -, less⟩
      obtain rfl := Option.some.inj member
      exact absurd less (by decide)⟩
  have found : (times 2 letter 2 (some 3)).read #[97, 97, 97, 97] () 0 = .matched 3 := rfl
  exact ⟨found, (follows (.matched 3) (by simp)).mp found⟩

/-- The three shortcuts at work: two matches without the rounds they need, and an application error
that is not reported. -/
theorem times_leaves_loop :
    let letter : Reader Unit := .text 1 [97]
    let failing : Reader Unit := .custom 2 fun _ _ _ => .failed ⟨-5, by decide⟩
    ((times 3 letter 3 (some 0)).read #[] () 0 = .matched 0 ∧
      Reading.Repeats (letter.read #[] ()) 3 (some 0) 0 0 .noMatch) ∧
    ((times 3 (.always 2) 2 none).read #[] () 0 = .matched 0 ∧
      Reading.Repeats ((.always 2 : Reader Unit).read #[] ()) 2 none 0 0 .noMatch) ∧
    ((times 3 failing 3 (some 2)).read #[] () 0 = .noMatch ∧
      Reading.Repeats (failing.read #[] ()) 3 (some 2) 0 0 (.failed ⟨-5, by decide⟩)) := by
  refine ⟨⟨rfl, .full ⟨0, rfl, Nat.le_refl 0⟩⟩, ⟨rfl, .stopped (by simp) (.inr rfl)⟩, rfl, ?_⟩
  exact .failed (by simp) rfl

end Reader

end StagedLexer
