import StagedLexer.Proofs.Assembly
import StagedLexer.Proofs.Execution
import StagedLexer.Proofs.ReadBounds

/-! The statements of a reader compute what the reader reads. Every form of statement that reading
is made of is treated once, for any statements in its place; the readers follow by induction. -/
namespace StagedLexer

open Machine

variable {Ctx : Type}

namespace Surroundings

/-- Run at a position of the text that stands in `place`, the statement ends with the result of the
reading in `r` and leaves all other variables below `limit` as they were. -/
def Yields (s : Surroundings Ctx) (rounds : Nat) (stmt : Stmt) (place r limit : Nat)
    (read : Nat → Reading) : Prop :=
  ∀ (m : Machine) (p : Nat), m.get place = p → p ≤ s.text.size →
    ∃ m', s.exec rounds stmt m = (.next, m') ∧ (read p).toInt? = some (m'.get r) ∧
      m.Agrees (fun v => v < limit ∧ v ≠ r) m'

variable {s : Surroundings Ctx} {rounds place r limit : Nat} {f g : Nat → Reading}

theorem Yields.congr {stmt : Stmt} (yields : s.Yields rounds stmt place r limit f)
    (same : ∀ p ≤ s.text.size, f p = g p) : s.Yields rounds stmt place r limit g := by
  intro m p here inside
  rw [← same p inside]
  exact yields m p here inside

theorem yields_assign {value : Value} {retained : Bool}
    (ok : ∀ (m : Machine) (p : Nat), m.get place = p → p ≤ s.text.size →
      ∃ x, s.value m value = .ok x ∧ (f p).toInt? = some x) :
    s.Yields rounds (.assign r value retained) place r limit f := by
  intro m p here inside
  obtain ⟨x, value, result⟩ := ok m p here inside
  refine ⟨m.set r x, exec_assign value, by simpa using result, ?_⟩
  exact (Agrees.refl m).set (by simp) x

private theorem isMatch_of_toInt? {reading : Reading} {x : Int} (result : reading.toInt? = some x) :
    0 ≤ x ↔ ∃ stop : Nat, reading = .matched stop ∧ x = stop := by
  cases reading with
  | matched stop =>
    cases result
    exact ⟨fun _ => ⟨stop, rfl, rfl⟩, fun _ => Int.natCast_nonneg _⟩
  | noMatch => cases result; simp
  | failed code =>
    cases result
    have := code.isError
    constructor
    · intro; omega
    · rintro ⟨stop, equal, -⟩; cases equal
  | endless => cases result

private theorem noMatch_of_toInt? {reading : Reading} {x : Int} (result : reading.toInt? = some x) :
    x = -1 ↔ reading = .noMatch := by
  cases reading with
  | matched stop => cases result; simp
  | noMatch => cases result; simp
  | failed code =>
    cases result
    have := code.isError
    simp
    omega
  | endless => cases result

private theorem toInt?_andThen_of_negative {reading : Reading} {x : Int}
    {next : Nat → Reading} (result : reading.toInt? = some x) (negative : ¬ 0 ≤ x) :
    (reading.andThen next).toInt? = some x := by
  cases reading with
  | matched stop =>
    cases result
    exact absurd (Int.natCast_nonneg _) negative
  | noMatch | failed | endless => exact result

theorem Yields.andThen {head tail : Stmt} {next limit' : Nat}
    (first : s.Yields rounds head place r limit f)
    (second : s.Yields rounds tail next r limit' g)
    (within : ∀ p ≤ s.text.size, (f p).Within p s.text.size)
    (fresh : limit ≤ next) (above : limit ≤ limit') :
    s.Yields rounds (.block [head, .guarded (.isMatch r) (.block [.declare next,
      .assign next (.asPlace r) false, tail])]) place r limit (fun p => (f p).andThen g) := by
  intro m p here inside
  obtain ⟨m₁, run, result, agrees⟩ := first m p here inside
  rw [exec_block_next run, exec_block_last]
  by_cases positive : 0 ≤ m₁.get r
  · obtain ⟨stop, found, value⟩ := (isMatch_of_toInt? result).mp positive
    have bounds := within p inside
    rw [found, Reading.matched_within] at bounds
    rw [exec_guarded_pos (by simpa [holds] using positive), exec_block_next (exec_declare next m₁),
      exec_block_next (exec_assign (x := stop) (by simp [Surroundings.value, value])),
      exec_block_last]
    obtain ⟨m₂, run₂, result₂, agrees₂⟩ := second (m₁.set next stop) stop (by simp) bounds.2
    refine ⟨m₂, run₂, by simpa [found, Reading.andThen] using result₂, ?_⟩
    have middle := agrees.set (v := next) (fun kept => by omega) stop
    exact middle.trans (agrees₂.mono fun v kept => ⟨by omega, kept.2⟩)
  · exact ⟨m₁, exec_guarded_neg (by simpa [holds] using positive),
      toInt?_andThen_of_negative result positive, agrees⟩

theorem Yields.orElse {head tail : Stmt} {limit' : Nat}
    (first : s.Yields rounds head place r limit f)
    (second : s.Yields rounds tail place r limit' g)
    (above : limit ≤ limit') (known : place < limit) (apart : place ≠ r) :
    s.Yields rounds (.block [head, .guarded (.noMatch r) tail]) place r limit
      (fun p => (f p).orElse fun _ => g p) := by
  intro m p here inside
  obtain ⟨m₁, run, result, agrees⟩ := first m p here inside
  rw [exec_block_next run, exec_block_last]
  by_cases missing : m₁.get r = -1
  · have none := (noMatch_of_toInt? result).mp missing
    rw [exec_guarded_pos (by simpa [holds] using missing)]
    have same : m₁.get place = p := (agrees.get place ⟨known, apart⟩).trans here
    obtain ⟨m₂, run₂, result₂, agrees₂⟩ := second m₁ p same inside
    refine ⟨m₂, run₂, by simpa [none, Reading.orElse] using result₂, ?_⟩
    exact agrees.trans (agrees₂.mono fun v kept => ⟨by omega, kept.2⟩)
  · refine ⟨m₁, exec_guarded_neg (by simpa [holds] using missing), ?_, agrees⟩
    have found := mt (noMatch_of_toInt? result).mpr missing
    rcases equal : f p with stop | _ | code | _
    · simpa [equal, Reading.orElse] using result
    · exact absurd equal found
    all_goals simpa [equal, Reading.orElse] using result

theorem yields_position {retained : Bool} :
    s.Yields rounds (.assign r (.position (.var place)) retained) place r limit .matched :=
  yields_assign fun m p here _ => ⟨p, by simp [value, number, here], rfl⟩

theorem Yields.ahead {body : Stmt} (first : s.Yields rounds body place r limit f)
    (known : place < limit) (apart : place ≠ r) :
    s.Yields rounds (.block [body, .guarded (.isMatch r) (.assign r (.position (.var place)) true)])
      place r limit (fun p => (f p).andThen fun _ => .matched p) := by
  intro m p here inside
  obtain ⟨m₁, run, result, agrees⟩ := first m p here inside
  rw [exec_block_next run, exec_block_last]
  by_cases positive : 0 ≤ m₁.get r
  · obtain ⟨stop, found, -⟩ := (isMatch_of_toInt? result).mp positive
    have same : m₁.get place = p := (agrees.get place ⟨known, apart⟩).trans here
    rw [exec_guarded_pos (by simpa [holds] using positive)]
    refine ⟨m₁.set r p, exec_assign (by simp [value, number, same]), ?_, ?_⟩
    · simp [found, Reading.andThen, Reading.toInt?]
    · exact agrees.set (by simp) _
  · exact ⟨m₁, exec_guarded_neg (by simpa [holds] using positive),
      toInt?_andThen_of_negative result positive, agrees⟩

/-- The variables of a loop are new, and its body keeps those that it does not read into. -/
structure LoopVars (r pos inner limit limit' : Nat) (counter : Option Nat) : Prop where
  known : r < limit
  posNew : limit ≤ pos ∧ pos < limit'
  innerNew : limit ≤ inner ∧ inner < limit'
  apart : pos ≠ inner
  counterNew : ∀ c, counter = some c → limit ≤ c ∧ c < limit' ∧ c ≠ pos ∧ c ≠ inner

namespace LoopVars

variable {pos inner limit' : Nat} {counter : Option Nat} {m m₁ : Machine}

theorem ne_pos (vars : LoopVars r pos inner limit limit' counter) : counter ≠ some pos :=
  fun equal => (vars.counterNew pos equal).2.2.1 rfl

theorem get_pos (vars : LoopVars r pos inner limit limit' counter)
    (agrees : m.Agrees (fun v => v < limit' ∧ v ≠ inner) m₁) : m₁.get pos = m.get pos :=
  agrees.get pos ⟨vars.posNew.2, vars.apart⟩

theorem get_counter (vars : LoopVars r pos inner limit limit' counter)
    (agrees : m.Agrees (fun v => v < limit' ∧ v ≠ inner) m₁) {c : Nat} (equal : counter = some c) :
    m₁.get c = m.get c := by
  obtain ⟨-, below, -, other⟩ := vars.counterNew c equal
  exact agrees.get c ⟨below, other⟩

theorem outside (vars : LoopVars r pos inner limit limit' counter)
    (agrees : m.Agrees (fun v => v < limit' ∧ v ≠ inner) m₁) :
    m.Agrees (fun v => v < limit ∧ v ≠ r) m₁ := by
  refine agrees.mono fun v kept => ?_
  have := vars.posNew
  have := vars.innerNew.1
  omega

end LoopVars

/-- How many rounds are left at position `p` after `count` rounds. Without an upper bound there are
more than the text has positions. -/
def RoundsLeft (size : Nat) (max : Option Nat) (count p left : Nat) : Prop :=
  match max with
  | some max => count + left = max
  | none => size - p < left

variable {pos inner limit' min count p : Nat} {counter max : Option Nat} {body : Stmt}

private theorem value_settled {m : Machine} (here : m.get pos = p)
    (counts : ∀ c, counter = some c → m.get c = count)
    (needed : counter.isSome = (decide (0 < min) || max.isSome)) :
    ∃ x, s.value m (Stmt.settled pos counter min) = .ok x ∧
      (Reading.settle min count p).toInt? = some x := by
  unfold Stmt.settled Reading.settle
  cases counter with
  | none =>
    have zero : min = 0 := by simp_all
    exact ⟨p, by simp [value, number, here], by simp [zero, Reading.toInt?]⟩
  | some c =>
    have counted := counts c rfl
    by_cases positive : 0 < min
    · refine ⟨if min ≤ count then p else -1, ?_, ?_⟩
      · simp [positive, value, counted, here]
      · split <;> rfl
    · have zero : min = 0 := by omega
      exact ⟨p, by simp [zero, value, number, here], by simp [zero, Reading.toInt?]⟩

private theorem exec_limit {m : Machine} {rest : List Stmt} (here : m.get pos = p)
    (counts : ∀ c, counter = some c → m.get c = count)
    (needed : counter.isSome = (decide (0 < min) || max.isSome)) :
    s.exec rounds (.block (Stmt.limit r pos counter max ++ rest)) m =
      if max = some count then (.leave, m.set r p) else s.exec rounds (.block rest) m := by
  unfold Stmt.limit
  cases counter with
  | none =>
    have none : max = none := by simp_all
    simp [none]
  | some c =>
    cases max with
    | none => simp
    | some bound =>
      have counted := counts c rfl
      by_cases reached : bound = count
      · rw [List.singleton_append, if_pos (by simp [reached])]
        refine exec_block_end ?_ (by simp)
        rw [exec_guarded_pos (by simp [holds, counted, reached])]
        exact exec_assignAndLeave (by simp [value, number, here])
      · rw [List.singleton_append, if_neg (by simpa using reached)]
        refine exec_block_next (exec_guarded_neg ?_)
        simp [holds, counted]
        omega

/-- What a round does behind its limit, by what is read: `m₁` is the machine behind the reading and
`x` the result if the repetition stops here. -/
private theorem exec_round_body {m m₁ : Machine} {x : Int}
    (run : s.exec rounds body m = (.next, m₁)) (here : m₁.get pos = p)
    (result : (f p).toInt? = some (m₁.get inner))
    (stops : s.value m₁ (Stmt.settled pos counter min) = .ok x) :
    s.exec rounds (.block ([Stmt.declare inner, body,
        Stmt.guarded (.noMatch inner) (Stmt.assignAndLeave r (Stmt.settled pos counter min)),
        Stmt.guarded (.negative inner) (Stmt.assignAndLeave r (.result inner)),
        Stmt.guarded (.unmoved inner pos) (Stmt.assignAndLeave r (Stmt.settled pos counter min)),
        Stmt.assign pos (.asPlace inner) true] ++ Stmt.countUp counter)) m =
      match f p with
      | .matched q =>
        if q = p then (.leave, m₁.set r x)
        else s.exec rounds (.block (Stmt.countUp counter)) (m₁.set pos q)
      | .noMatch => (.leave, m₁.set r x)
      | _ => (.leave, m₁.set r (m₁.get inner)) := by
  simp only [List.cons_append, List.nil_append]
  rw [exec_block_next (exec_declare inner m), exec_block_next run]
  rcases equal : f p with q | _ | code | _
  · rw [equal, Reading.toInt?, Option.some.injEq] at result
    rw [exec_block_next (exec_guarded_neg (by simp [holds, ← result])),
      exec_block_next (exec_guarded_neg (by simp [holds, ← result]))]
    by_cases same : q = p
    · simp only [same, if_true]
      refine exec_block_end ?_ (by simp)
      rw [exec_guarded_pos (by simp [holds, ← result, here, same])]
      exact exec_assignAndLeave stops
    · rw [exec_block_next (exec_guarded_neg (by simp [holds, ← result, here]; omega)),
        exec_block_next (exec_assign (x := q) (by simp [value, ← result]))]
      exact (if_neg same).symm
  · rw [equal, Reading.toInt?, Option.some.injEq] at result
    refine exec_block_end ?_ (by simp)
    rw [exec_guarded_pos (by simp [holds, ← result])]
    exact exec_assignAndLeave stops
  · rw [equal, Reading.toInt?, Option.some.injEq] at result
    have negative := code.isError
    rw [exec_block_next (exec_guarded_neg (by simp [holds, ← result]; omega))]
    refine exec_block_end ?_ (by simp)
    rw [exec_guarded_pos (by simp [holds, ← result]; omega)]
    exact exec_assignAndLeave rfl
  · simp [equal, Reading.toInt?] at result

private theorem exec_countUp (s : Surroundings Ctx) (rounds : Nat) {m : Machine}
    (counts : ∀ c, counter = some c → m.get c = count) :
    ∃ m', s.exec rounds (.block (Stmt.countUp counter)) m = (.next, m') ∧
      (∀ c, counter = some c → m'.get c = (count + 1 : Nat)) ∧
      m.Agrees (fun v => counter ≠ some v) m' := by
  cases counter with
  | none => exact ⟨m, exec_block_nil m, by simp, Agrees.refl m⟩
  | some c =>
    refine ⟨m.set c (count + 1), ?_, by simp, (Agrees.refl m).set (by simp) _⟩
    unfold Stmt.countUp
    rw [exec_block_last]
    exact exec_assign (by simp [value, counts c rfl])

private theorem RoundsLeft.ne_zero {size left : Nat} (rest : RoundsLeft size max count p left)
    (more : max ≠ some count) : left ≠ 0 := by
  rintro rfl
  cases max with
  | none => simp [RoundsLeft] at rest
  | some bound => exact more (by simpa [RoundsLeft] using rest.symm)

private theorem exec_round {m : Machine} {left : Nat}
    (vars : LoopVars r pos inner limit limit' counter)
    (read : s.Yields rounds body pos inner limit' f)
    (within : ∀ p ≤ s.text.size, (f p).Within p s.text.size)
    (needed : counter.isSome = (decide (0 < min) || max.isSome))
    (ordered : ∀ bound, max = some bound → min ≤ bound)
    (inside : p ≤ s.text.size) (here : m.get pos = p)
    (counts : ∀ c, counter = some c → m.get c = count)
    (rest : RoundsLeft s.text.size max count p left) :
    (∃ m', s.exec rounds (Stmt.round r pos inner counter min max body) m = (.leave, m') ∧
      (Reading.repeatFrom f min max.isSome left count p).toInt? = some (m'.get r) ∧
      m.Agrees (fun v => v < limit ∧ v ≠ r) m') ∨
    ∃ m' q less, s.exec rounds (Stmt.round r pos inner counter min max body) m = (.next, m') ∧
      left = less + 1 ∧ p < q ∧ q ≤ s.text.size ∧
      Reading.repeatFrom f min max.isSome left count p =
        Reading.repeatFrom f min max.isSome less (count + 1) q ∧
      m'.get pos = q ∧ (∀ c, counter = some c → m'.get c = (count + 1 : Nat)) ∧
      m.Agrees (fun v => v < limit ∧ v ≠ r) m' := by
  unfold Stmt.round
  rw [List.append_assoc, exec_limit here counts needed]
  by_cases reached : max = some count
  · left
    refine ⟨m.set r p, if_pos reached, ?_, (Agrees.refl m).set (by simp) _⟩
    have none : left = 0 := by simpa [RoundsLeft, reached] using rest
    have fits := ordered count reached
    simp [none, reached, Reading.repeatFrom, Reading.settle, fits, Reading.toInt?]
  · obtain ⟨less, rfl⟩ := Nat.exists_eq_succ_of_ne_zero (rest.ne_zero reached)
    obtain ⟨m₁, run, result, agrees⟩ := read m p here inside
    have here₁ : m₁.get pos = p := (vars.get_pos agrees).trans here
    have counts₁ : ∀ c, counter = some c → m₁.get c = count :=
      fun c equal => (vars.get_counter agrees equal).trans (counts c equal)
    have outside := vars.outside agrees
    obtain ⟨x, stops, settles⟩ := value_settled here₁ counts₁ needed
    rw [if_neg reached, exec_round_body run here₁ result stops]
    -- Only a match that moves goes on to another round.
    rcases equal : f p with q | _ | code | _
    · by_cases same : q = p
      · left
        refine ⟨m₁.set r x, if_pos same, ?_, outside.set (by simp) _⟩
        simp [Reading.repeatFrom, equal, same, settles]
      · right
        have bounds := within p inside
        rw [equal, Reading.matched_within] at bounds
        have counts₂ : ∀ c, counter = some c → (m₁.set pos q).get c = count := by
          intro c equal
          have other := (vars.counterNew c equal).2.2.1
          simp [counts₁ c equal, Ne.symm other]
        obtain ⟨m₂, run₂, counted, agrees₂⟩ := exec_countUp s rounds counts₂
        refine ⟨m₂, q, less, ?_, rfl, by omega, bounds.2, ?_, ?_, counted, ?_⟩
        · simpa only [if_neg same] using run₂
        · simp [Reading.repeatFrom, equal, same]
        · simpa using agrees₂.get pos vars.ne_pos
        · have := vars.posNew.1
          refine (outside.set (v := pos) (by omega) q).trans (agrees₂.mono fun v kept equal => ?_)
          have := (vars.counterNew v equal).1
          omega
    · left
      refine ⟨m₁.set r x, rfl, ?_, outside.set (by simp) _⟩
      simp [Reading.repeatFrom, equal, settles]
    · left
      refine ⟨m₁.set r (m₁.get inner), rfl, ?_, outside.set (by simp) _⟩
      simpa [Reading.repeatFrom, equal] using result
    · simp [equal, Reading.toInt?] at result

/-- The rounds of a repetition together. The text left is a bound for their number. -/
private theorem iterate_round (vars : LoopVars r pos inner limit limit' counter)
    (read : s.Yields rounds body pos inner limit' f)
    (within : ∀ p ≤ s.text.size, (f p).Within p s.text.size)
    (needed : counter.isSome = (decide (0 < min) || max.isSome))
    (ordered : ∀ bound, max = some bound → min ≤ bound) :
    ∀ (fuel : Nat) (m : Machine) (count p left : Nat), s.text.size - p < fuel →
      p ≤ s.text.size → m.get pos = p → (∀ c, counter = some c → m.get c = count) →
      RoundsLeft s.text.size max count p left →
      ∃ m', iterate (s.exec rounds (Stmt.round r pos inner counter min max body)) fuel m =
          (.next, m') ∧
        (Reading.repeatFrom f min max.isSome left count p).toInt? = some (m'.get r) ∧
        m.Agrees (fun v => v < limit ∧ v ≠ r) m' := by
  intro fuel
  induction fuel with
  | zero => intro m count p left enough; omega
  | succ fuel ih =>
    intro m count p left enough inside here counts rest
    rcases exec_round vars read within needed ordered inside here counts rest with
      ⟨m', run, result, agrees⟩ |
      ⟨m', q, less, run, rfl, further, inside', same, here', counts', agrees⟩
    · exact ⟨m', iterate_leave run, result, agrees⟩
    · have rest' : RoundsLeft s.text.size max (count + 1) q less := by
        cases max with
        | none => simp only [RoundsLeft] at rest ⊢; omega
        | some bound => simp only [RoundsLeft] at rest ⊢; omega
      obtain ⟨m'', run'', result, agrees''⟩ :=
        ih m' (count + 1) q less (by omega) inside' here' counts' rest'
      exact ⟨m'', (iterate_next run).trans run'', by rw [same]; exact result,
        agrees.trans agrees''⟩

private theorem exec_countFromZero (s : Surroundings Ctx) (rounds : Nat) (counter : Option Nat)
    (rest : List Stmt) (m : Machine) :
    ∃ m', s.exec rounds (.block (Stmt.countFromZero counter ++ rest)) m =
        s.exec rounds (.block rest) m' ∧
      (∀ c, counter = some c → m'.get c = (0 : Nat)) ∧ m.Agrees (fun v => counter ≠ some v) m' := by
  cases counter with
  | none => exact ⟨m, rfl, by simp, Agrees.refl m⟩
  | some c =>
    refine ⟨m.set c 0, ?_, by simp, (Agrees.refl m).set (by simp) _⟩
    simp only [Stmt.countFromZero, List.cons_append, List.nil_append]
    rw [exec_block_next (exec_declare c m), exec_block_next (exec_assign rfl)]

theorem yields_repetition (vars : LoopVars r pos inner limit limit' counter)
    (read : s.Yields rounds body pos inner limit' f)
    (within : ∀ p ≤ s.text.size, (f p).Within p s.text.size)
    (needed : counter.isSome = (decide (0 < min) || max.isSome))
    (ordered : ∀ bound, max = some bound → min ≤ bound)
    (enough : s.text.size < rounds) :
    s.Yields rounds (Stmt.repetition place r pos inner counter min max body) place r limit
      (Reading.repeatFrom f min max.isSome (Reader.rounds s.text max) 0) := by
  intro m p here inside
  unfold Stmt.repetition
  simp only [List.cons_append, List.nil_append]
  rw [exec_block_next (exec_declare pos m),
    exec_block_next (exec_assign (x := p) (by simp [value, number, here]))]
  obtain ⟨m₁, start, counts, agrees⟩ := exec_countFromZero s rounds counter
    [.loop (Stmt.round r pos inner counter min max body)] (m.set pos p)
  have here₁ : m₁.get pos = p := by simpa using agrees.get pos vars.ne_pos
  have left : RoundsLeft s.text.size max 0 p (Reader.rounds s.text max) := by
    cases max with
    | none => simp only [RoundsLeft, Reader.rounds, Option.getD_none]; omega
    | some bound => simp [RoundsLeft, Reader.rounds]
  obtain ⟨m', run, result, agrees'⟩ :=
    iterate_round vars read within needed ordered rounds m₁ 0 p _ (by omega) inside here₁ counts left
  refine ⟨m', ?_, result, ?_⟩
  · rw [start, exec_block_last]
    simpa only [exec] using run
  · have := vars.posNew.1
    refine (((Agrees.refl m).set (v := pos) (by omega) p).trans
      (agrees.mono fun v kept equal => ?_)).trans agrees'
    have := (vars.counterNew v equal).1
    omega

variable {inclusive openEnd : Bool}

/-- What a round of a search does, by what is read: `m₁` is the machine behind the reading. -/
private theorem exec_probeNext (r : Nat) (inclusive openEnd : Bool) {m m₁ : Machine}
    (run : s.exec rounds body m = (.next, m₁))
    (here : m₁.get pos = p) (inside : p ≤ s.text.size)
    (result : (f p).toInt? = some (m₁.get inner)) :
    s.exec rounds (Stmt.probeNext r pos inner inclusive openEnd body) m =
      match f p with
      | .matched q => (.leave, m₁.set r (if inclusive then q else p))
      | .noMatch =>
        if p = s.text.size then (.leave, m₁.set r (if openEnd then s.text.size else -1))
        else (.next, m₁.set pos (p + 1))
      | _ => (.leave, m₁.set r (m₁.get inner)) := by
  unfold Stmt.probeNext
  rw [exec_block_next (exec_declare inner m), exec_block_next run]
  rcases equal : f p with q | _ | code | _
  · rw [equal, Reading.toInt?, Option.some.injEq] at result
    refine exec_block_end ?_ (by simp)
    rw [exec_guarded_pos (by simp [holds, ← result])]
    apply exec_assignAndLeave
    cases inclusive <;> simp [value, number, here, result]
  · rw [equal, Reading.toInt?, Option.some.injEq] at result
    rw [exec_block_next (exec_guarded_neg (by simp [holds, ← result])),
      exec_block_next (exec_guarded_neg (by simp [holds, ← result]))]
    by_cases last : p = s.text.size
    · simp only [last, if_true]
      refine exec_block_end ?_ (by simp)
      rw [exec_guarded_pos (by simp [holds, here, last])]
      apply exec_assignAndLeave
      cases openEnd <;> simp [value]
    · simp only [last, if_false]
      rw [exec_block_next (exec_guarded_neg (by simp [holds, here]; omega)), exec_block_last]
      exact exec_assign (by simp [value, here])
  · rw [equal, Reading.toInt?, Option.some.injEq] at result
    have negative := code.isError
    rw [exec_block_next (exec_guarded_neg (by simp [holds, ← result]; omega))]
    refine exec_block_end ?_ (by simp)
    rw [exec_guarded_pos (by simp [holds, ← result]; omega)]
    exact exec_assignAndLeave rfl
  · simp [equal, Reading.toInt?] at result

private theorem seekFrom_eq (missing : Reading) (more : Nat) :
    Reading.seekFrom f inclusive missing more p =
      match f p with
      | .matched q => .matched (if inclusive then q else p)
      | .noMatch =>
        if more = 0 then missing else Reading.seekFrom f inclusive missing (more - 1) (p + 1)
      | other => other := by
  cases more <;> rw [Reading.seekFrom] <;> rcases f p <;> rfl

private theorem iterate_probeNext (vars : LoopVars r pos inner limit limit' none)
    (read : s.Yields rounds body pos inner limit' f) :
    ∀ (fuel : Nat) (m : Machine) (p : Nat), s.text.size - p < fuel → p ≤ s.text.size →
      m.get pos = p →
      ∃ m', iterate (s.exec rounds (Stmt.probeNext r pos inner inclusive openEnd body)) fuel m =
          (.next, m') ∧
        (Reading.seekFrom f inclusive (if openEnd then .matched s.text.size else .noMatch)
          (s.text.size - p) p).toInt? = some (m'.get r) ∧
        m.Agrees (fun v => v < limit ∧ v ≠ r) m' := by
  intro fuel
  induction fuel with
  | zero => intro m p enough; omega
  | succ fuel ih =>
    intro m p enough inside here
    obtain ⟨m₁, run, result, agrees⟩ := read m p here inside
    have here₁ : m₁.get pos = p := (vars.get_pos agrees).trans here
    have outside := vars.outside agrees
    have round := exec_probeNext r inclusive openEnd run here₁ inside result
    rw [seekFrom_eq]
    rcases equal : f p with q | _ | code | _ <;> simp only [equal] at round
    · refine ⟨_, iterate_leave round, ?_, outside.set (by simp) _⟩
      cases inclusive <;> simp [Reading.toInt?]
    · by_cases last : p = s.text.size
      · simp only [last, if_true] at round
        refine ⟨_, iterate_leave round, ?_, outside.set (by simp) _⟩
        cases openEnd <;> simp [last, Reading.toInt?]
      · simp only [last, if_false] at round
        obtain ⟨m', run', result', agrees'⟩ := ih (m₁.set pos (p + 1)) (p + 1) (by omega)
          (by omega) (by simp)
        refine ⟨m', (iterate_next round).trans run', ?_, ?_⟩
        · rw [if_neg (by omega), Nat.sub_sub]
          exact result'
        · have := vars.posNew.1
          exact (outside.set (v := pos) (by omega) _).trans agrees'
    · refine ⟨_, iterate_leave round, ?_, outside.set (by simp) _⟩
      simpa [equal] using result
    · simp [equal, Reading.toInt?] at result

theorem yields_seek (vars : LoopVars r pos inner limit limit' none)
    (read : s.Yields rounds body pos inner limit' f) (enough : s.text.size < rounds) :
    s.Yields rounds (Stmt.seek place r pos inner inclusive openEnd body) place r limit
      (fun p => Reading.seekFrom f inclusive (if openEnd then .matched s.text.size else .noMatch)
        (s.text.size - p) p) := by
  intro m p here inside
  unfold Stmt.seek
  rw [exec_block_next (exec_declare pos m),
    exec_block_next (exec_assign (x := p) (by simp [value, number, here])), exec_block_last]
  obtain ⟨m', run, result, agrees⟩ :=
    iterate_probeNext vars read rounds (m.set pos p) p (by omega) inside (by simp)
  refine ⟨m', by simpa only [exec] using run, result, ?_⟩
  have := vars.posNew.1
  exact ((Agrees.refl m).set (v := pos) (by omega) p).trans agrees

/-- The bound variables of an assembler stand for their readers. -/
def Linked (s : Surroundings Ctx) (asm : Assembler Ctx) : Prop :=
  ∀ binding ∈ asm.bindings, s.bound.lookup binding.1 = some binding.2

theorem Linked.of_grows {before after : Assembler Ctx} (linked : s.Linked after)
    (grows : before.Grows after) : s.Linked before :=
  fun binding member => linked binding (grows.bindings member)

end Surroundings

open Surroundings

variable {s : Surroundings Ctx} {rounds : Nat} {pool : List (Reader Ctx)}

private theorem Reading.toInt?_of_within {reading : Reading} {offset size : Nat}
    (within : reading.Within offset size) : ∃ x, reading.toInt? = some x := by
  cases reading with
  | matched | noMatch | failed => exact ⟨_, rfl⟩
  | endless => cases within

private theorem Leaf.value_yields {l : Leaf Ctx} {id place : Nat} {asm : Assembler Ctx}
    (identified : ∀ a ∈ pool, ∀ b ∈ pool, a.id = b.id → a = b) (known : Reader.leaf id l ∈ pool)
    (fits : asm.Fits pool) (linked : s.Linked (l.value (.leaf id l) (.var place) asm).2)
    (calls : (Reader.leaf id l).CallsWithin s.text s.ctx) {m : Machine} {p : Nat}
    (here : m.get place = p) (inside : p ≤ s.text.size) :
    ∃ x, s.value m (l.value (.leaf id l) (.var place) asm).1 = .ok x ∧
      (l.read s.text s.ctx p).toInt? = some x := by
  have position : m.position (.var place) = p := by simp [Machine.position, number, here]
  have called (equal : l.value (.leaf id l) (.var place) asm =
      (.call (Assembly.bind (.leaf id l) asm).1 (.var place), (Assembly.bind (.leaf id l) asm).2))
      (isCalled : l.isCalled = true) :
      ∃ x, s.value m (l.value (.leaf id l) (.var place) asm).1 = .ok x ∧
        (l.read s.text s.ctx p).toInt? = some x := by
    have within := calls id l (by simp [Reader.parts]) isCalled p inside
    obtain ⟨x, result⟩ := Reading.toInt?_of_within within
    rw [equal] at linked ⊢
    have bound := linked _ (Assembly.mem_bindings_bind fits known identified)
    refine ⟨x, ?_, result⟩
    simp only [Surroundings.value, bound, position, Reader.read, Nat.not_lt.mpr inside, if_false,
      result]
  cases l with
  | regex re => exact called rfl rfl
  | custom run => exact called rfl rfl
  | never => exact ⟨-1, rfl, rfl⟩
  | always =>
    refine ⟨p, ?_, rfl⟩
    change s.value m (.position (.var place)) = .ok (p : Int)
    simp [Surroundings.value, number, here]
  | text units =>
    refine ⟨_, rfl, ?_⟩
    rw [position]
    by_cases holds : s.text.holdsAt p units <;>
      simp [Leaf.read, Probe.run, inside, holds, Reading.toInt?]
  | textAnyCase units =>
    refine ⟨_, rfl, ?_⟩
    rw [position]
    by_cases holds : s.text.holdsAnyCaseAt p units <;>
      simp [Leaf.read, Probe.run, inside, holds, Reading.toInt?]
  | oneOf set =>
    refine ⟨_, rfl, ?_⟩
    rw [position]
    cases unit : s.text[p]? with
    | none => simp [Leaf.read, Probe.run, unit, Reading.toInt?]
    | some b => by_cases member : set.contains b <;>
        simp [Leaf.read, Probe.run, inside, unit, member, Reading.toInt?]
  | atEnd =>
    refine ⟨_, rfl, ?_⟩
    rw [position]
    by_cases last : p = s.text.size <;> simp [Leaf.read, Probe.run, last, Reading.toInt?]
  | skip count =>
    refine ⟨_, rfl, ?_⟩
    rw [position]
    by_cases fits : p + count ≤ s.text.size <;>
      simp [Leaf.read, Probe.run, inside, fits, Reading.toInt?]

namespace Stmt

/-- The statements of a reader, made by an assembler whose bindings the surroundings know, yield
what the reader reads. -/
def Faithful (s : Surroundings Ctx) (rounds : Nat) (pool : List (Reader Ctx))
    (stmt : (place r : Nat) → Assembly Ctx Stmt) (read : Nat → Reading) : Prop :=
  ∀ (asm : Assembler Ctx) (place r : Nat), asm.Fits pool → s.Linked (stmt place r asm).2 →
    place < asm.nextVar → r < asm.nextVar → place ≠ r →
    s.Yields rounds (stmt place r asm).1 place r asm.nextVar read

private theorem Faithful.congr {stmt : (place r : Nat) → Assembly Ctx Stmt} {f g : Nat → Reading}
    (faithful : Faithful s rounds pool stmt f) (same : ∀ p ≤ s.text.size, f p = g p) :
    Faithful s rounds pool stmt g :=
  fun asm place r fits linked below below' apart =>
    (faithful asm place r fits linked below below' apart).congr same

private theorem ofSequence_faithful_of {items : List (Reader Ctx)}
    (known : ∀ item ∈ items, item.parts ⊆ pool)
    (within : ∀ item ∈ items, ∀ p ≤ s.text.size,
      (item.read s.text s.ctx p).Within p s.text.size)
    (each : ∀ item ∈ items, Faithful s rounds pool (ofReader item) (item.read s.text s.ctx)) :
    Faithful s rounds pool (ofSequence items) (Reader.readAll s.text s.ctx items) := by
  induction items with
  | nil => intro asm place r _ _ _ _ _; exact yields_position
  | cons item rest ih =>
    have head := each item (by simp)
    cases rest with
    | nil =>
      refine head.congr fun p _ => ?_
      simp only [Reader.readAll]
      rcases item.read s.text s.ctx p <;> rfl
    | cons second rest =>
      intro asm place r fits linked below below' apart
      have tail := ih (fun i member => known i (List.mem_cons_of_mem _ member))
        (fun i member => within i (List.mem_cons_of_mem _ member))
        (fun i member => each i (List.mem_cons_of_mem _ member))
      obtain ⟨fits₁, grows₁⟩ := ofReader_sound (known item (by simp)) place r asm fits
      obtain ⟨fits₂, grows₂⟩ := Assembly.Sound.var _ fits₁
      obtain ⟨-, grows₃⟩ :=
        ofSequence_sound (fun i member => known i (List.mem_cons_of_mem _ member))
        (ofReader item place r asm).2.nextVar r _ fits₂
      have first := head asm place r fits (linked.of_grows (grows₂.trans grows₃)) below below' apart
      have second := tail _ (ofReader item place r asm).2.nextVar r fits₂ linked
        (Nat.lt_succ_self _) (Nat.lt_succ_of_lt (Nat.lt_of_lt_of_le below' grows₁.vars))
        (Nat.ne_of_gt (Nat.lt_of_lt_of_le below' grows₁.vars))
      exact first.andThen second (within item (by simp)) grows₁.vars
        (grows₁.trans grows₂).vars

private theorem ofAlternation_faithful {items : List (Reader Ctx)}
    (known : ∀ item ∈ items, item.parts ⊆ pool)
    (each : ∀ item ∈ items, Faithful s rounds pool (ofReader item) (item.read s.text s.ctx)) :
    Faithful s rounds pool (ofAlternation items) (Reader.readAny s.text s.ctx items) := by
  induction items with
  | nil => intro asm place r _ _ _ _ _; exact yields_assign fun _ _ _ _ => ⟨-1, rfl, rfl⟩
  | cons item rest ih =>
    have head := each item (by simp)
    cases rest with
    | nil =>
      refine head.congr fun p _ => ?_
      simp only [Reader.readAny]
      rcases item.read s.text s.ctx p <;> rfl
    | cons second rest =>
      intro asm place r fits linked below below' apart
      have tail := ih (fun i member => known i (List.mem_cons_of_mem _ member))
        (fun i member => each i (List.mem_cons_of_mem _ member))
      obtain ⟨fits₁, grows₁⟩ := ofReader_sound (known item (by simp)) place r asm fits
      obtain ⟨-, grows₂⟩ := ofAlternation_sound
        (fun i member => known i (List.mem_cons_of_mem _ member)) place r _ fits₁
      have first := head asm place r fits (linked.of_grows grows₂) below below' apart
      have second := tail _ place r fits₁ linked (Nat.lt_of_lt_of_le below grows₁.vars)
        (Nat.lt_of_lt_of_le below' grows₁.vars) apart
      exact first.orElse second grows₁.vars below apart

variable {id min : Nat} {max : Option Nat} {inner : Reader Ctx} {f : Nat → Reading}

private theorem repetition_faithful (enough : s.text.size < rounds)
    (body : Faithful s rounds pool (ofReader inner) f)
    (within : ∀ p ≤ s.text.size, (f p).Within p s.text.size)
    (ordered : ∀ bound, max = some bound → min ≤ bound) :
    Faithful s rounds pool (ofReader (.repetition id inner min max))
      (Reading.repeatFrom f min max.isSome (Reader.rounds s.text max) 0) := by
  intro asm place r fits linked below below' apart
  obtain ⟨fits₁, grows₁⟩ := Assembly.Sound.var asm fits
  obtain ⟨fits₂, grows₂⟩ := Assembly.Sound.var _ fits₁
  obtain ⟨fits₃, grows₃⟩ := Assembly.Sound.varIf (decide (0 < min) || max.isSome) _ fits₂
  obtain ⟨needed, new⟩ := Assembly.varIf_spec (decide (0 < min) || max.isSome)
    (Assembly.var (Assembly.var asm).2).2
  have above := grows₃.vars
  change asm.nextVar + 2 ≤ _ at above
  have read := body _ asm.nextVar (asm.nextVar + 1) fits₃ linked
    (Nat.lt_of_lt_of_le (by omega) above) (Nat.lt_of_lt_of_le (by omega) above) (by omega)
  -- The position, the result and the counter are the next three variables, in this order.
  have vars := LoopVars.mk below' ⟨Nat.le_refl asm.nextVar, Nat.lt_of_lt_of_le (by omega) above⟩
    ⟨Nat.le_succ asm.nextVar, Nat.lt_of_lt_of_le (by omega) above⟩
    (Nat.ne_of_lt (Nat.lt_succ_self _))
    fun c equal => by
      obtain ⟨rfl, below⟩ := new c equal
      change _ ≤ asm.nextVar + 2 ∧ asm.nextVar + 2 < _ ∧ asm.nextVar + 2 ≠ _ ∧ asm.nextVar + 2 ≠ _
      exact ⟨by omega, below, by omega, by omega⟩
  exact yields_repetition vars read within needed ordered enough

private theorem optional_faithful (body : Faithful s rounds pool (ofReader inner) f) :
    Faithful s rounds pool (ofReader (.optional id inner))
      (fun p => (f p).orElse fun _ => .matched p) :=
  fun asm place r fits linked below below' apart =>
    (body asm place r fits linked below below' apart).orElse yields_position (Nat.le_refl _) below
      apart

private theorem lookahead_faithful (body : Faithful s rounds pool (ofReader inner) f) :
    Faithful s rounds pool (ofReader (.lookahead id inner))
      (fun p => (f p).andThen fun _ => .matched p) :=
  fun asm place r fits linked below below' apart =>
    (body asm place r fits linked below below' apart).ahead below apart

private theorem seek_faithful {inclusive openEnd : Bool} (enough : s.text.size < rounds)
    (body : Faithful s rounds pool (ofReader inner) f) :
    Faithful s rounds pool (ofReader (.seek id inner inclusive openEnd))
      (fun p => Reading.seekFrom f inclusive (if openEnd then .matched s.text.size else .noMatch)
        (s.text.size - p) p) := by
  intro asm place r fits linked below below' apart
  obtain ⟨fits₁, grows₁⟩ := Assembly.Sound.var asm fits
  obtain ⟨fits₂, grows₂⟩ := Assembly.Sound.var _ fits₁
  have read := body _ asm.nextVar (asm.nextVar + 1) fits₂ linked
    (Nat.lt_succ_of_lt (Nat.lt_succ_self _)) (Nat.lt_succ_self _) (by omega)
  have vars : LoopVars r asm.nextVar (asm.nextVar + 1) asm.nextVar (asm.nextVar + 2) none :=
    ⟨below', by omega, by omega, by omega, by simp⟩
  exact yields_seek vars read enough

/-- The statements of a reader yield what the reader reads. -/
theorem ofReader_faithful (enough : s.text.size < rounds)
    (identified : ∀ a ∈ pool, ∀ b ∈ pool, a.id = b.id → a = b) {reader : Reader Ctx}
    (known : reader.parts ⊆ pool) (ordered : reader.Ordered)
    (calls : reader.CallsWithin s.text s.ctx) :
    Faithful s rounds pool (ofReader reader) (reader.read s.text s.ctx) := by
  -- A reader checks its position before it reads; its statements are only run inside of the text.
  induction reader with
  | leaf id l =>
    intro asm place r fits linked below below' apart
    refine yields_assign fun m p here inside => ?_
    simp only [Reader.read, Nat.not_lt.mpr inside, if_false]
    exact Leaf.value_yields identified (known (by simp [Reader.parts])) fits linked calls here inside
  | sequence id items ih =>
    have inside : ∀ item ∈ items, item.parts ⊆ (Reader.sequence id items).parts := fun item member =>
      List.Subset.trans (Reader.parts_subset_partsAll member) (by simp [Reader.parts])
    have known' := fun item member => List.Subset.trans (inside item member) known
    have each := fun item member => ih item member (known' item member)
      (Reader.ordered_item member (.inl ordered)) (calls.of_mem_parts (inside item member))
    have within := fun item member => Reader.read_within (calls.of_mem_parts (inside item member))
    have whole : Faithful s rounds pool (ofReader (.sequence id items))
        (Reader.readAll s.text s.ctx items) := ofSequence_faithful_of known' within each
    refine whole.congr fun p le => ?_
    simp only [Reader.read, Nat.not_lt.mpr le, if_false]
  | alternation id items ih =>
    have inside : ∀ item ∈ items, item.parts ⊆ (Reader.alternation id items).parts :=
      fun item member =>
        List.Subset.trans (Reader.parts_subset_partsAll member) (by simp [Reader.parts])
    have known' := fun item member => List.Subset.trans (inside item member) known
    have each := fun item member => ih item member (known' item member)
      (Reader.ordered_item member (.inr ordered)) (calls.of_mem_parts (inside item member))
    have whole : Faithful s rounds pool (ofReader (.alternation id items))
        (Reader.readAny s.text s.ctx items) := ofAlternation_faithful known' each
    refine whole.congr fun p le => ?_
    simp only [Reader.read, Nat.not_lt.mpr le, if_false]
  | repetition id inner min max ih =>
    have inside : inner.parts ⊆ (Reader.repetition id inner min max).parts := by simp [Reader.parts]
    have calls' := calls.of_mem_parts inside
    have body := ih (List.Subset.trans inside known) (ordered.of_parts_subset inside) calls'
    refine (repetition_faithful enough body (Reader.read_within calls') ?_).congr ?_
    · rintro bound rfl
      exact ordered id inner min bound (by simp [Reader.parts])
    · intro p le
      simp only [Reader.read, Nat.not_lt.mpr le, if_false]
  | optional id inner ih =>
    have inside : inner.parts ⊆ (Reader.optional id inner).parts := by simp [Reader.parts]
    have body := ih (List.Subset.trans inside known) (ordered.of_parts_subset inside)
      (calls.of_mem_parts inside)
    refine (optional_faithful body).congr fun p le => ?_
    simp only [Reader.read, Nat.not_lt.mpr le, if_false]
  | lookahead id inner ih =>
    have inside : inner.parts ⊆ (Reader.lookahead id inner).parts := by simp [Reader.parts]
    have body := ih (List.Subset.trans inside known) (ordered.of_parts_subset inside)
      (calls.of_mem_parts inside)
    refine (lookahead_faithful body).congr fun p le => ?_
    simp only [Reader.read, Nat.not_lt.mpr le, if_false]
  | seek id inner inclusive openEnd ih =>
    have inside : inner.parts ⊆ (Reader.seek id inner inclusive openEnd).parts := by
      simp [Reader.parts]
    have body := ih (List.Subset.trans inside known) (ordered.of_parts_subset inside)
      (calls.of_mem_parts inside)
    refine (seek_faithful enough body).congr fun p le => ?_
    simp only [Reader.read, Nat.not_lt.mpr le, if_false]

/-- The statements of readers in order yield what these read in order. -/
theorem ofSequence_faithful (enough : s.text.size < rounds)
    (identified : ∀ a ∈ pool, ∀ b ∈ pool, a.id = b.id → a = b) {items : List (Reader Ctx)}
    (known : ∀ item ∈ items, item.parts ⊆ pool) (ordered : ∀ item ∈ items, item.Ordered)
    (calls : ∀ item ∈ items, item.CallsWithin s.text s.ctx) :
    Faithful s rounds pool (ofSequence items) (Reader.readAll s.text s.ctx items) :=
  ofSequence_faithful_of known (fun item member => Reader.read_within (calls item member))
    fun item member => ofReader_faithful enough identified (known item member)
      (ordered item member) (calls item member)

end Stmt

end StagedLexer
