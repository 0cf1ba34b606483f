import StagedLexer.Outcome
import StagedLexer.Proofs.Construction
import StagedLexer.Proofs.TrieReaders

/-! Where readings end. If every regular expression and every custom reader stays within the text,
so does every reader made from them, and no reading goes on forever. -/
namespace StagedLexer

/-- The reading comes to an end, and a match of it ends between `offset` and `size`. -/
def Reading.Within (offset size : Nat) : Reading → Prop
  | .matched stop => offset ≤ stop ∧ stop ≤ size
  | .noMatch | .failed _ => True
  | .endless => False

variable {Ctx : Type}

/-- Whether reading the leaf is a call: what it reads is not fixed by the reader. -/
def Leaf.isCalled : Leaf Ctx → Bool
  | .regex _ | .custom _ => true
  | _ => false

/-- Every call made inside of the reader at a position of the text stays within the text. -/
def Reader.CallsWithin (text : Bytes) (ctx : Ctx) (reader : Reader Ctx) : Prop :=
  ∀ id l, Reader.leaf id l ∈ reader.parts → l.isCalled = true →
    ∀ offset ≤ text.size, (l.read text ctx offset).Within offset text.size

namespace Reading

@[simp] theorem matched_within {stop offset size : Nat} :
    (matched stop).Within offset size ↔ offset ≤ stop ∧ stop ≤ size := Iff.rfl

@[simp] theorem noMatch_within {offset size : Nat} : noMatch.Within offset size := trivial

@[simp] theorem failed_within {code : ErrorCode} {offset size : Nat} :
    (failed code).Within offset size := trivial

@[simp] theorem endless_not_within {offset size : Nat} : ¬ endless.Within offset size := id

theorem Within.mono {reading : Reading} {low offset size : Nat}
    (within : reading.Within offset size) (le : low ≤ offset) : reading.Within low size := by
  cases reading with
  | matched stop => exact ⟨Nat.le_trans le within.1, within.2⟩
  | noMatch | failed => trivial
  | endless => exact within

theorem Within.orElse {reading : Reading} {other : Unit → Reading} {offset size : Nat}
    (first : reading.Within offset size) (second : (other ()).Within offset size) :
    (reading.orElse other).Within offset size := by
  cases reading with
  | noMatch => exact second
  | matched | failed | endless => exact first

theorem Within.andThen {reading : Reading} {next : Nat → Reading} {offset size : Nat}
    (first : reading.Within offset size)
    (second : ∀ stop, offset ≤ stop → stop ≤ size → (next stop).Within offset size) :
    (reading.andThen next).Within offset size := by
  cases reading with
  | matched stop => exact second stop first.1 first.2
  | noMatch | failed | endless => exact first

private theorem settle_within {min count pos size : Nat} (le : pos ≤ size) :
    (settle min count pos).Within pos size := by
  unfold settle
  split
  · exact ⟨Nat.le_refl _, le⟩
  · trivial

/-- A repetition ends: every counted round moves on, and there are more rounds than positions. -/
theorem repeatFrom_within {read : Nat → Reading} {size min : Nat} {bounded : Bool}
    (inner : ∀ pos ≤ size, (read pos).Within pos size) :
    ∀ rounds count pos, pos ≤ size → (bounded = true ∨ size - pos < rounds) →
      (repeatFrom read min bounded rounds count pos).Within pos size := by
  intro rounds
  induction rounds with
  | zero =>
    intro count pos le enough
    have bounded : bounded = true := by simpa using enough
    simpa [repeatFrom, bounded] using settle_within le
  | succ rounds ih =>
    intro count pos le enough
    have round := inner pos le
    unfold repeatFrom
    split
    · next stop found =>
      rw [found, matched_within] at round
      split
      · exact settle_within le
      · refine (ih (count + 1) stop round.2 ?_).mono round.1
        rcases enough with bounded | enough
        · exact .inl bounded
        · exact .inr (by omega)
    · exact settle_within le
    · exact round

theorem seekFrom_within {read : Nat → Reading} {size : Nat} {inclusive : Bool}
    {missing : Reading} (inner : ∀ pos ≤ size, (read pos).Within pos size)
    (last : ∀ pos ≤ size, missing.Within pos size) :
    ∀ more pos, pos + more ≤ size →
      (seekFrom read inclusive missing more pos).Within pos size := by
  intro more
  induction more with
  | zero =>
    intro pos le
    have round := inner pos le
    unfold seekFrom
    split
    · next stop found =>
      rw [found] at round
      cases inclusive
      · exact ⟨Nat.le_refl _, le⟩
      · exact round
    · exact last pos le
    · exact round
  | succ more ih =>
    intro pos le
    have round := inner pos (by omega)
    unfold seekFrom
    split
    · next stop found =>
      rw [found] at round
      cases inclusive
      · exact ⟨Nat.le_refl _, Nat.le_trans (Nat.le_add_right _ _) le⟩
      · exact round
    · exact (ih (pos + 1) (by omega)).mono (by omega)
    · exact round

end Reading

namespace Bytes

theorem getElem?_eq_head? (text : Bytes) (pos : Nat) :
    text[pos]? = (text.toList.drop pos).head? := by
  rw [List.head?_drop, Array.getElem?_toList]

theorem holdsAt_eq (text : Bytes) (pos : Nat) (units : List UInt8) :
    holdsAt text pos units = units.isPrefixOf (text.toList.drop pos) := by
  induction units generalizing pos with
  | nil => rw [holdsAt, List.isPrefixOf_nil_left]
  | cons b rest ih =>
    rw [holdsAt, ih, getElem?_eq_head?, ← List.tail_drop]
    cases text.toList.drop pos with
    | nil => rfl
    | cons a more => simp [List.isPrefixOf_cons_cons, BEq.comm (a := a)]

theorem holdsAnyCaseAt_iff (text : Bytes) (pos : Nat) (units : List UInt8) :
    holdsAnyCaseAt text pos units = true ↔ units.length ≤ (text.toList.drop pos).length ∧
      ((text.toList.drop pos).take units.length).map lower = units.map lower := by
  induction units generalizing pos with
  | nil => simp [holdsAnyCaseAt]
  | cons b rest ih =>
    rw [holdsAnyCaseAt, Bool.and_eq_true, ih, getElem?_eq_head?, ← List.tail_drop]
    cases text.toList.drop pos with
    | nil => simp
    | cons a more =>
      simp only [List.tail_cons, List.head?_cons, Option.map_some, List.length_cons, beq_iff_eq,
        List.take_succ_cons, List.map_cons, Option.some.injEq, List.cons.injEq,
        Nat.add_le_add_iff_right]
      exact and_left_comm

theorem size_of_holdsAt {text : Bytes} {units : List UInt8} {i : Nat} (le : i ≤ text.size)
    (holds : holdsAt text i units = true) : i + units.length ≤ text.size := by
  induction units generalizing i with
  | nil => simpa using le
  | cons b rest ih =>
    simp only [holdsAt, Bool.and_eq_true, beq_iff_eq] at holds
    have here : i < text.size := (Array.getElem?_eq_some_iff.mp holds.1).1
    have behind := ih here holds.2
    simp only [List.length_cons]
    omega

theorem size_of_holdsAnyCaseAt {text : Bytes} {units : List UInt8} {i : Nat} (le : i ≤ text.size)
    (holds : holdsAnyCaseAt text i units = true) : i + units.length ≤ text.size := by
  induction units generalizing i with
  | nil => simpa using le
  | cons b rest ih =>
    simp only [holdsAnyCaseAt, Bool.and_eq_true, beq_iff_eq, Option.map_eq_some_iff] at holds
    obtain ⟨⟨unit, found, -⟩, behind⟩ := holds
    have here : i < text.size := (Array.getElem?_eq_some_iff.mp found).1
    have behind := ih here behind
    simp only [List.length_cons]
    omega

end Bytes

private theorem Leaf.read_within {text : Bytes} {ctx : Ctx} {l : Leaf Ctx} {offset : Nat}
    (le : offset ≤ text.size) (fixed : l.isCalled = false) :
    (l.read text ctx offset).Within offset text.size := by
  cases l with
  | never => trivial
  | always => exact ⟨Nat.le_refl _, le⟩
  | text units =>
    simp only [Leaf.read]
    split
    · next holds => exact ⟨by omega, Bytes.size_of_holdsAt le holds⟩
    · trivial
  | textAnyCase units =>
    simp only [Leaf.read]
    split
    · next holds => exact ⟨by omega, Bytes.size_of_holdsAnyCaseAt le holds⟩
    · trivial
  | oneOf set =>
    simp only [Leaf.read]
    split
    · next b found =>
      have here : offset < text.size := (Array.getElem?_eq_some_iff.mp found).1
      split
      · exact ⟨by omega, here⟩
      · trivial
    · trivial
  | atEnd =>
    simp only [Leaf.read]
    split
    · exact ⟨Nat.le_refl _, le⟩
    · trivial
  | skip count =>
    simp only [Leaf.read]
    split
    · exact ⟨by omega, by assumption⟩
    · trivial
  | regex | custom => cases fixed

namespace Reader

theorem CallsWithin.of_mem_parts {text : Bytes} {ctx : Ctx} {whole reader : Reader Ctx}
    (calls : whole.CallsWithin text ctx) (inside : reader.parts ⊆ whole.parts) :
    reader.CallsWithin text ctx :=
  fun id l member => calls id l (inside member)

theorem parts_subset_partsAll {item : Reader Ctx} {items : List (Reader Ctx)}
    (member : item ∈ items) : item.parts ⊆ partsAll items :=
  fun _ inside => mem_partsAll.mpr ⟨item, member, inside⟩

theorem readAll_within {text : Bytes} {ctx : Ctx} {items : List (Reader Ctx)}
    (inner : ∀ item ∈ items, ∀ pos ≤ text.size, (read text ctx item pos).Within pos text.size) :
    ∀ pos ≤ text.size, (readAll text ctx items pos).Within pos text.size := by
  induction items with
  | nil => intro pos le; exact ⟨Nat.le_refl _, le⟩
  | cons item rest ih =>
    intro pos le
    unfold readAll
    apply (inner item (by simp) pos le).andThen
    intro stop behind inside
    exact (ih (fun i member => inner i (by simp [member])) stop inside).mono behind

private theorem readAny_within {text : Bytes} {ctx : Ctx} {items : List (Reader Ctx)}
    (inner : ∀ item ∈ items, ∀ pos ≤ text.size, (read text ctx item pos).Within pos text.size) :
    ∀ pos ≤ text.size, (readAny text ctx items pos).Within pos text.size := by
  induction items with
  | nil => intro pos _; trivial
  | cons item rest ih =>
    intro pos le
    unfold readAny
    exact (inner item (by simp) pos le).orElse
      (ih (fun i member => inner i (by simp [member])) pos le)

/-- Every reading at a position of the text ends within the text. -/
theorem read_within {text : Bytes} {ctx : Ctx} {reader : Reader Ctx}
    (calls : reader.CallsWithin text ctx) :
    ∀ offset ≤ text.size, (read text ctx reader offset).Within offset text.size := by
  induction reader with
  | leaf id l =>
    intro offset le
    simp only [read, Nat.not_lt.mpr le, if_false]
    cases called : l.isCalled with
    | true => exact calls id l (by simp [parts]) called offset le
    | false => exact Leaf.read_within le called
  | sequence id items ih =>
    intro offset le
    simp only [read, Nat.not_lt.mpr le, if_false]
    refine readAll_within (fun item member => ih item member (calls.of_mem_parts ?_)) offset le
    exact List.Subset.trans (parts_subset_partsAll member) (by simp [parts])
  | alternation id items ih =>
    intro offset le
    simp only [read, Nat.not_lt.mpr le, if_false]
    refine readAny_within (fun item member => ih item member (calls.of_mem_parts ?_)) offset le
    exact List.Subset.trans (parts_subset_partsAll member) (by simp [parts])
  | repetition id inner min max ih =>
    intro offset le
    have body := ih (calls.of_mem_parts (by simp [parts]))
    simp only [read, Nat.not_lt.mpr le, if_false]
    apply Reading.repeatFrom_within body _ _ _ le
    cases max with
    | some max => exact .inl rfl
    | none => exact .inr (by simp only [rounds, Option.getD_none]; omega)
  | optional id inner ih =>
    intro offset le
    have body := ih (calls.of_mem_parts (by simp [parts])) offset le
    simp only [read, Nat.not_lt.mpr le, if_false]
    exact body.orElse ⟨Nat.le_refl _, le⟩
  | lookahead id inner ih =>
    intro offset le
    have body := ih (calls.of_mem_parts (by simp [parts])) offset le
    simp only [read, Nat.not_lt.mpr le, if_false]
    exact body.andThen fun _ _ _ => ⟨Nat.le_refl _, le⟩
  | seek id inner inclusive openEnd ih =>
    intro offset le
    have body := ih (calls.of_mem_parts (by simp [parts]))
    simp only [read, Nat.not_lt.mpr le, if_false]
    apply Reading.seekFrom_within body _ _ _ (by omega)
    intro pos le
    split
    · exact ⟨le, Nat.le_refl _⟩
    · trivial

theorem parts_subset_of_mem_steps {reader step : Reader Ctx} (member : step ∈ reader.steps) :
    step.parts ⊆ reader.parts := by
  cases reader with
  | sequence id items =>
    exact List.Subset.trans (parts_subset_partsAll member) (List.subset_cons_self _ _)
  | leaf | alternation | repetition | optional | lookahead | seek =>
    obtain rfl := List.mem_singleton.mp member
    exact fun _ inside => inside

end Reader

theorem Reader.CallsWithin.read_ne_endless {text : Bytes} {ctx : Ctx} {reader : Reader Ctx}
    (calls : reader.CallsWithin text ctx) (pos : Nat) : reader.read text ctx pos ≠ .endless := by
  intro endless
  by_cases inside : pos ≤ text.size
  · have within := read_within calls pos inside
    rw [endless] at within
    exact within
  · have none : reader.read text ctx pos = .noMatch := by
      cases reader <;> exact if_pos (Nat.not_le.mp inside)
    rw [endless] at none
    cases none

private theorem Reader.readAll_ne_endless {text : Bytes} {ctx : Ctx} {items : List (Reader Ctx)}
    (each : ∀ item ∈ items, ∀ pos, read text ctx item pos ≠ .endless) (pos : Nat) :
    readAll text ctx items pos ≠ .endless := by
  induction items generalizing pos with
  | nil => simp [readAll]
  | cons item rest ih =>
    have first := each item (by simp) pos
    rw [readAll]
    cases reading : read text ctx item pos with
    | matched stop => exact ih (fun i member => each i (by simp [member])) stop
    | noMatch | failed => simp [Reading.andThen]
    | endless => exact (first reading).elim

namespace Branch

private theorem attemptAll_ne_endless_of {text : Bytes} {ctx : Ctx} {start pos : Nat}
    {branches : List (Branch Ctx)}
    (each : ∀ branch ∈ branches, attempt text ctx start pos branch ≠ .endless) :
    attemptAll text ctx start pos branches ≠ .endless := by
  induction branches with
  | nil => simp [attemptAll]
  | cons branch rest ih =>
    have first := each branch (by simp)
    rw [attemptAll]
    cases tried : attempt text ctx start pos branch with
    | noMatch => exact ih fun b member => each b (by simp [member])
    | matched | failed => simp [Outcome.orElse]
    | endless => exact (first tried).elim

private theorem attempt_ne_endless {text : Bytes} {ctx : Ctx} {start : Nat} {branch : Branch Ctx}
    (ends : branch.EachReader fun reader => ∀ pos, reader.read text ctx pos ≠ .endless)
    (pos : Nat) : attempt text ctx start pos branch ≠ .endless := by
  induction branch generalizing pos with
  | mk id readers children completed owner ih =>
    obtain ⟨here, below⟩ := eachReader_iff.mp ends
    have reads := Reader.readAll_ne_endless here pos
    rw [attempt]
    split
    · simp
    · simp
    · next endless => exact (reads endless).elim
    · next stop _ =>
      have inner := attemptAll_ne_endless_of fun child member =>
        ih child member (below child member) stop
      cases tried : attemptAll text ctx start stop children with
      | noMatch =>
        simp only [Outcome.orElse]
        repeat' split
        all_goals simp
      | matched | failed => simp [Outcome.orElse]
      | endless => exact (inner tried).elim

/-- Trying branches comes to an end if reading does. -/
theorem attemptAll_ne_endless {text : Bytes} {ctx : Ctx} {start pos : Nat}
    {branches : List (Branch Ctx)} (ends : ∀ branch ∈ branches,
      branch.EachReader fun reader => ∀ pos, reader.read text ctx pos ≠ .endless) :
    attemptAll text ctx start pos branches ≠ .endless :=
  attemptAll_ne_endless_of fun branch member => attempt_ne_endless (ends branch member) pos

end Branch

private theorem Branch.stop_le_of_attemptAll_of {text : Bytes} {ctx : Ctx} {start pos : Nat}
    {branches : List (Branch Ctx)} (each : ∀ branch ∈ branches, ∀ rule stop,
      attempt text ctx start pos branch = .matched rule stop → stop ≤ text.size)
    {rule stop : Nat} (found : attemptAll text ctx start pos branches = .matched rule stop) :
    stop ≤ text.size := by
  induction branches with
  | nil => cases found
  | cons branch rest ih =>
    rw [attemptAll] at found
    cases tried : attempt text ctx start pos branch with
    | noMatch =>
      rw [tried] at found
      exact ih (fun b member => each b (by simp [member])) found
    | matched | failed | endless =>
      rw [tried] at found
      exact each branch (by simp) rule stop (tried.trans found)

/-- The match of a branch ends within the text. -/
theorem Branch.stop_le_of_attempt {text : Bytes} {ctx : Ctx} {start : Nat} {branch : Branch Ctx}
    (calls : branch.EachReader (·.CallsWithin text ctx)) {pos rule stop : Nat}
    (inside : pos ≤ text.size) (found : attempt text ctx start pos branch = .matched rule stop) :
    stop ≤ text.size := by
  induction branch generalizing pos rule stop with
  | mk id readers children completed owner ih =>
    obtain ⟨here, below⟩ := eachReader_iff.mp calls
    have within := Reader.readAll_within
      (fun reader member => Reader.read_within (here reader member)) pos inside
    rw [attempt] at found
    split at found
    · cases found
    · cases found
    · cases found
    · next q reading =>
      rw [reading] at within
      cases tried : attemptAll text ctx start q children with
      | noMatch =>
        rw [tried] at found
        cases completed with
        | none => cases found
        | some completed =>
          simp only [Outcome.orElse] at found
          split at found
          · cases found
            exact within.2
          · cases found
      | matched | failed | endless =>
        rw [tried] at found
        refine stop_le_of_attemptAll_of (fun child member _ _ => ?_) (tried.trans found)
        exact ih child member (below child member) within.2

theorem Branch.stop_le_of_attemptAll {text : Bytes} {ctx : Ctx} {start : Nat}
    {branches : List (Branch Ctx)}
    (calls : ∀ branch ∈ branches, branch.EachReader (·.CallsWithin text ctx)) {pos rule stop : Nat}
    (inside : pos ≤ text.size)
    (found : attemptAll text ctx start pos branches = .matched rule stop) : stop ≤ text.size :=
  stop_le_of_attemptAll_of
    (fun branch member _ _ => stop_le_of_attempt (calls branch member) inside) found

end StagedLexer
