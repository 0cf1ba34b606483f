import StagedLexer.Proofs.ReadBounds
import StagedLexer.Proofs.SearchBounds

/-! Readers without custom parts. They report no application error, and what they match ends within
the text, so trying the branches of their rules finds a match within the text or none. -/
namespace StagedLexer

variable {Ctx : Type}

/-- The reading is no application error. -/
def Reading.Unfailing (reading : Reading) : Prop := ∀ code, reading ≠ .failed code

namespace Reading

private theorem unfailing_matched (stop : Nat) : (matched stop).Unfailing := by
  simp [Unfailing]

private theorem unfailing_noMatch : noMatch.Unfailing := by
  simp [Unfailing]

theorem Unfailing.andThen {reading : Reading} {next : Nat → Reading} (first : reading.Unfailing)
    (second : ∀ stop, (next stop).Unfailing) : (reading.andThen next).Unfailing := by
  cases reading with
  | matched stop => exact second stop
  | noMatch | failed | endless => exact first

theorem Unfailing.orElse {reading : Reading} {other : Unit → Reading} (first : reading.Unfailing)
    (second : (other ()).Unfailing) : (reading.orElse other).Unfailing := by
  cases reading with
  | noMatch => exact second
  | matched | failed | endless => exact first

private theorem unfailing_settle (min count pos : Nat) : (settle min count pos).Unfailing := by
  unfold settle
  split
  · exact unfailing_matched pos
  · exact unfailing_noMatch

theorem unfailing_repeatFrom {read : Nat → Reading} {min : Nat} {bounded : Bool}
    (inner : ∀ pos, (read pos).Unfailing) :
    ∀ rounds count pos, (repeatFrom read min bounded rounds count pos).Unfailing := by
  intro rounds
  induction rounds with
  | zero =>
    intro count pos
    unfold repeatFrom
    split
    · exact unfailing_settle min count pos
    · simp [Unfailing]
  | succ rounds ih =>
    intro count pos
    have round := inner pos
    unfold repeatFrom
    split
    · split
      · exact unfailing_settle min count pos
      · exact ih _ _
    · exact unfailing_settle min count pos
    · exact round

theorem unfailing_seekFrom {read : Nat → Reading} {inclusive : Bool} {missing : Reading}
    (inner : ∀ pos, (read pos).Unfailing) (last : missing.Unfailing) :
    ∀ more pos, (seekFrom read inclusive missing more pos).Unfailing := by
  intro more
  induction more with
  | zero =>
    intro pos
    have round := inner pos
    unfold seekFrom
    split
    · exact unfailing_matched _
    · exact last
    · exact round
  | succ more ih =>
    intro pos
    have round := inner pos
    unfold seekFrom
    split
    · exact unfailing_matched _
    · exact ih (pos + 1)
    · exact round

end Reading

namespace Reader

/-- The reader has no custom parts. -/
def Plain (reader : Reader Ctx) : Prop := ∀ id run, leaf id (.custom run) ∉ reader.parts

theorem Plain.of_parts_subset {whole reader : Reader Ctx} (plain : whole.Plain)
    (inside : reader.parts ⊆ whole.parts) : reader.Plain :=
  fun id run member => plain id run (inside member)

/-- Only custom readers are calls that could leave the text. -/
theorem Plain.callsWithin {reader : Reader Ctx} (plain : reader.Plain) (text : Bytes) (ctx : Ctx) :
    reader.CallsWithin text ctx := by
  intro id l member called offset inside
  cases l with
  | regex regex =>
    simp only [Leaf.read]
    split
    · next found => exact Regex.Program.matchAt?_within inside found
    · trivial
  | custom run => exact (plain id run member).elim
  | never | always | text | textAnyCase | oneOf | atEnd | skip => cases called

private theorem unfailing_leaf {l : Leaf Ctx} (plain : ∀ run, l ≠ .custom run) (text : Bytes)
    (ctx : Ctx)
    (offset : Nat) : (l.read text ctx offset).Unfailing := by
  cases l with
  | custom run => exact (plain run rfl).elim
  | never => exact Reading.unfailing_noMatch
  | always => exact Reading.unfailing_matched offset
  | text | textAnyCase | atEnd | skip =>
    simp only [Leaf.read]
    split
    · exact Reading.unfailing_matched _
    · exact Reading.unfailing_noMatch
  | oneOf set =>
    simp only [Leaf.read]
    split
    · split
      · exact Reading.unfailing_matched _
      · exact Reading.unfailing_noMatch
    · exact Reading.unfailing_noMatch
  | regex regex =>
    simp only [Leaf.read]
    split
    · exact Reading.unfailing_matched _
    · exact Reading.unfailing_noMatch

private theorem unfailing_readAll {text : Bytes} {ctx : Ctx} {items : List (Reader Ctx)}
    (inner : ∀ item ∈ items, ∀ pos, (read text ctx item pos).Unfailing) :
    ∀ pos, (readAll text ctx items pos).Unfailing := by
  induction items with
  | nil => exact fun pos => Reading.unfailing_matched pos
  | cons item rest ih =>
    intro pos
    unfold readAll
    exact (inner item (by simp) pos).andThen (ih fun i member => inner i (by simp [member]))

private theorem unfailing_readAny {text : Bytes} {ctx : Ctx} {items : List (Reader Ctx)}
    (inner : ∀ item ∈ items, ∀ pos, (read text ctx item pos).Unfailing) :
    ∀ pos, (readAny text ctx items pos).Unfailing := by
  induction items with
  | nil => exact fun _ => Reading.unfailing_noMatch
  | cons item rest ih =>
    intro pos
    unfold readAny
    exact (inner item (by simp) pos).orElse (ih (fun i member => inner i (by simp [member])) pos)

theorem Plain.unfailing {reader : Reader Ctx} (plain : reader.Plain) (text : Bytes) (ctx : Ctx) :
    ∀ offset, (read text ctx reader offset).Unfailing := by
  induction reader with
  | leaf id l =>
    intro offset
    unfold read
    split
    · exact Reading.unfailing_noMatch
    · refine unfailing_leaf (fun run equal => plain id run ?_) text ctx offset
      simp [parts, equal]
  | sequence id items ih =>
    intro offset
    unfold read
    split
    · exact Reading.unfailing_noMatch
    · refine unfailing_readAll (fun item member => ih item member (plain.of_parts_subset ?_)) offset
      exact List.Subset.trans (parts_subset_partsAll member) (by simp [parts])
  | alternation id items ih =>
    intro offset
    unfold read
    split
    · exact Reading.unfailing_noMatch
    · refine unfailing_readAny (fun item member => ih item member (plain.of_parts_subset ?_)) offset
      exact List.Subset.trans (parts_subset_partsAll member) (by simp [parts])
  | repetition id inner min max ih =>
    intro offset
    unfold read
    split
    · exact Reading.unfailing_noMatch
    · exact Reading.unfailing_repeatFrom (ih (plain.of_parts_subset (by simp [parts]))) _ _ _
  | optional id inner ih =>
    intro offset
    unfold read
    split
    · exact Reading.unfailing_noMatch
    · exact (ih (plain.of_parts_subset (by simp [parts])) offset).orElse
        (Reading.unfailing_matched offset)
  | lookahead id inner ih =>
    intro offset
    unfold read
    split
    · exact Reading.unfailing_noMatch
    · exact (ih (plain.of_parts_subset (by simp [parts])) offset).andThen fun _ =>
        Reading.unfailing_matched offset
  | seek id inner inclusive openEnd ih =>
    intro offset
    unfold read
    split
    · exact Reading.unfailing_noMatch
    · refine Reading.unfailing_seekFrom (ih (plain.of_parts_subset (by simp [parts]))) ?_ _ _
      split
      · exact Reading.unfailing_matched _
      · exact Reading.unfailing_noMatch

end Reader

/-- The outcome is a match or none. -/
def Outcome.Regular : Outcome → Prop
  | .matched _ _ | .noMatch => True
  | .failed _ _ | .endless => False

namespace Branch

private theorem regular_orElse {outcome : Outcome} {other : Unit → Outcome}
    (first : outcome.Regular) (second : (other ()).Regular) : (outcome.orElse other).Regular := by
  cases outcome with
  | noMatch => exact second
  | matched => trivial
  | failed | endless => exact first.elim

private theorem regular_attemptAll_of {text : Bytes} {ctx : Ctx} {start pos : Nat}
    {branches : List (Branch Ctx)}
    (each : ∀ branch ∈ branches, (attempt text ctx start pos branch).Regular) :
    (attemptAll text ctx start pos branches).Regular := by
  induction branches with
  | nil => trivial
  | cons branch rest ih =>
    rw [attemptAll]
    exact regular_orElse (each branch (by simp)) (ih fun b member => each b (by simp [member]))

theorem regular_attempt {text : Bytes} {ctx : Ctx} {start : Nat} {branch : Branch Ctx}
    (plain : branch.EachReader Reader.Plain) {pos : Nat} (inside : pos ≤ text.size) :
    (attempt text ctx start pos branch).Regular := by
  induction branch generalizing pos with
  | mk id readers children completed owner ih =>
    obtain ⟨here, below⟩ := eachReader_iff.mp plain
    have within := Reader.readAll_within
      (fun reader member => Reader.read_within ((here reader member).callsWithin text ctx)) pos
      inside
    have unfailing := Reader.unfailing_readAll
      (fun reader member => (here reader member).unfailing text ctx) pos
    rw [attempt]
    split
    · trivial
    · next code failed => exact (unfailing code failed).elim
    · next ends =>
      rw [ends] at within
      exact within.elim
    · next stop found =>
      rw [found] at within
      refine regular_orElse (regular_attemptAll_of fun child member =>
        ih child member (below child member) within.2) ?_
      repeat' split
      all_goals trivial

theorem regular_attemptAll {text : Bytes} {ctx : Ctx} {start : Nat} {branches : List (Branch Ctx)}
    (plain : ∀ branch ∈ branches, branch.EachReader Reader.Plain) {pos : Nat}
    (inside : pos ≤ text.size) : (attemptAll text ctx start pos branches).Regular :=
  regular_attemptAll_of fun branch member => regular_attempt (plain branch member) inside

end Branch

end StagedLexer
