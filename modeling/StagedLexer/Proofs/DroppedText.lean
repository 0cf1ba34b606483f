import StagedLexer.Proofs.RepetitionBounds
import StagedLexer.Proofs.TokenShapes

/-! Text that is dropped. A reader looks at no text in front of its position, and so does a trie of
rules. A stream can therefore forget the text that it has consumed: at its cursor the same rule
matches, as far behind the position of the stream as before. -/
namespace StagedLexer

variable {Ctx : Type}

namespace Bytes

variable (front text : Bytes)

theorem getElem?_behind (pos : Nat) : (front ++ text)[front.size + pos]? = text[pos]? := by
  rw [Array.getElem?_append_right (Nat.le_add_right _ _), Nat.add_sub_cancel_left]

theorem holdsAnyCaseAt_behind (units : List UInt8) (pos : Nat) :
    holdsAnyCaseAt (front ++ text) (front.size + pos) units = holdsAnyCaseAt text pos units := by
  induction units generalizing pos with
  | nil => rfl
  | cons b rest ih =>
    rw [holdsAnyCaseAt, holdsAnyCaseAt, getElem?_behind, Nat.add_assoc, ih (pos + 1)]

theorem size_lt_behind_iff {pos : Nat} :
    (front ++ text).size < front.size + pos ↔ text.size < pos := by
  rw [Array.size_append, Nat.add_lt_add_iff_left]

end Bytes

namespace Reading

variable {reading : Reading} {distance : Nat}

theorem shift_andThen {next next' : Nat → Reading}
    (same : ∀ stop, next' (distance + stop) = (next stop).shift distance) :
    (reading.shift distance).andThen next' = (reading.andThen next).shift distance := by
  cases reading with
  | matched stop => exact same stop
  | noMatch | failed | endless => rfl

theorem shift_orElse {other other' : Unit → Reading}
    (same : other' () = (other ()).shift distance) :
    (reading.shift distance).orElse other' = (reading.orElse other).shift distance := by
  cases reading with
  | noMatch => exact same
  | matched | failed | endless => rfl

theorem shift_settle (min count pos : Nat) :
    settle min count (distance + pos) = (settle min count pos).shift distance := by
  unfold settle
  split <;> rfl

variable {read read' : Nat → Reading}

/-- Two loops in step, one of them a distance behind the other. -/
theorem shift_repeatFrom (same : ∀ pos, read' (distance + pos) = (read pos).shift distance)
    (min : Nat) (bounded : Bool) (rounds count pos : Nat) :
    repeatFrom read' min bounded rounds count (distance + pos) =
      (repeatFrom read min bounded rounds count pos).shift distance := by
  induction rounds generalizing count pos with
  | zero =>
    cases bounded with
    | true => exact shift_settle min count pos
    | false => rfl
  | succ rounds ih =>
    rw [repeatFrom, repeatFrom, same]
    cases read pos with
    | matched stop =>
      simp only [shift, Nat.add_left_cancel_iff]
      split
      · exact shift_settle min count pos
      · exact ih (count + 1) stop
    | noMatch => exact shift_settle min count pos
    | failed | endless => rfl

theorem shift_seekFrom (same : ∀ pos, read' (distance + pos) = (read pos).shift distance)
    (inclusive : Bool) (missing : Reading) (more pos : Nat) :
    seekFrom read' inclusive (missing.shift distance) more (distance + pos) =
      (seekFrom read inclusive missing more pos).shift distance := by
  induction more generalizing pos with
  | zero =>
    rw [seekFrom, seekFrom, same]
    cases read pos with
    | matched stop => cases inclusive <;> rfl
    | noMatch | failed | endless => rfl
  | succ more ih =>
    rw [seekFrom, seekFrom, same]
    cases read pos with
    | matched stop => cases inclusive <;> rfl
    | noMatch => exact ih (pos + 1)
    | failed | endless => rfl

/-- A loop that is still going on when it has been at one position twice has no end, so more rounds
make no difference. -/
theorem repeatFrom_enough {size min rounds count pos : Nat}
    (silent : ∀ p, size < p → read p = .noMatch) (enough : size + 2 ≤ rounds) :
    repeatFrom read min false rounds count pos = repeatFrom read min false (size + 2) count pos := by
  apply Reader.eq_iff_of_ends.mp
  have loop {left : Nat} (enough : size + 2 ≤ left) {out : Reading} (ends : out ≠ .endless) :
      repeatFrom read min false left count pos = out ↔
        Repeats read min none count pos out := by
    constructor
    · change repeatFrom read min (none : Option Nat).isSome left count pos = out → _
      exact repeats_of_repeatFrom (by simp) ends
    · intro repeats
      obtain ⟨n, moves, runs⟩ := repeats.repeatFrom_unbounded
      have few := moves.le silent
      exact runs left (by omega)
  intro out ends
  rw [loop enough ends, loop (Nat.le_refl _) ends]

end Reading

/-- Text in front of a text has no influence on what is read in it. -/
def Reader.Forgets (ctx : Ctx) (reader : Reader Ctx) : Prop :=
  ∀ (front text : Bytes) (offset : Nat), reader.read (front ++ text) ctx (front.size + offset) =
    (reader.read text ctx offset).shift front.size

/-- No regular expression is used inside of the reader, and what is called forgets the text in front
of its position. -/
structure Reader.CallsForget (ctx : Ctx) (reader : Reader Ctx) : Prop where
  plain : ∀ id r, Reader.leaf id (.regex r) ∉ reader.parts
  calls : ∀ id run, Reader.leaf id (.custom run) ∈ reader.parts →
    (Reader.leaf id (.custom run)).Forgets ctx

namespace Reader

variable {ctx : Ctx}

theorem CallsForget.of_subset {whole part : Reader Ctx} (forget : whole.CallsForget ctx)
    (inside : part.parts ⊆ whole.parts) : part.CallsForget ctx :=
  ⟨fun id r member => forget.plain id r (inside member),
    fun id run member => forget.calls id run (inside member)⟩

/-- Behind the end of the text there is nothing to show. -/
private theorem shift_unless_behind {front text : Bytes} {offset : Nat} {here there : Reading}
    (same : offset ≤ text.size → here = there.shift front.size) :
    (if (front ++ text).size < front.size + offset then .noMatch else here) =
      (if text.size < offset then Reading.noMatch else there).shift front.size := by
  simp only [Bytes.size_lt_behind_iff]
  split
  · rfl
  · next inside => exact same (Nat.not_lt.mp inside)

private theorem forgets_leaf (id : Nat) {l : Leaf Ctx}
    (fixed : l.isCalled = false) : (leaf id l).Forgets ctx := by
  intro front text offset
  rw [read, read]
  apply shift_unless_behind
  intro inside
  cases l with
  | never | always => rfl
  | text units =>
    simp only [Leaf.read, Bytes.holdsAt_behind, Nat.add_assoc]
    split <;> rfl
  | textAnyCase units =>
    simp only [Leaf.read, Bytes.holdsAnyCaseAt_behind, Nat.add_assoc]
    split <;> rfl
  | oneOf set =>
    simp only [Leaf.read, Bytes.getElem?_behind]
    split
    · split <;> rfl
    · rfl
  | atEnd =>
    simp only [Leaf.read, Array.size_append, Nat.add_left_cancel_iff]
    split <;> rfl
  | skip count =>
    simp only [Leaf.read, Array.size_append, Nat.add_assoc, Nat.add_le_add_iff_left]
    split <;> rfl
  | regex | custom => cases fixed

theorem shift_readAll {items : List (Reader Ctx)} (each : ∀ item ∈ items, item.Forgets ctx)
    (front text : Bytes) (offset : Nat) :
    readAll (front ++ text) ctx items (front.size + offset) =
      (readAll text ctx items offset).shift front.size := by
  induction items generalizing offset with
  | nil => rfl
  | cons item rest ih =>
    rw [readAll, readAll, each item List.mem_cons_self]
    apply Reading.shift_andThen
    intro stop
    exact ih (fun other member => each other (List.mem_cons_of_mem _ member)) stop

private theorem shift_readAny {items : List (Reader Ctx)} (each : ∀ item ∈ items, item.Forgets ctx)
    (front text : Bytes) (offset : Nat) :
    readAny (front ++ text) ctx items (front.size + offset) =
      (readAny text ctx items offset).shift front.size := by
  induction items with
  | nil => rfl
  | cons item rest ih =>
    rw [readAny, readAny, each item List.mem_cons_self]
    apply Reading.shift_orElse
    exact ih fun other member => each other (List.mem_cons_of_mem _ member)

/-- A reader forgets what its calls forget. -/
theorem CallsForget.forgets {reader : Reader Ctx} (forget : reader.CallsForget ctx) :
    reader.Forgets ctx := by
  induction reader with
  | leaf id l =>
    cases l with
    | regex r => exact (forget.plain id r (self_mem_parts _)).elim
    | custom run => exact forget.calls id run (self_mem_parts _)
    | never | always | text | textAnyCase | oneOf | atEnd | skip => exact forgets_leaf id rfl
  | sequence id items ih =>
    intro front text offset
    rw [read, read]
    apply shift_unless_behind
    intro inside
    refine shift_readAll (fun item member => ih item member (forget.of_subset ?_)) front text offset
    exact List.Subset.trans (parts_subset_partsAll member) (by simp [parts])
  | alternation id items ih =>
    intro front text offset
    rw [read, read]
    apply shift_unless_behind
    intro inside
    refine shift_readAny (fun item member => ih item member (forget.of_subset ?_)) front text offset
    exact List.Subset.trans (parts_subset_partsAll member) (by simp [parts])
  | repetition id inner min max ih =>
    intro front text offset
    have body := ih (forget.of_subset (by simp [parts])) front text
    rw [read, read]
    apply shift_unless_behind
    intro inside
    cases max with
    | some max => exact Reading.shift_repeatFrom body min true max 0 offset
    | none =>
      -- More text means more rounds before the loop is known to have no end.
      have enough : text.size + 2 ≤ (front ++ text).size + 2 := by
        rw [Array.size_append]
        omega
      change Reading.repeatFrom _ min false ((front ++ text).size + 2) 0 _ =
        (Reading.repeatFrom _ min false (text.size + 2) 0 offset).shift _
      rw [← Reading.repeatFrom_enough (fun p behind => read_behind inner behind) enough]
      exact Reading.shift_repeatFrom body min false _ 0 offset
  | optional id inner ih =>
    intro front text offset
    have body := ih (forget.of_subset (by simp [parts])) front text offset
    rw [read, read]
    apply shift_unless_behind
    intro inside
    rw [body]
    exact Reading.shift_orElse rfl
  | lookahead id inner ih =>
    intro front text offset
    have body := ih (forget.of_subset (by simp [parts])) front text offset
    rw [read, read]
    apply shift_unless_behind
    intro inside
    rw [body]
    exact Reading.shift_andThen fun _ => rfl
  | seek id inner inclusive openEnd ih =>
    intro front text offset
    have body := ih (forget.of_subset (by simp [parts])) front text
    rw [read, read]
    apply shift_unless_behind
    intro inside
    rw [← Reading.shift_seekFrom body, Array.size_append, Nat.add_sub_add_left]
    cases openEnd <;> rfl

end Reader

theorem Outcome.shift_orElse {outcome : Outcome} {distance : Nat} {other other' : Unit → Outcome}
    (same : other' () = (other ()).shift distance) :
    (outcome.shift distance).orElse other' = (outcome.orElse other).shift distance := by
  cases outcome with
  | noMatch => exact same
  | matched | failed | endless => rfl

namespace Branch

variable {ctx : Ctx}

private theorem shift_attemptAll_of {front text : Bytes} {start pos : Nat}
    {branches : List (Branch Ctx)} (each : ∀ branch ∈ branches,
      attempt (front ++ text) ctx (front.size + start) (front.size + pos) branch =
        (attempt text ctx start pos branch).shift front.size) :
    attemptAll (front ++ text) ctx (front.size + start) (front.size + pos) branches =
      (attemptAll text ctx start pos branches).shift front.size := by
  induction branches with
  | nil => rfl
  | cons branch rest ih =>
    rw [attemptAll, attemptAll, each branch List.mem_cons_self]
    apply Outcome.shift_orElse
    exact ih fun other member => each other (List.mem_cons_of_mem _ member)

private theorem shift_attempt {branch : Branch Ctx} (forget : branch.EachReader (·.Forgets ctx))
    (front text : Bytes) (start pos : Nat) :
    attempt (front ++ text) ctx (front.size + start) (front.size + pos) branch =
      (attempt text ctx start pos branch).shift front.size := by
  induction branch generalizing pos with
  | mk id readers children completed owner ih =>
    obtain ⟨here, below⟩ := eachReader_iff.mp forget
    rw [attempt, attempt, Reader.shift_readAll here]
    cases Reader.readAll text ctx readers pos with
    | matched stop =>
      simp only [Reading.shift]
      rw [shift_attemptAll_of fun child member => ih child member (below child member) stop]
      apply Outcome.shift_orElse
      cases completed with
      | none => rfl
      | some rule =>
        simp only [Nat.add_lt_add_iff_left]
        split <;> rfl
    | noMatch | failed | endless => rfl

theorem shift_attemptAll {branches : List (Branch Ctx)}
    (forget : ∀ branch ∈ branches, branch.EachReader (·.Forgets ctx)) (front text : Bytes)
    (start pos : Nat) :
    attemptAll (front ++ text) ctx (front.size + start) (front.size + pos) branches =
      (attemptAll text ctx start pos branches).shift front.size :=
  shift_attemptAll_of fun branch member => shift_attempt (forget branch member) front text start pos

end Branch

/-- The tries of rules forget what the readers of the rules forget. -/
theorem Forest.forgets_ofRules {rules : List (Rule Ctx)} {ctx : Ctx}
    (forget : ∀ rule ∈ rules, rule.reader.CallsForget ctx) (initialStage : Option String) :
    (Forest.ofRules rules initialStage).EachReader (·.Forgets ctx) :=
  eachReader_ofRules (fun rule member _ among =>
    ((forget rule member).of_subset (Reader.parts_subset_of_mem_steps among)).forgets) initialStage

theorem Lexicon.shift_outcome {ctx : Ctx} (lexicon : Lexicon Ctx)
    (forget : lexicon.forest.EachReader (·.Forgets ctx)) (front text : Bytes) (pos : Nat)
    (stage : Option String) :
    lexicon.outcome (front ++ text) ctx (front.size + pos) stage =
      (lexicon.outcome text ctx pos stage).shift front.size :=
  Branch.shift_attemptAll (forget.roots stage) front text pos pos

namespace StreamState

/-- A state can drop its consumed text where its cursor is in the chunk, at a position that a stream
can have. -/
theorem append_empty (state : StreamState) : state.append #[] =
    if state.offset ≤ state.chunk.size then
      if state.chunkOffset + state.offset < positionBound then
        .ok { state with
          chunk := state.chunk.extract state.offset state.chunk.size, offset := 0
          chunkOffset := state.chunkOffset + state.offset }
      else .error .overflow
    else .error .outOfRange := by
  simp only [append, remaining, Bytes.slice, position, positionBehind, Nat.le_refl, and_true]
  by_cases inside : state.offset ≤ state.chunk.size
  · by_cases fits : state.chunkOffset + state.offset < positionBound <;>
      simp [inside, fits, bind, Except.bind, pure, Except.pure]
  · simp [inside, bind, Except.bind]

end StreamState

/-- Text in front of a text moves what a reader reads in it and has no other influence, if that holds
of the calls inside of the reader and it uses no regular expression. So where a state drops the text
that it has consumed, the stream stays at its position and trying the rules has the same outcome
there, at the same distance. A state drops its text unless its cursor lies outside of the chunk or
has no position. -/
theorem dropped_text_has_no_influence (ctx : Ctx) :
    (∀ reader : Reader Ctx, reader.CallsForget ctx → ∀ (front text : Bytes) (offset : Nat),
      reader.read (front ++ text) ctx (front.size + offset) =
        (reader.read text ctx offset).shift front.size) ∧
    ∀ (lexicon : Lexicon Ctx) (rules : List (Rule Ctx)) (initialStage : Option String),
      lexicon.forest = .ofRules rules initialStage →
      (∀ rule ∈ rules, rule.reader.CallsForget ctx) → ∀ state : StreamState,
        ((∃ after, state.append #[] = .ok after) ↔
          state.offset ≤ state.chunk.size ∧ state.chunkOffset + state.offset < positionBound) ∧
        ∀ after, state.append #[] = .ok after →
          after.position = state.position ∧ after.offset = 0 ∧ after.stage = state.stage ∧
          lexicon.outcome state.chunk ctx state.offset state.stage =
            (lexicon.outcome after.chunk ctx after.offset after.stage).shift state.offset := by
  refine ⟨fun reader forget => forget.forgets, ?_⟩
  intro lexicon rules initialStage built forget state
  rw [StreamState.append_empty]
  by_cases inside : state.offset ≤ state.chunk.size
  · by_cases fits : state.chunkOffset + state.offset < positionBound
    · rw [if_pos inside, if_pos fits]
      refine ⟨iff_of_true ⟨_, rfl⟩ ⟨inside, fits⟩, ?_⟩
      rintro after ⟨⟩
      refine ⟨rfl, rfl, rfl, ?_⟩
      have readers := Forest.forgets_ofRules forget initialStage
      rw [← built] at readers
      have shifted := lexicon.shift_outcome readers (state.chunk.extract 0 state.offset)
        (state.chunk.extract state.offset state.chunk.size) 0 state.stage
      rwa [Array.extract_append_extract, Nat.zero_min, Nat.max_eq_right inside, Array.extract_size,
        Array.size_extract, Nat.min_eq_left inside, Nat.sub_zero, Nat.add_zero] at shifted
    · simp [inside, fits]
  · simp [inside]

/-- A word behind a consumed code unit, read by a loop around a call. -/
theorem dropped_text_has_no_influence_on_word :
    let next (text : Bytes) (pos : Nat) (_ : Unit) : Reading :=
      if pos < text.size then .matched (pos + 1) else .noMatch
    let word : Reader Unit :=
      .sequence 4 [.leaf 1 (.text [97]), .repetition 3 (.leaf 2 (.custom next)) 0 none]
    let rules : List (Rule Unit) := [{ tokenType := "word", reader := word }]
    let lexicon : Lexicon Unit := { rules := rules.toArray, forest := .ofRules rules none }
    let state : StreamState := { chunk := #[120, 97, 98], offset := 1 }
    word.CallsForget () ∧ word.read #[120, 97, 98] () 1 = .matched 3 ∧
      ∃ after, state.append #[] = .ok after ∧ after.chunk = #[97, 98] ∧
        lexicon.outcome after.chunk () 0 none = .matched 0 2 ∧
        lexicon.outcome state.chunk () 1 none = .matched 0 3 := by
  intro next word rules lexicon state
  have forget : word.CallsForget () := by
    constructor
    · intro id r member
      simp [word, Reader.parts, Reader.partsAll] at member
    · intro id run member
      simp only [word, Reader.parts, Reader.partsAll, List.cons_append, List.nil_append,
        List.mem_cons, List.not_mem_nil, or_false, reduceCtorEq, false_or] at member
      rcases member with same | same <;> cases same
      intro front text offset
      simp only [Reader.read, Leaf.read, next, Array.size_append, Nat.add_lt_add_iff_left]
      by_cases behind : text.size < offset
      · simp [behind, Reading.shift]
      · by_cases last : offset < text.size <;> simp [behind, last, Reading.shift, Nat.add_assoc]
  obtain ⟨readings, states⟩ := dropped_text_has_no_influence ()
  obtain ⟨drops, same⟩ := states lexicon rules none rfl (by simpa [rules] using forget) state
  obtain ⟨after, appended⟩ := drops.mpr ⟨by decide, by decide⟩
  obtain ⟨-, start, stage, outcome⟩ := same after appended
  have chunk : after.chunk = #[97, 98] := by
    cases appended
    rfl
  have found : lexicon.outcome after.chunk () 0 none = .matched 0 2 := by
    rw [chunk]
    rfl
  refine ⟨forget, readings word forget #[120] #[97, 98] 0, after, appended, chunk, found, ?_⟩
  rw [start, stage, found] at outcome
  exact outcome

end StagedLexer
