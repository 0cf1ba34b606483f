import StagedLexer.Proofs.ReadBounds

/-! What the operations of `Reader.Build` make reads as the plain kinds of readers do. Nested items
stand in the place of the reader they are items of, what matches nowhere or everywhere is left out,
and an argument is handed back where it reads what is asked for. -/
namespace StagedLexer

variable {Ctx : Type}

namespace Reading

theorem andThen_assoc (reading : Reading) (f g : Nat → Reading) :
    (reading.andThen f).andThen g = reading.andThen fun stop => (f stop).andThen g := by
  cases reading <;> rfl

theorem orElse_assoc (reading : Reading) (f g : Unit → Reading) :
    (reading.orElse f).orElse g = reading.orElse fun _ => (f ()).orElse g := by
  cases reading <;> rfl

theorem orElse_of_ne_noMatch {reading : Reading} (other : Unit → Reading)
    (decided : reading ≠ .noMatch) : reading.orElse other = reading := by
  cases reading with
  | noMatch => exact (decided rfl).elim
  | matched | failed | endless => rfl

theorem Within.andThen_congr {reading : Reading} {f g : Nat → Reading} {offset size : Nat}
    (within : reading.Within offset size)
    (same : ∀ stop, offset ≤ stop → stop ≤ size → f stop = g stop) :
    reading.andThen f = reading.andThen g := by
  cases reading with
  | matched stop => exact same stop within.1 within.2
  | noMatch | failed | endless => rfl

theorem repeatFrom_ne_noMatch (read : Nat → Reading) (bounded : Bool) (rounds count pos : Nat) :
    repeatFrom read 0 bounded rounds count pos ≠ .noMatch := by
  induction rounds generalizing count pos with
  | zero =>
    unfold repeatFrom
    split <;> simp [settle]
  | succ rounds ih =>
    unfold repeatFrom
    split
    · split
      · simp [settle]
      · apply ih
    · simp [settle]
    · next missing =>
      intro equal
      exact missing equal

theorem seekFrom_ne_noMatch (read : Nat → Reading) (inclusive : Bool) {last : Reading}
    (decided : last ≠ .noMatch) (more pos : Nat) :
    seekFrom read inclusive last more pos ≠ .noMatch := by
  induction more generalizing pos with
  | zero =>
    unfold seekFrom
    split
    · simp
    · exact decided
    · assumption
  | succ more ih =>
    unfold seekFrom
    split
    · simp
    · apply ih
    · assumption

end Reading

namespace Reader

variable {text : Bytes} {ctx : Ctx}

theorem read_behind (reader : Reader Ctx) {offset : Nat} (behind : text.size < offset) :
    reader.read text ctx offset = .noMatch := by
  cases reader <;> exact if_pos behind

theorem read_of_isNever {reader : Reader Ctx} (nowhere : reader.isNever = true) (offset : Nat) :
    reader.read text ctx offset = .noMatch := by
  unfold isNever at nowhere
  split at nowhere
  · simp only [read, Leaf.read, ite_self]
  · cases nowhere

theorem read_of_isAlways {reader : Reader Ctx} (everywhere : reader.isAlways = true) {offset : Nat}
    (inside : offset ≤ text.size) : reader.read text ctx offset = .matched offset := by
  unfold isAlways at everywhere
  split at everywhere
  · simp only [read, Leaf.read, Nat.not_lt.mpr inside, if_false]
  · cases everywhere

theorem read_ne_noMatch {reader : Reader Ctx} (never : reader.neverFails = true) {offset : Nat}
    (inside : offset ≤ text.size) : reader.read text ctx offset ≠ .noMatch := by
  cases reader with
  | leaf id l =>
    cases l with
    | always => simp [read, Leaf.read, Nat.not_lt.mpr inside]
    | never | text | textAnyCase | oneOf | regex | atEnd | skip | custom => cases never
  | optional id inner =>
    simp only [read, Nat.not_lt.mpr inside, if_false]
    cases inner.read text ctx offset <;> simp [Reading.orElse]
  | repetition id inner min max =>
    obtain rfl : min = 0 := by simpa [neverFails] using never
    simp only [read, Nat.not_lt.mpr inside, if_false]
    apply Reading.repeatFrom_ne_noMatch
  | seek id inner inclusive openEnd =>
    obtain rfl : openEnd = true := never
    simp only [read, Nat.not_lt.mpr inside, if_false]
    apply Reading.seekFrom_ne_noMatch
    simp
  | sequence | alternation | lookahead => cases never

section Sequence

theorem readAll_append (first second : List (Reader Ctx)) (pos : Nat) :
    readAll text ctx (first ++ second) pos =
      (readAll text ctx first pos).andThen (readAll text ctx second) := by
  induction first generalizing pos with
  | nil => rfl
  | cons reader rest ih =>
    simp only [List.cons_append, readAll, Reading.andThen_assoc]
    congr 1
    funext stop
    exact ih stop

theorem readAll_singleton (reader : Reader Ctx) (pos : Nat) :
    readAll text ctx [reader] pos = reader.read text ctx pos := by
  rw [readAll]
  cases reader.read text ctx pos <;> rfl

private theorem readAll_flattened (reader : Reader Ctx) {pos : Nat} (inside : pos ≤ text.size) :
    readAll text ctx (flattenSequences [reader]) pos = reader.read text ctx pos := by
  rw [flattenSequences, List.flatMap_singleton]
  split
  · simp only [read, Nat.not_lt.mpr inside, if_false]
  · simp only [read, readAll, Leaf.read, Nat.not_lt.mpr inside, if_false]
  · exact readAll_singleton reader pos

theorem readAll_flattenSequences {items : List (Reader Ctx)}
    (calls : ∀ item ∈ items, item.CallsWithin text ctx) {pos : Nat} (inside : pos ≤ text.size) :
    readAll text ctx (flattenSequences items) pos = readAll text ctx items pos := by
  induction items generalizing pos with
  | nil => rfl
  | cons item rest ih =>
    have parted : flattenSequences (item :: rest) =
        flattenSequences [item] ++ flattenSequences rest := by
      simp [flattenSequences]
    rw [parted, readAll_append, readAll_flattened item inside, readAll]
    apply (read_within (calls item List.mem_cons_self) pos inside).andThen_congr
    intro stop _ within
    exact ih (fun other member => calls other (List.mem_cons_of_mem _ member)) within

theorem read_inOrder (id : Nat) (items : List (Reader Ctx)) {pos : Nat}
    (inside : pos ≤ text.size) :
    (inOrder id items).read text ctx pos = readAll text ctx (flattenSequences items) pos := by
  unfold inOrder
  split
  · next none =>
    rw [none, readAll]
    exact read_of_isAlways rfl inside
  · next first rest parts =>
    rw [parts]
    split
    · next nowhere =>
      rw [readAll, read_of_isNever nowhere]
      exact read_of_isNever rfl pos
    · split
      · next alone =>
        rw [List.isEmpty_iff.mp alone, readAll_singleton]
      · simp only [read, Nat.not_lt.mpr inside, if_false]

end Sequence

section Alternation

theorem readAny_append (first second : List (Reader Ctx)) (pos : Nat) :
    readAny text ctx (first ++ second) pos =
      (readAny text ctx first pos).orElse fun _ => readAny text ctx second pos := by
  induction first with
  | nil => rfl
  | cons reader rest ih => simp only [List.cons_append, readAny, ih, Reading.orElse_assoc]

theorem readAny_singleton (reader : Reader Ctx) (pos : Nat) :
    readAny text ctx [reader] pos = reader.read text ctx pos := by
  rw [readAny]
  cases reader.read text ctx pos <;> rfl

private theorem readAny_filter (items : List (Reader Ctx)) (pos : Nat) :
    readAny text ctx (items.filter fun reader => !reader.isNever) pos =
      readAny text ctx items pos := by
  induction items with
  | nil => rfl
  | cons reader rest ih =>
    rw [List.filter_cons]
    split
    · rw [readAny, readAny, ih]
    · next nowhere =>
      have silent : reader.read text ctx pos = .noMatch :=
        read_of_isNever (by simpa using nowhere) pos
      rw [ih, readAny, silent, Reading.orElse]

theorem readAny_flattenAlternations (items : List (Reader Ctx)) {pos : Nat}
    (inside : pos ≤ text.size) :
    readAny text ctx (flattenAlternations items) pos = readAny text ctx items pos := by
  rw [flattenAlternations, readAny_filter]
  induction items with
  | nil => rfl
  | cons item rest ih =>
    rw [List.flatMap_cons, readAny_append, ih, readAny]
    congr 1
    split
    · simp only [read, Nat.not_lt.mpr inside, if_false]
    · exact readAny_singleton item pos

/-- What stands behind a reader that never fails to match is not reached. -/
theorem readAny_reachable (items : List (Reader Ctx)) {pos : Nat} (inside : pos ≤ text.size) :
    readAny text ctx (reachable items) pos = readAny text ctx items pos := by
  induction items with
  | nil => rfl
  | cons reader rest ih =>
    unfold reachable
    split
    · next never =>
      rw [readAny_singleton, readAny]
      exact (Reading.orElse_of_ne_noMatch _ (read_ne_noMatch never inside)).symm
    · rw [readAny, readAny, ih]

theorem read_firstOf (id : Nat) (items : List (Reader Ctx)) {pos : Nat}
    (inside : pos ≤ text.size) :
    (firstOf id items).read text ctx pos =
      readAny text ctx (reachable (flattenAlternations items)) pos := by
  unfold firstOf
  split
  · next none =>
    rw [none, readAny]
    exact read_of_isNever rfl pos
  · next reader alone => rw [alone, readAny_singleton]
  · simp only [read, Nat.not_lt.mpr inside, if_false]

end Alternation

section Single

variable (id : Nat) (inner : Reader Ctx) {offset : Nat} (inside : offset ≤ text.size)

include inside

theorem read_orNothing :
    (orNothing id inner).read text ctx offset = (optional id inner).read text ctx offset := by
  have plain : (optional id inner).read text ctx offset =
      (inner.read text ctx offset).orElse fun _ => .matched offset := by
    simp only [read, Nat.not_lt.mpr inside, if_false]
  rw [plain]
  unfold orNothing
  split
  · next nowhere =>
    rw [read_of_isNever nowhere, Reading.orElse]
    exact read_of_isAlways rfl inside
  · split
    · next never =>
      exact (Reading.orElse_of_ne_noMatch _ (read_ne_noMatch never inside)).symm
    · exact plain

theorem read_ahead :
    (ahead id inner).read text ctx offset = (lookahead id inner).read text ctx offset := by
  unfold ahead
  split
  · simp only [read, Leaf.read, ite_self, Reading.andThen]
  · simp only [read, Leaf.read, Nat.not_lt.mpr inside, if_false, Reading.andThen]
  · -- The second look ahead starts at the same position as the first.
    simp only [read, Nat.not_lt.mpr inside, if_false, Reading.andThen_assoc]
    rfl
  · rfl

theorem read_upTo (inclusive openEnd : Bool) :
    (upTo id inner inclusive openEnd).read text ctx offset =
      (seek id inner inclusive openEnd).read text ctx offset := by
  unfold upTo
  split
  · next everywhere =>
    have here : inner.read text ctx offset = .matched offset := read_of_isAlways everywhere inside
    rw [here]
    simp only [read, Nat.not_lt.mpr inside, if_false]
    cases text.size - offset <;> simp [Reading.seekFrom, here]
  · rfl

end Single

/-- Every operation reads at every position as the kind of reader it stands for does over the same
arguments. Only a sequence relies on what its items call: an item that always matches does not match
behind the end of the text. -/
theorem operations_read_as_plain_kinds (text : Bytes) (ctx : Ctx) (items : List (Reader Ctx))
    (calls : ∀ item ∈ items, item.CallsWithin text ctx) (inner : Reader Ctx) (id offset : Nat) :
    (inOrder id items).read text ctx offset = (sequence id items).read text ctx offset ∧
    (firstOf id items).read text ctx offset = (alternation id items).read text ctx offset ∧
    (orNothing id inner).read text ctx offset = (optional id inner).read text ctx offset ∧
    (ahead id inner).read text ctx offset = (lookahead id inner).read text ctx offset ∧
    ∀ inclusive openEnd, (upTo id inner inclusive openEnd).read text ctx offset =
      (seek id inner inclusive openEnd).read text ctx offset := by
  by_cases inside : offset ≤ text.size
  · refine ⟨?_, ?_, read_orNothing id inner inside, read_ahead id inner inside,
      read_upTo id inner inside⟩
    · rw [read_inOrder id items inside, readAll_flattenSequences calls inside]
      simp only [read, Nat.not_lt.mpr inside, if_false]
    · rw [read_firstOf id items inside, readAny_reachable _ inside,
        readAny_flattenAlternations items inside]
      simp only [read, Nat.not_lt.mpr inside, if_false]
  · have behind : text.size < offset := Nat.not_le.mp inside
    simp only [read_behind _ behind, true_and, implies_true]

/-- A sequence in a sequence, with a reader that always matches and one that is called behind it. -/
theorem nested_items_read_as_plain_kinds :
    let word : Reader Unit := .inOrder 3 [.text 1 [97], .text 2 [98]]
    let next (text : Bytes) (pos : Nat) (_ : Unit) : Reading :=
      if pos < text.size then .matched (pos + 1) else .noMatch
    let items := [word, .always 4, .custom 5 next]
    let text : Bytes := #[97, 98, 99]
    (∀ item ∈ items, item.CallsWithin text ()) ∧
    (inOrder 6 items).read text () 0 = .matched 3 ∧
    (firstOf 6 items).read text () 1 = .matched 1 := by
  intro word next items text
  have calls : ∀ item ∈ items, item.CallsWithin text () := by
    intro item member i l part isCalled offset inside
    have among : leaf i l ∈ [.sequence 3 [.leaf 1 (.text [97]), .leaf 2 (.text [98])],
        .leaf 1 (.text [97]), .leaf 2 (.text [98]), .leaf 4 .always, .leaf 5 (.custom next)] :=
      mem_partsAll.mpr ⟨item, member, part⟩
    simp only [List.mem_cons, List.not_mem_nil, or_false, reduceCtorEq, false_or] at among
    rcases among with same | same | same | same <;> cases same
    · cases isCalled
    · cases isCalled
    · cases isCalled
    · simp only [Leaf.read, next]
      split
      · next before => exact ⟨Nat.le_succ offset, before⟩
      · trivial
  have whole (offset : Nat) := operations_read_as_plain_kinds text () items calls word 6 offset
  exact ⟨calls, (whole 0).1.trans rfl, (whole 1).2.1.trans rfl⟩

end Reader

end StagedLexer
