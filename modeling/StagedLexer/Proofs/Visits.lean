import StagedLexer.Proofs.ReadBounds

/-! The readings that are made while a reader is read. A reader is visited at a position and visits
the readers inside of it, which visit those inside of them, and so on; what a visit finds is what the
reader reads there. -/
namespace StagedLexer

variable {Ctx : Type}

/-- A reading that is made: of which reader, at which position, the visits that it makes in turn, in
order, and its outcome. -/
structure Visit (Ctx : Type) where
  reader : Reader Ctx
  pos : Nat
  inside : List (Visit Ctx)
  out : Reading

namespace Visit

mutual
/-- The visit and all visits inside of it, in the order in which they begin. -/
def all : Visit Ctx → List (Visit Ctx)
  | ⟨reader, pos, inside, out⟩ => ⟨reader, pos, inside, out⟩ :: allIn inside
def allIn : List (Visit Ctx) → List (Visit Ctx)
  | [] => []
  | visit :: rest => all visit ++ allIn rest
end

theorem self_mem_all (visit : Visit Ctx) : visit ∈ visit.all := by
  cases visit
  exact List.mem_cons_self

theorem allIn_append (first second : List (Visit Ctx)) :
    allIn (first ++ second) = allIn first ++ allIn second := by
  induction first with
  | nil => rfl
  | cons visit rest ih => simp [allIn, ih]

theorem mem_allIn {visit : Visit Ctx} {visits : List (Visit Ctx)} :
    visit ∈ allIn visits ↔ ∃ outer ∈ visits, visit ∈ outer.all := by
  induction visits with
  | nil => simp [allIn]
  | cons outer rest ih => simp [allIn, ih]

end Visit

/-- Visits that are made one after the other, and what they lead to. -/
structure Walk (Ctx α : Type) where
  visits : List (Visit Ctx)
  out : α

namespace Walk

def single (visit : Visit Ctx) : Walk Ctx Reading := ⟨[visit], visit.out⟩

/-- Goes on from the end of a match; every other outcome stays. -/
def andThen (walk : Walk Ctx Reading) (next : Nat → Walk Ctx Reading) : Walk Ctx Reading :=
  match walk.out with
  | .matched stop => ⟨walk.visits ++ (next stop).visits, (next stop).out⟩
  | _ => walk

/-- Tries something else where there is no match; every other outcome stays. -/
def orElse (walk : Walk Ctx Reading) (other : Unit → Walk Ctx Reading) : Walk Ctx Reading :=
  match walk.out with
  | .noMatch => ⟨walk.visits ++ (other ()).visits, (other ()).out⟩
  | _ => walk

/-- Repeats a visit as `Reading.repeatFrom` repeats a reading: every round is a visit. -/
def repeatFrom (visit : Nat → Visit Ctx) (min : Nat) (bounded : Bool) :
    (rounds count pos : Nat) → Walk Ctx Reading
  | 0, count, pos => ⟨[], if bounded then .settle min count pos else .endless⟩
  | rounds + 1, count, pos =>
    let round := visit pos
    match round.out with
    | .matched stop =>
      if stop = pos then ⟨[round], .settle min count pos⟩
      else
        let rest := repeatFrom visit min bounded rounds (count + 1) stop
        ⟨round :: rest.visits, rest.out⟩
    | .noMatch => ⟨[round], .settle min count pos⟩
    | other => ⟨[round], other⟩

/-- Looks for a match as `Reading.seekFrom` does: at every position there is a visit. -/
def seekFrom (visit : Nat → Visit Ctx) (inclusive : Bool) (missing : Reading) :
    (more pos : Nat) → Walk Ctx Reading
  | 0, pos =>
    let probe := visit pos
    match probe.out with
    | .matched stop => ⟨[probe], .matched (if inclusive then stop else pos)⟩
    | .noMatch => ⟨[probe], missing⟩
    | other => ⟨[probe], other⟩
  | more + 1, pos =>
    let probe := visit pos
    match probe.out with
    | .matched stop => ⟨[probe], .matched (if inclusive then stop else pos)⟩
    | .noMatch =>
      let rest := seekFrom visit inclusive missing more (pos + 1)
      ⟨probe :: rest.visits, rest.out⟩
    | other => ⟨[probe], other⟩

@[simp] theorem out_single (visit : Visit Ctx) : (single visit).out = visit.out := rfl

@[simp] theorem visits_single (visit : Visit Ctx) : (single visit).visits = [visit] := rfl

theorem out_andThen (walk : Walk Ctx Reading) (next : Nat → Walk Ctx Reading) :
    (walk.andThen next).out = walk.out.andThen fun stop => (next stop).out := by
  unfold andThen
  cases found : walk.out <;> simp [Reading.andThen, found]

theorem out_orElse (walk : Walk Ctx Reading) (other : Unit → Walk Ctx Reading) :
    (walk.orElse other).out = walk.out.orElse fun _ => (other ()).out := by
  unfold orElse
  cases found : walk.out <;> simp [Reading.orElse, found]

theorem out_repeatFrom (visit : Nat → Visit Ctx) (min : Nat) (bounded : Bool)
    (rounds count pos : Nat) :
    (repeatFrom visit min bounded rounds count pos).out =
      Reading.repeatFrom (fun p => (visit p).out) min bounded rounds count pos := by
  induction rounds generalizing count pos with
  | zero => rfl
  | succ rounds ih =>
    rw [repeatFrom, Reading.repeatFrom]
    cases (visit pos).out with
    | matched stop =>
      simp only
      split
      · rfl
      · exact ih _ _
    | noMatch | failed | endless => rfl

theorem out_seekFrom (visit : Nat → Visit Ctx) (inclusive : Bool) (missing : Reading)
    (more pos : Nat) :
    (seekFrom visit inclusive missing more pos).out =
      Reading.seekFrom (fun p => (visit p).out) inclusive missing more pos := by
  induction more generalizing pos with
  | zero =>
    rw [seekFrom, Reading.seekFrom]
    cases (visit pos).out <;> rfl
  | succ more ih =>
    rw [seekFrom, Reading.seekFrom]
    cases (visit pos).out with
    | noMatch => exact ih _
    | matched | failed | endless => rfl

end Walk

namespace Reader

/-- The visit of a reader that makes the visits of a walk, unless the position is behind the end of
the text. -/
def enter (text : Bytes) (reader : Reader Ctx) (pos : Nat) (walk : Walk Ctx Reading) : Visit Ctx :=
  if text.size < pos then ⟨reader, pos, [], .noMatch⟩ else ⟨reader, pos, walk.visits, walk.out⟩

mutual
/-- The visit of a reader at a position of a text. -/
def visit (text : Bytes) (ctx : Ctx) : Reader Ctx → (pos : Nat) → Visit Ctx
  | leaf id l, pos => enter text (leaf id l) pos ⟨[], l.read text ctx pos⟩
  | sequence id items, pos => enter text (sequence id items) pos (visitAll text ctx items pos)
  | alternation id items, pos => enter text (alternation id items) pos (visitAny text ctx items pos)
  | repetition id inner min max, pos =>
    enter text (repetition id inner min max) pos
      (.repeatFrom (visit text ctx inner) min max.isSome (rounds text max) 0 pos)
  | optional id inner, pos =>
    enter text (optional id inner) pos
      ((Walk.single (visit text ctx inner pos)).orElse fun _ => ⟨[], .matched pos⟩)
  | lookahead id inner, pos =>
    enter text (lookahead id inner) pos
      ((Walk.single (visit text ctx inner pos)).andThen fun _ => ⟨[], .matched pos⟩)
  | seek id inner inclusive openEnd, pos =>
    enter text (seek id inner inclusive openEnd) pos
      (.seekFrom (visit text ctx inner) inclusive
        (if openEnd then .matched text.size else .noMatch) (text.size - pos) pos)
def visitAll (text : Bytes) (ctx : Ctx) : List (Reader Ctx) → (pos : Nat) → Walk Ctx Reading
  | [], pos => ⟨[], .matched pos⟩
  | reader :: rest, pos =>
    (Walk.single (visit text ctx reader pos)).andThen (visitAll text ctx rest)
/-- The visits up to the first reader that does not fail to match. -/
def visitAny (text : Bytes) (ctx : Ctx) : List (Reader Ctx) → (pos : Nat) → Walk Ctx Reading
  | [], _ => ⟨[], .noMatch⟩
  | reader :: rest, pos =>
    (Walk.single (visit text ctx reader pos)).orElse fun _ => visitAny text ctx rest pos
end

variable {text : Bytes} {ctx : Ctx}

theorem out_enter (reader : Reader Ctx) (pos : Nat) (walk : Walk Ctx Reading) :
    (enter text reader pos walk).out = if text.size < pos then .noMatch else walk.out := by
  unfold enter
  split <;> rfl

private theorem out_visitAll_of {items : List (Reader Ctx)}
    (each : ∀ item ∈ items, ∀ pos, (visit text ctx item pos).out = item.read text ctx pos)
    (pos : Nat) : (visitAll text ctx items pos).out = readAll text ctx items pos := by
  induction items generalizing pos with
  | nil => rfl
  | cons item rest ih =>
    rw [visitAll, readAll, Walk.out_andThen, Walk.out_single, each item (by simp)]
    congr 1
    funext stop
    exact ih (fun other member => each other (by simp [member])) stop

private theorem out_visitAny_of {items : List (Reader Ctx)}
    (each : ∀ item ∈ items, ∀ pos, (visit text ctx item pos).out = item.read text ctx pos)
    (pos : Nat) : (visitAny text ctx items pos).out = readAny text ctx items pos := by
  induction items with
  | nil => rfl
  | cons item rest ih =>
    rw [visitAny, readAny, Walk.out_orElse, Walk.out_single, each item (by simp),
      ih fun other member => each other (by simp [member])]

/-- What a visit finds is what the reader reads. -/
theorem out_visit (reader : Reader Ctx) (pos : Nat) :
    (visit text ctx reader pos).out = reader.read text ctx pos := by
  induction reader generalizing pos with
  | leaf id l => rw [visit, out_enter, read]
  | sequence id items ih => rw [visit, out_enter, read, out_visitAll_of ih]
  | alternation id items ih => rw [visit, out_enter, read, out_visitAny_of ih]
  | repetition id inner min max ih => rw [visit, out_enter, read, Walk.out_repeatFrom, funext ih]
  | optional id inner ih => rw [visit, out_enter, read, Walk.out_orElse, Walk.out_single, ih]
  | lookahead id inner ih => rw [visit, out_enter, read, Walk.out_andThen, Walk.out_single, ih]
  | seek id inner inclusive openEnd ih =>
    rw [visit, out_enter, read, Walk.out_seekFrom, funext ih]

theorem out_visitAll (items : List (Reader Ctx)) (pos : Nat) :
    (visitAll text ctx items pos).out = readAll text ctx items pos :=
  out_visitAll_of (fun item _ => out_visit item) pos

@[simp] theorem pos_visit (reader : Reader Ctx) (pos : Nat) :
    (visit text ctx reader pos).pos = pos := by
  cases reader <;>
  · rw [visit, enter]
    split <;> rfl

@[simp] theorem reader_visit (reader : Reader Ctx) (pos : Nat) :
    (visit text ctx reader pos).reader = reader := by
  cases reader <;>
  · rw [visit, enter]
    split <;> rfl

end Reader

namespace Walk

theorem mem_visits_andThen {walk : Walk Ctx Reading} {next : Nat → Walk Ctx Reading}
    {made : Visit Ctx} (member : made ∈ (walk.andThen next).visits) :
    made ∈ walk.visits ∨ ∃ stop, made ∈ (next stop).visits := by
  unfold andThen at member
  split at member
  · next stop _ => exact (List.mem_append.mp member).imp_right fun later => ⟨stop, later⟩
  · exact .inl member

theorem mem_visits_orElse {walk : Walk Ctx Reading} {other : Unit → Walk Ctx Reading}
    {made : Visit Ctx} (member : made ∈ (walk.orElse other).visits) :
    made ∈ walk.visits ∨ made ∈ (other ()).visits := by
  unfold orElse at member
  split at member
  · exact List.mem_append.mp member
  · exact .inl member

theorem mem_visits_repeatFrom {visit : Nat → Visit Ctx} {min : Nat} {bounded : Bool}
    {rounds count pos : Nat} {made : Visit Ctx}
    (member : made ∈ (repeatFrom visit min bounded rounds count pos).visits) :
    ∃ p, made = visit p := by
  induction rounds generalizing count pos with
  | zero => cases member
  | succ rounds ih =>
    rw [repeatFrom] at member
    cases found : (visit pos).out with
    | matched stop =>
      simp only [found] at member
      split at member
      · exact ⟨pos, List.mem_singleton.mp member⟩
      · rcases List.mem_cons.mp member with here | later
        · exact ⟨pos, here⟩
        · exact ih later
    | noMatch | failed | endless =>
      simp only [found] at member
      exact ⟨pos, List.mem_singleton.mp member⟩

theorem mem_visits_seekFrom {visit : Nat → Visit Ctx} {inclusive : Bool} {missing : Reading}
    {more pos : Nat} {made : Visit Ctx}
    (member : made ∈ (seekFrom visit inclusive missing more pos).visits) :
    ∃ p, made = visit p := by
  induction more generalizing pos with
  | zero =>
    rw [seekFrom] at member
    cases found : (visit pos).out <;>
    · simp only [found] at member
      exact ⟨pos, List.mem_singleton.mp member⟩
  | succ more ih =>
    rw [seekFrom] at member
    cases found : (visit pos).out with
    | noMatch =>
      simp only [found] at member
      rcases List.mem_cons.mp member with here | later
      · exact ⟨pos, here⟩
      · exact ih later
    | matched | failed | endless =>
      simp only [found] at member
      exact ⟨pos, List.mem_singleton.mp member⟩

end Walk

namespace Reader

theorem parts_subset_of_mem_parts {whole part : Reader Ctx} (member : part ∈ whole.parts) :
    part.parts ⊆ whole.parts := by
  induction whole with
  | leaf id l =>
    obtain rfl := List.mem_singleton.mp member
    exact fun _ inside => inside
  | sequence id items ih | alternation id items ih =>
    rcases List.mem_cons.mp member with rfl | below
    · exact fun _ inside => inside
    · obtain ⟨item, among, inside⟩ := mem_partsAll.mp below
      refine List.Subset.trans (ih item among inside) ?_
      exact List.Subset.trans (parts_subset_partsAll among) (List.subset_cons_self _ _)
  | repetition id inner _ _ ih | optional id inner ih | lookahead id inner ih
  | seek id inner _ _ ih =>
    rcases List.mem_cons.mp member with rfl | below
    · exact fun _ inside => inside
    · exact List.Subset.trans (ih below) (List.subset_cons_self _ _)

variable {text : Bytes} {ctx : Ctx}

private theorem mem_visitAll {items : List (Reader Ctx)} {pos : Nat} {made : Visit Ctx}
    (member : made ∈ (visitAll text ctx items pos).visits) :
    ∃ item ∈ items, ∃ p, made = visit text ctx item p := by
  induction items generalizing pos with
  | nil => cases member
  | cons item rest ih =>
    rw [visitAll] at member
    rcases Walk.mem_visits_andThen member with here | ⟨stop, later⟩
    · exact ⟨item, by simp, pos, List.mem_singleton.mp here⟩
    · obtain ⟨other, among, found⟩ := ih later
      exact ⟨other, by simp [among], found⟩

private theorem mem_visitAny {items : List (Reader Ctx)} {pos : Nat} {made : Visit Ctx}
    (member : made ∈ (visitAny text ctx items pos).visits) :
    ∃ item ∈ items, ∃ p, made = visit text ctx item p := by
  induction items with
  | nil => cases member
  | cons item rest ih =>
    rw [visitAny] at member
    rcases Walk.mem_visits_orElse member with here | later
    · exact ⟨item, by simp, pos, List.mem_singleton.mp here⟩
    · obtain ⟨other, among, found⟩ := ih later
      exact ⟨other, by simp [among], found⟩

private theorem mem_all_enter {reader : Reader Ctx} {pos : Nat} {walk : Walk Ctx Reading}
    {made : Visit Ctx} (member : made ∈ (enter text reader pos walk).all) :
    made = enter text reader pos walk ∨ ∃ inner ∈ walk.visits, made ∈ inner.all := by
  unfold enter at member ⊢
  split at member
  · next behind =>
    rw [if_pos behind]
    exact .inl (by simpa [Visit.all, Visit.allIn] using member)
  · next inside =>
    rw [if_neg inside]
    rw [Visit.all, List.mem_cons, Visit.mem_allIn] at member
    exact member

/-- The visit is one of a reader inside of the given one. -/
private def OfPart (text : Bytes) (ctx : Ctx) (reader : Reader Ctx) (made : Visit Ctx) : Prop :=
  ∃ part ∈ reader.parts, ∃ p, made = visit text ctx part p

private theorem ofPart_self (reader : Reader Ctx) (pos : Nat) :
    OfPart text ctx reader (visit text ctx reader pos) :=
  ⟨reader, self_mem_parts reader, pos, rfl⟩

private theorem OfPart.mono {reader whole : Reader Ctx} {made : Visit Ctx}
    (found : OfPart text ctx reader made) (inside : reader.parts ⊆ whole.parts) :
    OfPart text ctx whole made :=
  Exists.imp (fun _ part => ⟨inside part.1, part.2⟩) found

/-- Whatever is visited on the way is a reader inside of the first one. -/
theorem mem_all_visit {reader : Reader Ctx} {pos : Nat} {made : Visit Ctx}
    (member : made ∈ (visit text ctx reader pos).all) :
    ∃ part ∈ reader.parts, ∃ p, made = visit text ctx part p := by
  change OfPart text ctx reader made
  have here : OfPart text ctx reader (visit text ctx reader pos) := ofPart_self reader pos
  induction reader generalizing pos made with
  | leaf id l =>
    rw [visit] at member here
    rcases mem_all_enter member with rfl | ⟨_, none, _⟩
    · exact here
    · cases none
  | sequence id items ih =>
    rw [visit] at member here
    rcases mem_all_enter member with rfl | ⟨inner, among, below⟩
    · exact here
    · obtain ⟨item, known, p, rfl⟩ := mem_visitAll among
      refine (ih item known below (ofPart_self item p)).mono ?_
      exact List.Subset.trans (parts_subset_partsAll known) (by simp [parts])
  | alternation id items ih =>
    rw [visit] at member here
    rcases mem_all_enter member with rfl | ⟨inner, among, below⟩
    · exact here
    · obtain ⟨item, known, p, rfl⟩ := mem_visitAny among
      refine (ih item known below (ofPart_self item p)).mono ?_
      exact List.Subset.trans (parts_subset_partsAll known) (by simp [parts])
  | repetition id inner min max ih =>
    rw [visit] at member here
    rcases mem_all_enter member with rfl | ⟨_, among, below⟩
    · exact here
    · obtain ⟨p, rfl⟩ := Walk.mem_visits_repeatFrom among
      exact (ih below (ofPart_self inner p)).mono (by simp [parts])
  | optional id inner ih =>
    rw [visit] at member here
    rcases mem_all_enter member with rfl | ⟨_, among, below⟩
    · exact here
    · rcases Walk.mem_visits_orElse among with single | none
      · obtain rfl := List.mem_singleton.mp single
        exact (ih below (ofPart_self inner pos)).mono (by simp [parts])
      · cases none
  | lookahead id inner ih =>
    rw [visit] at member here
    rcases mem_all_enter member with rfl | ⟨_, among, below⟩
    · exact here
    · rcases Walk.mem_visits_andThen among with single | ⟨_, none⟩
      · obtain rfl := List.mem_singleton.mp single
        exact (ih below (ofPart_self inner pos)).mono (by simp [parts])
      · cases none
  | seek id inner inclusive openEnd ih =>
    rw [visit] at member here
    rcases mem_all_enter member with rfl | ⟨_, among, below⟩
    · exact here
    · obtain ⟨p, rfl⟩ := Walk.mem_visits_seekFrom among
      exact (ih below (ofPart_self inner p)).mono (by simp [parts])

end Reader

end StagedLexer
