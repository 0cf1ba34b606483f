import StagedLexer.Proofs.Construction
import StagedLexer.Proofs.SetMembership

/-! The normal form of readers. The operations of `Reader.Build` flatten what is nested and leave
out what changes no outcome, so no part of a reader that they make could be flattened or left
out. -/
namespace StagedLexer.Reader

variable {Ctx : Type}

section NormalForm

def isSequence : Reader Ctx → Bool
  | sequence _ _ => true
  | _ => false

def isAlternation : Reader Ctx → Bool
  | alternation _ _ => true
  | _ => false

def isLookahead : Reader Ctx → Bool
  | lookahead _ _ => true
  | _ => false

/-- A leaf that matches nowhere or everywhere is known as such, and a text in any case is written in
lower case and has a letter. -/
def NormalLeaf : Leaf Ctx → Prop
  | .text units => units ≠ []
  | .textAnyCase units =>
    (∀ b ∈ units, ¬(0x41 ≤ b ∧ b ≤ 0x5a)) ∧ ∃ b ∈ units, Bytes.isLetter b = true
  | .oneOf set => ∃ b, set.contains b = true
  | .skip count => 0 < count
  | .never | .always | .regex _ | .atEnd | .custom _ => True

/-- Nothing is nested that could be flattened, and nothing is kept that changes no outcome. -/
def Normal : Reader Ctx → Prop
  | leaf _ l => NormalLeaf l
  | sequence _ items =>
    2 ≤ items.length ∧ (∀ item ∈ items, item.isSequence = false ∧ item.isAlways = false) ∧
      ∀ first ∈ items.head?, first.isNever = false
  | alternation _ items =>
    2 ≤ items.length ∧ (∀ item ∈ items, item.isAlternation = false ∧ item.isNever = false) ∧
      ∀ item ∈ items.dropLast, item.neverFails = false
  | repetition _ inner min max =>
    inner.isNever = false ∧ inner.isAlways = false ∧ (∀ upper ∈ max, 1 ≤ upper ∧ min ≤ upper) ∧
      ¬(min = 0 ∧ max = some 1) ∧ ¬(min = 1 ∧ max = some 1)
  | optional _ inner => inner.isNever = false ∧ inner.neverFails = false
  | lookahead _ inner =>
    inner.isNever = false ∧ inner.isAlways = false ∧ inner.isLookahead = false
  | seek _ inner _ _ => inner.isAlways = false

variable (id : Nat) {items : List (Reader Ctx)} {inner : Reader Ctx}

theorem normal_text (units : List UInt8) : (text id units : Reader Ctx).Normal := by
  unfold text
  split
  · trivial
  · next some => simpa [Normal, NormalLeaf] using some

private theorem lower_cases (b : UInt8) :
    ¬(0x41 ≤ Bytes.lower b ∧ Bytes.lower b ≤ 0x5a) ∧
      Bytes.isLetter (Bytes.lower b) = Bytes.isLetter b := by
  have all : ∀ n < 256, ¬(0x41 ≤ Bytes.lower (UInt8.ofNat n) ∧
      Bytes.lower (UInt8.ofNat n) ≤ 0x5a) ∧ Bytes.isLetter (Bytes.lower (UInt8.ofNat n)) =
        Bytes.isLetter (UInt8.ofNat n) := by decide +kernel
  simpa using all b.toNat b.toNat_lt

theorem normal_textAnyCase (units : List UInt8) : (textAnyCase id units : Reader Ctx).Normal := by
  unfold textAnyCase
  split
  · trivial
  next some =>
  split
  · next letters =>
    obtain ⟨letter, member, isLetter⟩ := List.any_eq_true.mp letters
    constructor
    · intro b among
      obtain ⟨source, -, rfl⟩ := List.mem_map.mp among
      exact (lower_cases source).1
    · exact ⟨_, List.mem_map_of_mem member, (lower_cases letter).2.trans isLetter⟩
  · simpa [Normal, NormalLeaf] using some

theorem normal_ofSet (set : ByteSet) : (ofSet id set : Reader Ctx).Normal := by
  unfold ofSet
  split
  · trivial
  next filled =>
  refine Classical.byContradiction fun none => filled ?_
  exact ByteSet.isEmpty_iff.mpr fun b => Bool.eq_false_iff.mpr fun member => none ⟨b, member⟩

theorem normal_skip (count : Nat) : (skip id count : Reader Ctx).Normal := by
  unfold skip
  split
  · trivial
  · next some => exact Nat.pos_of_ne_zero some

private theorem flat_sequences (normal : ∀ part ∈ partsAll items, part.Normal) :
    ∀ item ∈ flattenSequences items, item.isSequence = false ∧ item.isAlways = false := by
  intro item member
  obtain ⟨source, among, origin⟩ := List.mem_flatMap.mp member
  split at origin
  · have whole := normal _ (mem_partsAll.mpr ⟨_, among, self_mem_parts _⟩)
    exact whole.2.1 item origin
  · cases origin
  · next notSequence notAlways =>
    obtain rfl := List.mem_singleton.mp origin
    unfold isSequence isAlways
    split <;> split <;> simp_all

theorem normal_inOrder (normal : ∀ part ∈ partsAll items, part.Normal) :
    (inOrder id items).Normal := by
  have flat := flat_sequences normal
  have inside := partsAll_flattenSequences_subset items
  unfold inOrder
  split
  · trivial
  next first rest equal =>
  rw [equal] at flat inside
  split
  · trivial
  next some =>
  split
  · exact normal first (inside (List.mem_append_left _ (self_mem_parts first)))
  · next more =>
    refine ⟨?_, flat, fun head among => ?_⟩
    · exact Nat.succ_le_succ (List.length_pos_iff.mpr (mt List.isEmpty_iff.mpr more))
    · cases among
      simpa using some

private theorem flat_alternations (normal : ∀ part ∈ partsAll items, part.Normal) :
    ∀ item ∈ flattenAlternations items, item.isAlternation = false ∧ item.isNever = false := by
  intro item member
  obtain ⟨unfiltered, kept⟩ := List.mem_filter.mp member
  refine ⟨?_, by simpa using kept⟩
  obtain ⟨source, among, origin⟩ := List.mem_flatMap.mp unfiltered
  split at origin
  · have whole := normal _ (mem_partsAll.mpr ⟨_, among, self_mem_parts _⟩)
    exact (whole.2.1 item origin).1
  · next notAlternation =>
    obtain rfl := List.mem_singleton.mp origin
    unfold isAlternation
    split <;> simp_all

private theorem dropLast_reachable (items : List (Reader Ctx)) :
    ∀ item ∈ (reachable items).dropLast, item.neverFails = false := by
  induction items with
  | nil => simp [reachable]
  | cons first rest ih =>
    intro item member
    unfold reachable at member
    split at member
    · simp at member
    · next fails =>
      rcases rest' : reachable rest with _ | ⟨second, more⟩
      · simp [rest'] at member
      · rw [rest', List.dropLast_cons_cons] at member
        rcases List.mem_cons.mp member with rfl | behind
        · simpa using fails
        · exact ih item (rest' ▸ behind)

theorem normal_firstOf (normal : ∀ part ∈ partsAll items, part.Normal) :
    (firstOf id items).Normal := by
  have flat := flat_alternations normal
  have last := dropLast_reachable (flattenAlternations items)
  have within := (reachable_sublist (flattenAlternations items)).subset
  have inside := partsAll_reachable_subset items
  unfold firstOf
  split
  · trivial
  · next reader equal =>
    rw [equal] at inside
    exact normal reader (inside (List.mem_append_left _ (self_mem_parts reader)))
  · next notNone notOne =>
    refine ⟨?_, fun item member => flat item (within member), last⟩
    match equal : reachable (flattenAlternations items) with
    | [] => exact absurd equal notNone
    | [reader] => exact absurd equal (notOne reader)
    | _ :: _ :: _ => simp

theorem normal_orNothing (normal : inner.Normal) : (orNothing id inner).Normal := by
  unfold orNothing
  split
  · trivial
  next notNever =>
  split
  · exact normal
  · next fails => exact ⟨by simpa using notNever, by simpa using fails⟩

theorem normal_times (min : Nat) (max : Option Nat) (normal : inner.Normal) :
    (times id inner min max).Normal := by
  unfold times
  split
  · trivial
  next some =>
  split
  · trivial
  next fitting =>
  split
  · split <;> trivial
  next notNever =>
  split
  · exact normal
  next notAlways =>
  split
  · exact normal_orNothing id normal
  next notOptional =>
  split
  · exact normal
  next notOnce =>
  refine ⟨by simpa using notNever, by simpa using notAlways, ?_, by simpa using notOptional,
    by simpa using notOnce⟩
  rintro upper ⟨⟩
  constructor
  · exact Nat.one_le_iff_ne_zero.mpr (by simpa using some)
  · simpa using fitting

theorem normal_ahead (normal : inner.Normal) : (ahead id inner).Normal := by
  unfold ahead
  split
  iterate 3 exact normal
  next notNever notAlways notLookahead =>
  refine ⟨?_, ?_, ?_⟩
  · unfold isNever
    split <;> simp_all
  · unfold isAlways
    split <;> simp_all
  · unfold isLookahead
    split <;> simp_all

theorem normal_upTo (inclusive openEnd : Bool) (normal : inner.Normal) :
    (upTo id inner inclusive openEnd).Normal := by
  unfold upTo
  split
  · exact normal
  · next notAlways => simpa [Normal] using notAlways

end NormalForm

private theorem throughout {whole : Reader Ctx} {others : List (Reader Ctx)}
    (subset : whole.parts ⊆ whole :: others) (here : whole.Normal)
    (normal : ∀ part ∈ others, part.Normal) : ∀ part ∈ whole.parts, part.Normal :=
  fun part member => List.forall_mem_cons.mpr ⟨here, normal⟩ part (subset member)

private theorem forall_partsAll {items : List (Reader Ctx)}
    (normal : ∀ item ∈ items, ∀ part ∈ item.parts, part.Normal) :
    ∀ part ∈ partsAll items, part.Normal := by
  intro part member
  obtain ⟨item, among, within⟩ := mem_partsAll.mp member
  exact normal item among part within

private theorem throughout_leaf {reader : Reader Ctx} (here : reader.Normal)
    (isLeaf : ∃ id l, reader = leaf id l) : ∀ part ∈ reader.parts, part.Normal := by
  obtain ⟨id, l, rfl⟩ := isLeaf
  exact throughout (parts_leaf_subset id l []) here (by simp)

private theorem throughout_text (id : Nat) (units : List UInt8) :
    ∀ part ∈ (text id units : Reader Ctx).parts, part.Normal :=
  throughout_leaf (normal_text id units) (by unfold text; split <;> exact ⟨_, _, rfl⟩)

private theorem throughout_ofSet (id : Nat) (set : ByteSet) :
    ∀ part ∈ (ofSet id set : Reader Ctx).parts, part.Normal :=
  throughout_leaf (normal_ofSet id set) (by unfold ofSet; split <;> exact ⟨_, _, rfl⟩)

private theorem throughout_firstOf (id : Nat) {items : List (Reader Ctx)}
    (normal : ∀ item ∈ items, ∀ part ∈ item.parts, part.Normal) :
    ∀ part ∈ (firstOf id items).parts, part.Normal := by
  have inside := forall_partsAll normal
  exact throughout (parts_firstOf_subset id items) (normal_firstOf id inside) inside

/-- Everything inside of a built reader is in normal form. -/
theorem Built.normal {reader : Reader Ctx} (built : Built reader) :
    ∀ part ∈ reader.parts, part.Normal := by
  induction built with
  | never id | always id | atEnd id | custom id => exact throughout_leaf trivial ⟨_, _, rfl⟩
  | text id units => exact throughout_text id units
  | textAnyCase id units =>
    refine throughout_leaf (normal_textAnyCase id units) ?_
    unfold Reader.textAnyCase
    split
    · exact ⟨_, _, rfl⟩
    · split <;> exact ⟨_, _, rfl⟩
  | ofSet id set => exact throughout_ofSet id set
  | charRange id lo hi reader ok =>
    obtain ⟨set, rfl⟩ := exists_set_of_charRange id ok
    exact throughout_ofSet id set
  | regex id pattern reader ok =>
    unfold Reader.regex at ok
    split at ok <;> cases ok
    exact throughout_leaf trivial ⟨_, _, rfl⟩
  | skip id count =>
    refine throughout_leaf (normal_skip id count) ?_
    unfold Reader.skip
    split <;> exact ⟨_, _, rfl⟩
  | charAnyCase id c reader ok =>
    obtain ⟨units, rfl⟩ | ⟨set, rfl⟩ | ⟨lower, upper, rfl⟩ := exists_of_charAnyCase id ok
    · exact throughout_text id units
    · exact throughout_ofSet id set
    · apply throughout_firstOf
      simp only [List.forall_mem_cons]
      exact ⟨throughout_text _ _, throughout_text _ _, by simp⟩
  | inOrder id items _ ih =>
    have inside := forall_partsAll ih
    exact throughout (parts_inOrder_subset id items) (normal_inOrder id inside) inside
  | firstOf id items _ ih => exact throughout_firstOf id ih
  | orNothing id inner _ ih =>
    have here := ih inner (self_mem_parts inner)
    exact throughout (parts_orNothing_subset id inner) (normal_orNothing id here) ih
  | times id inner min max _ ih =>
    have here := ih inner (self_mem_parts inner)
    exact throughout (parts_times_subset id inner min max) (normal_times id min max here) ih
  | ahead id inner _ ih =>
    have here := ih inner (self_mem_parts inner)
    exact throughout (parts_ahead_subset id inner) (normal_ahead id here) ih
  | upTo id inner inclusive openEnd _ ih =>
    have here := ih inner (self_mem_parts inner)
    exact throughout (parts_upTo_subset id inner inclusive openEnd)
      (normal_upTo id inclusive openEnd here) ih

theorem Built.ordered {reader : Reader Ctx} (built : Built reader) : reader.Ordered :=
  fun _ _ _ _ member => ((built.normal _ member).2.2.1 _ rfl).2

theorem Built.steps_ne_nil {reader : Reader Ctx} (built : Built reader) : reader.steps ≠ [] := by
  cases reader with
  | sequence id items =>
    have two := (built.normal _ (self_mem_parts _)).1
    exact List.ne_nil_of_length_pos (Nat.lt_of_lt_of_le Nat.zero_lt_two two)
  | leaf | alternation | repetition | optional | lookahead | seek => simp [steps]

/-- What the code of readers and the patterns of sets rely on: however a reader is put together by
the operations, no part of it could have been flattened, cut or left out. -/
theorem built_in_normal_form {reader : Reader Ctx} (built : Built reader) :
    (∀ id items, sequence id items ∈ reader.parts → 2 ≤ items.length ∧
      (∀ item ∈ items, item.isSequence = false ∧ item.isAlways = false) ∧
      ∀ first ∈ items.head?, first.isNever = false) ∧
    (∀ id items, alternation id items ∈ reader.parts → 2 ≤ items.length ∧
      (∀ item ∈ items, item.isAlternation = false ∧ item.isNever = false) ∧
      ∀ item ∈ items.dropLast, item.neverFails = false) ∧
    (∀ id inner min max, repetition id inner min max ∈ reader.parts →
      inner.isNever = false ∧ inner.isAlways = false ∧ (∀ upper ∈ max, 1 ≤ upper ∧ min ≤ upper) ∧
      ¬(min = 0 ∧ max = some 1) ∧ ¬(min = 1 ∧ max = some 1)) ∧
    (∀ id inner, optional id inner ∈ reader.parts →
      inner.isNever = false ∧ inner.neverFails = false) ∧
    (∀ id inner, lookahead id inner ∈ reader.parts →
      inner.isNever = false ∧ inner.isAlways = false ∧ inner.isLookahead = false) ∧
    (∀ id inner inclusive openEnd, seek id inner inclusive openEnd ∈ reader.parts →
      inner.isAlways = false) ∧
    (∀ id units, leaf id (.text units) ∈ reader.parts → units ≠ []) ∧
    (∀ id units, leaf id (.textAnyCase units) ∈ reader.parts → units ≠ [] ∧
      (∀ b ∈ units, ¬(0x41 ≤ b ∧ b ≤ 0x5a)) ∧ ∃ b ∈ units, Bytes.isLetter b = true) ∧
    (∀ id set, leaf id (.oneOf set) ∈ reader.parts → ∃ b, set.contains b = true) ∧
    ∀ id count, leaf id (.skip count) ∈ reader.parts → 0 < count := by
  have normal {part : Reader Ctx} (member : part ∈ reader.parts) : part.Normal :=
    built.normal part member
  refine ⟨fun _ _ => normal, fun _ _ => normal, fun _ _ _ _ => normal, fun _ _ => normal,
    fun _ _ => normal, fun _ _ _ _ => normal, fun _ _ => normal, fun id units member => ?_,
    fun _ _ => normal, fun _ _ => normal⟩
  obtain ⟨lower, b, among, isLetter⟩ := normal member
  exact ⟨List.ne_nil_of_mem among, lower, b, among, isLetter⟩

/-- A nested sequence in front of a repetition that is an option. -/
theorem built_in_normal_form_nested :
    let word : Reader Unit := inOrder 4 [textAnyCase 2 [0x42, 0x31], skip 3 2]
    let reader :=
      firstOf 8 [inOrder 5 [always 0, text 1 [0x61], word], times 7 (atEnd 6) 0 (some 1)]
    let items : List (Reader Unit) :=
      [leaf 1 (.text [0x61]), leaf 2 (.textAnyCase [0x62, 0x31]), leaf 3 (.skip 2)]
    Built reader ∧ reader = alternation 8 [sequence 5 items, optional 7 (atEnd 6)] ∧
      2 ≤ items.length ∧ (∀ item ∈ items, item.isSequence = false ∧ item.isAlways = false) ∧
      ∀ first ∈ items.head?, first.isNever = false := by
  intro word reader items
  have built : Built reader := by
    refine .firstOf _ _ (List.forall_mem_cons.mpr
      ⟨.inOrder _ _ ?_, List.forall_mem_cons.mpr ⟨?_, by simp⟩⟩)
    · simp only [List.forall_mem_cons]
      refine ⟨.always _, .text _ _, .inOrder _ _ ?_, by simp⟩
      simp only [List.forall_mem_cons]
      exact ⟨.textAnyCase _ _, .skip _ _, by simp⟩
    · exact .times _ _ _ _ (.atEnd _)
  have form : reader = alternation 8 [sequence 5 items, optional 7 (atEnd 6)] := rfl
  have inside : sequence 5 items ∈ reader.parts := by
    rw [form]
    simp [parts, partsAll]
  exact ⟨built, form, (built_in_normal_form built).1 5 items inside⟩

end StagedLexer.Reader
