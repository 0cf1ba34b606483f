import StagedLexer.Proofs.Induction
import StagedLexer.Reader.Build

/-! Readers as they are built. Every reader of a tokenizer is made by the operations of
`Reader.Build`, each of which makes one new reader around those that it is given, and identity is by
reference: two readers of one identity are one reader. Both are properties of how readers come
about, so the type of readers does not carry them. -/
namespace StagedLexer.Reader

variable {Ctx : Type}

mutual
/-- The reader and all readers inside of it. -/
def parts : Reader Ctx → List (Reader Ctx)
  | leaf id l => [leaf id l]
  | sequence id items => sequence id items :: partsAll items
  | alternation id items => alternation id items :: partsAll items
  | repetition id inner min max => repetition id inner min max :: parts inner
  | optional id inner => optional id inner :: parts inner
  | lookahead id inner => lookahead id inner :: parts inner
  | seek id inner inclusive openEnd => seek id inner inclusive openEnd :: parts inner
def partsAll : List (Reader Ctx) → List (Reader Ctx)
  | [] => []
  | reader :: rest => parts reader ++ partsAll rest
end

theorem mem_partsAll {part : Reader Ctx} {items : List (Reader Ctx)} :
    part ∈ partsAll items ↔ ∃ item ∈ items, part ∈ item.parts := by
  induction items with
  | nil => simp [partsAll]
  | cons item rest ih => simp [partsAll, ih]

theorem self_mem_parts (reader : Reader Ctx) : reader ∈ reader.parts := by
  cases reader <;> simp [parts]

/-- The upper bound of every repetition inside of the reader is at least its lower one. -/
def Ordered (reader : Reader Ctx) : Prop :=
  ∀ id inner min max, repetition id inner min (some max) ∈ reader.parts → min ≤ max

theorem Ordered.of_parts_subset {whole reader : Reader Ctx} (ordered : whole.Ordered)
    (inside : reader.parts ⊆ whole.parts) : reader.Ordered :=
  fun id inner min max member => ordered id inner min max (inside member)

theorem ordered_item {id : Nat} {items : List (Reader Ctx)} {item : Reader Ctx}
    (member : item ∈ items) (ordered : (sequence id items).Ordered ∨
      (alternation id items).Ordered) : item.Ordered := by
  intro i inner min max inside
  have below : repetition i inner min (some max) ∈ partsAll items :=
    mem_partsAll.mpr ⟨item, member, inside⟩
  rcases ordered with ordered | ordered <;>
    exact ordered i inner min max (by simp [parts, below])

/-- The readers that the operations of `Reader.Build` make. -/
inductive Built : Reader Ctx → Prop
  | never (id : Nat) : Built (never id)
  | always (id : Nat) : Built (always id)
  | text (id : Nat) (units : List UInt8) : Built (text id units)
  | textAnyCase (id : Nat) (units : List UInt8) : Built (textAnyCase id units)
  | ofSet (id : Nat) (set : ByteSet) : Built (ofSet id set)
  | charRange (id : Nat) (lo hi : UInt8) (reader : Reader Ctx)
      (ok : charRange id lo hi = .ok reader) : Built reader
  | regex (id : Nat) (pattern : String) (reader : Reader Ctx)
      (ok : regex id pattern = .ok reader) : Built reader
  | atEnd (id : Nat) : Built (atEnd id)
  | skip (id count : Nat) : Built (skip id count)
  | custom (id : Nat) (run : Bytes → Nat → Ctx → Reading) : Built (custom id run)
  | charAnyCase (id : Nat) (c : Char) (reader : Reader Ctx)
      (ok : charAnyCase id c = .ok reader) : Built reader
  | inOrder (id : Nat) (items : List (Reader Ctx)) (built : ∀ item ∈ items, Built item) :
      Built (inOrder id items)
  | firstOf (id : Nat) (items : List (Reader Ctx)) (built : ∀ item ∈ items, Built item) :
      Built (firstOf id items)
  | orNothing (id : Nat) (inner : Reader Ctx) (built : Built inner) : Built (orNothing id inner)
  | times (id : Nat) (inner : Reader Ctx) (min : Nat) (max : Option Nat) (built : Built inner) :
      Built (times id inner min max)
  | ahead (id : Nat) (inner : Reader Ctx) (built : Built inner) : Built (ahead id inner)
  | upTo (id : Nat) (inner : Reader Ctx) (inclusive openEnd : Bool) (built : Built inner) :
      Built (upTo id inner inclusive openEnd)

section Parts

/-! What an operation makes is new or one of the readers that it is given. -/

variable (id : Nat) {items : List (Reader Ctx)} {inner : Reader Ctx}

theorem parts_leaf_subset (l : Leaf Ctx) (others : List (Reader Ctx)) :
    (leaf id l).parts ⊆ leaf id l :: others := by
  simp [parts]

theorem partsAll_flattenSequences_subset (items : List (Reader Ctx)) :
    partsAll (flattenSequences items) ⊆ partsAll items := by
  intro part member
  obtain ⟨item, inFlat, inside⟩ := mem_partsAll.mp member
  obtain ⟨source, among, origin⟩ := List.mem_flatMap.mp inFlat
  refine mem_partsAll.mpr ⟨source, among, ?_⟩
  split at origin
  · exact List.mem_cons_of_mem _ (mem_partsAll.mpr ⟨item, origin, inside⟩)
  · cases origin
  · rwa [← List.mem_singleton.mp origin]

theorem partsAll_flattenAlternations_subset (items : List (Reader Ctx)) :
    partsAll (flattenAlternations items) ⊆ partsAll items := by
  intro part member
  obtain ⟨item, inFlat, inside⟩ := mem_partsAll.mp member
  obtain ⟨source, among, origin⟩ := List.mem_flatMap.mp (List.mem_filter.mp inFlat).1
  refine mem_partsAll.mpr ⟨source, among, ?_⟩
  split at origin
  · exact List.mem_cons_of_mem _ (mem_partsAll.mpr ⟨item, origin, inside⟩)
  · rwa [← List.mem_singleton.mp origin]

theorem reachable_sublist (items : List (Reader Ctx)) : (reachable items).Sublist items := by
  induction items with
  | nil => exact .slnil
  | cons item rest ih =>
    unfold reachable
    split
    · exact (List.nil_sublist rest).cons_cons item
    · exact ih.cons_cons item

theorem partsAll_reachable_subset (items : List (Reader Ctx)) :
    partsAll (reachable (flattenAlternations items)) ⊆ partsAll items := by
  intro part member
  obtain ⟨item, among, inside⟩ := mem_partsAll.mp member
  apply partsAll_flattenAlternations_subset
  exact mem_partsAll.mpr ⟨item, (reachable_sublist _).subset among, inside⟩

theorem parts_inOrder_subset (items : List (Reader Ctx)) :
    (inOrder id items).parts ⊆ inOrder id items :: partsAll items := by
  have flat := partsAll_flattenSequences_subset items
  unfold inOrder
  split
  · exact parts_leaf_subset id _ _
  next first rest equal =>
  rw [equal] at flat
  split
  · exact parts_leaf_subset id _ _
  split
  · intro part member
    exact List.mem_cons_of_mem _ (flat (List.mem_append_left _ member))
  · exact List.cons_subset_cons _ flat

theorem parts_firstOf_subset (items : List (Reader Ctx)) :
    (firstOf id items).parts ⊆ firstOf id items :: partsAll items := by
  have flat := partsAll_reachable_subset items
  unfold firstOf
  split
  · exact parts_leaf_subset id _ _
  · next reader equal =>
    rw [equal] at flat
    intro part member
    exact List.mem_cons_of_mem _ (flat (List.mem_append_left _ member))
  · exact List.cons_subset_cons _ flat

theorem parts_orNothing_subset (inner : Reader Ctx) :
    (orNothing id inner).parts ⊆ orNothing id inner :: inner.parts := by
  unfold orNothing
  split
  · exact parts_leaf_subset id _ _
  split
  · exact List.subset_cons_self _ _
  · exact List.Subset.refl _

theorem parts_times_subset (inner : Reader Ctx) (min : Nat) (max : Option Nat) :
    (times id inner min max).parts ⊆ times id inner min max :: inner.parts := by
  unfold times
  split
  · exact parts_leaf_subset id _ _
  split
  · exact parts_leaf_subset id _ _
  split
  · split <;> exact parts_leaf_subset id _ _
  split
  · exact List.subset_cons_self _ _
  split
  · exact parts_orNothing_subset id inner
  split
  · exact List.subset_cons_self _ _
  · exact List.Subset.refl _

theorem parts_ahead_subset (inner : Reader Ctx) :
    (ahead id inner).parts ⊆ ahead id inner :: inner.parts := by
  unfold ahead
  split
  iterate 3 exact List.subset_cons_self _ _
  · exact List.Subset.refl _

theorem parts_upTo_subset (inner : Reader Ctx) (inclusive openEnd : Bool) :
    (upTo id inner inclusive openEnd).parts ⊆ upTo id inner inclusive openEnd :: inner.parts := by
  unfold upTo
  split
  · exact List.subset_cons_self _ _
  · exact List.Subset.refl _

theorem exists_set_of_charRange {lo hi : UInt8} {reader : Reader Ctx}
    (ok : charRange id lo hi = .ok reader) : ∃ set, reader = ofSet id set := by
  unfold charRange at ok
  split at ok <;> cases ok
  exact ⟨_, rfl⟩

/-- A character in any case is a text, a set of two code units, or one of two texts. -/
theorem exists_of_charAnyCase {c : Char} {reader : Reader Ctx}
    (ok : charAnyCase id c = .ok reader) :
    (∃ units, reader = text id units) ∨ (∃ set, reader = ofSet id set) ∨
      ∃ lower upper, reader = firstOf id [text (id + 1) lower, text (id + 2) upper] := by
  unfold charAnyCase at ok
  split at ok
  · split at ok
    · cases ok
    split at ok
    · cases ok
      exact .inl ⟨_, rfl⟩
    split at ok <;> cases ok
    · exact .inr (.inl ⟨_, rfl⟩)
    · exact .inr (.inr ⟨_, _, rfl⟩)
  · cases ok

end Parts

/-- Identity is by reference: of the readers inside of those given, two with one identity are one
reader. -/
def Identified (readers : List (Reader Ctx)) : Prop :=
  ∀ a ∈ partsAll readers, ∀ b ∈ partsAll readers, a.id = b.id → a = b

/-- Readers among which no two have one identity. -/
theorem Identified.of_nodup {readers pool : List (Reader Ctx)} (within : partsAll readers ⊆ pool)
    (distinct : (pool.map Reader.id).Nodup) : Identified readers := by
  have apart : pool.Pairwise fun a b => a.id ≠ b.id := List.pairwise_map.mp distinct
  intro a inA b inB
  exact List.Pairwise.forall_of_forall_of_flip (R := fun a b => a.id = b.id → a = b)
    (fun _ _ _ => rfl) (apart.imp fun other same => absurd same other)
    (apart.imp fun other same => absurd same.symm other) (within inA) (within inB)

theorem Identified.subset {readers others : List (Reader Ctx)} (identified : Identified readers)
    (within : others ⊆ readers) : Identified others := by
  have inside : ∀ a ∈ partsAll others, a ∈ partsAll readers := by
    intro a member
    obtain ⟨item, among, part⟩ := mem_partsAll.mp member
    exact mem_partsAll.mpr ⟨item, within among, part⟩
  exact fun a inA b inB => identified a (inside a inA) b (inside b inB)

end StagedLexer.Reader
