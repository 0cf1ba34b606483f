import StagedLexer.Proofs.SetRanges

/-! Sets of code units stand for sets in the sense of mathematics: whatever operations make one, its
members are those that the operations describe, and its size and its ranges are those of the
members. -/
namespace StagedLexer.ByteSet

/-- Operations that make a set, the last one outermost. -/
inductive Recipe where
  | new
  | range (lo hi : UInt8)
  | ofBytes (units : List UInt8)
  | insert (base : Recipe) (b : UInt8)
  | insertRange (base : Recipe) (lo hi : UInt8)
  | complement (base : Recipe)
  | union (left right : Recipe)

namespace Recipe

/-- The set that the operations make, if none of them is refused. -/
def make? : Recipe → Option ByteSet
  | new => some empty
  | range lo hi => range? lo hi
  | ofBytes units => some (.ofBytes units)
  | insert base b => base.make?.map (·.insert b)
  | insertRange base lo hi => base.make?.map (·.insertRange lo hi)
  | complement base => base.make?.map ByteSet.complement
  | union left right => do return (← left.make?).union (← right.make?)

/-- The code units that the operations describe. -/
def described : Recipe → Set UInt8
  | new => ∅
  | range lo hi => {b | lo ≤ b ∧ b ≤ hi}
  | ofBytes units => {b | b ∈ units}
  | insert base b => {b} ∪ base.described
  | insertRange base lo hi => {b | lo ≤ b ∧ b ≤ hi} ∪ base.described
  | complement base => base.describedᶜ
  | union left right => left.described ∪ right.described

/-- No set is asked for by a range that ends before it starts. -/
def Ordered : Recipe → Prop
  | new | ofBytes _ => True
  | range lo hi => lo ≤ hi
  | insert base _ | insertRange base _ _ | complement base => base.Ordered
  | union left right => left.Ordered ∧ right.Ordered

theorem exists_make?_iff (recipe : Recipe) :
    (∃ set, recipe.make? = some set) ↔ recipe.Ordered := by
  induction recipe with
  | new | ofBytes => simp [make?, Ordered]
  | range lo hi =>
    rw [← Option.ne_none_iff_exists', make?, ne_eq, range?_eq_none_iff, Ordered, UInt8.not_lt]
  | insert _ _ ih | insertRange _ _ _ ih | complement _ ih =>
    rw [Ordered, ← ih]
    simp [make?]
  | union left right ihLeft ihRight =>
    rw [Ordered, ← ihLeft, ← ihRight]
    simp [make?, Option.bind_eq_some_iff]

theorem contains_of_make? {recipe : Recipe} {set : ByteSet} (made : recipe.make? = some set)
    (b : UInt8) : set.contains b = true ↔ b ∈ recipe.described := by
  induction recipe generalizing set with
  | new =>
    rw [← Option.some.inj made, contains_empty]
    simp [described]
  | range lo hi => exact contains_of_range? made b
  | ofBytes units =>
    rw [← Option.some.inj made]
    exact contains_ofBytes units b
  | insert base a ih =>
    obtain ⟨before, found, rfl⟩ := Option.map_eq_some_iff.mp made
    rw [contains_insert, Bool.or_eq_true, decide_eq_true_eq, ih found, eq_comm]
    rfl
  | insertRange base lo hi ih =>
    obtain ⟨before, found, rfl⟩ := Option.map_eq_some_iff.mp made
    rw [contains_insertRange, ih found]
    rfl
  | complement base ih =>
    obtain ⟨before, found, rfl⟩ := Option.map_eq_some_iff.mp made
    rw [contains_complement, Bool.not_eq_true', ← Bool.not_eq_true, ih found]
    rfl
  | union left right ihLeft ihRight =>
    obtain ⟨first, foundFirst, made⟩ := Option.bind_eq_some_iff.mp made
    obtain ⟨second, foundSecond, made⟩ := Option.bind_eq_some_iff.mp made
    rw [← Option.some.inj made, contains_union, Bool.or_eq_true, ihLeft foundFirst,
      ihRight foundSecond]
    rfl

end Recipe

theorem contains_foldl_insertRange (ranges : List (UInt8 × UInt8)) (set : ByteSet) (b : UInt8) :
    (ranges.foldl (fun made range => made.insertRange range.1 range.2) set).contains b = true ↔
      Covers ranges b ∨ set.contains b = true := by
  induction ranges generalizing set with
  | nil => simp [Covers]
  | cons range rest ih =>
    rw [List.foldl_cons, ih, contains_insertRange, covers_cons]
    tauto

theorem eq_ranges_iff {set : ByteSet} {ranges : List (UInt8 × UInt8)} :
    ranges = set.ranges ↔
      Separated ranges ∧ ∀ b, Covers ranges b ↔ set.contains b = true := by
  constructor
  · rintro rfl
    exact ⟨(lists_ranges set).separated, fun b => covers_ranges⟩
  · rintro ⟨separated, covers⟩
    refine separated.unique (lists_ranges set).separated fun b => ?_
    rw [covers, covers_ranges]

/-- Operations that are not refused make the set of the code units that they describe. Sets are the
same exactly if their members are. The size of a set is the number of its members, and its ranges
are the one list of separated ranges that covers them, from which the set can be made again. -/
theorem sets_stand_for_members :
    (∀ recipe : Recipe, ((∃ set, recipe.make? = some set) ↔ recipe.Ordered) ∧
      ∀ set, recipe.make? = some set → ∀ b, set.contains b = true ↔ b ∈ recipe.described) ∧
    (∀ left right : ByteSet, left = right ↔ ∀ b, left.contains b = right.contains b) ∧
    ∀ set : ByteSet, set.size = {b | set.contains b = true}.ncard ∧
      (set.isEmpty = true ↔ ∀ b, set.contains b = false) ∧
      (∀ ranges, ranges = set.ranges ↔
        Separated ranges ∧ ∀ b, Covers ranges b ↔ set.contains b = true) ∧
      set.ranges.foldl (fun made range => made.insertRange range.1 range.2) empty = set := by
  refine ⟨fun recipe => ⟨recipe.exists_make?_iff, fun _ => Recipe.contains_of_make?⟩,
    fun left right => ⟨fun same b => by rw [same], ext_contains⟩, fun set => ?_⟩
  refine ⟨set.size_eq_ncard, isEmpty_iff, fun ranges => eq_ranges_iff, ext_contains fun b => ?_⟩
  rw [Bool.eq_iff_iff, contains_foldl_insertRange, covers_ranges, contains_empty]
  simp

/-- All code units but the first, the last, and four at the border of two words. -/
theorem sets_stand_for_members_across_words :
    let recipe : Recipe :=
      .complement (.union (.insertRange .new 62 65) (.insert (.ofBytes [0]) 255))
    ∃ set, recipe.make? = some set ∧ set.contains 66 = true ∧
      set.ranges = [(1, 61), (66, 254)] := by
  intro recipe
  obtain ⟨recipes, -, sets⟩ := sets_stand_for_members
  obtain ⟨set, made⟩ := (recipes recipe).1.mpr ⟨trivial, trivial⟩
  have members := (recipes recipe).2 set made
  have listed : [(1, 61), (66, 254)] = set.ranges := by
    refine ((sets set).2.2.1 _).mpr ⟨⟨by simp, by simp⟩, fun b => ?_⟩
    have left : b ∈ recipe.described ↔ ¬((62 ≤ b ∧ b ≤ 65 ∨ False) ∨ b = 255 ∨ b ∈ [0]) := .rfl
    have small := b.toNat_lt
    rw [members, left, covers_cons, covers_cons, List.mem_singleton]
    simp only [Covers, List.not_mem_nil, false_and, exists_false, or_false, UInt8.le_iff_toNat_le,
      UInt8.reduceToNat, ← UInt8.toNat_inj]
    omega
  refine ⟨set, made, (members 66).mpr ?_, listed.symm⟩
  simp [recipe, Recipe.described]

end StagedLexer.ByteSet
