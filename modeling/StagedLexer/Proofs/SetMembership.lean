import Mathlib.Data.Set.Card
import StagedLexer.ByteSet

/-! Members of sets of code units. A code unit is one bit of one word, so every operation on the
words is the operation on the members that it stands for, and sets with the same members are the
same. -/
namespace StagedLexer.ByteSet

variable {set left right : ByteSet} {b : UInt8}

section Bits

/-! Where the bit of a code unit is. -/

theorem slot_val (b : UInt8) : (slot b).val = b.toNat / 64 := by
  change (b >>> 6).toNat = b.toNat / 64
  rw [UInt8.toNat_shiftRight, Nat.shiftRight_eq_div_pow]
  rfl

private theorem bit_lt (b : UInt8) : b.toNat % 64 < 64 := Nat.mod_lt _ (by decide)

theorem toBitVec_mask (b : UInt8) : (mask b).toBitVec = BitVec.twoPow 64 (b.toNat % 64) := by
  have low : (b &&& 63).toNat = b.toNat % 64 := by
    rw [UInt8.toNat_and]
    exact Nat.and_two_pow_sub_one_eq_mod b.toNat 6
  apply BitVec.eq_of_toNat_eq
  rw [mask, UInt64.toNat_toBitVec, UInt64.toNat_shiftLeft, UInt8.toNat_toUInt64, low, Nat.mod_mod,
    BitVec.toNat_twoPow, UInt64.toNat_one, Nat.one_shiftLeft]

theorem contains_eq_getLsbD (set : ByteSet) (b : UInt8) :
    set.contains b = (set.wordOf b).toBitVec.getLsbD (b.toNat % 64) := by
  have some : BitVec.twoPow 64 (b.toNat % 64) ≠ 0#64 := by
    intro zero
    have bit := congrArg (·.getLsbD (b.toNat % 64)) zero
    simp [bit_lt] at bit
  rw [contains, Bool.eq_iff_iff, bne_iff_ne, ne_eq, ← UInt64.toBitVec_inj, UInt64.toBitVec_and,
    toBitVec_mask, BitVec.and_twoPow]
  split
  · next member => exact iff_of_true some member
  · next missing => exact iff_of_false (fun differs => differs rfl) missing

/-- A code unit is told apart by its word and its bit. -/
theorem slot_eq_and_mod_eq_iff {a : UInt8} :
    slot a = slot b ∧ a.toNat % 64 = b.toNat % 64 ↔ a = b := by
  rw [Fin.ext_iff, slot_val, slot_val, ← UInt8.toNat_inj]
  omega

end Bits

section Operations

@[simp]
theorem contains_empty (b : UInt8) : empty.contains b = false := by
  rw [contains_eq_getLsbD, wordOf, empty]
  simp

@[simp]
theorem contains_insert (set : ByteSet) (a b : UInt8) :
    (set.insert a).contains b = (decide (a = b) || set.contains b) := by
  simp only [contains_eq_getLsbD, wordOf, insert, Fin.getElem_fin, Vector.getElem_set]
  by_cases word : slot a = slot b
  · have bit : (a.toNat % 64 = b.toNat % 64) ↔ a = b := by
      simpa [word] using slot_eq_and_mod_eq_iff (a := a) (b := b)
    simp only [word, if_true, UInt64.toBitVec_or, toBitVec_mask, BitVec.getLsbD_or,
      BitVec.getLsbD_twoPow, bit_lt, bit, decide_true, Bool.true_and]
    exact Bool.or_comm _ _
  · have differs : a ≠ b := by
      rintro rfl
      exact word rfl
    simp [Fin.val_inj, word, differs]

@[simp]
theorem contains_complement (set : ByteSet) (b : UInt8) :
    set.complement.contains b = !set.contains b := by
  simp [contains_eq_getLsbD, wordOf, complement, bit_lt]

@[simp]
theorem contains_union (left right : ByteSet) (b : UInt8) :
    (left.union right).contains b = (left.contains b || right.contains b) := by
  simp [contains_eq_getLsbD, wordOf, union]

theorem contains_foldl_insert (units : List UInt8) (set : ByteSet) (b : UInt8) :
    (units.foldl insert set).contains b = true ↔ b ∈ units ∨ set.contains b = true := by
  induction units generalizing set with
  | nil => simp
  | cons a rest ih =>
    rw [List.foldl_cons, ih, contains_insert, List.mem_cons, Bool.or_eq_true, decide_eq_true_eq,
      eq_comm (a := a)]
    tauto

theorem contains_ofBytes (units : List UInt8) (b : UInt8) :
    (ofBytes units).contains b = true ↔ b ∈ units := by
  simp [ofBytes, contains_foldl_insert]

theorem contains_insertRange (set : ByteSet) (lo hi b : UInt8) :
    (set.insertRange lo hi).contains b = true ↔
      (lo ≤ b ∧ b ≤ hi) ∨ set.contains b = true := by
  have units : set.insertRange lo hi = ((List.range (hi.toNat + 1 - lo.toNat)).map
      fun i => UInt8.ofNat (lo.toNat + i)).foldl insert set := by
    rw [insertRange, List.foldl_map]
  rw [units, contains_foldl_insert]
  refine or_congr_left ?_
  rw [List.mem_map, UInt8.le_iff_toNat_le, UInt8.le_iff_toNat_le]
  have small := b.toNat_lt
  constructor
  · rintro ⟨i, member, rfl⟩
    have := List.mem_range.mp member
    have := hi.toNat_lt
    rw [UInt8.toNat_ofNat', Nat.mod_eq_of_lt (by omega)]
    omega
  · rintro ⟨low, high⟩
    refine ⟨b.toNat - lo.toNat, List.mem_range.mpr (by omega), ?_⟩
    rw [Nat.add_sub_cancel' low, UInt8.ofNat_toNat]

theorem range?_eq_none_iff {lo hi : UInt8} : range? lo hi = none ↔ hi < lo := by
  simp [range?]

theorem contains_of_range? {lo hi : UInt8} (made : range? lo hi = some set) (b : UInt8) :
    set.contains b = true ↔ lo ≤ b ∧ b ≤ hi := by
  rw [range?] at made
  split at made
  · cases made
  · rw [← Option.some.inj made, contains_insertRange]
    simp

end Operations

section Words

/-! The words as a whole. -/

theorem contains_ofNat (set : ByteSet) {word bit : Nat} (inSet : word < 4) (inWord : bit < 64) :
    set.contains (UInt8.ofNat (64 * word + bit)) = set.words[word].toBitVec.getLsbD bit := by
  have number : (UInt8.ofNat (64 * word + bit)).toNat = 64 * word + bit := by
    rw [UInt8.toNat_ofNat', Nat.mod_eq_of_lt (by omega)]
  have place : (slot (UInt8.ofNat (64 * word + bit))).val = word := by
    rw [slot_val, number]
    omega
  have offset : (64 * word + bit) % 64 = bit := by omega
  rw [contains_eq_getLsbD, wordOf, number, offset]
  simp only [Fin.getElem_fin, place]

/-- Sets with the same members are the same. -/
theorem ext_contains (same : ∀ b, left.contains b = right.contains b) : left = right := by
  suffices words : left.words = right.words by
    cases left
    cases right
    exact congrArg mk words
  apply Vector.ext
  intro word inSet
  apply UInt64.toBitVec_inj.mp
  apply BitVec.eq_of_getLsbD_eq
  intro bit inWord
  rw [← contains_ofNat left inSet inWord, same, contains_ofNat right inSet inWord]

theorem isEmpty_iff : set.isEmpty = true ↔ ∀ b, set.contains b = false := by
  rw [isEmpty, List.all_eq_true]
  constructor
  · intro zero b
    have word : set.wordOf b = 0 :=
      beq_iff_eq.mp (zero _ (Vector.mem_toList_iff.mpr (Vector.getElem_mem (slot b).isLt)))
    rw [contains_eq_getLsbD, word]
    simp
  · intro none word member
    have nothing : set = empty := ext_contains fun b => by rw [none, contains_empty]
    rw [nothing, empty, Vector.mem_toList_iff] at member
    exact beq_iff_eq.mpr (Vector.eq_of_mem_replicate member)

theorem mem_allUnits (b : UInt8) : b ∈ allUnits :=
  List.mem_map.mpr ⟨b.toNat, List.mem_range.mpr b.toNat_lt, UInt8.ofNat_toNat⟩

theorem nodup_allUnits : allUnits.Nodup := by
  apply List.Nodup.map_on _ List.nodup_range
  intro m smallM n smallN same
  have numbers := congrArg UInt8.toNat same
  rwa [UInt8.toNat_ofNat', UInt8.toNat_ofNat', Nat.mod_eq_of_lt (List.mem_range.mp smallM),
    Nat.mod_eq_of_lt (List.mem_range.mp smallN)] at numbers

/-- The bits of a word are counted one after the other. -/
private theorem cpop_eq_countP {width : Nat} (word : BitVec width) :
    word.cpop.toNat = (List.range width).countP word.getLsbD := by
  have below (n : Nat) : word.cpopNatRec n 0 = (List.range n).countP word.getLsbD := by
    induction n with
    | zero => rfl
    | succ n ih =>
      rw [BitVec.cpopNatRec_succ, BitVec.cpopNatRec_add, ih, List.range_succ, List.countP_append,
        List.countP_singleton]
      cases word.getLsbD n <;> rfl
  rw [BitVec.toNat_cpop, below]

private theorem countP_range_words (p : Nat → Bool) (words : Nat) :
    (List.range (64 * words)).countP p = ((List.range words).map fun word =>
      (List.range 64).countP fun bit => p (64 * word + bit)).sum := by
  induction words with
  | zero => rfl
  | succ words ih =>
    rw [Nat.mul_succ, List.range_add, List.countP_append, ih, List.countP_map,
      @List.range_succ words, List.map_append, List.sum_append, List.map_singleton,
      List.sum_singleton]
    rfl

theorem size_eq_countP (set : ByteSet) : set.size = allUnits.countP set.contains := by
  have words : (set.words.map (·.toBitVec.cpop.toNat)).toList = (List.range 4).map fun word =>
      (List.range 64).countP fun bit => set.contains (UInt8.ofNat (64 * word + bit)) := by
    apply List.ext_getElem
    · simp
    intro word inSet _
    have inSet : word < 4 := by simpa using inSet
    simp only [Vector.getElem_toList, Vector.getElem_map, List.getElem_map, List.getElem_range,
      cpop_eq_countP]
    apply List.countP_congr
    intro bit member
    rw [contains_ofNat set inSet (List.mem_range.mp member)]
  have sum : set.size = (set.words.map (·.toBitVec.cpop.toNat)).toList.sum := by
    rw [Vector.sum_toList, Vector.sum_eq_foldl_nat, Vector.foldl_map, size]
  rw [sum, words, allUnits, List.countP_map]
  exact (countP_range_words (set.contains ∘ UInt8.ofNat) 4).symm

/-- The size of a set is the number of its members. -/
theorem size_eq_ncard (set : ByteSet) : set.size = {b | set.contains b = true}.ncard := by
  have listed : {b | set.contains b = true} = (allUnits.filter set.contains).toFinset := by
    ext b
    simp [mem_allUnits]
  rw [size_eq_countP, List.countP_eq_length_filter, listed, Set.ncard_coe_finset,
    List.toFinset_card_of_nodup (nodup_allUnits.filter _)]

end Words

end StagedLexer.ByteSet
