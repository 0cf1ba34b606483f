import StagedLexer.Proofs.SetMembership

/-! The ranges of a set of code units. They increase and leave a gap behind each of them, so there
is one such list for each set, and the loop over all code units finds it. -/
namespace StagedLexer.ByteSet

/-- The code unit is in one of the ranges. -/
def Covers (ranges : List (UInt8 × UInt8)) (b : UInt8) : Prop :=
  ∃ range ∈ ranges, range.1 ≤ b ∧ b ≤ range.2

/-- The ranges are not empty, they increase, and between any two of them a code unit is left out. -/
structure Separated (ranges : List (UInt8 × UInt8)) : Prop where
  filled : ∀ range ∈ ranges, range.1 ≤ range.2
  apart : ranges.Pairwise fun range later => range.2.toNat + 1 < later.1.toNat

section Unique

variable {b : UInt8} {range : UInt8 × UInt8} {rest : List (UInt8 × UInt8)}

theorem covers_cons : Covers (range :: rest) b ↔ (range.1 ≤ b ∧ b ≤ range.2) ∨ Covers rest b := by
  simp [Covers]

theorem Separated.tail (separated : Separated (range :: rest)) : Separated rest :=
  ⟨fun other member => separated.filled other (List.mem_cons_of_mem _ member),
    separated.apart.of_cons⟩

theorem Separated.head_filled (separated : Separated (range :: rest)) : range.1 ≤ range.2 :=
  separated.filled range List.mem_cons_self

/-- What the ranges behind the first one cover is more than one code unit behind its end. -/
theorem Separated.lt_of_covers_tail (separated : Separated (range :: rest))
    (covers : Covers rest b) : range.2.toNat + 1 < b.toNat := by
  obtain ⟨later, member, low, -⟩ := covers
  have gap := List.rel_of_pairwise_cons separated.apart member
  have low := UInt8.le_iff_toNat_le.mp low
  omega

theorem Separated.covers_tail_iff (separated : Separated (range :: rest)) :
    Covers rest b ↔ Covers (range :: rest) b ∧ range.2 < b := by
  rw [covers_cons]
  constructor
  · intro covers
    have := separated.lt_of_covers_tail covers
    exact ⟨.inr covers, UInt8.lt_iff_toNat_lt.mpr (by omega)⟩
  · rintro ⟨⟨-, high⟩ | covers, behind⟩
    · exact absurd high (UInt8.not_le.mpr behind)
    · exact covers

theorem Separated.head_le (separated : Separated (range :: rest))
    (covers : Covers (range :: rest) b) : range.1 ≤ b := by
  rcases covers_cons.mp covers with ⟨low, -⟩ | later
  · exact low
  · have := separated.lt_of_covers_tail later
    have := UInt8.le_iff_toNat_le.mp separated.head_filled
    exact UInt8.le_iff_toNat_le.mpr (by omega)

/-- The first range is maximal: it does not end before `stop` if everything from its start up to
`stop` is covered. -/
theorem Separated.le_head_end {stop : UInt8} (separated : Separated (range :: rest))
    (whole : ∀ b, range.1 ≤ b → b ≤ stop → Covers (range :: rest) b) : stop ≤ range.2 := by
  by_contra longer
  have before := UInt8.lt_iff_toNat_lt.mp (UInt8.not_le.mp longer)
  have filled := UInt8.le_iff_toNat_le.mp separated.head_filled
  have small := stop.toNat_lt
  have next : (UInt8.ofNat (range.2.toNat + 1)).toNat = range.2.toNat + 1 := by
    rw [UInt8.toNat_ofNat', Nat.mod_eq_of_lt (by omega)]
  have covers := whole (UInt8.ofNat (range.2.toNat + 1))
    (UInt8.le_iff_toNat_le.mpr (by omega)) (UInt8.le_iff_toNat_le.mpr (by omega))
  rcases covers_cons.mp covers with ⟨-, high⟩ | later
  · have := UInt8.le_iff_toNat_le.mp high
    omega
  · have := separated.lt_of_covers_tail later
    omega

/-- Separated ranges that cover the same code units are the same. -/
theorem Separated.unique {ranges others : List (UInt8 × UInt8)} (separated : Separated ranges)
    (separated' : Separated others) (same : ∀ b, Covers ranges b ↔ Covers others b) :
    ranges = others := by
  induction ranges generalizing others with
  | nil =>
    cases others with
    | nil => rfl
    | cons range rest =>
      have covers := (same range.1).mpr ⟨range, List.mem_cons_self, UInt8.le_refl _,
        separated'.head_filled⟩
      simp [Covers] at covers
  | cons range rest ih =>
    have start : Covers (range :: rest) range.1 :=
      ⟨range, List.mem_cons_self, UInt8.le_refl _, separated.head_filled⟩
    cases others with
    | nil =>
      have covers := (same range.1).mp start
      simp [Covers] at covers
    | cons range' rest' =>
      have start' : Covers (range' :: rest') range'.1 :=
        ⟨range', List.mem_cons_self, UInt8.le_refl _, separated'.head_filled⟩
      -- Both lists start at the least code unit that is covered, and their first ranges end in
      -- front of the first one behind it that is not.
      have lows : range.1 = range'.1 := UInt8.le_antisymm
        (separated.head_le ((same _).mpr start')) (separated'.head_le ((same _).mp start))
      have highs : range.2 = range'.2 := by
        apply UInt8.le_antisymm
        · refine separated'.le_head_end fun b low high => (same b).mp ?_
          exact covers_cons.mpr (.inl ⟨lows ▸ low, high⟩)
        · refine separated.le_head_end fun b low high => (same b).mpr ?_
          exact covers_cons.mpr (.inl ⟨lows ▸ low, high⟩)
      have heads : range = range' := Prod.ext lows highs
      subst heads
      congr 1
      apply ih separated.tail separated'.tail
      intro b
      rw [separated.covers_tail_iff, separated'.covers_tail_iff, same]

end Unique

/-- The ranges are those of the members from `first` on. -/
structure Lists (set : ByteSet) (first : Nat) (ranges : List (UInt8 × UInt8)) : Prop where
  separated : Separated ranges
  covers : ∀ b, Covers ranges b ↔ first ≤ b.toNat ∧ set.contains b = true

namespace Lists

variable {set : ByteSet} {lo b : UInt8} {rest : List (UInt8 × UInt8)}

theorem nil : Lists set 256 [] := by
  refine ⟨⟨by simp, .nil⟩, fun b => ?_⟩
  have := b.toNat_lt
  simp only [Covers, List.not_mem_nil, false_and, exists_false, false_iff]
  omega

/-- A range that is open at the end of the loop goes up to the last code unit. -/
theorem last (members : ∀ b, lo ≤ b → set.contains b = true) :
    Lists set lo.toNat [(lo, 255)] := by
  have top (b : UInt8) : b ≤ 255 := UInt8.le_iff_toNat_le.mpr (Nat.le_of_lt_succ b.toNat_lt)
  refine ⟨⟨by simp [top], List.pairwise_singleton _ _⟩, fun b => ?_⟩
  simp only [Covers, List.mem_singleton, exists_eq_left, top, and_true, ← UInt8.le_iff_toNat_le]
  exact ⟨fun low => ⟨low, members b low⟩, And.left⟩

theorem skip (missing : set.contains b = false) (lists : Lists set (b.toNat + 1) rest) :
    Lists set b.toNat rest := by
  refine ⟨lists.separated, fun other => ?_⟩
  rw [lists.covers]
  refine and_congr_left fun member => ⟨Nat.le_of_lt, fun le => Nat.lt_of_le_of_ne le ?_⟩
  intro same
  rw [UInt8.toNat_inj.mp same, member] at missing
  cases missing

/-- A range ends in front of the first code unit behind its start that is no member. -/
theorem close (missing : set.contains b = false) (started : lo < b)
    (members : ∀ c, lo ≤ c → c < b → set.contains c = true)
    (lists : Lists set (b.toNat + 1) rest) : Lists set lo.toNat ((lo, b - 1) :: rest) := by
  have started' := UInt8.lt_iff_toNat_lt.mp started
  have stop : (b - 1).toNat = b.toNat - 1 := by
    apply UInt8.toNat_sub_of_le
    exact UInt8.le_iff_toNat_le.mpr (Nat.one_le_of_lt started')
  have behind : ∀ c, Covers rest c → b.toNat < c.toNat :=
    fun c covers => ((lists.covers c).mp covers).1
  refine ⟨⟨?_, ?_⟩, fun c => ?_⟩
  · simp only [List.forall_mem_cons]
    exact ⟨UInt8.le_iff_toNat_le.mpr (by omega), lists.separated.filled⟩
  · refine List.pairwise_cons.mpr ⟨fun later member => ?_, lists.separated.apart⟩
    have := behind later.1 ⟨later, member, UInt8.le_refl _, lists.separated.filled later member⟩
    change (b - 1).toNat + 1 < later.1.toNat
    omega
  · rw [covers_cons, lists.covers]
    simp only [UInt8.le_iff_toNat_le, stop]
    rcases Nat.lt_trichotomy c.toNat b.toNat with before | same | after
    · have within (low : lo.toNat ≤ c.toNat) : set.contains c = true :=
        members c (UInt8.le_iff_toNat_le.mpr low) (UInt8.lt_iff_toNat_lt.mpr before)
      constructor
      · rintro (⟨low, -⟩ | ⟨high, -⟩)
        · exact ⟨low, within low⟩
        · omega
      · rintro ⟨low, -⟩
        exact .inl ⟨low, by omega⟩
    · rw [UInt8.toNat_inj.mp same, missing]
      simp only [Bool.false_eq_true, and_false, or_false, iff_false]
      omega
    · constructor
      · rintro (⟨-, high⟩ | ⟨-, member⟩)
        · omega
        · exact ⟨by omega, member⟩
      · rintro ⟨-, member⟩
        exact .inr ⟨after, member⟩

end Lists

theorem lists_rangesIn (set : ByteSet) (count first : Nat) (start : Option UInt8)
    (whole : first + count = 256)
    (members : ∀ lo ∈ start, lo.toNat < first ∧
      ∀ b, lo ≤ b → b.toNat < first → set.contains b = true) :
    Lists set (start.elim first UInt8.toNat)
      (set.rangesIn start ((List.range' first count).map UInt8.ofNat)) := by
  -- Induction on the number of code units that are left. A range that is open holds members only,
  -- from its start up to the code unit that comes next.
  induction count generalizing first start with
  | zero =>
    obtain rfl : first = 256 := whole
    cases start with
    | none => exact .nil
    | some lo => exact .last fun b low => (members lo rfl).2 b low b.toNat_lt
  | succ count ih =>
    have number : (UInt8.ofNat first).toNat = first := by
      rw [UInt8.toNat_ofNat', Nat.mod_eq_of_lt (by omega)]
    have others := ih (first + 1)
    rw [List.range'_succ, List.map_cons]
    generalize UInt8.ofNat first = b at number
    subst number
    cases found : set.contains b with
    | true =>
      cases start with
      | none =>
        simp only [rangesIn, found]
        refine others (some b) (by omega) fun lo same => ?_
        obtain rfl := Option.some.inj same
        refine ⟨Nat.lt_succ_self _, fun c low high => ?_⟩
        rwa [UInt8.le_antisymm (UInt8.le_iff_toNat_le.mpr (Nat.le_of_lt_succ high)) low]
      | some lo =>
        simp only [rangesIn, found]
        refine others (some lo) (by omega) fun lo' same => ?_
        obtain rfl := Option.some.inj same
        obtain ⟨started, within⟩ := members lo rfl
        refine ⟨Nat.lt_succ_of_lt started, fun c low high => ?_⟩
        rcases Nat.lt_succ_iff_lt_or_eq.mp high with before | same
        · exact within c low before
        · rwa [UInt8.toNat_inj.mp same]
    | false =>
      cases start with
      | none =>
        simp only [rangesIn, found]
        exact .skip found (others none (by omega) (by simp))
      | some lo =>
        simp only [rangesIn, found]
        obtain ⟨started, within⟩ := members lo rfl
        refine .close found (UInt8.lt_iff_toNat_lt.mpr started) (fun c low high => ?_)
          (others none (by omega) (by simp))
        exact within c low (UInt8.lt_iff_toNat_lt.mp high)

theorem lists_ranges (set : ByteSet) : Lists set 0 set.ranges := by
  rw [ranges, allUnits, List.range_eq_range']
  exact lists_rangesIn set 256 0 none rfl (by simp)

theorem covers_ranges {set : ByteSet} {b : UInt8} :
    Covers set.ranges b ↔ set.contains b = true := by
  rw [(lists_ranges set).covers]
  simp

end StagedLexer.ByteSet
