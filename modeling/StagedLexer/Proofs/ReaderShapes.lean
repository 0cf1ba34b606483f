import StagedLexer.Proofs.TokenShapes

/-! The shapes of literals, of runs of code units of a set, and of text between two literals. -/
namespace StagedLexer

variable {Ctx : Type}

private theorem isPrefixOf_append {units rest : List UInt8} (holds : units.isPrefixOf rest = true)
    (more : List UInt8) : units.isPrefixOf (rest ++ more) = true := by
  rw [List.isPrefixOf_iff_prefix] at holds ⊢
  exact holds.trans (List.prefix_append rest more)

private theorem exists_head?_of_isPrefixOf {units rest : List UInt8} (nonempty : units ≠ [])
    (holds : units.isPrefixOf rest = true) :
    ∃ b, rest.head? = some b ∧ (units.head? == some b) = true := by
  obtain ⟨first, others, rfl⟩ := List.exists_cons_of_ne_nil nonempty
  obtain ⟨more, rfl⟩ := List.isPrefixOf_iff_prefix.mp holds
  exact ⟨first, rfl, beq_self_eq_true (some first)⟩

/-- What a reader reads, by the text that is left. -/
def Reader.Reads (ctx : Ctx) (reader : Reader Ctx) (read : List UInt8 → Reading) : Prop :=
  ∀ (text : Bytes) (pos : Nat), pos ≤ text.size →
    reader.read text ctx pos = (read (text.toList.drop pos)).shift pos

theorem Branch.hasShape_complete {ctx : Ctx} {reader : Reader Ctx} {shape : TokenShape}
    (reads : reader.Reads ctx shape.read) (id rule : Nat) :
    (Branch.complete id [reader] rule).HasShape ctx (rule, shape) where
  alone := rfl
  rule := rfl
  owner := rfl
  reads text pos small := by
    rw [complete, Reader.readAll, reads text pos small]
    cases shape.read (text.toList.drop pos) <;> rfl

namespace TokenShape

def literal (units : List UInt8) (nonempty : units ≠ []) : TokenShape where
  read rest := if units.isPrefixOf rest then .matched units.length else .noMatch
  opens b := units.head? == some b
  joins _ := false
  within rest := by
    split
    · next holds =>
      exact ⟨List.length_pos_iff.mpr nonempty, (List.isPrefixOf_iff_prefix.mp holds).length_le⟩
    · trivial
  opened {rest} found := by
    refine exists_head?_of_isPrefixOf nonempty ?_
    by_contra absent
    exact found (if_neg absent)
  settled {rest stop b} found _ _ more := by
    split at found
    · next holds => rw [if_pos (isPrefixOf_append holds more), found]
    · cases found
  failing {rest code} found := by
    split at found <;> cases found

theorem reads_literal (ctx : Ctx) (id : Nat) {units : List UInt8} (nonempty : units ≠ []) :
    (Reader.leaf id (.text units)).Reads ctx (literal units nonempty).read := by
  intro text pos small
  rw [Reader.read, if_neg (Nat.not_lt.mpr small), Leaf.read, Bytes.holdsAt_eq]
  simp only [literal]
  split <;> rfl

private theorem takeWhile_append_of_stop {set : UInt8 → Bool} {rest : List UInt8} {b : UInt8}
    (behind : rest[(rest.takeWhile set).length]? = some b) (more : List UInt8) :
    (rest ++ more).takeWhile set = rest.takeWhile set := by
  rw [List.takeWhile_append, if_neg]
  intro all
  rw [all] at behind
  simp at behind

/-- As many code units of a set as there are, but at least one. -/
def run (set : ByteSet) : TokenShape where
  read rest :=
    let taken := rest.takeWhile set.contains
    if taken.isEmpty then .noMatch else .matched taken.length
  opens b := set.contains b
  joins _ := false
  within rest := by
    dsimp only
    split
    · trivial
    · next nonempty =>
      refine ⟨List.length_pos_iff.mpr (by simpa using nonempty), ?_⟩
      exact (List.takeWhile_prefix _).length_le
  opened {rest} found := by
    cases rest with
    | nil => simp at found
    | cons b rest =>
      refine ⟨b, rfl, ?_⟩
      by_contra other
      simp [other] at found
  settled {rest stop b} found behind _ more := by
    dsimp only at found ⊢
    split at found
    · cases found
    · next nonempty =>
      cases found
      rw [takeWhile_append_of_stop behind, if_neg nonempty]
  failing {rest code} found := by
    dsimp only at found
    split at found <;> cases found

private theorem repeatFrom_oneOf {ctx : Ctx} {id : Nat} {set : ByteSet} {text : Bytes}
    (rounds count pos : Nat) (small : pos ≤ text.size) (enough : text.size - pos < rounds) :
    Reading.repeatFrom (Reader.read text ctx (.leaf id (.oneOf set))) 1 false rounds count pos =
      .settle 1 (count + ((text.toList.drop pos).takeWhile set.contains).length)
        (pos + ((text.toList.drop pos).takeWhile set.contains).length) := by
  induction rounds generalizing count pos with
  | zero => exact absurd enough (Nat.not_lt_zero _)
  | succ rounds ih =>
    rw [Reading.repeatFrom, Reader.read, if_neg (Nat.not_lt.mpr small), Leaf.read,
      Bytes.getElem?_eq_head?]
    cases left : text.toList.drop pos with
    | nil => rfl
    | cons b rest =>
      have inside : pos < text.size := by
        by_contra outside
        rw [List.drop_eq_nil_of_le (by simpa using outside)] at left
        cases left
      have behind : text.toList.drop (pos + 1) = rest := by
        rw [← List.tail_drop, left, List.tail_cons]
      by_cases member : set.contains b = true
      · simp only [List.head?_cons, member, if_true, List.takeWhile_cons, List.length_cons]
        rw [if_neg (Nat.succ_ne_self pos), ih (count + 1) (pos + 1) inside (by omega), behind]
        congr 1 <;> omega
      · simp [member]

theorem reads_run (ctx : Ctx) (id id' : Nat) (set : ByteSet) :
    (Reader.repetition id (.leaf id' (.oneOf set)) 1 none).Reads ctx (run set).read := by
  intro text pos small
  have enough : text.size - pos < Reader.rounds text none := by
    simp only [Reader.rounds, Option.getD_none]
    omega
  rw [Reader.read, if_neg (Nat.not_lt.mpr small)]
  refine (repeatFrom_oneOf _ 0 pos small enough).trans ?_
  simp only [run, Reading.settle, Nat.zero_add]
  cases (text.toList.drop pos).takeWhile set.contains with
  | nil => rfl
  | cons b taken => simp [Reading.shift]

/-- The length of the text up to the end of the first occurrence of a literal. -/
def endOf (close : List UInt8) : List UInt8 → Option Nat
  | [] => none
  | b :: rest =>
    if close.isPrefixOf (b :: rest) then some close.length else (endOf close rest).map (· + 1)

variable {close rest : List UInt8} {n : Nat}

private theorem endOf_bounds (found : endOf close rest = some n) :
    close.length ≤ n ∧ n ≤ rest.length := by
  induction rest generalizing n with
  | nil => cases found
  | cons b rest ih =>
    rw [endOf] at found
    split at found
    · next holds =>
      cases found
      exact ⟨Nat.le_refl _, (List.isPrefixOf_iff_prefix.mp holds).length_le⟩
    · obtain ⟨m, later, rfl⟩ := Option.map_eq_some_iff.mp found
      have bounds := ih later
      rw [List.length_cons]
      omega

private theorem endOf_append (found : endOf close rest = some n) (more : List UInt8) :
    endOf close (rest ++ more) = some n := by
  induction rest generalizing n with
  | nil => cases found
  | cons b rest ih =>
    rw [endOf] at found
    rw [List.cons_append, endOf]
    split at found
    · next holds => rw [← List.cons_append, if_pos (isPrefixOf_append holds more), found]
    · next absent =>
      obtain ⟨m, later, rfl⟩ := Option.map_eq_some_iff.mp found
      -- The literal stands further behind, so there is enough text to tell that it is not here.
      have still : ¬ close.isPrefixOf (b :: (rest ++ more)) = true := by
        intro holds
        have bounds := endOf_bounds later
        refine absent (List.isPrefixOf_iff_prefix.mpr ?_)
        refine List.prefix_of_prefix_length_le (List.isPrefixOf_iff_prefix.mp holds)
          (List.prefix_append (b :: rest) more) ?_
        rw [List.length_cons]
        omega
      rw [if_neg still, ih later, Option.map_some]

/-- A literal and everything up to the end of the next occurrence of a second one. -/
def enclosed (start close : List UInt8) (nonempty : start ≠ []) : TokenShape where
  read rest :=
    if start.isPrefixOf rest then
      (Reading.ofStop (endOf close (rest.drop start.length))).shift start.length
    else .noMatch
  opens b := start.head? == some b
  joins _ := false
  within rest := by
    split
    · next holds =>
      have inside : start.length ≤ rest.length :=
        (List.isPrefixOf_iff_prefix.mp holds).length_le
      cases found : endOf close (rest.drop start.length) with
      | none => trivial
      | some n =>
        have bounds := (endOf_bounds found).2
        rw [List.length_drop] at bounds
        have positive := List.length_pos_iff.mpr nonempty
        exact ⟨by omega, by omega⟩
    · trivial
  opened {rest} found := by
    refine exists_head?_of_isPrefixOf nonempty ?_
    by_contra absent
    exact found (if_neg absent)
  settled {rest stop b} found _ _ more := by
    split at found
    · next holds =>
      have inside : start.length ≤ rest.length :=
        (List.isPrefixOf_iff_prefix.mp holds).length_le
      rw [if_pos (isPrefixOf_append holds more), List.drop_append_of_le_length inside]
      cases later : endOf close (rest.drop start.length) with
      | none => simp [later, Reading.ofStop, Reading.shift] at found
      | some n => rw [endOf_append later more, ← later, found]
    · cases found
  failing {rest code} found := by
    split at found
    · cases later : endOf close (rest.drop start.length) <;>
        simp [later, Reading.ofStop, Reading.shift] at found
    · cases found

private theorem seekFrom_text {ctx : Ctx} {id : Nat} (nonempty : close ≠ []) {text : Bytes}
    (length pos : Nat) (whole : pos + length = text.size) :
    Reading.seekFrom (Reader.read text ctx (.leaf id (.text close))) true .noMatch length pos =
      (Reading.ofStop (endOf close (text.toList.drop pos))).shift pos := by
  induction length generalizing pos with
  | zero =>
    have none : text.toList.drop pos = [] := List.drop_eq_nil_of_le (by simpa using whole.ge)
    obtain ⟨b, units, rfl⟩ := List.exists_cons_of_ne_nil nonempty
    rw [Reading.seekFrom, Reader.read, if_neg (by omega), Leaf.read, Bytes.holdsAt_eq, none]
    rfl
  | succ length ih =>
    have inside : pos < text.toList.length := by
      rw [Array.length_toList]
      omega
    rw [Reading.seekFrom, Reader.read, if_neg (by omega), Leaf.read, Bytes.holdsAt_eq,
      ih (pos + 1) (by omega), List.drop_eq_getElem_cons inside, endOf]
    by_cases holds : close.isPrefixOf (text.toList[pos] :: text.toList.drop (pos + 1)) = true
    · rw [if_pos holds, if_pos holds]
      rfl
    · rw [if_neg holds, if_neg holds]
      cases endOf close (text.toList.drop (pos + 1)) with
      | none => rfl
      | some n =>
        simp only [Reading.ofStop, Reading.shift, Option.map_some]
        congr 1
        omega

private theorem reads_seek (ctx : Ctx) (id id' : Nat) (nonempty : close ≠ []) :
    (Reader.seek id (.leaf id' (.text close)) true false).Reads ctx fun rest =>
      .ofStop (endOf close rest) := by
  intro text pos small
  rw [Reader.read, if_neg (Nat.not_lt.mpr small)]
  exact seekFrom_text nonempty _ pos (by omega)

theorem hasShape_enclosed (ctx : Ctx) (id opening seeking closing rule : Nat) {start : List UInt8}
    (startNonempty : start ≠ []) (closeNonempty : close ≠ []) :
    (Branch.complete id [.leaf opening (.text start),
      .seek seeking (.leaf closing (.text close)) true false] rule).HasShape ctx
      (rule, enclosed start close startNonempty) where
  alone := rfl
  rule := rfl
  owner := rfl
  reads text pos small := by
    rw [Branch.complete, Reader.readAll, reads_literal ctx opening startNonempty text pos small]
    simp only [literal, enclosed]
    split
    · next holds =>
      have inside : start.length ≤ text.size - pos := by
        simpa using (List.isPrefixOf_iff_prefix.mp holds).length_le
      simp only [Reading.shift, Reading.andThen, Reader.readAll]
      rw [reads_seek ctx seeking closing closeNonempty text _ (by omega), ← List.drop_drop]
      dsimp only
      cases endOf close ((text.toList.drop pos).drop start.length) with
      | none => rfl
      | some n => simp [Reading.ofStop, Reading.shift, Nat.add_assoc]
    · rfl

end TokenShape

end StagedLexer
