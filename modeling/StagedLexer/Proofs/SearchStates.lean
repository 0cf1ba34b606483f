import StagedLexer.Regex

/-! Characters by their first code unit, and searches by their waiting instructions. In a program
without conditions the instructions that wait at a position decide how the search goes on: what was
reached in earlier rounds has no influence, and neither has the text in front of the position. -/
namespace StagedLexer

namespace Text.Utf8

private theorem width_bounds (lead : UInt8) :
    (width lead = 1 ∧ lead.toNat < 128) ∨ (128 ≤ lead.toNat ∧ (width lead = 0 ∨
      (width lead = 2 ∧ 0xc2 ≤ lead.toNat ∧ lead.toNat ≤ 0xdf) ∨
      (width lead = 3 ∧ 0xe0 ≤ lead.toNat ∧ lead.toNat ≤ 0xef) ∨
      (width lead = 4 ∧ 0xf0 ≤ lead.toNat ∧ lead.toNat ≤ 0xf4))) := by
  unfold width
  simp only [UInt8.lt_iff_toNat_lt, UInt8.le_iff_toNat_le, Bool.and_eq_true, decide_eq_true_eq]
  split
  · simp_all
  · split
    · simp_all
    · split
      · simp_all
      · split <;> simp_all

private theorem second_bounds {lead b : UInt8} (above : (second lead).1 ≤ b)
    (below : b ≤ (second lead).2) :
    128 ≤ b.toNat ∧ b.toNat < 192 ∧ (lead.toNat = 0xe0 → 0xa0 ≤ b.toNat) ∧
      (lead.toNat = 0xf0 → 0x90 ≤ b.toNat) := by
  simp only [second, ← UInt8.toNat_inj, UInt8.le_iff_toNat_le] at above below
  repeat' split at above
  all_goals simp_all
  all_goals omega

private theorem toNat_ofNat_large {code : Nat} (large : 128 ≤ code) :
    128 ≤ (Char.ofNat code).toNat ∨ (Char.ofNat code).toNat = 0 := by
  by_cases valid : code.isValidChar
  · rw [Char.ofNat, dif_pos valid]
    exact .inl large
  · rw [Char.ofNat, dif_neg valid]
    exact .inr rfl

/-- A character of ASCII stands where its code unit does; any other one starts with a larger code
unit. -/
theorem charAt?_cases {text : Bytes} {i w : Nat} {c : Char}
    (read : charAt? text i = some (c, w)) :
    ∃ b, text[i]? = some b ∧ 0 < w ∧
      (b.toNat < 128 ∨ (128 ≤ b.toNat ∧ (128 ≤ c.toNat ∨ c.toNat = 0))) := by
  unfold charAt? at read
  split at read
  · next step =>
    cases read
    unfold stepBefore at step
    simp only at step
    split at step
    · cases step
    next a first =>
    have here : text[i]? = some a := by
      split at first
      · simpa using first
      · cases first
    refine ⟨a, here, ?_⟩
    have bounds := width_bounds a
    split at step
    · cases step
    · next one =>
      cases step
      have ascii : a.toNat < 128 := by omega
      exact ⟨Nat.one_pos, .inl ascii⟩
    next none one =>
    have longer : width a ≠ 0 ∧ width a ≠ 1 := ⟨none, one⟩
    have high : 128 ≤ a.toNat := by omega
    split at step
    · cases step
    next b second =>
    split at step
    · cases step
    next between =>
    obtain ⟨above, below⟩ : (Utf8.second a).1 ≤ b ∧ b ≤ (Utf8.second a).2 := by
      simpa using between
    have next := second_bounds above below
    split at step
    · cases step
      exact ⟨by decide, .inr ⟨high, toNat_ofNat_large (by omega)⟩⟩
    split at step
    · cases step
    split at step
    · cases step
    split at step
    · cases step
      exact ⟨by decide, .inr ⟨high, toNat_ofNat_large (by omega)⟩⟩
    split at step
    · cases step
    split at step
    · cases step
    · cases step
      exact ⟨by decide, .inr ⟨high, toNat_ofNat_large (by omega)⟩⟩
  · cases read

theorem charAt?_of_ascii {text : Bytes} {i : Nat} {b : UInt8} (unit : text[i]? = some b)
    (ascii : b.toNat < 128) : ∃ c, charAt? text i = some (c, 1) ∧ c.toNat = b.toNat := by
  obtain ⟨inside, rfl⟩ := Array.getElem?_eq_some_iff.mp unit
  have one : width text[i] = 1 := if_pos (UInt8.lt_iff_toNat_lt.mpr ascii)
  have valid : text[i].toNat.isValidChar := .inl (by omega)
  refine ⟨Char.ofNat text[i].toNat, by simp [charAt?, stepBefore, inside, one], ?_⟩
  rw [Char.ofNat, dif_pos valid]
  rfl

end Text.Utf8

theorem Text.CodeSet.contains_eq_false {set : CodeSet} {code : Nat}
    (outside : ∀ range ∈ set.ranges, code < range.1 ∨ range.2 < code) :
    set.contains code = false := by
  rw [contains]
  generalize set.ranges.size = hi
  generalize 0 = lo
  fun_induction searchBetween set.ranges code lo hi with
  | case1 => rfl
  | case2 lo hi _ mid first last found low ih => exact ih
  | case3 lo hi _ mid first last found _ high ih => exact ih
  | case4 lo hi _ mid first last found notBelow notAbove =>
    exact ((outside _ (Array.mem_of_getElem? found)).elim notBelow notAbove).elim
  | case5 => rfl

namespace Regex.Program

open StagedLexer.Text

/-- The program asks for nothing but characters. -/
def Unconditional (program : Program) : Prop :=
  ∀ (index : Nat) (look : Look) (next : Nat), program.insts[index]? ≠ some (.look look next)

/-- Follows the instructions on the stack, without those of `seen`, to the instructions that
wait. -/
def gather (program : Program) :
    (fuel : Nat) → List Nat → (seen waiting : List Nat) → List Nat × List Nat
  | 0, _, seen, waiting => (seen, waiting)
  | _, [], seen, waiting => (seen, waiting)
  | fuel + 1, index :: stack, seen, waiting =>
    if index ∈ seen then gather program fuel stack seen waiting
    else match program.insts[index]? with
      | some (.split targets) => gather program fuel (targets ++ stack) (index :: seen) waiting
      | some (.char _ _) | some .accept =>
        gather program fuel stack (index :: seen) (waiting ++ [index])
      | _ => gather program fuel stack (index :: seen) waiting

/-- The instructions that wait behind a character, of which `holds` tells the sets it is in, and
whether an accepting instruction was preferred over the rest. -/
def stepOn (program : Program) (holds : CodeSet → Bool) :
    List Nat → (seen waiting : List Nat) → Bool × List Nat
  | [], _, waiting => (false, waiting)
  | index :: rest, seen, waiting =>
    match program.insts[index]? with
    | some .accept => (true, waiting)
    | some (.char set next) =>
      if holds set then
        let (seen, waiting) := gather program program.ways [next] seen waiting
        stepOn program holds rest seen waiting
      else stepOn program holds rest seen waiting
    | _ => stepOn program holds rest seen waiting

theorem stepOn_congr {program : Program} {holds holds' : CodeSet → Bool}
    (same : ∀ (index : Nat) (set : CodeSet) (next : Nat),
      program.insts[index]? = some (.char set next) → holds set = holds' set)
    (list seen waiting : List Nat) :
    stepOn program holds list seen waiting = stepOn program holds' list seen waiting := by
  induction list generalizing seen waiting with
  | nil => rfl
  | cons index rest ih =>
    rw [stepOn, stepOn]
    cases inst : program.insts[index]? with
    | none => exact ih seen waiting
    | some inst' =>
      cases inst' with
      | split targets => exact ih seen waiting
      | look look next => exact ih seen waiting
      | accept => rfl
      | char set next => simp only [same index set next inst, ih]

def membership (char? : Option Char) (set : CodeSet) : Bool :=
  char?.any fun c => set.contains c.toNat

/-- A search that knows the waiting instructions only. -/
def runOn (program : Program) (text : Bytes) :
    (fuel i : Nat) → (best : Option Nat) → (waiting : List Nat) → Option Nat
  | 0, _, best, _ => best
  | fuel + 1, i, best, waiting =>
    if waiting.isEmpty then best
    else
      let next := Utf8.charAt? text i
      let (accepted, waiting) := stepOn program (membership (next.map (·.1))) waiting [] []
      runOn program text fuel (i + (next.map (·.2)).getD 1) (if accepted then some i else best)
        waiting

/-- The marks of round `round` are on the instructions of `seen`, and no mark is of a later one. -/
structure Marked (program : Program) (round : Nat) (seen waiting : List Nat) (threads : Threads) :
    Prop where
  waiting : threads.waiting.toList = waiting
  size : threads.reached.size = program.insts.size
  reached : ∀ index < program.insts.size, threads.reached[index]? = some round ↔ index ∈ seen
  earlier : ∀ index mark : Nat, threads.reached[index]? = some mark → mark ≤ round

variable {program : Program} (text : Bytes) {round : Nat} {seen waiting : List Nat}
  {threads : Threads}

/-- Before a round nothing is marked with it. -/
theorem Marked.fresh (marked : program.Marked round seen waiting threads) {later : Nat}
    (lt : round < later) : program.Marked later [] [] { reached := threads.reached } := by
  refine ⟨rfl, marked.size, fun index _ => ?_, fun index mark found => ?_⟩
  · refine ⟨fun found => ?_, fun none => absurd none List.not_mem_nil⟩
    exact absurd lt (Nat.not_lt.mpr (marked.earlier index later found))
  · exact Nat.le_trans (marked.earlier index mark found) (Nat.le_of_lt lt)

theorem Marked.mark (marked : program.Marked round seen waiting threads) (index : Nat) :
    program.Marked round (index :: seen) waiting
      { threads with reached := threads.reached.setIfInBounds index round } := by
  refine ⟨marked.waiting, by simpa using marked.size, fun other small => ?_,
    fun other mark found => ?_⟩
  · by_cases same : index = other
    · subst same
      simp [marked.size, small]
    · rw [Array.getElem?_setIfInBounds_ne same, marked.reached other small, List.mem_cons]
      simp [Ne.symm same]
  · by_cases same : index = other
    · subst same
      rw [Array.getElem?_setIfInBounds_self] at found
      split at found
      · exact Nat.le_of_eq (Option.some.inj found).symm
      · cases found
    · rw [Array.getElem?_setIfInBounds_ne same] at found
      exact marked.earlier other mark found

theorem Marked.wait (marked : program.Marked round seen waiting threads) (index : Nat) :
    program.Marked round seen (waiting ++ [index])
      { threads with waiting := threads.waiting.push index } :=
  ⟨by simp [marked.waiting], marked.size, marked.reached, marked.earlier⟩

theorem Marked.follow (free : program.Unconditional) (i fuel : Nat) (stack : List Nat)
    (marked : program.Marked round seen waiting threads) :
    program.Marked round (gather program fuel stack seen waiting).1
      (gather program fuel stack seen waiting).2
      (program.follow text round i fuel stack threads) := by
  induction fuel generalizing stack seen waiting threads with
  | zero => cases stack <;> exact marked
  | succ fuel ih =>
    cases stack with
    | nil => exact marked
    | cons index stack =>
      rw [gather, Program.follow]
      cases inst : program.insts[index]? with
      | none =>
        have outside := Array.getElem?_eq_none_iff.mp inst
        have still : threads.reached.setIfInBounds index round = threads.reached := by
          exact dif_neg (by rw [marked.size]; omega)
        have more := marked.mark index
        rw [still] at more
        simp only [still, ite_self]
        split
        · exact ih stack marked
        · exact ih stack more
      | some inst' =>
        obtain ⟨small, -⟩ := Array.getElem?_eq_some_iff.mp inst
        by_cases old : index ∈ seen
        · rw [if_pos old, if_pos (by simpa using (marked.reached index small).mpr old)]
          exact ih stack marked
        · rw [if_neg old, if_neg (by simpa using mt (marked.reached index small).mp old)]
          have next := marked.mark index
          cases inst' with
          | split targets => exact ih _ next
          | char set target => exact ih stack (next.wait index)
          | accept => exact ih stack (next.wait index)
          | look look target => exact absurd inst (free index look target)

theorem Marked.advance (free : program.Unconditional) (char? : Option Char) (i : Nat)
    (list : List Nat) (marked : program.Marked round seen waiting threads) :
    (program.advance text char? program.ways round i list threads).1 =
        (stepOn program (membership char?) list seen waiting).1 ∧
      ∃ seen', program.Marked round seen' (stepOn program (membership char?) list seen waiting).2
        (program.advance text char? program.ways round i list threads).2 := by
  induction list generalizing seen waiting threads with
  | nil => exact ⟨rfl, seen, marked⟩
  | cons index rest ih =>
    rw [stepOn, Program.advance]
    cases inst : program.insts[index]? with
    | none => exact ih marked
    | some inst' =>
      cases inst' with
      | split targets => exact ih marked
      | accept => exact ⟨rfl, seen, marked⟩
      | look look target => exact absurd inst (free index look target)
      | char set target =>
        have test : (char?.any fun c => set.contains c.toNat) = membership char? set := rfl
        simp only [test]
        cases membership char? set with
        | true => exact ih (marked.follow text free i program.ways [target])
        | false => exact ih marked

theorem search_eq_runOn (free : program.Unconditional) (fuel i : Nat) (best : Option Nat)
    (marked : program.Marked (i + 1) seen waiting threads) :
    program.search text program.ways fuel i best threads =
      program.runOn text fuel i best waiting := by
  induction fuel generalizing i best seen waiting threads with
  | zero => rfl
  | succ fuel ih =>
    have same : threads.waiting.isEmpty = waiting.isEmpty := by
      rw [← marked.waiting, Array.isEmpty_toList]
    rw [search, runOn, same]
    split
    · rfl
    · simp only [marked.waiting]
      -- The next round is a later one, so nothing is marked with it yet.
      have later : i + 1 < i + ((Utf8.charAt? text i).map (·.2)).getD 1 + 1 := by
        cases next : Utf8.charAt? text i with
        | none => simp
        | some read =>
          obtain ⟨-, -, width, -⟩ := Utf8.charAt?_cases next
          simp only [Option.map_some, Option.getD_some]
          omega
      obtain ⟨accepted, seen', after⟩ := (marked.fresh later).advance text free
        ((Utf8.charAt? text i).map (·.1)) _ waiting
      rw [accepted]
      exact ih _ _ after

/-- The match of a program without conditions and without empty matches. -/
theorem matchAt?_eq_runOn (free : program.Unconditional) (proper : program.nullable = false)
    (text : Bytes) (offset : Nat) :
    program.matchAt? text offset =
      program.runOn text (text.size - offset + 2) offset none
        (gather program program.ways [program.start] [] []).2 := by
  have idle : program.Marked (offset + 1) [] []
      { reached := Array.replicate program.insts.size 0 } := by
    refine ⟨rfl, by simp, fun index small => by simp [small], fun index mark found => ?_⟩
    rw [Array.getElem?_replicate] at found
    split at found
    · exact (Option.some.inj found) ▸ Nat.zero_le _
    · cases found
  have marked := idle.follow text free offset program.ways [program.start]
  rw [matchAt?]
  simp only [proper, Bool.false_and, Bool.false_eq_true, if_false]
  rw [search_eq_runOn text free _ _ _ marked]
  cases runOn program text _ offset none _ <;> rfl

end Regex.Program

end StagedLexer
