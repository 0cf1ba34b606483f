import Mathlib.Data.List.Nodup
import Mathlib.Data.List.Perm.Subperm
import StagedLexer.Code.Basic

/-! The names of variables in emitted source. No two numbers have one name, a free name is found
among those that come next, and so distinct variables get distinct names that are not reserved. The
text of a fragment is that of its pieces, spelled with these names. -/
namespace StagedLexer.Code

/-- The number of letters read as digits from 1 to 26. -/
def letterNumber (letters : List Char) : Nat :=
  letters.foldl (fun n c => 26 * n + (c.toNat - 96)) 0

private theorem letterNumber_append (letters : List Char) {d : Nat} (small : d < 26) :
    letterNumber (letters ++ [Char.ofNat ('a'.toNat + d)]) = 26 * letterNumber letters + d + 1 := by
  have digit : ∀ d < 26, (Char.ofNat ('a'.toNat + d)).toNat - 96 = d + 1 := by decide
  rw [letterNumber, List.foldl_append, List.foldl_cons, List.foldl_nil, digit d small]
  rfl

theorem letterNumber_nameLetters (n : Nat) : letterNumber (nameLetters n) = n + 1 := by
  induction n using Nat.strongRecOn with
  | ind n ih =>
    rw [nameLetters]
    split
    · next small =>
      have alone := letterNumber_append [] small
      rwa [List.nil_append, letterNumber.eq_1 [], List.foldl_nil, Nat.mul_zero,
        Nat.zero_add] at alone
    · next large =>
      rw [letterNumber_append _ (Nat.mod_lt _ (by decide)), ih (n / 26 - 1) (by omega)]
      omega

theorem alphabeticName_injective : Function.Injective alphabeticName := by
  intro m n same
  have letters := congrArg letterNumber (String.ofList_inj.mp same)
  rw [letterNumber_nameLetters, letterNumber_nameLetters] at letters
  exact Nat.succ.inj letters

private theorem nextFree_cases (fuel n : Nat) : ∃ k, n ≤ k ∧ k ≤ n + fuel ∧
    nextFree fuel n = (alphabeticName k, k + 1) ∧
    (∀ i, n ≤ i → i < k → alphabeticName i ∈ reserved) ∧
    (alphabeticName k ∈ reserved → k = n + fuel) := by
  induction fuel generalizing n with
  | zero =>
    refine ⟨n, Nat.le_refl n, Nat.le_refl n, rfl, fun i behind less => ?_, fun _ => rfl⟩
    exact absurd less (Nat.not_lt.mpr behind)
  | succ fuel ih =>
    rw [nextFree]
    split
    · next taken =>
      obtain ⟨k, later, within, equal, between, last⟩ := ih (n + 1)
      refine ⟨k, Nat.le_of_succ_le later, by omega, equal, fun i behind less => ?_, fun none => ?_⟩
      · rcases Nat.eq_or_lt_of_le behind with rfl | behind
        · exact List.contains_iff_mem.mp taken
        · exact between i behind less
      · have atEnd := last none
        omega
    · next free =>
      refine ⟨n, Nat.le_refl n, Nat.le_add_right n _, rfl, fun i behind less => ?_, fun taken => ?_⟩
      · exact absurd less (Nat.not_lt.mpr behind)
      · exact absurd (List.contains_iff_mem.mpr taken) free

/-- There are more names to try than reserved words, so the first free one is found. -/
theorem nextFree_spec (n : Nat) : ∃ k, n ≤ k ∧
    nextFree reserved.length n = (alphabeticName k, k + 1) ∧ alphabeticName k ∉ reserved ∧
    ∀ i, n ≤ i → i < k → alphabeticName i ∈ reserved := by
  obtain ⟨k, later, -, equal, between, last⟩ := nextFree_cases reserved.length n
  refine ⟨k, later, equal, fun taken => ?_, between⟩
  obtain rfl := last taken
  let tried := (List.range (reserved.length + 1)).map fun i => alphabeticName (n + i)
  have distinct : tried.Nodup := by
    apply List.Nodup.map _ List.nodup_range
    intro i j same
    exact Nat.add_left_cancel (alphabeticName_injective same)
  have within : tried ⊆ reserved := by
    intro name member
    obtain ⟨i, among, rfl⟩ := List.mem_map.mp member
    rcases Nat.eq_or_lt_of_le (Nat.le_of_lt_succ (List.mem_range.mp among)) with rfl | less
    · exact taken
    · exact between (n + i) (Nat.le_add_right n i) (Nat.add_lt_add_left less n)
  have count := (List.subperm_of_subset distinct within).length_le
  rw [List.length_map, List.length_range] at count
  exact Nat.not_succ_le_self _ count

namespace Names

/-- The names that are given are those of numbers that have been tried, no two variables have the
same one, and none is reserved. -/
structure Proper (names : Names) : Prop where
  tried : ∀ {v : Nat} {name : String}, names.names[v]? = some name →
    ∃ k < names.counter, name = alphabeticName k
  distinct : ∀ {v w : Nat} {name : String}, names.names[v]? = some name →
    names.names[w]? = some name → v = w
  free : ∀ {v : Nat} {name : String}, names.names[v]? = some name → name ∉ reserved

/-- What has a name keeps it. -/
def Extends (before after : Names) : Prop :=
  ∀ {v : Nat} {name : String}, before.names[v]? = some name → after.names[v]? = some name

variable {names : Names} {v : Nat} {vars : List Nat}

theorem proper_empty : Proper {} := by
  refine ⟨?_, ?_, ?_⟩ <;> intros <;> simp_all

theorem extends_name (names : Names) (v : Nat) : names.Extends (names.name v).2 := by
  intro w name known
  unfold Names.name
  split
  · exact known
  · next unknown =>
    rw [Std.HashMap.getElem?_insert]
    split
    · next same =>
      rw [eq_of_beq same, known] at unknown
      cases unknown
    · exact known

/-- A variable that is named has the name from then on. -/
theorem known_name (names : Names) (v : Nat) :
    (names.name v).2.names[v]? = some (names.name v).1 := by
  unfold Names.name
  split
  · assumption
  · simp

theorem Proper.name (proper : names.Proper) (v : Nat) : (names.name v).2.Proper := by
  unfold Names.name
  split
  · exact proper
  · next unknown =>
    obtain ⟨k, later, equal, free, -⟩ := nextFree_spec names.counter
    rw [equal]
    -- The new name has a number that has not been tried.
    have fresh {w : Nat} {name : String} (known : names.names[w]? = some name) :
        name ≠ alphabeticName k := by
      obtain ⟨j, less, rfl⟩ := proper.tried known
      intro same
      have equal := alphabeticName_injective same
      omega
    have cases {w : Nat} {name : String}
        (known : (names.names.insert v (alphabeticName k))[w]? = some name) :
        w = v ∧ name = alphabeticName k ∨ names.names[w]? = some name := by
      rw [Std.HashMap.getElem?_insert] at known
      split at known
      · next same => exact .inl ⟨(eq_of_beq same).symm, (Option.some.inj known).symm⟩
      · exact .inr known
    refine ⟨fun known => ?_, fun known known' => ?_, fun known => ?_⟩
    · rcases cases known with ⟨-, rfl⟩ | old
      · exact ⟨k, Nat.lt_succ_self k, rfl⟩
      · obtain ⟨j, less, same⟩ := proper.tried old
        exact ⟨j, Nat.lt_succ_of_lt (Nat.lt_of_lt_of_le less later), same⟩
    · rcases cases known with ⟨rfl, rfl⟩ | old <;> rcases cases known' with ⟨rfl, same⟩ | old'
      · rfl
      · exact absurd rfl (fresh old')
      · exact absurd same (fresh old)
      · exact proper.distinct old old'
    · rcases cases known with ⟨-, rfl⟩ | old
      · exact free
      · exact proper.free old

def of (names : Names) (v : Nat) : String := names.names[v]?.getD ""

theorem of_eq {name : String} (known : names.names[v]? = some name) : names.of v = name := by
  rw [of, known, Option.getD_some]

/-- What `vars` are called once all of them have names. -/
structure Covers (names : Names) (vars : List Nat) (after : Names) : Prop where
  keeps : names.Extends after
  known : ∀ v ∈ vars, after.names[v]? = some (after.of v)
  proper : names.Proper → after.Proper

theorem Covers.refl (names : Names) : names.Covers [] names :=
  ⟨fun known => known, by simp, fun proper => proper⟩

theorem Covers.name (names : Names) (v : Nat) : names.Covers [v] (names.name v).2 := by
  refine ⟨extends_name names v, fun w member => ?_, fun proper => proper.name v⟩
  rw [List.mem_singleton.mp member, known_name, of_eq (known_name names v)]

theorem Covers.append {middle after : Names} {more : List Nat}
    (first : names.Covers vars middle) (second : middle.Covers more after) :
    names.Covers (vars ++ more) after := by
  refine ⟨fun known => second.keeps (first.keeps known), fun v member => ?_,
    fun proper => second.proper (first.proper proper)⟩
  rcases List.mem_append.mp member with old | new
  · have kept := second.keeps (first.known v old)
    rw [kept, of_eq kept]
  · exact second.known v new

theorem Covers.injective {after : Names} (covers : names.Covers vars after)
    (proper : names.Proper) {v w : Nat} (inV : v ∈ vars) (inW : w ∈ vars)
    (same : after.of v = after.of w) : v = w :=
  (covers.proper proper).distinct (covers.known v inV) (same ▸ covers.known w inW)

theorem Covers.free {after : Names} (covers : names.Covers vars after) (proper : names.Proper)
    {v : Nat} (member : v ∈ vars) : after.of v ∉ reserved :=
  (covers.proper proper).free (covers.known v member)

theorem nameAll_spec (vars : List Nat) (names : Names) :
    names.Covers vars (names.nameAll vars).2 ∧
      ∀ after, (names.nameAll vars).2.Extends after →
        (names.nameAll vars).1 = vars.map after.of := by
  induction vars generalizing names with
  | nil => exact ⟨.refl names, fun _ _ => rfl⟩
  | cons v rest ih =>
    obtain ⟨covers, spelled⟩ := ih (names.name v).2
    refine ⟨(Covers.name names v).append covers, fun after kept => ?_⟩
    have known := kept (covers.keeps (known_name names v))
    simp only [nameAll, List.map_cons]
    rw [of_eq known, spelled after kept]

end Names

namespace Piece

def vars : List Piece → List Nat
  | [] => []
  | .text _ :: rest => vars rest
  | .var v :: rest => v :: vars rest

/-- The text of pieces under the given names. -/
def spell (nameOf : Nat → String) : List Piece → String
  | [] => ""
  | .text written :: rest => written ++ spell nameOf rest
  | .var v :: rest => nameOf v ++ spell nameOf rest

variable {nameOf : Nat → String} {front behind : List Piece}

@[simp] theorem vars_append : vars (front ++ behind) = vars front ++ vars behind := by
  induction front with
  | nil => rfl
  | cons piece rest ih => cases piece <;> simp [vars, ih]

@[simp] theorem spell_append :
    spell nameOf (front ++ behind) = spell nameOf front ++ spell nameOf behind := by
  induction front with
  | nil => simp [spell]
  | cons piece rest ih => cases piece <;> simp [spell, ih, String.append_assoc]

end Piece

/-- The text that is rendered is that of the pieces, and their variables have names behind it. -/
def Spelled (names : Names) (pieces : List Piece) (rendered : String × Names) : Prop :=
  names.Covers (Piece.vars pieces) rendered.2 ∧
    ∀ after, rendered.2.Extends after → rendered.1 = Piece.spell after.of pieces

private theorem Spelled.behind_name {names : Names} {v : Nat} {pieces : List Piece}
    {rendered : String × Names} (spelled : Spelled (names.name v).2 pieces rendered)
    (front middle back : String) :
    Spelled names ([Piece.text front, Piece.var v, Piece.text middle] ++ pieces ++ [Piece.text back])
      (front ++ (names.name v).1 ++ middle ++ rendered.1 ++ back, rendered.2) := by
  obtain ⟨covers, text⟩ := spelled
  constructor
  · have all := (Names.Covers.name names v).append covers
    simpa [Piece.vars] using all
  · intro after kept
    have known := kept (covers.keeps (Names.known_name names v))
    simp [Piece.spell, text after kept, Names.of_eq known, String.append_assoc]

mutual
theorem render_spelled : (code : Code) → (names : Names) →
    Spelled names code.pieces (code.render names)
  | literal _, names => ⟨.refl names, fun _ _ => by simp [pieces, render, Piece.spell]⟩
  | var v, names => by
    refine ⟨.name names v, fun after kept => ?_⟩
    simp [pieces, render, Piece.spell, Names.of_eq (kept (Names.known_name names v))]
  | block items, names => renderAll_spelled items names
  | declare v, names => by
    refine ⟨.name names v, fun after kept => ?_⟩
    have name := Names.of_eq (kept (Names.known_name names v))
    simp [pieces, render, Piece.spell, name, String.append_assoc]
  | define v init, names =>
    (render_spelled init (names.name v).2).behind_name "let mut " " = " ";\n"
  | assign v value _, names => by
    have spelled := (render_spelled value (names.name v).2).behind_name "" " = " ";\n"
    simpa [Spelled, pieces, render, Piece.vars, Piece.spell] using spelled
theorem renderAll_spelled : (items : List Code) → (names : Names) →
    Spelled names (piecesAll items) (renderAll items names)
  | [], names => ⟨.refl names, fun _ _ => rfl⟩
  | item :: rest, names => by
    obtain ⟨covers, text⟩ := render_spelled item names
    obtain ⟨more, tail⟩ := renderAll_spelled rest (item.render names).2
    rw [piecesAll, renderAll]
    constructor
    · rw [Piece.vars_append]
      exact covers.append more
    · intro after kept
      have first := text after fun known => kept (more.keeps known)
      rw [Piece.spell_append, ← first, ← tail after kept]
end

end StagedLexer.Code
