import Mathlib.Data.List.Induction
import Mathlib.Data.List.Shortlex
import StagedLexer.Proofs.Naming

/-! The order of the names. The numbered names are the words over the letters from `a` to `z`, the
shorter ones first and those of one length in alphabetical order. Variables get them in this order,
and only the reserved ones are left out. -/
namespace StagedLexer.Code

/-- The words that can be names. -/
def Word (word : String) : Prop := word ≠ "" ∧ ∀ c ∈ word.toList, 'a' ≤ c ∧ c ≤ 'z'

/-- Shorter words come first, words of one length in alphabetical order. -/
def Before (first second : String) : Prop :=
  List.Shortlex (· < ·) first.toList second.toList

section Numbering

private def letter (d : Nat) : Char := Char.ofNat ('a'.toNat + d)

private theorem toNat_letter {d : Nat} (small : d < 26) : (letter d).toNat = 97 + d := by
  have all : ∀ d < 26, (letter d).toNat = 97 + d := by decide
  exact all d small

private theorem letter_lt {d e : Nat} (less : d < e) (small : e < 26) : letter d < letter e := by
  rw [Char.lt_def, UInt32.lt_iff_toNat_lt]
  have first := toNat_letter (Nat.lt_trans less small)
  have second := toNat_letter small
  simp only [Char.toNat] at first second
  omega

private def front : Nat → List Char
  | 0 => []
  | k + 1 => nameLetters k

private theorem nameLetters_eq (n : Nat) :
    nameLetters n = front (n / 26) ++ [letter (n % 26)] := by
  rw [nameLetters]
  split
  · next small =>
    rw [Nat.div_eq_of_lt small, Nat.mod_eq_of_lt small, front, letter, List.nil_append]
  · next large =>
    obtain ⟨k, quotient⟩ : ∃ k, n / 26 = k + 1 := Nat.exists_eq_add_one.mpr (by omega)
    rw [quotient, front, letter, Nat.add_sub_cancel]

private theorem shortlex_concat {s t : List Char} (less : List.Shortlex (· < ·) s t) (c d : Char) :
    List.Shortlex (· < ·) (s ++ [c]) (t ++ [d]) := by
  rcases List.shortlex_def.mp less with shorter | ⟨same, lex⟩
  · exact .of_length_lt (by simpa using shorter)
  · refine .of_lex (by simpa using same) ?_
    clear less
    induction lex with
    | nil => simp at same
    | cons _ ih => exact .cons (ih (by simpa using same))
    | rel first => exact .rel first

theorem shortlex_nameLetters {m n : Nat} (less : m < n) :
    List.Shortlex (· < ·) (nameLetters m) (nameLetters n) := by
  induction n using Nat.strongRecOn generalizing m with
  | ind n ih =>
    rw [nameLetters_eq m, nameLetters_eq n]
    rcases Nat.eq_or_lt_of_le (Nat.div_le_div_right (c := 26) (Nat.le_of_lt less)) with same | lower
    · rw [same]
      refine List.Shortlex.append_left ?_ _
      rw [List.shortlex_singleton_iff]
      exact letter_lt (by omega) (Nat.mod_lt n (by decide))
    · apply shortlex_concat
      obtain ⟨k, quotient⟩ : ∃ k, n / 26 = k + 1 := Nat.exists_eq_add_one.mpr (by omega)
      rw [quotient] at lower ⊢
      cases shorter : m / 26 with
      | zero =>
        refine .of_length_lt ?_
        rw [front, front, nameLetters_eq]
        simp
      | succ j => exact ih k (by omega) (by omega)

theorem exists_nameLetters {letters : List Char} (some : letters ≠ [])
    (each : ∀ c ∈ letters, 'a' ≤ c ∧ c ≤ 'z') : ∃ n, nameLetters n = letters := by
  induction letters using List.reverseRecOn with
  | nil => exact absurd rfl some
  | append_singleton init c ih =>
    obtain ⟨low, high⟩ := each c (by simp)
    rw [Char.le_def, UInt32.le_iff_toNat_le] at low high
    obtain ⟨d, value⟩ : ∃ d, c.toNat = 97 + d := Nat.exists_eq_add_of_le low
    have small : d < 26 := by
      have : c.toNat ≤ 122 := high
      omega
    have last : letter d = c := by
      rw [letter, ← Char.ofNat_toNat c, value]
      rfl
    cases init with
    | nil =>
      refine ⟨d, ?_⟩
      rw [nameLetters_eq, Nat.div_eq_of_lt small, Nat.mod_eq_of_lt small, last, front]
    | cons first rest =>
      obtain ⟨k, equal⟩ := ih (by simp) fun c member => each c (List.mem_append_left _ member)
      refine ⟨26 * (k + 1) + d, ?_⟩
      have quotient : (26 * (k + 1) + d) / 26 = k + 1 := by omega
      have remainder : (26 * (k + 1) + d) % 26 = d := by omega
      rw [nameLetters_eq, quotient, remainder, last, front, equal]

private theorem letters_nameLetters (n : Nat) : ∀ c ∈ nameLetters n, 'a' ≤ c ∧ c ≤ 'z' := by
  induction n using Nat.strongRecOn with
  | ind n ih =>
    intro c member
    rw [nameLetters_eq, List.mem_append, List.mem_singleton] at member
    rcases member with inFront | rfl
    · cases quotient : n / 26 with
      | zero => simp [quotient, front] at inFront
      | succ k =>
        rw [quotient] at inFront
        exact ih k (by omega) c inFront
    · have small : n % 26 < 26 := Nat.mod_lt n (by decide)
      have all : ∀ d < 26, 'a' ≤ letter d ∧ letter d ≤ 'z' := by decide
      exact all _ small

theorem word_alphabeticName (n : Nat) : Word (alphabeticName n) := by
  refine ⟨fun empty => ?_, ?_⟩
  · have letters := congrArg String.toList empty
    rw [alphabeticName, String.toList_ofList, nameLetters_eq] at letters
    simp at letters
  · rw [alphabeticName, String.toList_ofList]
    exact letters_nameLetters n

theorem Word.exists_number {word : String} (isWord : Word word) :
    ∃ n, alphabeticName n = word := by
  have some : word.toList ≠ [] := by simpa using isWord.1
  obtain ⟨n, letters⟩ := exists_nameLetters some isWord.2
  exact ⟨n, by rw [alphabeticName, letters, String.ofList_toList]⟩

theorem before_alphabeticName_iff {m n : Nat} :
    Before (alphabeticName m) (alphabeticName n) ↔ m < n := by
  simp only [Before, alphabeticName, String.toList_ofList]
  refine ⟨fun before => ?_, shortlex_nameLetters⟩
  rcases Nat.lt_trichotomy m n with less | rfl | more
  · exact less
  · exact absurd before (Std.Irrefl.irrefl _)
  · exact absurd before (Std.Asymm.asymm _ _ (shortlex_nameLetters more))

end Numbering

namespace Names

variable {names : Names} {vars : List Nat}

/-- The variables that have names are `vars`, and of the numbers that have been tried each one
whose name is not reserved is in use. -/
structure Dense (names : Names) (vars : List Nat) : Prop where
  proper : names.Proper
  known : ∀ v ∈ vars, names.names[v]? = some (names.of v)
  named : ∀ {v : Nat} {name : String}, names.names[v]? = some name → v ∈ vars
  used : ∀ k < names.counter, alphabeticName k ∉ reserved →
    ∃ v ∈ vars, names.of v = alphabeticName k

theorem dense_empty : Dense {} [] := by
  refine ⟨proper_empty, by simp, fun known => ?_, by simp⟩
  simp at known

/-- A variable without a name gets the first one that is not reserved and not in use. -/
theorem Dense.before_iff (dense : names.Dense vars) {v : Nat} (new : v ∉ vars) {word : String}
    (isWord : Word word) (free : word ∉ reserved) :
    Before word (names.name v).1 ↔ word ∈ vars.map names.of := by
  have unknown : names.names[v]? = none := by
    cases known : names.names[v]? with
    | none => rfl
    | some name => exact absurd (dense.named known) new
  obtain ⟨k, later, equal, -, between⟩ := nextFree_spec names.counter
  have name : (names.name v).1 = alphabeticName k := by
    simp [Names.name, unknown, equal]
  obtain ⟨m, rfl⟩ := isWord.exists_number
  rw [name, before_alphabeticName_iff, List.mem_map]
  constructor
  · intro less
    have tried : m < names.counter := by
      by_contra untried
      exact free (between m (Nat.le_of_not_lt untried) less)
    exact dense.used m tried free
  · rintro ⟨w, member, same⟩
    obtain ⟨j, tried, other⟩ := dense.proper.tried (dense.known w member)
    have equal := alphabeticName_injective (same.symm.trans other)
    omega

theorem Dense.name (dense : names.Dense vars) (v : Nat) : (names.name v).2.Dense (vars ++ [v]) := by
  have covers := Covers.name names v
  have kept {w : Nat} (member : w ∈ vars) : (names.name v).2.of w = names.of w :=
    of_eq (covers.keeps (dense.known w member))
  have still {k : Nat} (tried : k < names.counter) (free : alphabeticName k ∉ reserved) :
      ∃ w ∈ vars ++ [v], (names.name v).2.of w = alphabeticName k := by
    obtain ⟨w, member, same⟩ := dense.used k tried free
    exact ⟨w, List.mem_append_left _ member, (kept member).trans same⟩
  refine ⟨dense.proper.name v, fun w member => ?_, fun {w name} known => ?_, fun k tried free => ?_⟩
  · rcases List.mem_append.mp member with old | new
    · have known := covers.keeps (dense.known w old)
      rwa [kept old]
    · exact covers.known w new
  · unfold Names.name at known
    split at known
    · exact List.mem_append_left _ (dense.named known)
    · rw [Std.HashMap.getElem?_insert] at known
      split at known
      · next same => simp [eq_of_beq same]
      · exact List.mem_append_left _ (dense.named known)
  -- A new name is the next free word; all words that were skipped to reach it are reserved.
  · cases unknown : names.names[v]? with
    | some name =>
      rw [Names.name, unknown] at tried
      exact still tried free
    | none =>
      obtain ⟨j, later, equal, -, between⟩ := nextFree_spec names.counter
      have name : (names.name v).1 = alphabeticName j := by simp [Names.name, unknown, equal]
      simp only [Names.name, unknown, equal] at tried
      rcases Nat.eq_or_lt_of_le (Nat.le_of_lt_succ tried) with rfl | less
      · exact ⟨v, by simp, (of_eq (known_name names v)).trans name⟩
      · by_cases old : k < names.counter
        · exact still old free
        · exact absurd (between k (Nat.le_of_not_lt old) less) free

theorem Dense.nameAll (dense : names.Dense vars) (more : List Nat) :
    (names.nameAll more).2.Dense (vars ++ more) := by
  induction more generalizing names vars with
  | nil => simpa [Names.nameAll] using dense
  | cons v rest ih =>
    rw [List.append_cons]
    exact ih (dense.name v)

theorem nameAll_append (names : Names) (first second : List Nat) :
    (names.nameAll (first ++ second)).2 = ((names.nameAll first).2.nameAll second).2 := by
  induction first generalizing names with
  | nil => rfl
  | cons v rest ih => exact ih _

end Names

/-- The numbers stand for the words, and the order of the numbers is that of the words. A search
from some number on ends at the first word that is not reserved. However variables are named one
after the other, each one has one name of its own, which is not reserved, and in front of the name
of a new one come just the names that are in use among the words that are not reserved. -/
theorem names_follow_words (vars : List Nat) :
    (∀ word, Word word ↔ ∃ n, alphabeticName n = word) ∧
    (∀ m n, Before (alphabeticName m) (alphabeticName n) ↔ m < n) ∧
    Function.Injective alphabeticName ∧
    (∀ n, ∃ k, n ≤ k ∧ nextFree reserved.length n = (alphabeticName k, k + 1) ∧
      alphabeticName k ∉ reserved ∧ ∀ i, n ≤ i → i < k → alphabeticName i ∈ reserved) ∧
    ∃ nameOf : Nat → String, (Names.nameAll {} vars).1 = vars.map nameOf ∧
      (∀ v ∈ vars, ∀ w ∈ vars, nameOf v = nameOf w → v = w) ∧
      (∀ v ∈ vars, Word (nameOf v) ∧ nameOf v ∉ reserved) ∧
      ∀ before v behind, vars = before ++ v :: behind → v ∉ before →
        ∀ word, Word word → word ∉ reserved →
          (Before word (nameOf v) ↔ word ∈ before.map nameOf) := by
  refine ⟨fun word => ⟨Word.exists_number, ?_⟩, fun m n => before_alphabeticName_iff,
    alphabeticName_injective, nextFree_spec, ?_⟩
  · rintro ⟨n, rfl⟩
    exact word_alphabeticName n
  obtain ⟨covers, spelled⟩ := Names.nameAll_spec vars {}
  let after := (Names.nameAll {} vars).2
  refine ⟨after.of, spelled after fun known => known, ?_, ?_, ?_⟩
  · exact fun v inV w inW => covers.injective Names.proper_empty inV inW
  · intro v member
    obtain ⟨k, -, name⟩ := (covers.proper Names.proper_empty).tried (covers.known v member)
    exact ⟨name ▸ word_alphabeticName k, covers.free Names.proper_empty member⟩
  · rintro before v behind rfl new word isWord free
    -- The state in which `v` gets its name, and what is named there keeps its name.
    let middle := (Names.nameAll {} before).2
    have dense : middle.Dense before := Names.dense_empty.nameAll before
    have later : (middle.name v).2.Extends after := by
      have same : after = ((middle.name v).2.nameAll behind).2 := Names.nameAll_append ..
      intro w name known
      rw [same]
      exact (Names.nameAll_spec behind (middle.name v).2).1.keeps known
    have name : after.of v = (middle.name v).1 := Names.of_eq (later (Names.known_name middle v))
    have kept : before.map after.of = before.map middle.of := by
      refine List.map_congr_left fun w member => Names.of_eq (later ?_)
      exact Names.extends_name middle v (dense.known w member)
    rw [name, kept]
    exact dense.before_iff new isWord free

/-- In front of the name of the last of 45 variables stands `ar`, behind which `as` is left out. -/
theorem names_follow_words_past_keyword :
    List.range 45 = List.range 44 ++ [44] ∧ 44 ∉ List.range 44 ∧ Word "ar" ∧ "ar" ∉ reserved ∧
      ∃ nameOf : Nat → String, (Names.nameAll {} (List.range 45)).1 = (List.range 45).map nameOf ∧
        (Before "ar" (nameOf 44) ↔ "ar" ∈ (List.range 44).map nameOf) := by
  have split : List.range 45 = List.range 44 ++ [44] := by decide
  have new : 44 ∉ List.range 44 := by decide
  have isWord : Word "ar" := ⟨by decide, by simp⟩
  have free : "ar" ∉ reserved := by decide
  obtain ⟨nameOf, names, -, -, order⟩ := (names_follow_words (List.range 45)).2.2.2.2
  exact ⟨split, new, isWord, free, nameOf, names,
    order (List.range 44) 44 [] split new "ar" isWord free⟩

end StagedLexer.Code
