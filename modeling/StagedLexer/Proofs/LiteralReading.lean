import StagedLexer.ByteSet
import StagedLexer.Text.Literal

/-! What literals of emitted source stand for. Whatever stands behind a literal, it is read up to its
end, and what is read is what it was made from. -/
namespace StagedLexer

namespace Text

theorem digit?_digitChar : ∀ d < 16, digit? d.digitChar = some d := by decide

namespace Spelling

variable {α : Type} {spelling : Spelling α}

/-- The text is that of a value, with `rest` behind it. -/
def Opens (spelling : Spelling α) (text : List Char) (a : α) (rest : List Char) : Prop :=
  ∃ c behind, text = c :: behind ∧ c ≠ '"' ∧ skipsLine c behind = false ∧
    spelling.valueAt? c behind = some (a, rest)

theorem opens_escape {letter : Char} {a : α} {rest behind : List Char} (other : letter ≠ '\n')
    (escape : spelling.escape? (letter :: behind) = some (a, rest)) :
    spelling.Opens ('\\' :: letter :: behind) a rest := by
  refine ⟨_, _, rfl, by decide, by simp [skipsLine, other], ?_⟩
  simpa [valueAt?] using escape

theorem opens_plain {c : Char} {a : α} (notQuote : c ≠ '"') (notBackslash : c ≠ '\\')
    (plain : spelling.plain? c = some a) (rest : List Char) :
    spelling.Opens (c :: rest) a rest := by
  refine ⟨_, _, rfl, notQuote, by simp [skipsLine, notBackslash], ?_⟩
  simp [valueAt?, notBackslash, plain]

/-- What is written for the values is read as the values. -/
theorem valuesAt?_flatMap {write : α → List Char}
    (opens : ∀ a rest, spelling.Opens (write a ++ rest) a rest) (values : List α)
    (rest : List Char) :
    spelling.valuesAt? (values.flatMap write ++ '"' :: rest) = some (values, rest) := by
  induction values with
  | nil => simp [Spelling.valuesAt?]
  | cons a values ih =>
    obtain ⟨c, behind, equal, other, stays, found⟩ := opens a (values.flatMap write ++ '"' :: rest)
    rw [List.flatMap_cons, List.append_assoc, equal, Spelling.valuesAt?, if_neg other, stays]
    simp only [Bool.false_eq_true, if_false]
    split
    · next missing =>
      rw [missing] at found
      cases found
    · next b behind' read =>
      obtain ⟨rfl, rfl⟩ := Prod.mk.inj (Option.some.inj (read.symm.trans found))
      rw [ih, Option.map_some]

end Spelling

section Units

private theorem toNat_ofNat_unit (b : UInt8) : (Char.ofNat b.toNat).toNat = b.toNat := by
  have small : b.toNat < 256 := b.toNat_lt
  have valid : b.toNat.isValidChar := Or.inl (by omega)
  rw [Char.ofNat, dif_pos valid]
  exact UInt32.toNat_ofNatLT ..

private theorem opens_letterOfUnit {refused : List Char} {b : UInt8} (letter : Char) {c : Char}
    (known : escaped? letter = some c) (value : UInt8.ofNat c.toNat = b) (rest : List Char) :
    (units refused).Opens ('\\' :: letter :: rest) b rest := by
  refine Spelling.opens_escape (by rintro rfl; cases known) (?_ : unitEscape? _ = _)
  unfold unitEscape?
  split
  · next equal =>
    cases (List.cons.inj equal).1
    cases known
  · next equal =>
    obtain ⟨rfl, rfl⟩ := List.cons.inj equal
    rw [known, Option.map_some, value]
  · next equal => cases equal

/-- Every control character is escaped, and so are quotes. -/
theorem opens_escapeUnit (refused : List Char)
    (special : ∀ c ∈ refused, c.toNat < 0x20 ∨ c = '\'') (b : UInt8) (rest : List Char) :
    (units refused).Opens ((escapeUnit b).toList ++ rest) b rest := by
  unfold escapeUnit
  split
  · next equal => exact opens_letterOfUnit 't' rfl equal.symm rest
  split
  · next equal => exact opens_letterOfUnit 'r' rfl equal.symm rest
  split
  · next equal => exact opens_letterOfUnit 'n' rfl equal.symm rest
  split
  · next equal => exact opens_letterOfUnit '\'' rfl equal.symm rest
  split
  · next equal => exact opens_letterOfUnit '"' rfl equal.symm rest
  split
  · next equal => exact opens_letterOfUnit '\\' rfl equal.symm rest
  split
  · next notQuote notDouble notBackslash printable =>
    -- A printable unit stands for itself: the characters with a meaning of their own were escaped
    -- above.
    have number := toNat_ofNat_unit b
    have bounds : 0x20 ≤ b.toNat ∧ b.toNat ≤ 0x7e := by
      simpa [UInt8.le_iff_toNat_le] using printable
    have apart {n : UInt8} {c : Char} (differs : b ≠ n) (same : n.toNat = c.toNat) :
        Char.ofNat b.toNat ≠ c := by
      rintro rfl
      exact differs (UInt8.toNat_inj.mp (number.symm.trans same.symm))
    have plain : Char.ofNat b.toNat ∉ refused := by
      intro member
      rcases special _ member with control | quote
      · omega
      · exact apart notQuote rfl quote
    have ascii : b.toNat < 0x80 := by omega
    rw [String.toList_singleton, List.singleton_append]
    refine Spelling.opens_plain (apart notDouble rfl) (apart notBackslash rfl) ?_ rest
    simp [units, ascii, plain, number]
  · have small : b.toNat < 256 := b.toNat_lt
    have high : digit? (b.toNat / 16 % 16).digitChar = some (b.toNat / 16 % 16) :=
      digit?_digitChar _ (Nat.mod_lt _ (by decide))
    have low : digit? (b.toNat % 16).digitChar = some (b.toNat % 16) :=
      digit?_digitChar _ (Nat.mod_lt _ (by decide))
    have whole : 16 * (b.toNat / 16 % 16) + b.toNat % 16 = b.toNat := by omega
    have text : ("\\x" ++ hex2 b.toNat).toList ++ rest =
        '\\' :: 'x' :: (b.toNat / 16 % 16).digitChar :: (b.toNat % 16).digitChar :: rest := by
      simp [hex2]
    rw [text]
    refine Spelling.opens_escape (by decide) ?_
    simp only [units, unitEscape?, high, low, whole, Option.bind_eq_bind, Option.bind_some,
      UInt8.ofNat_toNat, Option.pure_def]

end Units

section Characters

private theorem codePointAt?_digitChar {d : Nat} (small : d < 16) (size n : Nat)
    (rest : List Char) :
    codePointAt? size n (d.digitChar :: rest) = codePointAt? (size + 1) (16 * n + d) rest := by
  have other : ∀ d < 16, d.digitChar ≠ '\x7d' ∧ d.digitChar ≠ '_' := by decide
  simp [codePointAt?, other d small, digit?_digitChar d small]

private theorem codePointAt?_toDigits (n size : Nat) (rest : List Char) :
    codePointAt? size 0 (Nat.toDigits 16 n ++ rest) =
      codePointAt? (size + (Nat.toDigits 16 n).length) n rest := by
  induction n using Nat.strongRecOn generalizing rest with
  | ind n ih =>
    by_cases small : n < 16
    · rw [Nat.toDigits_of_lt_base small, List.singleton_append, codePointAt?_digitChar small]
      simp
    · -- The last digit is read behind those of the quotient.
      have lower : n / 16 < n := by omega
      have whole : 16 * (n / 16) + n % 16 = n := Nat.div_add_mod n 16
      rw [Nat.toDigits_of_base_le (by decide) (Nat.le_of_not_lt small), List.append_assoc,
        ih _ lower, List.singleton_append, codePointAt?_digitChar (Nat.mod_lt _ (by decide)), whole,
        List.length_append, List.length_singleton, Nat.add_assoc]

private theorem codePointAt?_char (c : Char) (rest : List Char) :
    codePointAt? 0 0 (Nat.toDigits 16 c.toNat ++ '\x7d' :: rest) = some (c, rest) := by
  have valid : c.toNat.isValidChar := c.valid
  have few : (Nat.toDigits 16 c.toNat).length ≤ 6 := by
    rw [Nat.length_toDigits_le_iff (by decide) (by decide)]
    have bound : c.toNat < 1114112 := by
      rcases valid with low | high <;> omega
    omega
  rw [codePointAt?_toDigits, codePointAt?, if_pos rfl, Nat.zero_add,
    if_pos ⟨Nat.length_toDigits_pos, few, valid⟩, Char.ofNat_toNat]

private theorem charEscape?_letter {letter c : Char} (known : escaped? letter = some c)
    (rest : List Char) : charEscape? (letter :: rest) = some (c, rest) := by
  unfold charEscape?
  split
  · next equal =>
    cases (List.cons.inj equal).1
    cases known
  · next equal =>
    cases (List.cons.inj equal).1
    cases known
  · next equal =>
    obtain ⟨rfl, rfl⟩ := List.cons.inj equal
    rw [known, Option.map_some]
  · next equal => cases equal

private theorem opens_letter (letter : Char) {c : Char} (known : escaped? letter = some c)
    (rest : List Char) : chars.Opens ('\\' :: letter :: rest) c rest :=
  Spelling.opens_escape (by rintro rfl; cases known) (charEscape?_letter known rest)

theorem opens_quoteChar (c : Char) (rest : List Char) :
    chars.Opens ((quoteChar c).toList ++ rest) c rest := by
  unfold quoteChar
  split
  · next equal => exact equal ▸ opens_letter '0' rfl rest
  split
  · next equal => exact equal ▸ opens_letter 't' rfl rest
  split
  · next equal => exact equal ▸ opens_letter 'r' rfl rest
  split
  · next equal => exact equal ▸ opens_letter 'n' rfl rest
  split
  · next equal => exact equal ▸ opens_letter '"' rfl rest
  split
  · next equal => exact equal ▸ opens_letter '\\' rfl rest
  split
  · have text : (escapeCode c).toList ++ rest =
        '\\' :: 'u' :: '\x7b' :: (Nat.toDigits 16 c.toNat ++ '\x7d' :: rest) := by
      simp [escapeCode, hex]
    rw [text]
    exact Spelling.opens_escape (by decide) (codePointAt?_char c rest)
  · next notReturn _ notDouble notBackslash _ =>
    rw [String.toList_singleton, List.singleton_append]
    exact Spelling.opens_plain notDouble notBackslash (if_neg notReturn) rest

theorem stringAt?_quote (s : String) (rest : List Char) :
    stringAt? ((quote s).toList ++ rest) = some (s, rest) := by
  have inside := Spelling.valuesAt?_flatMap opens_quoteChar s.toList rest
  have text : (quote s).toList ++ rest =
      '"' :: (s.toList.flatMap (fun c => (quoteChar c).toList) ++ '"' :: rest) := by
    simp [quote, String.toList_join, List.flatMap_map]
  rw [text, stringAt?, inside]
  simp

end Characters

end Text

namespace ByteSet

open Text

/-- The values of an alternative of a pattern: one code unit, or an inclusive range that is not
empty. -/
def rangeAt? (text : List Char) : Option ((UInt8 × UInt8) × List Char) := do
  let (lo, rest) ← byteAt? text
  match rest with
  | '.' :: '.' :: '=' :: rest =>
    let (hi, rest) ← byteAt? rest
    if lo ≤ hi then return ((lo, hi), rest) else none
  | _ => return ((lo, lo), rest)

private theorem length_of_byteAt? {text rest : List Char} {b : UInt8}
    (found : byteAt? text = some (b, rest)) : rest.length < text.length := by
  unfold byteAt? at found
  split at found
  · next c behind =>
    obtain ⟨⟨b', closing⟩, value, found⟩ := Option.bind_eq_some_iff.mp found
    have shorter := Spelling.length_of_valueAt? value
    dsimp only at found
    split at found
    · obtain ⟨-, rfl⟩ := Prod.mk.inj (Option.some.inj found)
      simp only [List.length_cons, List.length_tail]
      omega
    · cases found
  · cases found

private theorem length_of_rangeAt? {text rest : List Char} {range : UInt8 × UInt8}
    (found : rangeAt? text = some (range, rest)) : rest.length < text.length := by
  obtain ⟨⟨lo, behind⟩, first, found⟩ := Option.bind_eq_some_iff.mp found
  have shorter := length_of_byteAt? first
  dsimp only at found
  split at found
  · next behind =>
    obtain ⟨⟨hi, last⟩, second, found⟩ := Option.bind_eq_some_iff.mp found
    have shorter' := length_of_byteAt? second
    dsimp only at found
    split at found
    · obtain ⟨-, rfl⟩ := Prod.mk.inj (Option.some.inj found)
      simp only [List.length_cons] at shorter
      omega
    · cases found
  · obtain ⟨-, rfl⟩ := Prod.mk.inj (Option.some.inj found)
    exact shorter

/-- The alternatives of a pattern, if the whole text is one. -/
def pattern? (text : List Char) : Option (List (UInt8 × UInt8)) :=
  match found : rangeAt? text with
  | some (range, []) => some [range]
  | some (range, ' ' :: '|' :: ' ' :: rest) =>
    have := length_of_rangeAt? found
    (pattern? rest).map (range :: ·)
  | _ => none
termination_by text.length
decreasing_by
  simp only [List.length_cons] at this
  omega

/-- Whether one of the alternatives matches the code unit. -/
def matchedBy (alternatives : List (UInt8 × UInt8)) (b : UInt8) : Bool :=
  alternatives.any fun (lo, hi) => lo ≤ b && b ≤ hi

theorem byteAt?_byteLiteral (b : UInt8) (rest : List Char) :
    byteAt? ((byteLiteral b).toList ++ rest) = some (b, rest) := by
  obtain ⟨c, behind, text, -, -, found⟩ :=
    opens_escapeUnit ['\'', '\n', '\r', '\t'] (by simp) b ('\'' :: rest)
  have whole : (byteLiteral b).toList ++ rest = 'b' :: '\'' :: c :: behind := by
    simp [byteLiteral, ← text]
  rw [whole, byteAt?]
  simp [found]

theorem rangeAt?_rangeText {range : UInt8 × UInt8} (ordered : range.1 ≤ range.2)
    (rest : List Char) (ends : rest.head? ≠ some '.') :
    rangeAt? ((rangeText byteLiteral "..=" range).toList ++ rest) = some (range, rest) := by
  obtain ⟨lo, hi⟩ := range
  unfold rangeText rangeAt?
  split
  · next single =>
    cases (single : lo = hi)
    rw [byteAt?_byteLiteral]
    dsimp only [Option.bind_eq_bind, Option.bind_some]
    split
    · exact absurd rfl ends
    · rfl
  · simp only [String.toList_append, List.append_assoc, byteAt?_byteLiteral]
    have separator : "..=".toList = ['.', '.', '='] := rfl
    have ordered : lo ≤ hi := ordered
    simp [separator, byteAt?_byteLiteral, ordered]

private theorem pattern?_cons {text rest : List Char} {range : UInt8 × UInt8}
    {more : List (UInt8 × UInt8)} (first : rangeAt? text = some (range, " | ".toList ++ rest))
    (others : pattern? rest = some more) : pattern? text = some (range :: more) := by
  rw [pattern?]
  split
  · next found =>
    rw [first] at found
    cases found
  · next found =>
    rw [first] at found
    cases found
    exact congrArg (Option.map (range :: ·)) others
  · next refused =>
    exact absurd first (refused _ _)

private theorem pattern?_singleton {text : List Char} {range : UInt8 × UInt8}
    (found : rangeAt? text = some (range, [])) : pattern? text = some [range] := by
  rw [pattern?]
  split <;> simp_all

/-- What is written for ranges is read as the ranges. -/
theorem pattern?_intercalate {range : UInt8 × UInt8} {more : List (UInt8 × UInt8)}
    (ordered : ∀ r ∈ range :: more, r.1 ≤ r.2) :
    pattern? (String.intercalate " | "
      ((range :: more).map (rangeText byteLiteral "..="))).toList = some (range :: more) := by
  induction more generalizing range with
  | nil =>
    apply pattern?_singleton
    have found := rangeAt?_rangeText (ordered range (List.mem_cons_self ..)) [] (by simp)
    simpa [String.toList_intercalate] using found
  | cons next more ih =>
    refine pattern?_cons ?_ (ih fun r member => ordered r (List.mem_cons_of_mem _ member))
    rw [List.map_cons, String.toList_intercalate, List.map_cons, List.map_cons, List.map_cons,
      List.intercalate_cons_cons, List.append_assoc, String.toList_intercalate]
    exact rangeAt?_rangeText (ordered range (List.mem_cons_self ..)) _ (by simp)

end ByteSet

end StagedLexer
