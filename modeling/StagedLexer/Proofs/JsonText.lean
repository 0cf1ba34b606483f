import Mathlib.Data.List.TakeWhile
import StagedLexer.Json.Parser

/-! The text of a JSON value is read as the value. Numbers are read up to what cannot go on with
them, strings up to their closing quote, so what stands behind a value is left as it is. -/
namespace StagedLexer.Json

section Numbers

/-- What stands behind a number does not go on with it. -/
def Stops (rest : List Char) : Prop :=
  ∀ c ∈ rest.head?, c.isDigit = false ∧ c ≠ '.' ∧ c ≠ 'e' ∧ c ≠ 'E'

variable {rest : List Char}

theorem spanDigits_append (stops : Stops rest) (cs : List Char) :
    spanDigits (cs ++ rest) = ((spanDigits cs).1, (spanDigits cs).2 ++ rest) := by
  induction cs with
  | nil =>
    cases rest with
    | nil => rfl
    | cons c rest => simp [spanDigits, (stops c rfl).1]
  | cons c cs ih =>
    obtain ⟨taken, dropped⟩ := Prod.mk.inj ih
    cases digit : c.isDigit with
    | true => simp [spanDigits, digit, taken, dropped]
    | false => simp [spanDigits, digit]

theorem fraction?_of_ne {cs : List Char} (other : ∀ c ∈ cs.head?, c ≠ '.') :
    fraction? cs = some ([], cs) := by
  unfold fraction?
  split
  · exact absurd rfl (other '.' rfl)
  · rfl

theorem fraction?_append (stops : Stops rest) {cs fraction last : List Char}
    (found : fraction? cs = some (fraction, last)) :
    fraction? (cs ++ rest) = some (fraction, last ++ rest) := by
  cases cs with
  | nil =>
    cases found
    exact fraction?_of_ne fun c first => (stops c first).2.1
  | cons c more =>
    by_cases dot : c = '.'
    · subst dot
      have step (tail : List Char) : fraction? ('.' :: tail) =
          if (spanDigits tail).1.isEmpty then none
          else some ('.' :: (spanDigits tail).1, (spanDigits tail).2) := rfl
      rw [step] at found
      rw [List.cons_append, step, spanDigits_append stops]
      split at found
      · cases found
      · next digits =>
        cases found
        exact if_neg digits
    · have other : ∀ d ∈ (c :: more).head?, d ≠ '.' := by simpa using dot
      rw [fraction?_of_ne other] at found
      cases found
      exact fraction?_of_ne other

theorem exponentSign_append {cs : List Char} (nonempty : cs ≠ []) (rest : List Char) :
    exponentSign (cs ++ rest) = ((exponentSign cs).1, (exponentSign cs).2 ++ rest) := by
  cases cs with
  | nil => exact absurd rfl nonempty
  | cons c more =>
    by_cases plus : c = '+'
    · subst plus
      rfl
    by_cases minus : c = '-'
    · subst minus
      rfl
    have unsigned (last : List Char) : exponentSign (c :: last) = ([], c :: last) := by
      unfold exponentSign
      split
      · next same => exact absurd (List.cons.inj same).1 plus
      · next same => exact absurd (List.cons.inj same).1 minus
      · rfl
    rw [List.cons_append, unsigned, unsigned]
    rfl

theorem exponent?_of_ne {cs : List Char} (other : ∀ c ∈ cs.head?, c ≠ 'e' ∧ c ≠ 'E') :
    exponent? cs = some ([], cs) := by
  cases cs with
  | nil => rfl
  | cons c more =>
    obtain ⟨small, large⟩ := other c rfl
    simp [exponent?, small, large]

theorem exponent?_append (stops : Stops rest) {cs exponent last : List Char}
    (found : exponent? cs = some (exponent, last)) :
    exponent? (cs ++ rest) = some (exponent, last ++ rest) := by
  cases cs with
  | nil =>
    cases found
    exact exponent?_of_ne fun c first => (stops c first).2.2
  | cons c more =>
    by_cases marked : c = 'e' ∨ c = 'E'
    · have nonempty : more ≠ [] := by
        rintro rfl
        simp [exponent?, marked, exponentSign, spanDigits] at found
      have step (tail : List Char) : exponent? (c :: tail) =
          if (spanDigits (exponentSign tail).2).1.isEmpty then none
          else some (c :: (exponentSign tail).1 ++ (spanDigits (exponentSign tail).2).1,
            (spanDigits (exponentSign tail).2).2) := by
        simp [exponent?, marked]
      rw [step] at found
      rw [List.cons_append, step, exponentSign_append nonempty, spanDigits_append stops]
      split at found
      · cases found
      · next digits =>
        cases found
        exact if_neg digits
    · have other : ∀ d ∈ (c :: more).head?, d ≠ 'e' ∧ d ≠ 'E' := by simpa using marked
      rw [exponent?_of_ne other] at found
      cases found
      exact exponent?_of_ne other

theorem unsigned?_eq (negative : Bool) (cs : List Char) :
    unsigned? negative cs =
      if isWhole (spanDigits cs).1 then
        (fraction? (spanDigits cs).2).bind fun fraction =>
          (exponent? fraction.2).bind fun exponent =>
            some (ofParts negative (spanDigits cs).1 fraction.1 exponent.1, exponent.2)
      else none := rfl

theorem unsigned?_append (stops : Stops rest) {negative : Bool} {cs last : List Char} {json : Json}
    (found : unsigned? negative cs = some (json, last)) :
    unsigned? negative (cs ++ rest) = some (json, last ++ rest) := by
  rw [unsigned?_eq] at found ⊢
  rw [spanDigits_append stops]
  split at found
  · next whole =>
    obtain ⟨⟨fraction, further⟩, first, found⟩ := Option.bind_eq_some_iff.mp found
    obtain ⟨⟨exponent, final⟩, second, made⟩ := Option.bind_eq_some_iff.mp found
    cases made
    rw [if_pos whole, fraction?_append stops first, Option.bind_some,
      exponent?_append stops second, Option.bind_some]
  · cases found

theorem number?_of_ne {cs : List Char} (other : ∀ c ∈ cs.head?, c ≠ '-') :
    number? cs = unsigned? false cs := by
  unfold number?
  split
  · exact absurd rfl (other '-' rfl)
  · rfl

/-- A number that ends with a text is read alike in front of what does not go on with it. -/
theorem number?_append (stops : Stops rest) {cs last : List Char} {json : Json}
    (found : number? cs = some (json, last)) :
    number? (cs ++ rest) = some (json, last ++ rest) := by
  cases cs with
  | nil => cases found
  | cons c more =>
    by_cases minus : c = '-'
    · subst minus
      exact unsigned?_append stops found
    · have other (tail : List Char) : ∀ d ∈ (c :: tail).head?, d ≠ '-' := by simpa using minus
      rw [number?_of_ne (other more)] at found
      rw [List.cons_append, number?_of_ne (other _)]
      exact unsigned?_append stops found

theorem digitsValue_toDigits (n : Nat) : digitsValue (Nat.toDigits 10 n) = n := by
  have value := Nat.ofDigitChars_ten_toDigits (n := n)
  simpa [digitsValue, Nat.ofDigitChars_eq_foldl, Nat.mul_comm] using value

private theorem head?_toDigits (n : Nat) : n ≠ 0 → (Nat.toDigits 10 n).head? ≠ some '0' := by
  have digit : ∀ d < 10, d ≠ 0 → [d.digitChar].head? ≠ some '0' := by decide
  induction n using Nat.strongRecOn with
  | _ n ih =>
    intro positive
    by_cases small : n < 10
    · rw [Nat.toDigits_of_lt_base small]
      exact digit n small positive
    · have front := ih (n / 10) (Nat.div_lt_self (by omega) (by decide)) (by omega)
      rw [Nat.toDigits_of_base_le (by decide) (Nat.le_of_not_lt small)]
      cases digits : Nat.toDigits 10 (n / 10) with
      | nil => exact absurd digits Nat.toDigits_ne_nil
      | cons c rest => simpa [digits] using front

theorem isWhole_toDigits (n : Nat) : isWhole (Nat.toDigits 10 n) = true := by
  by_cases zero : n = 0
  · subst zero
    rfl
  · have first := head?_toDigits n zero
    simp [isWhole, Nat.toDigits_ne_nil, first]

theorem unsigned?_toDigits (negative : Bool) (n : Nat) (proper : negative = true → n ≠ 0) :
    unsigned? negative (Nat.toDigits 10 n) =
      some (.integer (if negative then -n else n), []) := by
  have digit : ∀ c ∈ Nat.toDigits 10 n, c.isDigit = true := fun c member =>
    Nat.isDigit_of_mem_toDigits (by decide) (by decide) member
  have span : spanDigits (Nat.toDigits 10 n) = (Nat.toDigits 10 n, []) := by
    rw [spanDigits, List.takeWhile_eq_self_iff.mpr digit, List.dropWhile_eq_nil_iff.mpr digit]
  have parts : ofParts negative (Nat.toDigits 10 n) [] [] =
      .integer (if negative then -n else n) := by
    rw [ofParts, digitsValue_toDigits]
    cases negative with
    | false => rfl
    | true => simp [proper rfl]
  rw [unsigned?_eq, span, if_pos (isWhole_toDigits n), ← parts]
  rfl

/-- The text of an integer is a number. -/
theorem number?_integer (value : Int) :
    number? (toString value).toList = some (.integer value, []) := by
  rw [Int.toString_eq_repr]
  cases value with
  | ofNat n =>
    have other : ∀ c ∈ (Nat.toDigits 10 n).head?, c ≠ '-' := by
      rintro c first rfl
      have digit := Nat.isDigit_of_mem_toDigits (by decide) (by decide)
        (List.mem_of_mem_head? first)
      exact absurd digit (by decide)
    rw [Int.repr, Nat.toList_repr, number?_of_ne other, unsigned?_toDigits false n (by simp)]
    rfl
  | negSucc n =>
    rw [Int.repr, String.toList_append, Nat.toList_repr]
    exact unsigned?_toDigits true (n + 1) (by simp)

end Numbers

section Strings

variable (done : List Char) (fuel : Nat) (rest : List Char)

private theorem unit?_control {n : Nat} (small : n < 0x20) :
    unit? ('0' :: '0' :: (n / 16 % 16).digitChar :: (n % 16).digitChar :: rest) =
      some (n, rest) := by
  have digit : ∀ d < 16, hexDigit? d.digitChar = some d := by decide
  have zero : hexDigit? '0' = some 0 := rfl
  simp only [unit?, zero, digit _ (Nat.mod_lt _ (by decide : 16 > 0)), Option.bind_eq_bind,
    Option.bind_some, Option.pure_def, Option.some.injEq, Prod.mk.injEq, and_true]
  omega

theorem stringRest_quoteChar (c : Char) (intact : Bool) :
    stringRest done intact (fuel + 1) ((quoteChar c).toList ++ rest) =
      stringRest (c :: done) intact fuel rest := by
  unfold quoteChar
  split
  · next same => exact same ▸ rfl
  split
  · next same => exact same ▸ rfl
  split
  · next same => exact same ▸ rfl
  split
  · next same => exact same ▸ rfl
  split
  · next same => exact same ▸ rfl
  split
  · next same => exact same ▸ rfl
  split
  · next same => exact same ▸ rfl
  split
  · next control =>
    have value : combine c.toNat rest = (some c, rest) := by
      have low : ¬ 0xd800 ≤ c.toNat ∧ ¬ 0xdc00 ≤ c.toNat := by omega
      simp [combine, low.1, low.2]
    have text : ("\\u00" ++ Text.hex2 c.toNat).toList ++ rest =
        '\\' :: 'u' :: '0' :: '0' :: (c.toNat / 16 % 16).digitChar :: (c.toNat % 16).digitChar ::
          rest := by
      simp [Text.hex2]
    rw [text, stringRest, unit?_control rest control]
    simp only [value]
  · next notQuote notBackslash _ _ _ _ _ visible =>
    rw [String.toList_singleton, List.singleton_append, stringRest]
    · simp [visible, notBackslash]
    · exact notQuote
    · exact fun _ same _ => notBackslash same
    · exact fun _ _ same _ => notBackslash same

theorem stringRest_quote (s : List Char) (enough : s.length < fuel) :
    stringRest done true fuel (s.flatMap (fun c => (quoteChar c).toList) ++ '"' :: rest) =
      some (some (String.ofList (done.reverse ++ s)), rest) := by
  induction s generalizing done fuel with
  | nil =>
    obtain ⟨left, rfl⟩ : ∃ left, fuel = left + 1 := ⟨fuel - 1, by omega⟩
    simp [stringRest]
  | cons c s ih =>
    obtain ⟨left, rfl⟩ : ∃ left, fuel = left + 1 := ⟨fuel - 1, by omega⟩
    rw [List.flatMap_cons, List.append_assoc, stringRest_quoteChar, ih]
    · simp
    · simpa using enough

private theorem length_le_quoteChars (s : List Char) :
    s.length ≤ (s.flatMap fun c => (quoteChar c).toList).length := by
  induction s with
  | nil => exact Nat.le_refl _
  | cons c s ih =>
    have visible : 0 < (quoteChar c).toList.length := by
      unfold quoteChar
      split_ifs <;> simp
    simp only [List.length_cons, List.flatMap_cons, List.length_append]
    omega

/-- A name between quotes is read up to the closing quote. -/
theorem stringRest_renderName (name : Option String) :
    ∃ body, (renderName name).toList = '"' :: body ∧ ∀ rest,
      stringRest [] true ((body ++ rest).length + 1) (body ++ rest) = some (name, rest) := by
  cases name with
  | none => exact ⟨"\\ud800\"".toList, rfl, fun rest => rfl⟩
  | some text =>
    refine ⟨text.toList.flatMap (fun c => (quoteChar c).toList) ++ ['"'], ?_, fun rest => ?_⟩
    · simp [renderName, quote, String.toList_join, List.flatMap_map]
    · have enough := length_le_quoteChars text.toList
      rw [List.append_assoc, List.singleton_append, stringRest_quote]
      · simp
      · simp only [List.length_append]
        omega

end Strings

mutual
/-- Real numbers are written as numbers are. -/
def Proper : Json → Prop
  | real literal => number? literal.toList = some (real literal, [])
  | array items => ProperAll items
  | object fields => ProperFields fields
  | _ => True
def ProperAll : List Json → Prop
  | [] => True
  | item :: rest => Proper item ∧ ProperAll rest
def ProperFields : List (Option String × Json) → Prop
  | [] => True
  | (_, value) :: rest => Proper value ∧ ProperFields rest
end

section Values

variable {fuel : Nat} {rest : List Char}

/-- Whether a value can start with the character: it is no blank, and not the end of an array. -/
def opens (c : Char) : Bool := !isBlank c && c ≠ ']'

theorem skipBlanks_cons {c : Char} (visible : isBlank c = false) (more : List Char) :
    skipBlanks (c :: more) = c :: more := by
  rw [skipBlanks, List.dropWhile_cons_of_neg (by simp [visible])]

theorem first_of_number? {cs : List Char} {found : Json × List Char}
    (number : number? cs = some found) :
    ∃ c more, cs = c :: more ∧ (c = '-' ∨ c.isDigit = true) := by
  cases cs with
  | nil => cases number
  | cons c more =>
    refine ⟨c, more, rfl, ?_⟩
    by_contra other
    rw [not_or] at other
    have plain : ∀ d ∈ (c :: more).head?, d ≠ '-' := by simpa using other.1
    simp [number?_of_ne plain, unsigned?_eq, spanDigits, isWhole, other.2] at number

theorem value?_number {cs : List Char} {found : Json × List Char}
    (number : number? cs = some found) : value? (fuel + 1) cs = some found := by
  obtain ⟨c, more, rfl, first⟩ := first_of_number? number
  have apart : c ∉ [' ', '\n', '\r', '\t', 'n', 't', 'f', '"', '[', '\x7b'] := by
    rintro member
    simp only [List.mem_cons, List.not_mem_nil, or_false] at member
    rcases member with rfl | rfl | rfl | rfl | rfl | rfl | rfl | rfl | rfl | rfl <;>
      exact absurd first (by decide)
  simp only [List.mem_cons, List.not_mem_nil, or_false, not_or] at apart
  have visible : isBlank c = false := by simp [isBlank, apart]
  obtain ⟨-, -, -, -, null, true, false, quote, bracket, brace⟩ := apart
  rw [value?, skipBlanks_cons visible]
  split
  · next same => exact absurd (List.cons.inj same).1 null
  · next same => exact absurd (List.cons.inj same).1 true
  · next same => exact absurd (List.cons.inj same).1 false
  · next same => exact absurd (List.cons.inj same).1 quote
  · next same => exact absurd (List.cons.inj same).1 bracket
  · next same => exact absurd (List.cons.inj same).1 brace
  · exact number

def itemsText (items : List Json) : List Char := (String.intercalate "," (renderAll items)).toList

def fieldsText (fields : List (Option String × Json)) : List Char :=
  (String.intercalate "," (renderFields fields)).toList

theorem toList_render_array (items : List Json) :
    (array items).render.toList = '[' :: (itemsText items ++ [']']) := by
  simp [render, itemsText]

theorem toList_render_object (fields : List (Option String × Json)) :
    (object fields).render.toList = '\x7b' :: (fieldsText fields ++ ['\x7d']) := by
  simp [render, fieldsText]

theorem itemsText_cons (item next : Json) (others : List Json) :
    itemsText (item :: next :: others) =
      item.render.toList ++ ',' :: itemsText (next :: others) := by
  simp [itemsText, renderAll]

theorem fieldsText_singleton (name : Option String) (value : Json) :
    fieldsText [(name, value)] = (renderName name).toList ++ ':' :: value.render.toList := by
  simp [fieldsText, renderFields]

theorem fieldsText_cons (name : Option String) (value : Json) (next : Option String × Json)
    (others : List (Option String × Json)) :
    fieldsText ((name, value) :: next :: others) =
      (renderName name).toList ++
        ':' :: (value.render.toList ++ ',' :: fieldsText (next :: others)) := by
  obtain ⟨nextName, nextValue⟩ := next
  simp [fieldsText, renderFields]

theorem first_of_render {json : Json} (proper : json.Proper) :
    ∃ c more, json.render.toList = c :: more ∧ opens c = true := by
  have number {cs : List Char} {found : Json × List Char} (number : number? cs = some found) :
      ∃ c more, cs = c :: more ∧ opens c = true := by
    obtain ⟨c, more, whole, first⟩ := first_of_number? number
    refine ⟨c, more, whole, Bool.not_eq_false _ |>.mp fun closed => ?_⟩
    simp only [opens, isBlank, Bool.and_eq_false_iff, Bool.not_eq_false', Bool.or_eq_true,
      decide_eq_true_eq, decide_eq_false_iff_not, not_not] at closed
    rcases closed with (((rfl | rfl) | rfl) | rfl) | rfl <;> exact absurd first (by decide)
  cases json with
  | null => exact ⟨'n', "ull".toList, by simp [render], by decide⟩
  | bool value =>
    cases value with
    | false => exact ⟨'f', "alse".toList, by simp [render], by decide⟩
    | true => exact ⟨'t', "rue".toList, by simp [render], by decide⟩
  | integer value => exact number (number?_integer value)
  | real literal => exact number proper
  | string text =>
    obtain ⟨body, whole, -⟩ := stringRest_renderName (some text)
    exact ⟨_, _, whole, by decide⟩
  | brokenString =>
    obtain ⟨body, whole, -⟩ := stringRest_renderName none
    exact ⟨_, _, whole, by decide⟩
  | array items => exact ⟨_, _, toList_render_array items, by decide⟩
  | object fields => exact ⟨_, _, toList_render_object fields, by decide⟩

theorem visible_of_opens {c : Char} (visible : opens c = true) : isBlank c = false ∧ c ≠ ']' := by
  simpa [opens] using visible

theorem first_of_itemsText {item : Json} (proper : item.Proper) (others : List Json) :
    ∃ c more, itemsText (item :: others) = c :: more ∧ opens c = true := by
  obtain ⟨c, more, whole, visible⟩ := first_of_render proper
  cases others with
  | nil => exact ⟨c, more, by simpa [itemsText, renderAll] using whole, visible⟩
  | cons next others => exact ⟨c, _, by rw [itemsText_cons, whole, List.cons_append], visible⟩

theorem first_of_fieldsText (field : Option String × Json)
    (others : List (Option String × Json)) :
    ∃ more, fieldsText (field :: others) = '"' :: more := by
  obtain ⟨body, whole, -⟩ := stringRest_renderName field.1
  cases others with
  | nil => exact ⟨_, by rw [fieldsText_singleton, whole, List.cons_append]⟩
  | cons next others => exact ⟨_, by rw [fieldsText_cons, whole, List.cons_append]⟩

theorem stops_of {c : Char} (other : c ∈ [',', ']', '\x7d']) (rest : List Char) :
    Stops (c :: rest) := by
  simp only [List.mem_cons, List.not_mem_nil, or_false] at other
  rcases other with rfl | rfl | rfl <;> exact fun _ first => by cases first; decide

/-- With so much fuel values are read from their texts, whatever stands behind them. -/
def ReadsValues (fuel : Nat) : Prop :=
  ∀ (json : Json) (rest : List Char), json.Proper → Stops rest →
    2 * json.render.toList.length ≤ fuel →
      value? fuel (json.render.toList ++ rest) = some (json, rest)

def ReadsItems (fuel : Nat) : Prop :=
  ∀ (item : Json) (others done : List Json) (rest : List Char), ProperAll (item :: others) →
    2 * (itemsText (item :: others)).length < fuel →
      itemsRest done fuel (itemsText (item :: others) ++ ']' :: rest) =
        some (.array (done.reverse ++ item :: others), rest)

def ReadsFields (fuel : Nat) : Prop :=
  ∀ (name : Option String) (value : Json) (others done : List (Option String × Json))
    (rest : List Char), ProperFields ((name, value) :: others) →
    2 * (fieldsText ((name, value) :: others)).length < fuel →
      fieldsRest done fuel (fieldsText ((name, value) :: others) ++ '\x7d' :: rest) =
        some (.object (done.reverse ++ (name, value) :: others), rest)

variable {left : Nat}

theorem readsItems_succ (values : ReadsValues left) (items : ReadsItems left) :
    ReadsItems (left + 1) := by
  intro item others done rest proper enough
  cases others with
  | nil =>
    have text : itemsText [item] = item.render.toList := by simp [itemsText, renderAll]
    rw [text] at enough ⊢
    rw [itemsRest, values item _ proper.1 (stops_of (by decide) rest) (by omega)]
    simp (disch := decide) [skipBlanks_cons]
  | cons next more =>
    rw [itemsText_cons] at enough ⊢
    simp only [List.length_append, List.length_cons] at enough
    rw [List.append_assoc, List.cons_append, itemsRest,
      values item _ proper.1 (stops_of (by decide) _) (by omega)]
    simp (disch := decide) only [skipBlanks_cons]
    rw [items next more (item :: done) rest proper.2 (by omega)]
    simp

theorem readsFields_succ (values : ReadsValues left) (fields : ReadsFields left) :
    ReadsFields (left + 1) := by
  intro name value others done rest proper enough
  obtain ⟨body, whole, read⟩ := stringRest_renderName name
  cases others with
  | nil =>
    rw [fieldsText_singleton, whole] at enough ⊢
    simp only [List.length_append, List.length_cons] at enough
    rw [List.cons_append, List.cons_append, List.append_assoc, List.cons_append, fieldsRest,
      skipBlanks_cons (by decide)]
    simp (disch := decide) only [read, skipBlanks_cons]
    rw [values value _ proper.1 (stops_of (by decide) rest) (by omega)]
    simp (disch := decide) [skipBlanks_cons]
  | cons next more =>
    obtain ⟨nextName, nextValue⟩ := next
    rw [fieldsText_cons, whole] at enough ⊢
    simp only [List.length_append, List.length_cons] at enough
    rw [List.cons_append, List.cons_append, List.append_assoc, List.cons_append,
      List.append_assoc, List.cons_append, fieldsRest, skipBlanks_cons (by decide)]
    simp (disch := decide) only [read, skipBlanks_cons]
    rw [values value _ proper.1 (stops_of (by decide) _) (by omega)]
    simp (disch := decide) only [skipBlanks_cons]
    rw [fields nextName nextValue more ((name, value) :: done) rest proper.2 (by omega)]
    simp

theorem readsValues_succ (items : ReadsItems left) (fields : ReadsFields left) :
    ReadsValues (left + 1) := by
  intro json rest proper stops enough
  cases json with
  | null => simp [render, value?, skipBlanks, isBlank]
  | bool value => cases value <;> simp [render, value?, skipBlanks, isBlank]
  | integer value => exact value?_number (number?_append stops (number?_integer value))
  | real literal => exact value?_number (number?_append stops proper)
  | string text =>
    obtain ⟨body, whole, read⟩ := stringRest_renderName (some text)
    rw [render, whole, List.cons_append, value?, skipBlanks_cons (by decide)]
    simp only [read]
  | brokenString =>
    obtain ⟨body, whole, read⟩ := stringRest_renderName none
    rw [render, whole, List.cons_append, value?, skipBlanks_cons (by decide)]
    simp only [read]
  | array list =>
    cases list with
    | nil => simp [render, renderAll, value?, skipBlanks, isBlank]
    | cons item others =>
      rw [toList_render_array] at enough ⊢
      simp only [List.length_append, List.length_cons, List.length_nil] at enough
      -- The first item opens with a visible character other than the closing bracket, so the list
      -- is not taken for an empty one.
      have inside := items item others [] rest proper (by omega)
      obtain ⟨c, more, whole, visible⟩ := first_of_itemsText proper.1 others
      obtain ⟨notBlank, notEnd⟩ := visible_of_opens visible
      rw [whole, List.cons_append] at inside
      rw [List.cons_append, List.append_assoc, List.singleton_append, value?,
        skipBlanks_cons (by decide), whole, List.cons_append]
      simp only [skipBlanks_cons notBlank]
      split
      · next same => exact absurd (List.cons.inj same).1 notEnd
      · exact inside
  | object list =>
    cases list with
    | nil => simp [render, renderFields, value?, skipBlanks, isBlank]
    | cons field others =>
      obtain ⟨name, value⟩ := field
      rw [toList_render_object] at enough ⊢
      simp only [List.length_append, List.length_cons, List.length_nil] at enough
      have inside := fields name value others [] rest proper (by omega)
      obtain ⟨more, whole⟩ := first_of_fieldsText (name, value) others
      rw [whole, List.cons_append] at inside
      rw [List.cons_append, List.append_assoc, List.singleton_append, value?,
        skipBlanks_cons (by decide), whole, List.cons_append]
      simp (disch := decide) only [skipBlanks_cons]
      exact inside

theorem reads (fuel : Nat) : ReadsValues fuel ∧ ReadsItems fuel ∧ ReadsFields fuel := by
  -- Values hold items and fields, and these hold values, all with less fuel.
  induction fuel with
  | zero =>
    refine ⟨fun json rest proper stops enough => ?_, fun _ _ _ _ _ enough => ?_,
      fun _ _ _ _ _ _ enough => ?_⟩
    · obtain ⟨c, more, whole, -⟩ := first_of_render proper
      rw [whole, List.length_cons] at enough
      omega
    · exact absurd enough (Nat.not_lt_zero _)
    · exact absurd enough (Nat.not_lt_zero _)
  | succ left ih =>
    obtain ⟨values, items, fields⟩ := ih
    exact ⟨readsValues_succ items fields, readsItems_succ values items,
      readsFields_succ values fields⟩

/-- The text of a value is read as the value. -/
theorem parse?_render {json : Json} (proper : json.Proper) : parse? json.render = some json := by
  have read := (reads (2 * json.render.toList.length + 2)).1 json [] proper (by simp [Stops])
    (Nat.le_add_right _ _)
  rw [List.append_nil] at read
  simp [parse?, read, skipBlanks]

end Values

end StagedLexer.Json
