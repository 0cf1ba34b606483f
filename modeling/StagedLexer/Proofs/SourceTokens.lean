import StagedLexer.Proofs.Literals
import StagedLexer.Proofs.ProgramTokens

/-! The tokens of parts of emitted source: numbers, and texts, code units and patterns in quotes are
read as what they were written for, whatever stands in front of them and behind. -/
namespace StagedLexer.Source

@[simp] theorem signsOf_append (a b : String) : signsOf (a ++ b) = signsOf a ++ signsOf b := by
  simp [signsOf]

namespace Pending

variable {p : Pending} {c : Char} {rest : List Sign}

theorem run_append (p : Pending) (front behind : List Sign) :
    run p (front ++ behind) = ((run p front).1 ++ (run (run p front).2 behind).1,
      (run (run p front).2 behind).2) := by
  induction front generalizing p with
  | nil => simp [run]
  | cons sign front ih => simp [run, ih]

theorem run_append_of {front behind : List Sign} {tokens more : List Token} {q r : Pending}
    (first : run p front = (tokens, q)) (second : run q behind = (more, r)) :
    run p (front ++ behind) = (tokens ++ more, r) := by
  rw [run_append, first, second]

/-- What is pending ends in front of the character. -/
def Divides (p : Pending) (c : Char) : Prop :=
  p.step (.char c) = (p.finish ++ (start (.char c)).1, (start (.char c)).2)

theorem step_nothing (c : Char) : nothing.step (.char c) = start (.char c) := by
  simp [step, extend?, divide, clashes, finish]

theorem divides_nothing (c : Char) : nothing.Divides c := by
  rw [Divides, step_nothing]
  rfl

theorem run_of_divides (divides : p.Divides c) (rest : List Sign) :
    run p (.char c :: rest) = (p.finish ++ (run nothing (.char c :: rest)).1,
      (run nothing (.char c :: rest)).2) := by
  simp [run, step_nothing, show p.step (.char c) = _ from divides]

section Parts

def Separator (c : Char) : Prop := isWordChar c = false ∧ c ≠ '"' ∧ c ≠ '\''

instance (c : Char) : Decidable (Separator c) := inferInstanceAs (Decidable (_ ∧ _))

theorem divides_word (letters : List Char) (separates : Separator c) :
    (word letters).Divides c := by
  simp [Divides, step, extend?, divide, clashes, separates.1, separates.2.1, separates.2.2]

theorem divides_var (v : Nat) (separates : Separator c) : (var v).Divides c := by
  simp [Divides, step, extend?, divide, clashes, separates.1, separates.2.1, separates.2.2]

theorem divides_closing {front : String} (closing : front ∈ [")", "]", "\x7d"]) (c : Char) :
    (mark front).Divides c := by
  have apart : ∀ f ∈ [")", "]", "\x7d"], f.toList ≠ [] ∧
      ∀ s ∈ joinedMarks, s.toList.head? ≠ f.toList.head? := by
    decide
  obtain ⟨filled, starts⟩ := apart front closing
  have single : front.push c ∉ joinedMarks := by
    refine fun joined => starts _ joined ?_
    rw [String.toList_push, List.head?_append_of_ne_nil _ filled]
  simp [Divides, step, extend?, single, divide, clashes]

/-- The signs are read as the tokens. The last one may still be pending, but ends in front of all
separators. -/
def Spelled (part : List Sign) (tokens : List Token) : Prop :=
  (run nothing part).1 ++ (run nothing part).2.finish = tokens ∧
    ∀ c, Separator c → (run nothing part).2.Divides c

/-- What is pending ends in front of the signs. -/
def Enters (p : Pending) (part : List Sign) : Prop :=
  run p part = (p.finish ++ (run nothing part).1, (run nothing part).2)

theorem enters_nothing (part : List Sign) : nothing.Enters part := rfl

namespace Spelled

variable {front part behind : List Sign} {before tokens more : List Token} {q r : Pending}

theorem of_pending (last : (run nothing part).2 = q)
    (same : (run nothing part).1 ++ q.finish = tokens) (ends : ∀ c, Separator c → q.Divides c) :
    Spelled part tokens := by
  rw [Spelled, last]
  exact ⟨same, ends⟩

theorem of_run (reads : run nothing part = (before, q)) (same : before ++ q.finish = tokens)
    (ends : ∀ c, Separator c → q.Divides c) : Spelled part tokens :=
  .of_pending (congrArg Prod.snd reads) (congrArg Prod.fst reads ▸ same) ends

theorem append (spelled : Spelled part tokens) (first : run p front = (before, q))
    (enters : q.Enters part) (last : run nothing behind = (more, r))
    (starts : behind.head? = some (.char c)) (separates : Separator c) :
    run p (front ++ (part ++ behind)) = (before ++ (q.finish ++ (tokens ++ more)), r) := by
  obtain ⟨rest, rfl⟩ : ∃ rest, behind = .char c :: rest := by
    cases behind with
    | nil => cases starts
    | cons sign rest => exact ⟨rest, by rw [Option.some.inj starts]⟩
  rw [run_append, first, run_append, show run q part = _ from enters,
    run_of_divides (spelled.2 c separates), last, ← spelled.1]
  simp only [List.append_assoc]

theorem after (spelled : Spelled part tokens) (first : run nothing front = (before, q))
    (enters : q.Enters part) : Spelled (front ++ part) (before ++ (q.finish ++ tokens)) := by
  have whole := run_append_of first enters
  refine .of_run whole ?_ spelled.2
  rw [← spelled.1]
  simp only [List.append_assoc]

end Spelled

end Parts

section Numbers

private theorem run_wordChars (letters : List Char) {chars : List Char}
    (inside : ∀ c ∈ chars, isWordChar c = true) :
    run (word letters) (chars.map .char) = ([], word (chars.reverse ++ letters)) := by
  induction chars generalizing letters with
  | nil => rfl
  | cons c chars ih =>
    have here : isWordChar c = true := inside c (by simp)
    have steps : (word letters).step (.char c) = ([], word (c :: letters)) := by
      simp [step, extend?, here]
    simp [run, steps, ih (c :: letters) fun d member => inside d (by simp [member])]

private theorem start_of_wordChar (here : isWordChar c = true) :
    start (.char c) = ([], word [c]) := by
  have apart : ¬(c = ' ' ∨ c = '\n') := by
    rintro (rfl | rfl) <;> cases here
  simp [start, here, apart]

theorem run_of_wordChars {chars : List Char} (divides : p.Divides c)
    (inside : ∀ d ∈ c :: chars, isWordChar d = true) :
    run p ((c :: chars).map .char) = (p.finish, word (c :: chars).reverse) := by
  have begins := start_of_wordChar (inside c (by simp))
  have more : run (word [c]) (chars.map .char) = ([], word (chars.reverse ++ [c])) :=
    run_wordChars [c] fun d member => inside d (List.mem_cons_of_mem c member)
  rw [List.map_cons, run_of_divides divides]
  simp [run, step_nothing, begins, more]

private theorem isWordChar_of_isDigit (digit : c.isDigit = true) : isWordChar c = true := by
  simp [isWordChar, Char.isAlphanum, digit]

theorem divides_digit (front : String) {d : Char} (digit : d.isDigit = true) :
    (mark front).Divides d := by
  have last : ∀ s ∈ joinedMarks, ∃ c ∈ ['=', '>', '&', ':', '.'], s.toList.getLast? = some c := by
    simp [joinedMarks]
  have single : front.push d ∉ joinedMarks := by
    intro joined
    obtain ⟨c, member, same⟩ := last _ joined
    rw [String.toList_push, List.getLast?_concat] at same
    obtain rfl := Option.some.inj same
    have apart : ['=', '>', '&', ':', '.'].all (!·.isDigit) = true := rfl
    have other := List.all_eq_true.mp apart d member
    rw [digit] at other
    cases other
  simp [Divides, step, extend?, single, divide, clashes]

theorem ofLetters_toDigits (n : Nat) : Token.ofLetters (Nat.toDigits 10 n) = .number n := by
  have digit : ∀ c ∈ Nat.toDigits 10 n, c.isDigit = true := fun c member =>
    Nat.isDigit_of_mem_toDigits (by decide) (by decide) member
  have all : (Nat.toDigits 10 n).dropWhile Char.isDigit = [] := by
    have none : (Nat.toDigits 10 n ++ []).dropWhile Char.isDigit = [] :=
      List.dropWhile_append_of_pos digit
    rwa [List.append_nil] at none
  have first : (Nat.toDigits 10 n).head?.any Char.isDigit = true := by
    cases digits : Nat.toDigits 10 n with
    | nil => exact absurd digits Nat.toDigits_ne_nil
    | cons c more => exact digit c (by simp [digits])
  rw [Token.ofLetters, if_pos first, all]
  exact congrArg Token.number Nat.ofDigitChars_ten_toDigits

private theorem run_toString (n : Nat) (before : ∀ d, d.isDigit = true → p.Divides d) :
    run p (signsOf (toString n)) = (p.finish, word (Nat.toDigits 10 n).reverse) := by
  have text : signsOf (toString n) = (Nat.toDigits 10 n).map .char := by
    simp [signsOf]
  have digit : ∀ c ∈ Nat.toDigits 10 n, c.isDigit = true := fun c member =>
    Nat.isDigit_of_mem_toDigits (by decide) (by decide) member
  rw [text]
  cases digits : Nat.toDigits 10 n with
  | nil => exact absurd digits Nat.toDigits_ne_nil
  | cons d more =>
    rw [digits] at digit
    exact run_of_wordChars (before d (digit d (by simp))) fun e member =>
      isWordChar_of_isDigit (digit e member)

theorem spelled_number (n : Nat) : Spelled (signsOf (toString n)) [.number n] := by
  rw [Spelled, run_toString n fun d _ => divides_nothing d]
  refine ⟨?_, fun _ => divides_word _⟩
  simp [finish, ofLetters_toDigits]

theorem enters_number (front : String) (n : Nat) : (mark front).Enters (signsOf (toString n)) := by
  rw [Enters, run_toString n fun d => divides_digit front,
    run_toString n fun d _ => divides_nothing d]
  simp [finish]

end Numbers

section Quoted

/-- The characters leave a text in quotes open. -/
def Inside (quote : Char) (chars : List Char) : Prop :=
  ∀ text, run (quoted text quote false) (chars.map .char) =
    ([], quoted (chars.reverse ++ text) quote false)

namespace Inside

variable {quote : Char} {chars more : List Char}

theorem append (first : Inside quote chars) (second : Inside quote more) :
    Inside quote (chars ++ more) := by
  intro text
  rw [List.map_append, run_append, first text, second]
  simp

theorem flatMap {α : Type} {write : α → List Char} (each : ∀ a, Inside quote (write a))
    (values : List α) : Inside quote (values.flatMap write) := by
  induction values with
  | nil => exact fun text => rfl
  | cons a values ih => exact (each a).append ih

theorem char (other : c ≠ quote) (notBackslash : c ≠ '\\') : Inside quote [c] := by
  intro text
  simp [run, step, other, notBackslash]

theorem escape (notBackslash : quote ≠ '\\') (c : Char) : Inside quote ['\\', c] := by
  intro text
  simp [run, step, notBackslash.symm]

theorem close (inside : Inside quote chars) (text : List Char) :
    run (quoted text quote false) ((chars ++ [quote]).map .char) =
      ([.ofQuoted (text.reverse ++ chars ++ [quote])], nothing) := by
  rw [List.map_append, run_append, inside text]
  simp [run, step]

end Inside

private theorem inside_hex (n : Nat) {quote : Char} (notDigit : ∀ d < 16, d.digitChar ≠ quote) :
    Inside quote (Nat.toDigits 16 n) := by
  have plain : ∀ d < 16, d.digitChar ≠ '\\' := by decide
  induction n using Nat.strongRecOn with
  | ind n ih =>
    by_cases small : n < 16
    · rw [Nat.toDigits_of_lt_base small]
      exact .char (notDigit n small) (plain n small)
    · have last : n % 16 < 16 := Nat.mod_lt _ (by decide)
      rw [Nat.toDigits_of_base_le (by decide) (Nat.le_of_not_lt small)]
      exact (ih _ (by omega)).append (.char (notDigit _ last) (plain _ last))

theorem inside_quoteChar (c : Char) : Inside '"' (Text.quoteChar c).toList := by
  unfold Text.quoteChar
  split
  · exact .escape (by decide) _
  split
  · exact .escape (by decide) _
  split
  · exact .escape (by decide) _
  split
  · exact .escape (by decide) _
  split
  · exact .escape (by decide) _
  split
  · exact .escape (by decide) _
  split
  · have text : (Text.escapeCode c).toList =
        ['\\', 'u'] ++ (['\x7b'] ++ (Nat.toDigits 16 c.toNat ++ ['\x7d'])) := by
      simp [Text.escapeCode, Text.hex]
    rw [text]
    refine (Inside.escape (by decide) 'u').append ((Inside.char (by decide) (by decide)).append ?_)
    exact (inside_hex _ (by decide)).append (.char (by decide) (by decide))
  · next notDouble notBackslash _ =>
    rw [String.toList_singleton]
    exact .char notDouble notBackslash

theorem inside_escapeUnit {quote : Char} (known : quote = '"' ∨ quote = '\'') (b : UInt8) :
    Inside quote (Text.escapeUnit b).toList := by
  have notBackslash : quote ≠ '\\' := by
    rcases known with rfl | rfl <;> decide
  unfold Text.escapeUnit
  split
  · exact .escape notBackslash _
  split
  · exact .escape notBackslash _
  split
  · exact .escape notBackslash _
  split
  · exact .escape notBackslash _
  split
  · exact .escape notBackslash _
  split
  · exact .escape notBackslash _
  split
  · next notSingle notDouble notEscape _ =>
    have apart {n : UInt8} {c : Char} (differs : b ≠ n) (same : n.toNat = c.toNat) :
        Char.ofNat b.toNat ≠ c := by
      rintro rfl
      have small : b.toNat < 256 := b.toNat_lt
      have valid : b.toNat.isValidChar := Or.inl (by omega)
      rw [Char.ofNat, dif_pos valid] at same
      exact differs (UInt8.toNat_inj.mp (same.trans (UInt32.toNat_ofNatLT ..)).symm)
    rw [String.toList_singleton]
    refine .char ?_ (apart notEscape rfl)
    rcases known with rfl | rfl
    · exact apart notDouble rfl
    · exact apart notSingle rfl
  · have high : b.toNat / 16 % 16 < 16 := Nat.mod_lt _ (by decide)
    have low : b.toNat % 16 < 16 := Nat.mod_lt _ (by decide)
    have plain : ∀ d < 16, d.digitChar ≠ '"' ∧ d.digitChar ≠ '\'' ∧ d.digitChar ≠ '\\' := by decide
    have other {d : Nat} (small : d < 16) : d.digitChar ≠ quote := by
      rcases known with rfl | rfl
      · exact (plain d small).1
      · exact (plain d small).2.1
    have text : ("\\x" ++ Text.hex2 b.toNat).toList = ['\\', 'x'] ++
        ([(b.toNat / 16 % 16).digitChar] ++ [(b.toNat % 16).digitChar]) := by
      simp [Text.hex2]
    rw [text]
    refine (Inside.escape notBackslash 'x').append ((Inside.char (other high) ?_).append ?_)
    · exact (plain _ high).2.2
    · exact .char (other low) (plain _ low).2.2

theorem run_quote (divides : p.Divides '"') (s : String) :
    run p (signsOf (Text.quote s)) = (p.finish ++ [Token.text s], nothing) := by
  let chars := s.toList.flatMap fun c => (Text.quoteChar c).toList
  have text : (Text.quote s).toList = '"' :: (chars ++ ['"']) := by
    simp [Text.quote, chars, String.toList_join, List.flatMap_map]
  have inside : Inside '"' chars := .flatMap inside_quoteChar _
  have read := Text.stringAt?_quote s []
  rw [text, List.append_nil] at read
  have opens : start (.char '"') = ([], quoted ['"'] '"' false) := rfl
  rw [signsOf, text, List.map_cons, run_of_divides divides, run, step_nothing, opens]
  simp only [inside.close, List.reverse_singleton, Token.ofQuoted, read, List.cons_append,
    List.nil_append]

theorem spelled_quote (s : String) : Spelled (signsOf (Text.quote s)) [.text s] := by
  rw [Spelled, run_quote (divides_nothing _)]
  exact ⟨by simp [finish], fun c _ => divides_nothing c⟩

theorem enters_quote (divides : p.Divides '"') (s : String) :
    p.Enters (signsOf (Text.quote s)) := by
  rw [Enters, run_quote divides, run_quote (divides_nothing _)]
  simp [finish]

theorem run_byteStringLiteral (divides : p.Divides 'b') (units : List UInt8) :
    run p (signsOf (byteStringLiteral units)) = (p.finish ++ [Token.units units], nothing) := by
  let chars := units.flatMap fun b => (Text.escapeUnit b).toList
  have text : (byteStringLiteral units).toList = 'b' :: '"' :: (chars ++ ['"']) := by
    simp [byteStringLiteral, chars, String.toList_join, List.flatMap_map]
  have inside : Inside '"' chars := .flatMap (inside_escapeUnit (.inl rfl)) _
  have read := byteStringAt?_byteStringLiteral units []
  rw [text, List.append_nil] at read
  have opens : start (.char 'b') = ([], word ['b']) := rfl
  have more : step (word ['b']) (.char '"') = ([], quoted ['"', 'b'] '"' false) := rfl
  rw [signsOf, text, List.map_cons, run_of_divides divides, List.map_cons, run, step_nothing, opens]
  simp only [run, more, inside.close]
  simp [Token.ofQuoted, Text.stringAt?, read]

theorem spelled_units (units : List UInt8) :
    Spelled (signsOf (byteStringLiteral units)) [.units units] := by
  rw [Spelled, run_byteStringLiteral (divides_nothing _)]
  exact ⟨by simp [finish], fun c _ => divides_nothing c⟩

theorem enters_units (divides : p.Divides 'b') (units : List UInt8) :
    p.Enters (signsOf (byteStringLiteral units)) := by
  rw [Enters, run_byteStringLiteral divides, run_byteStringLiteral (divides_nothing _)]
  simp [finish]

theorem run_byteLiteral (divides : p.Divides 'b') (b : UInt8) :
    run p (signsOf (ByteSet.byteLiteral b)) = (p.finish ++ [Token.unit b], nothing) := by
  let chars := (Text.escapeUnit b).toList
  have text : (ByteSet.byteLiteral b).toList = 'b' :: '\'' :: (chars ++ ['\'']) := by
    simp [ByteSet.byteLiteral, chars]
  have inside : Inside '\'' chars := inside_escapeUnit (.inr rfl) b
  have read := ByteSet.byteAt?_byteLiteral b []
  rw [text, List.append_nil] at read
  have opens : start (.char 'b') = ([], word ['b']) := rfl
  have more : step (word ['b']) (.char '\'') = ([], quoted ['\'', 'b'] '\'' false) := rfl
  rw [signsOf, text, List.map_cons, run_of_divides divides, List.map_cons, run, step_nothing, opens]
  simp only [run, more, inside.close]
  simp [Token.ofQuoted, Text.stringAt?, Text.byteStringAt?, read]

theorem run_rangeText (divides : p.Divides 'b') (range : UInt8 × UInt8) :
    run p (signsOf (ByteSet.rangeText ByteSet.byteLiteral "..=" range)) =
      (p.finish ++ Pattern.rangeTokens range, nothing) := by
  unfold ByteSet.rangeText Pattern.rangeTokens
  split
  · exact run_byteLiteral divides range.1
  · have between : run nothing (signsOf "..=") = ([], mark "..=") := by rfl
    have second := run_byteLiteral (p := mark "..=") (by rfl) range.2
    rw [signsOf_append, signsOf_append]
    refine (run_append_of (run_append_of (run_byteLiteral divides range.1) between) second).trans ?_
    simp [finish]

/-- A pattern of code units is read as its ranges. -/
theorem run_pattern {set : ByteSet} (filled : set.ranges ≠ []) (divides : p.Divides 'b') :
    run p (signsOf set.pattern) = (p.finish ++ Pattern.rangesTokens set.ranges, nothing) := by
  have whole (range : UInt8 × UInt8) (more : List (UInt8 × UInt8)) {p : Pending}
      (divides : p.Divides 'b') : run p (signsOf (String.intercalate " | "
        ((range :: more).map (ByteSet.rangeText ByteSet.byteLiteral "..=")))) =
          (p.finish ++ Pattern.rangesTokens (range :: more), nothing) := by
    induction more generalizing range p with
    | nil => simpa [Pattern.rangesTokens] using run_rangeText divides range
    | cons next more ih =>
      have between : run nothing (signsOf " | ") = ([.mark "|"], nothing) := by rfl
      have others := ih next (divides_nothing 'b')
      have text (a b : String) (rest : List String) : String.intercalate " | " (a :: b :: rest) =
          a ++ (" | " ++ String.intercalate " | " (b :: rest)) := by
        apply String.toList_injective
        simp [String.toList_intercalate]
      rw [List.map_cons, List.map_cons, text, signsOf_append, signsOf_append]
      refine (run_append_of (run_rangeText divides range) (run_append_of between others)).trans ?_
      simp [finish, Pattern.rangesTokens]
  obtain ⟨range, more, ranges⟩ := List.exists_cons_of_ne_nil filled
  rw [ByteSet.pattern, ranges]
  exact whole range more divides

theorem spelled_pattern {set : ByteSet} (filled : set.ranges ≠ []) :
    Spelled (signsOf set.pattern) (Pattern.rangesTokens set.ranges) := by
  rw [Spelled, run_pattern filled (divides_nothing _)]
  exact ⟨by simp [finish], fun c _ => divides_nothing c⟩

theorem enters_pattern {set : ByteSet} (filled : set.ranges ≠ []) (divides : p.Divides 'b') :
    p.Enters (signsOf set.pattern) := by
  rw [Enters, run_pattern filled divides, run_pattern filled (divides_nothing _)]
  simp [finish]

end Quoted

end Pending

end StagedLexer.Source

namespace StagedLexer.Code

mutual
theorem piecesAll_flatten : (code : Code) → piecesAll (flatten code) = code.pieces
  | literal _ | var _ | declare _ | define _ _ | assign _ _ _ => by
    simp [flatten, piecesAll, pieces]
  | block items => piecesAll_flattenAll items
theorem piecesAll_flattenAll : (items : List Code) →
    piecesAll (flattenAll items) = piecesAll items
  | [] => rfl
  | item :: rest => by
    have append (as bs : List Code) : piecesAll (as ++ bs) = piecesAll as ++ piecesAll bs := by
      induction as with
      | nil => rfl
      | cons a as ih => simp [piecesAll, ih]
    rw [flattenAll, append, piecesAll_flatten item, piecesAll_flattenAll rest, piecesAll]
end

theorem tokens_congr {a b : Code} (same : a.flatten = b.flatten) : a.tokens = b.tokens := by
  rw [tokens, tokens, signs, signs, ← piecesAll_flatten a, ← piecesAll_flatten b, same]

end StagedLexer.Code
