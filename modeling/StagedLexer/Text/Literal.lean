/-! Literals of emitted source. An escape starts with a backslash, everything else stands for itself,
and some characters have to be escaped. A literal is read up to its end, whatever stands behind. -/
namespace StagedLexer.Text

def digit? (c : Char) : Option Nat := (List.range 16).find? fun d => d.digitChar == c.toLower

def escaped? (letter : Char) : Option Char :=
  if letter = '0' then some '\x00'
  else if letter = 't' then some '\t'
  else if letter = 'r' then some '\r'
  else if letter = 'n' then some '\n'
  else if letter = '\'' then some '\''
  else if letter = '"' then some '"'
  else if letter = '\\' then some '\\'
  else none

structure Spelling (α : Type) where
  plain? : Char → Option α
  escape? : List Char → Option (α × List Char)
  shorter : ∀ {text rest a}, escape? text = some (a, rest) → rest.length < text.length

namespace Spelling

variable {α : Type} {spelling : Spelling α}

def valueAt? (spelling : Spelling α) (c : Char) (behind : List Char) : Option (α × List Char) :=
  if c = '\\' then spelling.escape? behind else (spelling.plain? c).map (·, behind)

theorem length_of_valueAt? {c : Char} {behind rest : List Char} {a : α}
    (found : spelling.valueAt? c behind = some (a, rest)) : rest.length ≤ behind.length := by
  unfold valueAt? at found
  split at found
  · exact Nat.le_of_lt (spelling.shorter found)
  · obtain ⟨value, -, equal⟩ := Option.map_eq_some_iff.mp found
    obtain ⟨-, rfl⟩ := Prod.mk.inj equal
    exact Nat.le_refl _

def skipsLine (c : Char) (behind : List Char) : Bool := c = '\\' ∧ behind.head? = some '\n'

def valuesAt? (spelling : Spelling α) : List Char → Option (List α × List Char)
  | [] => none
  | c :: behind =>
    if c = '"' then some ([], behind)
    else if skipsLine c behind then
      spelling.valuesAt? (behind.dropWhile (· ∈ [' ', '\t', '\n', '\r']))
    else
      match found : spelling.valueAt? c behind with
      | none => none
      | some (a, rest) =>
        have := length_of_valueAt? found
        (spelling.valuesAt? rest).map fun (values, last) => (a :: values, last)
termination_by text => text.length
decreasing_by
  · exact Nat.lt_succ_of_le (List.dropWhile_sublist _).length_le
  · exact Nat.lt_succ_of_le this

end Spelling

def unitEscape? : List Char → Option (UInt8 × List Char)
  | 'x' :: high :: low :: rest => do
    return (UInt8.ofNat (16 * (← digit? high) + (← digit? low)), rest)
  | letter :: rest => (escaped? letter).map fun c => (UInt8.ofNat c.toNat, rest)
  | [] => none

private theorem length_of_unitEscape? {text rest : List Char} {b : UInt8}
    (found : unitEscape? text = some (b, rest)) : rest.length < text.length := by
  unfold unitEscape? at found
  split at found
  · next high low behind =>
    cases first : digit? high with
    | none => simp [first] at found
    | some h =>
      cases second : digit? low with
      | none => simp [first, second] at found
      | some l =>
        simp only [first, second, Option.bind_eq_bind, Option.bind_some, Option.pure_def,
          Option.some.injEq, Prod.mk.injEq] at found
        rw [← found.2]
        simp only [List.length_cons]
        omega
  · obtain ⟨c, -, equal⟩ := Option.map_eq_some_iff.mp found
    obtain ⟨-, rfl⟩ := Prod.mk.inj equal
    exact Nat.lt_succ_self _
  · cases found

def units (refused : List Char) : Spelling UInt8 where
  plain? c := if c.toNat < 0x80 ∧ c ∉ refused then some (UInt8.ofNat c.toNat) else none
  escape? := unitEscape?
  shorter := length_of_unitEscape?

def byteStringAt? : List Char → Option (List UInt8 × List Char)
  | 'b' :: '"' :: rest => (units ['\r']).valuesAt? rest
  | _ => none

def byteAt? : List Char → Option (UInt8 × List Char)
  | 'b' :: '\'' :: c :: rest => do
    let (b, rest) ← (units ['\'', '\n', '\r', '\t']).valueAt? c rest
    if rest.head? = some '\'' then return (b, rest.tail) else none
  | _ => none

/-- A hexadecimal code point, with `size` digits of value `n` in front, up to a closing brace. There
are six digits at most; between digits underscores may stand. -/
def codePointAt? (size n : Nat) : List Char → Option (Char × List Char)
  | [] => none
  | c :: rest =>
    if c = '\x7d' then
      if 0 < size ∧ size ≤ 6 ∧ n.isValidChar then some (Char.ofNat n, rest) else none
    else if c = '_' ∧ 0 < size then codePointAt? size n rest
    else do codePointAt? (size + 1) (16 * n + (← digit? c)) rest

def charEscape? : List Char → Option (Char × List Char)
  | 'x' :: high :: low :: rest => do
    let code := 16 * (← digit? high) + (← digit? low)
    if code < 0x80 then return (Char.ofNat code, rest) else none
  | 'u' :: '\x7b' :: rest => codePointAt? 0 0 rest
  | letter :: rest => (escaped? letter).map (·, rest)
  | [] => none

private theorem length_of_codePointAt? {size n : Nat} {text rest : List Char} {c : Char}
    (found : codePointAt? size n text = some (c, rest)) : rest.length < text.length := by
  induction text generalizing size n with
  | nil => cases found
  | cons first behind ih =>
    rw [codePointAt?] at found
    split at found
    · split at found
      · obtain ⟨-, rfl⟩ := Prod.mk.inj (Option.some.inj found)
        exact Nat.lt_succ_self _
      · cases found
    split at found
    · exact Nat.lt_succ_of_lt (ih found)
    · cases digit : digit? first with
      | none => simp [digit] at found
      | some d =>
        simp only [digit, Option.bind_eq_bind, Option.bind_some] at found
        exact Nat.lt_succ_of_lt (ih found)

private theorem length_of_charEscape? {text rest : List Char} {c : Char}
    (found : charEscape? text = some (c, rest)) : rest.length < text.length := by
  unfold charEscape? at found
  split at found
  · next high low behind =>
    cases first : digit? high with
    | none => simp [first] at found
    | some h =>
      cases second : digit? low with
      | none => simp [first, second] at found
      | some l =>
        simp only [first, second, Option.bind_eq_bind, Option.bind_some, Option.pure_def] at found
        split at found
        · obtain ⟨-, rfl⟩ := Prod.mk.inj (Option.some.inj found)
          simp only [List.length_cons]
          omega
        · cases found
  · have shorter := length_of_codePointAt? found
    simp only [List.length_cons]
    omega
  · obtain ⟨d, -, equal⟩ := Option.map_eq_some_iff.mp found
    obtain ⟨-, rfl⟩ := Prod.mk.inj equal
    exact Nat.lt_succ_self _
  · cases found

def chars : Spelling Char where
  plain? c := if c = '\r' then none else some c
  escape? := charEscape?
  shorter := length_of_charEscape?

def stringAt? : List Char → Option (String × List Char)
  | '"' :: rest => (chars.valuesAt? rest).map fun (cs, rest) => (String.ofList cs, rest)
  | _ => none

end StagedLexer.Text
