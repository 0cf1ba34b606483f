import StagedLexer.Json.Basic

/-! Reading JSON text. -/
namespace StagedLexer.Json

def isBlank (c : Char) : Bool := c = ' ' || c = '\n' || c = '\r' || c = '\t'

def skipBlanks (cs : List Char) : List Char := cs.dropWhile isBlank

def hexDigit? (c : Char) : Option Nat :=
  if c.isDigit then some (c.toNat - '0'.toNat)
  else if 'a' ≤ c && c ≤ 'f' then some (c.toNat - 'a'.toNat + 10)
  else if 'A' ≤ c && c ≤ 'F' then some (c.toNat - 'A'.toNat + 10)
  else none

def unit? : List Char → Option (Nat × List Char)
  | a :: b :: c :: d :: rest => do
    let value := (← hexDigit? a) * 4096 + (← hexDigit? b) * 256 + (← hexDigit? c) * 16 +
      (← hexDigit? d)
    return (value, rest)
  | _ => none

def escape? : Char → Option Char
  | '"' => some '"'
  | '\\' => some '\\'
  | '/' => some '/'
  | 'b' => some '\x08'
  | 'f' => some '\x0c'
  | 'n' => some '\n'
  | 'r' => some '\r'
  | 't' => some '\t'
  | _ => none

/-- The character that a number of 16 bits stands for, alone or with the one behind it. The result
is `none` where there is no such character, together with what is left to read. -/
def combine (value : Nat) (rest : List Char) : Option Char × List Char :=
  if 0xd800 ≤ value && value < 0xdc00 then
    match rest with
    | '\\' :: 'u' :: more =>
      match unit? more with
      | some (low, more) =>
        if 0xdc00 ≤ low && low < 0xe000 then
          (some (Char.ofNat (0x10000 + (value - 0xd800) * 0x400 + (low - 0xdc00))), more)
        else (none, rest)
      | none => (none, rest)
    | _ => (none, rest)
  else if 0xdc00 ≤ value && value < 0xe000 then (none, rest)
  else (some (Char.ofNat value), rest)

/-- The rest of a string behind its opening quote. `done` holds the characters read so far, the last
one first; `intact` is cleared where an escape forms no character. -/
def stringRest (done : List Char) (intact : Bool) :
    (fuel : Nat) → List Char → Option (Option String × List Char)
  | 0, _ => none
  | fuel + 1, cs =>
    match cs with
    | [] => none
    | '"' :: rest => some (if intact then some (String.ofList done.reverse) else none, rest)
    | '\\' :: 'u' :: rest =>
      match unit? rest with
      | none => none
      | some (value, rest) =>
        match combine value rest with
        | (some c, rest) => stringRest (c :: done) intact fuel rest
        | (none, rest) => stringRest done false fuel rest
    | '\\' :: c :: rest =>
      match escape? c with
      | some c => stringRest (c :: done) intact fuel rest
      | none => none
    | c :: rest =>
      if c.toNat < 0x20 || c = '\\' then none else stringRest (c :: done) intact fuel rest

def spanDigits (cs : List Char) : List Char × List Char :=
  (cs.takeWhile Char.isDigit, cs.dropWhile Char.isDigit)

def digitsValue (digits : List Char) : Nat :=
  digits.foldl (fun n c => n * 10 + (c.toNat - '0'.toNat)) 0

def fraction? : List Char → Option (List Char × List Char)
  | '.' :: rest =>
    let (digits, rest) := spanDigits rest
    if digits.isEmpty then none else some ('.' :: digits, rest)
  | cs => some ([], cs)

def exponentSign : List Char → List Char × List Char
  | '+' :: rest => (['+'], rest)
  | '-' :: rest => (['-'], rest)
  | rest => ([], rest)

def exponent? : List Char → Option (List Char × List Char)
  | c :: rest =>
    if c = 'e' || c = 'E' then
      let (sign, rest) := exponentSign rest
      let (digits, rest) := spanDigits rest
      if digits.isEmpty then none else some (c :: sign ++ digits, rest)
    else some ([], c :: rest)
  | [] => some ([], [])

def ofParts (negative : Bool) (digits fraction exponent : List Char) : Json :=
  let value := digitsValue digits
  if fraction.isEmpty && exponent.isEmpty && !(negative && value == 0) then
    integer (if negative then -value else value)
  else
    let sign := if negative then ['-'] else []
    real (String.ofList (sign ++ digits ++ fraction ++ exponent))

def isWhole (digits : List Char) : Bool :=
  !digits.isEmpty && (digits.head? != some '0' || digits.length == 1)

def unsigned? (negative : Bool) (cs : List Char) : Option (Json × List Char) :=
  let (digits, rest) := spanDigits cs
  if isWhole digits then do
    let (fraction, rest) ← fraction? rest
    let (exponent, rest) ← exponent? rest
    return (ofParts negative digits fraction exponent, rest)
  else none

def number? : List Char → Option (Json × List Char)
  | '-' :: rest => unsigned? true rest
  | cs => unsigned? false cs

mutual
def value? : (fuel : Nat) → List Char → Option (Json × List Char)
  | 0, _ => none
  | fuel + 1, cs =>
    match skipBlanks cs with
    | 'n' :: 'u' :: 'l' :: 'l' :: rest => some (.null, rest)
    | 't' :: 'r' :: 'u' :: 'e' :: rest => some (.bool true, rest)
    | 'f' :: 'a' :: 'l' :: 's' :: 'e' :: rest => some (.bool false, rest)
    | '"' :: rest =>
      match stringRest [] true (rest.length + 1) rest with
      | some (some text, rest) => some (.string text, rest)
      | some (none, rest) => some (.brokenString, rest)
      | none => none
    | '[' :: rest =>
      match skipBlanks rest with
      | ']' :: rest => some (.array [], rest)
      | rest => itemsRest [] fuel rest
    | '\x7b' :: rest =>
      match skipBlanks rest with
      | '\x7d' :: rest => some (.object [], rest)
      | rest => fieldsRest [] fuel rest
    | cs => number? cs
def itemsRest (done : List Json) : (fuel : Nat) → List Char → Option (Json × List Char)
  | 0, _ => none
  | fuel + 1, cs =>
    match value? fuel cs with
    | none => none
    | some (item, rest) =>
      match skipBlanks rest with
      | ',' :: rest => itemsRest (item :: done) fuel rest
      | ']' :: rest => some (.array (item :: done).reverse, rest)
      | _ => none
def fieldsRest (done : List (Option String × Json)) :
    (fuel : Nat) → List Char → Option (Json × List Char)
  | 0, _ => none
  | fuel + 1, cs =>
    match skipBlanks cs with
    | '"' :: rest =>
      match stringRest [] true (rest.length + 1) rest with
      | none => none
      | some (name, rest) =>
        match skipBlanks rest with
        | ':' :: rest =>
          match value? fuel rest with
          | none => none
          | some (item, rest) =>
            match skipBlanks rest with
            | ',' :: rest => fieldsRest ((name, item) :: done) fuel rest
            | '\x7d' :: rest => some (.object ((name, item) :: done).reverse, rest)
            | _ => none
        | _ => none
    | _ => none
end

def parse? (text : String) : Option Json :=
  let cs := text.toList
  match value? (2 * cs.length + 2) cs with
  | some (value, rest) => if (skipBlanks rest).isEmpty then some value else none
  | none => none

end StagedLexer.Json
