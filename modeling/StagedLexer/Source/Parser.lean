import StagedLexer.Source.Syntax

/-! Reading programs from tokens, by recursive descent. The fuel bounds how deep expressions and
commands stand inside of each other, and how many items a list has. -/
namespace StagedLexer.Source

abbrev Parser (α : Type) := List Token → Option (α × List Token)

namespace Parser

def expect (token : Token) : List Token → Option (List Token)
  | first :: rest => if first = token then some rest else none
  | [] => none

def separated {α : Type} (item : Parser α) (close : String) : (fuel : Nat) → Parser (List α)
  | 0, _ => none
  | fuel + 1, tokens =>
    if tokens.head? = some (.mark close) then some ([], tokens.tail)
    else do
      let (first, rest) ← item tokens
      if rest.head? = some (.mark ",") then
        let (more, rest) ← separated item close fuel rest.tail
        return (first :: more, rest)
      else
        let rest ← expect (.mark close) rest
        return ([first], rest)

def keywords : List String :=
  ["as", "break", "continue", "else", "if", "let", "loop", "match", "mut", "return", "while"]

def name : Parser String
  | .word name :: rest => if keywords.contains name then none else some (name, rest)
  | _ => none

section Patterns

def part : Parser (Option String)
  | .word "_" :: rest => some (none, rest)
  | tokens => (name tokens).map fun (name, rest) => (some name, rest)

def range : Parser (UInt8 × UInt8)
  | .unit lo :: .mark "..=" :: .unit hi :: rest => if lo ≤ hi then some ((lo, hi), rest) else none
  | .unit lo :: rest => some ((lo, lo), rest)
  | _ => none

def ranges : (fuel : Nat) → Parser (List (UInt8 × UInt8))
  | 0, _ => none
  | fuel + 1, tokens => do
    let (first, rest) ← range tokens
    if rest.head? = some (.mark "|") then
      let (more, rest) ← ranges fuel rest.tail
      return (first :: more, rest)
    else return ([first], rest)

def pattern : (fuel : Nat) → Parser Pattern
  | 0, _ => none
  | fuel + 1, tokens =>
    match tokens with
    | .word "_" :: rest => some (.anything, rest)
    | .word "Some" :: .mark "(" :: rest => do
      let (inside, rest) ← pattern fuel rest
      let rest ← expect (.mark ")") rest
      return (.some inside, rest)
    | .mark "(" :: rest => do
      let (parts, rest) ← separated part ")" fuel rest
      return (.tuple parts, rest)
    | .mark "[" :: .mark "]" :: rest => some (.emptySlice, rest)
    | .text text :: rest => some (.text text, rest)
    | .word whole :: .mark "@" :: .mark "[" :: rest => do
      let (ranges, rest) ← ranges fuel rest
      let rest ← expect (.mark ",") rest
      let rest ← expect (.mark "..") rest
      let rest ← expect (.mark "]") rest
      return (.startsIn whole ranges, rest)
    | .word type :: .mark "\x7b" :: rest => do
      let (names, rest) ← separated name "\x7d" fuel rest
      return (.fields type names, rest)
    | tokens => (name tokens).map fun (name, rest) => (.name name, rest)

end Patterns

def types (depth : Nat) : Parser (List Token)
  | [] => none
  | token :: rest =>
    if token = .mark ">" ∧ depth = 0 then some ([], rest)
    else
      let deeper := if token = .mark "<" then depth + 1 else if token = .mark ">" then depth - 1
        else depth
      (types deeper rest).map fun (more, rest) => (token :: more, rest)

section Expressions

variable (expr : Parser Expr) (fuel : Nat)

inductive Arm where
  | plain (pattern : Pattern) (value : Expr)
  | guarded (pattern : Pattern) (guard value : Expr)

def Arm.list : List Arm → Arms
  | [] => .done
  | .plain pattern value :: rest => .plain pattern value (list rest)
  | .guarded pattern guard value :: rest => .guarded pattern guard value (list rest)

def arm : Parser Arm := fun tokens => do
  let (pattern, rest) ← pattern fuel tokens
  if rest.head? = some (.word "if") then
    let (guard, rest) ← expr rest.tail
    let rest ← expect (.mark "=>") rest
    let (value, rest) ← expr rest
    return (.guarded pattern guard value, rest)
  else
    let rest ← expect (.mark "=>") rest
    let (value, rest) ← expr rest
    return (.plain pattern value, rest)

def braced : Parser Expr := fun tokens => do
  let rest ← expect (.mark "\x7b") tokens
  let (value, rest) ← expr rest
  let rest ← expect (.mark "\x7d") rest
  return (value, rest)

def primary : Parser Expr
  | .number n :: rest => some (.number n, rest)
  | .size n :: rest => some (.size n, rest)
  | .text text :: rest => some (.text text, rest)
  | .units units :: rest => some (.units units, rest)
  | .var v :: rest => some (.var v, rest)
  | .mark "(" :: rest => do
    let (items, rest) ← separated expr ")" fuel rest
    match items with
    | [item] => return (.paren item, rest)
    | items => return (.tuple items, rest)
  | .word "match" :: rest => do
    let (value, rest) ← expr rest
    let rest ← expect (.mark "\x7b") rest
    let (arms, rest) ← separated (arm expr fuel) "\x7d" fuel rest
    return (.choose value (Arm.list arms), rest)
  | .word "if" :: rest => do
    let (cond, rest) ← expr rest
    let (first, rest) ← braced expr rest
    let rest ← expect (.word "else") rest
    let (second, rest) ← braced expr rest
    return (.either cond first second, rest)
  | .word "None" :: .mark "::" :: .mark "<" :: rest => do
    let (types, rest) ← types 0 rest
    return (.absent types, rest)
  | .word type :: .mark "::" :: .word function :: .mark "(" :: rest => do
    let (arguments, rest) ← separated expr ")" fuel rest
    return (.call [type, function] arguments, rest)
  | .word function :: .mark "(" :: rest => do
    let (arguments, rest) ← separated expr ")" fuel rest
    return (.call [function] arguments, rest)
  | tokens => (name tokens).map fun (name, rest) => (.name name, rest)

def behind : (fuel : Nat) → Expr → Parser Expr
  | 0, _, _ => none
  | fuel + 1, inner, tokens =>
    match tokens with
    | .mark "." :: .word method :: .mark "(" :: rest => do
      let (arguments, rest) ← separated expr ")" fuel rest
      behind fuel (.method inner method arguments) rest
    | .mark "[" :: rest => do
      let (place, rest) ← expr rest
      let rest ← expect (.mark "]") rest
      behind fuel (.index inner place) rest
    | tokens => some (inner, tokens)

def operand : (fuel : Nat) → Parser Expr
  | 0, _ => none
  | fuel + 1, tokens =>
    match tokens with
    | .mark "-" :: rest => (operand fuel rest).map fun (inner, rest) => (.negative inner, rest)
    | .mark "*" :: rest => (operand fuel rest).map fun (inner, rest) => (.content inner, rest)
    | .mark "&" :: rest => (operand fuel rest).map fun (inner, rest) => (.borrow inner, rest)
    | tokens => do
      let (inner, rest) ← primary expr fuel tokens
      behind expr fuel inner rest

def casts : (fuel : Nat) → Expr → Parser Expr
  | 0, _, _ => none
  | fuel + 1, inner, tokens =>
    match tokens with
    | .word "as" :: .word type :: rest => casts fuel (.cast inner type) rest
    | tokens => some (inner, tokens)

def factor : Parser Expr := fun tokens => do
  let (inner, rest) ← operand expr fuel tokens
  casts fuel inner rest

def summands : (fuel : Nat) → Expr → Parser Expr
  | 0, _, _ => none
  | fuel + 1, left, tokens =>
    match tokens with
    | .mark "+" :: rest => do
      let (right, rest) ← factor expr fuel rest
      summands fuel (.binary .plus left right) rest
    | .mark "-" :: rest => do
      let (right, rest) ← factor expr fuel rest
      summands fuel (.binary .minus left right) rest
    | tokens => some (left, tokens)

def sum : Parser Expr := fun tokens => do
  let (left, rest) ← factor expr fuel tokens
  summands expr fuel left rest

def comparison? : Token → Option Operator
  | .mark "==" => some .equal
  | .mark "!=" => some .differs
  | .mark "<" => some .less
  | .mark ">" => some .greater
  | .mark "<=" => some .atMost
  | .mark ">=" => some .atLeast
  | _ => none

def compared : Parser Expr := fun tokens => do
  let (left, rest) ← sum expr fuel tokens
  match rest.head?.bind comparison? with
  | some operator =>
    let (right, rest) ← sum expr fuel rest.tail
    return (.binary operator left right, rest)
  | none => return (left, rest)

def joined : (fuel : Nat) → Parser Expr
  | 0, _ => none
  | fuel + 1, tokens => do
    let (left, rest) ← compared expr fuel tokens
    if rest.head? = some (.mark "&&") then
      let (right, rest) ← joined fuel rest.tail
      return (.binary .both left right, rest)
    else return (left, rest)

def ranged : Parser Expr := fun tokens =>
  match tokens with
  | .mark ".." :: rest => (joined expr fuel rest).map fun (stop, rest) => (.upTo stop, rest)
  | tokens => do
    let (inner, rest) ← joined expr fuel tokens
    if rest.head? = some (.mark "..") then return (.fromOn inner, rest.tail)
    else return (inner, rest)

end Expressions

def expr : (fuel : Nat) → Parser Expr
  | 0 => fun _ => none
  | fuel + 1 => ranged (expr fuel) fuel

section Commands

variable (commands : Parser (List Command)) (fuel : Nat)

def block : Parser (List Command) := fun tokens => do
  let rest ← expect (.mark "\x7b") tokens
  let (items, rest) ← commands rest
  let rest ← expect (.mark "\x7d") rest
  return (items, rest)

def condition : Parser (List Command → List Command → Command)
  | .word "let" :: rest => do
    let (pattern, rest) ← pattern fuel rest
    let rest ← expect (.mark "=") rest
    let (value, rest) ← expr fuel rest
    return (.testPattern pattern value, rest)
  | tokens => (expr fuel tokens).map fun (cond, rest) => (.test cond, rest)

def test : (fuel : Nat) → Parser Command
  | 0, _ => none
  | fuel + 1, tokens => do
    let (make, rest) ← condition fuel tokens
    let (first, rest) ← block commands rest
    match rest with
    | .word "else" :: .word "if" :: rest =>
      let (second, rest) ← test fuel rest
      return (make first [second], rest)
    | .word "else" :: rest =>
      let (second, rest) ← block commands rest
      return (make first second, rest)
    | rest => return (make first [], rest)

def cases : (fuel : Nat) → Parser (List Pattern × List (List Command))
  | 0, _ => none
  | fuel + 1, tokens =>
    if tokens.head? = some (.mark "\x7d") then some (([], []), tokens.tail)
    else do
      let (pattern, rest) ← pattern fuel tokens
      let rest ← expect (.mark "=>") rest
      let (body, rest) ← block commands rest
      let ((patterns, bodies), rest) ← cases fuel rest
      return ((pattern :: patterns, body :: bodies), rest)

def during (label : String) : Parser Command := fun tokens => do
  let (cond, rest) ← expr fuel tokens
  let (body, rest) ← block commands rest
  return (.during label cond body, rest)

def line : Parser Expr := fun tokens => do
  let (value, rest) ← expr fuel tokens
  let rest ← expect (.mark ";") rest
  return (value, rest)

def command : Parser Command
  | .word "let" :: .word "mut" :: .var v :: .mark ";" :: rest => some (.declare v none, rest)
  | .word "let" :: .word "mut" :: .var v :: .mark "=" :: rest =>
    (line fuel rest).map fun (init, rest) => (.declare v (some init), rest)
  | .word "let" :: .var v :: .mark "=" :: rest =>
    (line fuel rest).map fun (value, rest) => (.fix v value, rest)
  | .word "let" :: rest => do
    let (pattern, rest) ← pattern fuel rest
    let rest ← expect (.mark "=") rest
    let (value, rest) ← line fuel rest
    return (.bind pattern value, rest)
  | .word "if" :: rest => test commands fuel rest
  | .word "match" :: rest => do
    let (value, rest) ← expr fuel rest
    let rest ← expect (.mark "\x7b") rest
    let ((patterns, bodies), rest) ← cases commands fuel rest
    return (.choose value patterns bodies, rest)
  | .word "loop" :: rest => (block commands rest).map fun (body, rest) => (.loop body, rest)
  | .label label :: .mark ":" :: .word "while" :: rest => during commands fuel label rest
  | .word "break" :: .mark ";" :: rest => some (.leave, rest)
  | .word "continue" :: .label label :: .mark ";" :: rest => some (.again label, rest)
  | .word "return" :: .mark ";" :: rest => some (.stop, rest)
  | tokens => do
    let (target, rest) ← expr fuel tokens
    if rest.head? = some (.mark "=") then
      let (value, rest) ← line fuel rest.tail
      return (.assign target value, rest)
    else
      let rest ← expect (.mark ";") rest
      return (.perform target, rest)

end Commands

def commands : (fuel : Nat) → Parser (List Command)
  | 0, _ => none
  | fuel + 1, tokens =>
    if tokens = [] ∨ tokens.head? = some (.mark "\x7d") then some ([], tokens)
    else do
      let (first, rest) ← command (commands fuel) fuel tokens
      let (more, rest) ← commands fuel rest
      return (first :: more, rest)

end Parser

def parse? (tokens : List Token) : Option (List Command) :=
  match Parser.commands (tokens.length + 16) tokens with
  | some (program, []) => some program
  | _ => none

end StagedLexer.Source
