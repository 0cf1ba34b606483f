import Std.Data.HashMap

/-! Names for the variables of emitted source: `a`, `b`, …, `z`, `aa`, `ab`, … without the words
that have a meaning there. A variable gets its name when it is first met. -/
namespace StagedLexer.Code

/-- The letters of the name with the given number: shorter names come first, names of one length in
alphabetical order. -/
def nameLetters (n : Nat) : List Char :=
  if n < 26 then [Char.ofNat ('a'.toNat + n)]
  else nameLetters (n / 26 - 1) ++ [Char.ofNat ('a'.toNat + n % 26)]
termination_by n
decreasing_by omega

def alphabeticName (n : Nat) : String := String.ofList (nameLetters n)

def reserved : List String := [
  "as", "do", "fn", "if", "in", "box", "ctx", "dyn", "for", "let", "mod", "mut", "pub", "ref",
  "try", "use", "else", "enum", "impl", "loop", "move", "priv", "self", "true", "type", "async",
  "await", "break", "chunk", "const", "crate", "false", "final", "macro", "match", "stage",
  "state", "super", "trait", "union", "where", "while", "yield", "become", "extern", "offset",
  "return", "rules", "static", "struct", "typeof", "unsafe", "values", "handler", "unsized",
  "virtual", "abstract", "continue", "override", "streaming"]

def nextFree : (fuel n : Nat) → String × Nat
  | 0, n => (alphabeticName n, n + 1)
  | fuel + 1, n =>
    if reserved.contains (alphabeticName n) then nextFree fuel (n + 1)
    else (alphabeticName n, n + 1)

structure Names where
  names : Std.HashMap Nat String := {}
  counter : Nat := 0

def Names.name (names : Names) (var : Nat) : String × Names :=
  match names.names[var]? with
  | some name => (name, names)
  | none =>
    let (name, counter) := nextFree reserved.length names.counter
    (name, { names := names.names.insert var name, counter })

def Names.nameAll (names : Names) : List Nat → List String × Names
  | [] => ([], names)
  | var :: rest =>
    let (name, names) := names.name var
    let (more, names) := names.nameAll rest
    (name :: more, names)

end StagedLexer.Code
