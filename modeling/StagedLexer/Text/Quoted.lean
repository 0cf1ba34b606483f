import StagedLexer.Text.Category

/-! Escaped forms of code units, characters and strings, as they stand in messages and in emitted
source: a code unit in a byte literal, a string between double quotes, and a string of printable
ASCII characters only. -/
namespace StagedLexer.Text

def hex (n : Nat) : String := String.ofList (Nat.toDigits 16 n)

def hex2 (n : Nat) : String := String.ofList [Nat.digitChar (n / 16 % 16), Nat.digitChar (n % 16)]

/-- A code unit in a byte literal: quotes, the backslash and everything outside of printable ASCII
are escaped. -/
def escapeUnit (b : UInt8) : String :=
  if b = 0x09 then "\\t"
  else if b = 0x0d then "\\r"
  else if b = 0x0a then "\\n"
  else if b = 0x27 then "\\'"
  else if b = 0x22 then "\\\""
  else if b = 0x5c then "\\\\"
  else if 0x20 ≤ b && b ≤ 0x7e then String.singleton (Char.ofNat b.toNat)
  else "\\x" ++ hex2 b.toNat

def escapeCode (c : Char) : String := "\\u\x7b" ++ hex c.toNat ++ "\x7d"

def quoteChar (c : Char) : String :=
  if c = '\x00' then "\\0"
  else if c = '\t' then "\\t"
  else if c = '\r' then "\\r"
  else if c = '\n' then "\\n"
  else if c = '"' then "\\\""
  else if c = '\\' then "\\\\"
  else if extendsGrapheme c || !isPrintable c then escapeCode c
  else String.singleton c

def quote (s : String) : String := "\"" ++ String.join (s.toList.map quoteChar) ++ "\""

def plainChar (c : Char) : String :=
  if c = '\t' then "\\t"
  else if c = '\r' then "\\r"
  else if c = '\n' then "\\n"
  else if c = '\'' then "\\'"
  else if c = '"' then "\\\""
  else if c = '\\' then "\\\\"
  else if ' ' ≤ c && c ≤ '~' then String.singleton c
  else escapeCode c

def plain (s : String) : String := String.join (s.toList.map plainChar)

def optional : Option String → String
  | none => "None"
  | some text => "Some(" ++ text ++ ")"

def bracketed (texts : List String) : String := "[" ++ String.intercalate ", " texts ++ "]"

end StagedLexer.Text
