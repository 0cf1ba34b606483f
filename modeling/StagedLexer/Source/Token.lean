import StagedLexer.Code.Basic
import StagedLexer.Text.Literal

/-! The tokens of emitted source. The text of a fragment is taken apart sign by sign, where a
variable is a sign of its own. Blanks and line breaks divide tokens. -/
namespace StagedLexer.Source

inductive Token where
  | word (text : String)
  | mark (text : String)
  | number (value : Nat)
  | size (value : Nat)
  | text (text : String)
  | units (units : List UInt8)
  | unit (unit : UInt8)
  | label (name : String)
  | var (var : Nat)
  | unknown
  deriving DecidableEq

inductive Sign where
  | char (c : Char)
  | var (var : Nat)

namespace Token

def ofLetters (letters : List Char) : Token :=
  if letters.head?.any Char.isDigit then
    match String.ofList (letters.dropWhile Char.isDigit) with
    | "" => number (Nat.ofDigitChars 10 letters 0)
    | "usize" => size (Nat.ofDigitChars 10 (letters.takeWhile Char.isDigit) 0)
    | _ => unknown
  else word (String.ofList letters)

def ofQuoted (letters : List Char) : Token :=
  match Text.stringAt? letters, Text.byteStringAt? letters, Text.byteAt? letters with
  | some (s, []), _, _ => text s
  | _, some (us, []), _ => units us
  | _, _, some (b, []) => unit b
  | _, _, _ => unknown

end Token

def isWordChar (c : Char) : Bool := c.isAlphanum || c == '_'

def simpleMarks : List Char := "()[]\x7b\x7d,;:.=!<>&|+-*@".toList

/-- The marks of more than one character. Each without its last character is a mark as well. -/
def joinedMarks : List String := ["==", "!=", "<=", ">=", "=>", "&&", "::", "..", "..="]

inductive Pending where
  | nothing
  | word (letters : List Char)
  | label (letters : List Char)
  | mark (front : String)
  | quoted (text : List Char) (quote : Char) (escaped : Bool)
  | var (var : Nat)

namespace Pending

def finish : Pending → List Token
  | nothing => []
  | word letters => [.ofLetters letters.reverse]
  | label letters => [.label (String.ofList letters.reverse)]
  | mark joined => [.mark joined]
  | quoted _ _ _ => [.unknown]
  | var v => [.var v]

def start : Sign → List Token × Pending
  | .var v => ([], var v)
  | .char c =>
    if c = ' ' ∨ c = '\n' then ([], nothing)
    else if isWordChar c then ([], word [c])
    else if c = '"' then ([], quoted ['"'] '"' false)
    else if c = '\'' then ([], label [])
    else if simpleMarks.contains c then ([], mark (String.singleton c))
    else ([.unknown], nothing)

def extend? (c : Char) : Pending → Option Pending
  | word letters =>
    if isWordChar c then some (word (c :: letters))
    else if letters = ['b'] ∧ (c = '"' ∨ c = '\'') then some (quoted [c, 'b'] c false)
    else none
  | label letters => if isWordChar c then some (label (c :: letters)) else none
  | mark front => if joinedMarks.contains (front.push c) then some (mark (front.push c)) else none
  | nothing | quoted _ _ _ | var _ => none

/-- Words, labels and variables have to be divided from each other and from quotes. -/
def clashes : Pending → Sign → Bool
  | word _, .char c | label _, .char c | var _, .char c => isWordChar c || c = '"' || c = '\''
  | word _, .var _ | label _, .var _ | var _, .var _ => true
  | nothing, _ | mark _, _ | quoted _ _ _, _ => false

def divide (pending : Pending) (sign : Sign) : List Token × Pending :=
  if pending.clashes sign then ([.unknown], nothing)
  else (pending.finish ++ (start sign).1, (start sign).2)

def step (pending : Pending) (sign : Sign) : List Token × Pending :=
  match pending, sign with
  | quoted text quote escaped, .char c =>
    if c = quote ∧ escaped = false then ([.ofQuoted (c :: text).reverse], nothing)
    else ([], quoted (c :: text) quote (c = '\\' && !escaped))
  | pending, .char c =>
    match pending.extend? c with
    | some more => ([], more)
    | none => pending.divide (.char c)
  | pending, .var v => pending.divide (.var v)

def run : Pending → List Sign → List Token × Pending
  | pending, [] => ([], pending)
  | pending, sign :: rest =>
    let (first, pending) := pending.step sign
    let (more, pending) := run pending rest
    (first ++ more, pending)

end Pending

def signsOf (text : String) : List Sign := text.toList.map .char

end Source

namespace Code

open Source

def Piece.signs : Piece → List Sign
  | text written => signsOf written
  | var v => [.var v]

def signs (code : Code) : List Sign := code.pieces.flatMap Piece.signs

def tokens (code : Code) : List Token :=
  let (tokens, pending) := Pending.run .nothing code.signs
  tokens ++ pending.finish

end Code

end StagedLexer
