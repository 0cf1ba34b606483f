/-! Places in a pattern, the ways a pattern can be malformed, and the report that shows the place of
an error under the pattern. -/
namespace StagedLexer.Regex

structure Position where
  index : Nat := 0
  line : Nat := 1
  column : Nat := 1
  deriving DecidableEq, Repr

structure Span where
  start : Position
  stop : Position
  deriving DecidableEq, Repr

namespace Span

def point (p : Position) : Span := ⟨p, p⟩

def isOneLine (span : Span) : Bool := span.start.line == span.stop.line

def le (a b : Span) : Bool :=
  a.start.index < b.start.index ||
    (a.start.index == b.start.index && a.stop.index ≤ b.stop.index)

end Span

inductive SyntaxErrorKind where
  | classEscapeInvalid
  | classRangeInvalid
  | classRangeLiteral
  | classUnclosed
  | decimalEmpty
  | decimalInvalid
  | hexEmpty
  | hexInvalid
  | hexInvalidDigit
  | escapeUnexpectedEnd
  | escapeUnrecognized
  | flagDanglingNegation
  | flagDuplicate (first : Span)
  | flagRepeatedNegation (first : Span)
  | flagUnexpectedEnd
  | flagUnrecognized
  | groupNameDuplicate (first : Span)
  | groupNameEmpty
  | groupNameInvalid
  | groupNameUnexpectedEnd
  | groupUnclosed
  | groupUnopened
  | nestLimitExceeded (limit : Nat)
  | countInvalid
  | countDecimalEmpty
  | countUnclosed
  | repetitionMissing
  | wordBoundaryUnclosed
  | wordBoundaryUnrecognized
  | wordBoundaryOrCountUnexpectedEnd
  | unicodeClassInvalid
  | backreference
  | lookAround
  deriving DecidableEq, Repr

namespace SyntaxErrorKind

def message : SyntaxErrorKind → String
  | classEscapeInvalid => "invalid escape sequence found in character class"
  | classRangeInvalid => "invalid character class range, the start must be <= the end"
  | classRangeLiteral => "invalid range boundary, must be a literal"
  | classUnclosed => "unclosed character class"
  | decimalEmpty => "decimal literal empty"
  | decimalInvalid => "decimal literal invalid"
  | hexEmpty => "hexadecimal literal empty"
  | hexInvalid => "hexadecimal literal is not a Unicode scalar value"
  | hexInvalidDigit => "invalid hexadecimal digit"
  | escapeUnexpectedEnd => "incomplete escape sequence, reached end of pattern prematurely"
  | escapeUnrecognized => "unrecognized escape sequence"
  | flagDanglingNegation => "dangling flag negation operator"
  | flagDuplicate _ => "duplicate flag"
  | flagRepeatedNegation _ => "flag negation operator repeated"
  | flagUnexpectedEnd => "expected flag but got end of regex"
  | flagUnrecognized => "unrecognized flag"
  | groupNameDuplicate _ => "duplicate capture group name"
  | groupNameEmpty => "empty capture group name"
  | groupNameInvalid => "invalid capture group character"
  | groupNameUnexpectedEnd => "unclosed capture group name"
  | groupUnclosed => "unclosed group"
  | groupUnopened => "unopened group"
  | nestLimitExceeded limit =>
    "exceed the maximum number of nested parentheses/brackets (" ++ toString limit ++ ")"
  | countInvalid => "invalid repetition count range, the start must be <= the end"
  | countDecimalEmpty => "repetition quantifier expects a valid decimal"
  | countUnclosed => "unclosed counted repetition"
  | repetitionMissing => "repetition operator missing expression"
  | wordBoundaryUnclosed =>
    "special word boundary assertion is either unclosed or contains an invalid character"
  | wordBoundaryUnrecognized =>
    "unrecognized special word boundary assertion, " ++
      "valid choices are: start, end, start-half or end-half"
  | wordBoundaryOrCountUnexpectedEnd =>
    "found either the beginning of a special word boundary or a bounded repetition " ++
      "on a \\b with an opening brace, but no closing brace"
  | unicodeClassInvalid => "invalid Unicode character class"
  | backreference => "backreferences are not supported"
  | lookAround => "look-around, including look-ahead and look-behind, is not supported"

def first? : SyntaxErrorKind → Option Span
  | flagDuplicate first | flagRepeatedNegation first | groupNameDuplicate first => some first
  | _ => none

end SyntaxErrorKind

structure SyntaxError where
  kind : SyntaxErrorKind
  span : Span
  deriving DecidableEq, Repr

/-- The lines of a pattern. A line ends at a line feed, which may follow a carriage return; nothing
behind the last line feed is no line. -/
def patternLines (pattern : String) : List String :=
  let parts := (pattern.splitOn "\n")
  let complete := parts.dropLast.map fun line =>
    if line.endsWith "\r" then (line.dropEnd 1).toString else line
  match parts.getLast? with
  | none | some "" => complete
  | some last => complete ++ [last]

namespace SyntaxError

def spans (e : SyntaxError) : List Span :=
  match e.kind.first? with
  | none => [e.span]
  | some first => if first.le e.span then [first, e.span] else [e.span, first]

def marks (filled : Nat) : List Span → String
  | [] => ""
  | span :: rest =>
    let width := max 1 (span.stop.column - span.start.column)
    let blank := span.start.column - 1 - filled
    "".pushn ' ' blank ++ "".pushn '^' width ++ marks (filled + blank + width) rest

/-- The report of an error: the pattern with the places marked, and the message. A pattern of
several lines is shown with line numbers between two rulers, and places that extend over a line end
are given in words. -/
def report (e : SyntaxError) (pattern : String) : String :=
  let lines := patternLines pattern
  let count := lines.length + if pattern.endsWith "\n" then 1 else 0
  let digits := if count ≤ 1 then 0 else (toString count).length
  let shown := lines.zipIdx.map fun (line, i) =>
    let number := toString (i + 1)
    let head :=
      if digits = 0 then "    " else "".pushn ' ' (digits - number.length) ++ number ++ ": "
    let here := e.spans.filter fun span => span.isOneLine && span.start.line == i + 1
    let below :=
      if here.isEmpty then ""
      else "".pushn ' ' (if digits = 0 then 4 else digits + 2) ++ marks 0 here ++ "\n"
    head ++ line ++ "\n" ++ below
  let body := String.join shown
  let wide := e.spans.filter fun span => !span.isOneLine
  let notes := wide.map fun span =>
    "on line " ++ toString span.start.line ++ " (column " ++ toString span.start.column ++
      ") through line " ++ toString span.stop.line ++ " (column " ++
      toString (span.stop.column - 1) ++ ")\n"
  let ruler := "".pushn '~' 79 ++ "\n"
  "regex parse error:\n" ++
    (if pattern.contains '\n' then ruler ++ body ++ ruler ++ String.join notes else body) ++
    "error: " ++ e.kind.message

end SyntaxError

end StagedLexer.Regex
