import StagedLexer.Regex.SyntaxError

/-! Patterns as they are written: every part keeps its place, and nothing is resolved yet. -/
namespace StagedLexer.Regex

inductive Flag where
  | ignoreCase | multiLine | dotMatchesLineFeed | swapGreed | unicode | carriageReturns
  | ignoreSpace
  deriving DecidableEq, Repr

/-- One character between the parentheses of a group of flags; `none` is the negation sign. -/
structure FlagItem where
  span : Span
  flag : Option Flag
  deriving DecidableEq, Repr

def flagState (flag : Flag) (negated : Bool) : List FlagItem → Option Bool
  | [] => none
  | item :: rest =>
    match item.flag with
    | none => flagState flag true rest
    | some other => if other = flag then some (!negated) else flagState flag negated rest

inductive Shorthand where
  | digit | blank | word
  deriving DecidableEq, Repr

inductive AsciiClass where
  | alnum | alpha | ascii | blank | cntrl | digit | graph | lower | print | punct | space | upper
  | word | xdigit
  deriving DecidableEq, Repr

namespace AsciiClass

def ofName? : String → Option AsciiClass
  | "alnum" => some alnum
  | "alpha" => some alpha
  | "ascii" => some ascii
  | "blank" => some blank
  | "cntrl" => some cntrl
  | "digit" => some digit
  | "graph" => some graph
  | "lower" => some lower
  | "print" => some print
  | "punct" => some punct
  | "space" => some space
  | "upper" => some upper
  | "word" => some word
  | "xdigit" => some xdigit
  | _ => none

def ranges : AsciiClass → List (Char × Char)
  | alnum => [('0', '9'), ('A', 'Z'), ('a', 'z')]
  | alpha => [('A', 'Z'), ('a', 'z')]
  | ascii => [('\x00', '\x7f')]
  | blank => [('\t', '\t'), (' ', ' ')]
  | cntrl => [('\x00', '\x1f'), ('\x7f', '\x7f')]
  | digit => [('0', '9')]
  | graph => [('!', '~')]
  | lower => [('a', 'z')]
  | print => [(' ', '~')]
  | punct => [('!', '/'), (':', '@'), ('[', '\x60'), ('\x7b', '~')]
  | space => [('\t', '\r'), (' ', ' ')]
  | upper => [('A', 'Z')]
  | word => [('0', '9'), ('A', 'Z'), ('_', '_'), ('a', 'z')]
  | xdigit => [('0', '9'), ('A', 'F'), ('a', 'f')]

end AsciiClass

inductive ClassQuery where
  | named (name : String)
  | valued (name value : String)
  deriving DecidableEq, Repr

structure Literal where
  span : Span
  char : Char
  isUnit : Bool := false
  deriving DecidableEq, Repr

inductive ClassOp where
  | intersection | difference | symmetricDifference
  deriving DecidableEq, Repr

inductive ClassSet where
  | empty (span : Span)
  | literal (literal : Literal)
  | range (span : Span) (first last : Literal)
  | ascii (span : Span) (kind : AsciiClass) (negated : Bool)
  | unicode (span : Span) (negated : Bool) (query : ClassQuery)
  | shorthand (span : Span) (kind : Shorthand) (negated : Bool)
  | bracketed (span : Span) (negated : Bool) (inner : ClassSet)
  | union (span : Span) (items : List ClassSet)
  | op (span : Span) (kind : ClassOp) (left right : ClassSet)
  deriving Repr

inductive Assertion where
  | startLine | endLine | startText | endText
  | wordBoundary | notWordBoundary
  | wordStart | wordEnd | wordStartHalf | wordEndHalf
  deriving DecidableEq, Repr

inductive Pattern where
  | empty (span : Span)
  | flags (span : Span) (items : List FlagItem)
  | literal (literal : Literal)
  | dot (span : Span)
  | assertion (span : Span) (kind : Assertion)
  | unicode (span : Span) (negated : Bool) (query : ClassQuery)
  | shorthand (span : Span) (kind : Shorthand) (negated : Bool)
  | bracketed (span : Span) (negated : Bool) (inner : ClassSet)
  | repetition (span : Span) (min : Nat) (max : Option Nat) (greedy : Bool) (inner : Pattern)
  | group (span : Span) (items : List FlagItem) (capturing : Bool) (inner : Pattern)
  | alternation (span : Span) (items : List Pattern)
  | concat (span : Span) (items : List Pattern)
  deriving Repr

namespace ClassSet

def span : ClassSet → Span
  | empty span | range span _ _ | ascii span _ _ | unicode span _ _ | shorthand span _ _
  | bracketed span _ _ | union span _ | op span _ _ _ => span
  | literal l => l.span

end ClassSet

namespace Pattern

def span : Pattern → Span
  | empty span | flags span _ | dot span | assertion span _ | unicode span _ _
  | shorthand span _ _ | bracketed span _ _ | repetition span _ _ _ _ | group span _ _ _
  | alternation span _ | concat span _ => span
  | literal l => l.span

def ofConcat (span : Span) : List Pattern → Pattern
  | [] => empty span
  | [item] => item
  | items => concat span items

def nestLimit : Nat := 250

def enter (depth : Nat) (span : Span) : Except SyntaxError Unit :=
  if nestLimit ≤ depth then .error ⟨.nestLimitExceeded nestLimit, span⟩ else .ok ()

mutual
def checkSet (depth : Nat) : ClassSet → Except SyntaxError Unit
  | .bracketed span _ inner => do
    enter depth span
    checkSet (depth + 1) inner
  | .union span items => do
    enter depth span
    checkSets (depth + 1) items
  | .op span _ left right => do
    enter depth span
    checkSet (depth + 1) left
    checkSet (depth + 1) right
  | _ => .ok ()
def checkSets (depth : Nat) : List ClassSet → Except SyntaxError Unit
  | [] => .ok ()
  | item :: rest => do
    checkSet depth item
    checkSets depth rest
end

mutual
def checkNesting (depth : Nat) : Pattern → Except SyntaxError Unit
  | .bracketed span negated inner => checkSet depth (.bracketed span negated inner)
  | .repetition span _ _ _ inner => do
    enter depth span
    checkNesting (depth + 1) inner
  | .group span _ _ inner => do
    enter depth span
    checkNesting (depth + 1) inner
  | .alternation span items => do
    enter depth span
    checkAllNesting (depth + 1) items
  | .concat span items => do
    enter depth span
    checkAllNesting (depth + 1) items
  | _ => .ok ()
def checkAllNesting (depth : Nat) : List Pattern → Except SyntaxError Unit
  | [] => .ok ()
  | item :: rest => do
    checkNesting depth item
    checkAllNesting depth rest
end

end Pattern

end StagedLexer.Regex
