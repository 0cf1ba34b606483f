import StagedLexer.Source.Token

/-! Programs of emitted source: expressions, patterns and commands. Variables of the fragments are
numbers, everything else that has a name keeps it. -/
namespace StagedLexer.Source

inductive Pattern where
  | anything
  | name (name : String)
  | text (text : String)
  | some (inside : Pattern)
  | tuple (parts : List (Option String))
  | emptySlice
  /-- A slice that starts with a code unit of one of the ranges. -/
  | startsIn (name : String) (ranges : List (UInt8 × UInt8))
  | fields (type : String) (names : List String)

inductive Operator where
  | plus
  | minus
  | equal
  | differs
  | less
  | greater
  | atMost
  | atLeast
  | both

mutual
inductive Expr where
  | number (value : Nat)
  | size (value : Nat)
  | text (text : String)
  | units (units : List UInt8)
  | var (var : Nat)
  | name (name : String)
  | absent (types : List Token)
  | paren (inner : Expr)
  | negative (inner : Expr)
  | content (inner : Expr)
  | borrow (inner : Expr)
  | cast (inner : Expr) (type : String)
  | binary (operator : Operator) (left right : Expr)
  | fromOn (start : Expr)
  | upTo (stop : Expr)
  | index (inner place : Expr)
  | call (path : List String) (arguments : List Expr)
  | method (receiver : Expr) (name : String) (arguments : List Expr)
  | tuple (items : List Expr)
  | either (cond first second : Expr)
  | choose (inner : Expr) (arms : Arms)
inductive Arms where
  | done
  | plain (pattern : Pattern) (value : Expr) (rest : Arms)
  | guarded (pattern : Pattern) (guard value : Expr) (rest : Arms)
end

inductive Command where
  | declare (var : Nat) (init : Option Expr)
  | fix (var : Nat) (value : Expr)
  | bind (pattern : Pattern) (value : Expr)
  | assign (target value : Expr)
  | perform (action : Expr)
  | test (cond : Expr) (first second : List Command)
  | testPattern (pattern : Pattern) (value : Expr) (first second : List Command)
  | choose (value : Expr) (patterns : List Pattern) (bodies : List (List Command))
  | loop (body : List Command)
  | during (label : String) (cond : Expr) (body : List Command)
  | leave
  | again (label : String)
  | stop

end StagedLexer.Source
