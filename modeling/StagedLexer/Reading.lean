/-! The outcomes of a read operation. -/
namespace StagedLexer

/-- The code of an application error. Codes lie below -1, which stands for "no match" where
outcomes are written as numbers. -/
structure ErrorCode where
  value : Int
  isError : value < -1 := by decide
  deriving DecidableEq

inductive Reading where
  | matched (stop : Nat)
  | noMatch
  | failed (code : ErrorCode)
  | endless
  deriving DecidableEq

namespace Reading

def ofInt (value : Int) : Reading :=
  if 0 ≤ value then .matched value.toNat
  else if h : value < -1 then .failed ⟨value, h⟩
  else .noMatch

def toInt? : Reading → Option Int
  | matched stop => some stop
  | noMatch => some (-1)
  | failed code => some code.value
  | endless => none

def andThen (reading : Reading) (next : Nat → Reading) : Reading :=
  match reading with
  | matched stop => next stop
  | other => other

def orElse (reading : Reading) (other : Unit → Reading) : Reading :=
  match reading with
  | noMatch => other ()
  | outcome => outcome

def settle (min count pos : Nat) : Reading := if min ≤ count then .matched pos else .noMatch

/-- Repeats a reading from `pos` on for at most `rounds` rounds, `count` of them done before. A
round that does not match or does not move ends the repetition and does not count. When the rounds
are used up, a repetition with an upper bound is complete, and one without has no end. -/
def repeatFrom (read : Nat → Reading) (min : Nat) (bounded : Bool) :
    (rounds count pos : Nat) → Reading
  | 0, count, pos => if bounded then settle min count pos else .endless
  | rounds + 1, count, pos =>
    match read pos with
    | .matched stop =>
      if stop = pos then settle min count pos
      else repeatFrom read min bounded rounds (count + 1) stop
    | .noMatch => settle min count pos
    | other => other

def seekFrom (read : Nat → Reading) (inclusive : Bool) (missing : Reading) :
    (more pos : Nat) → Reading
  | 0, pos =>
    match read pos with
    | .matched stop => .matched (if inclusive then stop else pos)
    | .noMatch => missing
    | other => other
  | more + 1, pos =>
    match read pos with
    | .matched stop => .matched (if inclusive then stop else pos)
    | .noMatch => seekFrom read inclusive missing more (pos + 1)
    | other => other

end Reading

end StagedLexer
