/-! Sets of characters, kept as sorted lists of disjoint inclusive ranges of code points. Membership
is a binary search; the set operations work on the ranges and never enumerate their members.
Surrogates are no characters: a range may pass over them, but none starts or ends there. -/
namespace StagedLexer.Text

structure CodeSet where
  ranges : Array (Nat × Nat)
  deriving DecidableEq, Repr

namespace CodeSet

def top : Nat := 0x10ffff

def empty : CodeSet := ⟨#[]⟩

def isEmpty (set : CodeSet) : Bool := set.ranges.isEmpty

def searchBetween (ranges : Array (Nat × Nat)) (code lo hi : Nat) : Bool :=
  if lo < hi then
    let mid := (lo + hi) / 2
    match ranges[mid]? with
    | none => false
    | some (first, last) =>
      if code < first then searchBetween ranges code lo mid
      else if last < code then searchBetween ranges code (mid + 1) hi
      else true
  else false
termination_by hi - lo

def contains (set : CodeSet) (code : Nat) : Bool :=
  searchBetween set.ranges code 0 set.ranges.size

def next (code : Nat) : Nat := if code = 0xd7ff then 0xe000 else code + 1

def previous (code : Nat) : Nat := if code = 0xe000 then 0xd7ff else code - 1

def joinSorted : List (Nat × Nat) → List (Nat × Nat)
  | [] => []
  | [range] => [range]
  | (lo, hi) :: (lo', hi') :: rest =>
    if lo' ≤ next hi then joinSorted ((lo, max hi hi') :: rest)
    else (lo, hi) :: joinSorted ((lo', hi') :: rest)
termination_by ranges => ranges.length

def insertByLower (range : Nat × Nat) : List (Nat × Nat) → List (Nat × Nat)
  | [] => [range]
  | other :: rest =>
    if range.1 ≤ other.1 then range :: other :: rest else other :: insertByLower range rest

def ofRanges (ranges : List (Nat × Nat)) : CodeSet :=
  let proper := ranges.filter fun range => range.1 ≤ range.2
  ⟨(joinSorted (proper.foldr insertByLower [])).toArray⟩

def singleton (code : Nat) : CodeSet := ⟨#[(code, code)]⟩

def union (left right : CodeSet) : CodeSet :=
  ofRanges (left.ranges.toList ++ right.ranges.toList)

def gaps (start : Nat) : List (Nat × Nat) → List (Nat × Nat)
  | [] => if start ≤ top then [(start, top)] else []
  | (lo, hi) :: rest =>
    if start < lo then (start, previous lo) :: gaps (next hi) rest else gaps (next hi) rest

def complement (set : CodeSet) : CodeSet := ⟨(gaps 0 set.ranges.toList).toArray⟩

def inter (left right : CodeSet) : CodeSet := (left.complement.union right.complement).complement

def diff (left right : CodeSet) : CodeSet := left.inter right.complement

def symmDiff (left right : CodeSet) : CodeSet := (left.union right).diff (left.inter right)

def hexDigit? (c : Char) : Option Nat :=
  if '0' ≤ c && c ≤ '9' then some (c.toNat - '0'.toNat)
  else if 'A' ≤ c && c ≤ 'F' then some (c.toNat - 'A'.toNat + 10)
  else none

def rangeBetween (lo hi : Option Nat) : List (Nat × Nat) :=
  match hi with
  | some hi => [(lo.getD hi, hi)]
  | none => []

/-- Reads a list of ranges: hexadecimal numbers, of which a hyphen joins the two ends of a range,
with blanks between ranges. `lo` is the lower end of the current range, if it has been read, and
`code` the number read so far. -/
def readRanges (lo code : Option Nat) : List Char → List (Nat × Nat)
  | [] => rangeBetween lo code
  | c :: rest =>
    match hexDigit? c with
    | some digit => readRanges lo (some (code.getD 0 * 16 + digit)) rest
    | none =>
      if c = '-' then readRanges code none rest
      else rangeBetween lo code ++ readRanges none none rest

def ofText (text : String) : CodeSet := ofRanges (readRanges none none text.toList)

end CodeSet

end StagedLexer.Text
