import StagedLexer.Text.CodeSet
import StagedLexer.Text.Utf8

/-! Sets of characters in UTF-8. A set is cut into ranges whose members have encodings of one length
that differ freely in each code unit, so that such a range is a sequence of ranges of code units. -/
namespace StagedLexer.Text

abbrev UnitRange := UInt8 × UInt8

namespace Encoded

/-- The last code point in front of which a range has to be cut, if there is one: at an end of the
code points with encodings of one length, at the surrogates, or where a code unit cannot take all
values behind those in front of it. -/
def cut? (lo hi : Nat) : Option Nat :=
  let fixed := [0x7f, 0x7ff, 0xd7ff, 0xdfff, 0xffff].find? fun last => lo ≤ last && last < hi
  fixed.or <| [0x40, 0x1000, 0x40000].findSome? fun block =>
    if hi ≤ 0x7f || lo / block = hi / block then none
    else if lo % block ≠ 0 then some (lo / block * block + block - 1)
    else if hi % block ≠ block - 1 then some (hi / block * block - 1)
    else none

def parts (lo hi : Nat) : List (Nat × Nat) :=
  match cut? lo hi with
  | none => [(lo, hi)]
  | some last =>
    if _ : lo ≤ last ∧ last < hi then parts lo last ++ parts (last + 1) hi else [(lo, hi)]
termination_by hi - lo

def units (code : Nat) : List UInt8 := Bytes.ofString (String.singleton (Char.ofNat code))

def sequences (set : CodeSet) : List (List UnitRange) :=
  let ranges := set.ranges.toList.flatMap fun (lo, hi) => parts lo hi
  (ranges.filter fun (lo, _) => lo.isValidChar).map fun (lo, hi) => (units lo).zip (units hi)

end Encoded

end StagedLexer.Text
