/-! Texts as sequences of code units, and the comparisons of literals with a part of a text. -/
namespace StagedLexer

abbrev Bytes := Array UInt8

namespace Bytes

def lower (b : UInt8) : UInt8 := if 0x41 ≤ b ∧ b ≤ 0x5a then b + 0x20 else b

def isLetter (b : UInt8) : Bool := (0x41 ≤ b ∧ b ≤ 0x5a) ∨ (0x61 ≤ b ∧ b ≤ 0x7a)

def holdsAt (text : Bytes) (i : Nat) : List UInt8 → Bool
  | [] => true
  | b :: rest => text[i]? == some b && holdsAt text (i + 1) rest

def holdsAnyCaseAt (text : Bytes) (i : Nat) : List UInt8 → Bool
  | [] => true
  | b :: rest => text[i]?.map lower == some (lower b) && holdsAnyCaseAt text (i + 1) rest

def ofString (s : String) : List UInt8 := s.toUTF8.toList

end Bytes

end StagedLexer
