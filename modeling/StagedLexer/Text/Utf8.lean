import StagedLexer.Bytes

/-! UTF-8 in texts that need not be well-formed. `step` reads one character or the longest start of
one; decoding a whole text replaces every malformed part by the replacement character. -/
namespace StagedLexer.Text.Utf8

inductive Step where
  | scalar (c : Char) (width : Nat)
  /-- The longest part of `width` code units that could start a character but does not. -/
  | malformed (width : Nat)
  deriving DecidableEq

def isTail (b : UInt8) : Bool := 0x80 ≤ b && b ≤ 0xbf

def second (lead : UInt8) : UInt8 × UInt8 :=
  if lead = 0xe0 then (0xa0, 0xbf)
  else if lead = 0xed then (0x80, 0x9f)
  else if lead = 0xf0 then (0x90, 0xbf)
  else if lead = 0xf4 then (0x80, 0x8f)
  else (0x80, 0xbf)

def width (lead : UInt8) : Nat :=
  if lead < 0x80 then 1
  else if 0xc2 ≤ lead && lead ≤ 0xdf then 2
  else if 0xe0 ≤ lead && lead ≤ 0xef then 3
  else if 0xf0 ≤ lead && lead ≤ 0xf4 then 4
  else 0

def stepBefore (text : Bytes) (stop i : Nat) : Step :=
  let unit (k : Nat) : Option UInt8 := if i + k < stop then text[i + k]? else none
  let bits (b : UInt8) : Nat := b.toNat % 64
  match unit 0 with
  | none => .malformed 0
  | some a =>
    match width a with
    | 0 => .malformed 1
    | 1 => .scalar (Char.ofNat a.toNat) 1
    | w =>
      let (lo, hi) := second a
      match unit 1 with
      | none => .malformed 1
      | some b =>
        if !(lo ≤ b && b ≤ hi) then .malformed 1
        else if w = 2 then .scalar (Char.ofNat (a.toNat % 32 * 64 + bits b)) 2
        else match unit 2 with
          | none => .malformed 2
          | some c =>
            if !isTail c then .malformed 2
            else if w = 3 then
              .scalar (Char.ofNat (a.toNat % 16 * 4096 + bits b * 64 + bits c)) 3
            else match unit 3 with
              | none => .malformed 3
              | some d =>
                if !isTail d then .malformed 3
                else .scalar
                  (Char.ofNat (a.toNat % 8 * 262144 + bits b * 4096 + bits c * 64 + bits d)) 4

def charAt? (text : Bytes) (i : Nat) : Option (Char × Nat) :=
  match stepBefore text text.size i with
  | .scalar c w => some (c, w)
  | .malformed _ => none

/-- The last character of the first `stop` code units: the one that starts at the nearest first
code unit among the last four. Code units behind its end are not looked at. -/
def charBefore? (text : Bytes) (stop : Nat) : Option Char :=
  let leads (i : Nat) : Bool :=
    match text[i]? with
    | some b => !isTail b
    | none => true
  let start :=
    if stop ≤ 1 || leads (stop - 1) then stop - 1
    else if stop ≤ 2 || leads (stop - 2) then stop - 2
    else if stop ≤ 3 || leads (stop - 3) then stop - 3
    else stop - 4
  match stepBefore text stop start with
  | .scalar c _ => some c
  | .malformed _ => none

def replacement : Char := Char.ofNat 0xfffd

def decodeFrom (text : Bytes) : (fuel i : Nat) → List Char
  | 0, _ => []
  | fuel + 1, i =>
    if i < text.size then
      match stepBefore text text.size i with
      | .scalar c w => c :: decodeFrom text fuel (i + w)
      | .malformed w => replacement :: decodeFrom text fuel (i + w)
    else []

def decode (text : Bytes) : String := String.ofList (decodeFrom text text.size 0)

end StagedLexer.Text.Utf8
