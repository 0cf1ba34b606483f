import StagedLexer.Text.Quoted

/-! Sets of code units, and the pattern by which emitted source tests for membership. -/
namespace StagedLexer

/-- A set of code units in four words: `b` is a member if bit `b % 64` of word `b / 64` is set. -/
structure ByteSet where
  words : Vector UInt64 4
  deriving DecidableEq

namespace ByteSet

def empty : ByteSet := ⟨.replicate 4 0⟩

def slot (b : UInt8) : Fin 4 :=
  ⟨(b >>> 6).toNat, by
    have := b.toNat_lt
    rw [UInt8.toNat_shiftRight, Nat.shiftRight_eq_div_pow]
    exact (by omega : b.toNat / 64 < 4)⟩

def wordOf (set : ByteSet) (b : UInt8) : UInt64 := set.words[slot b]

def mask (b : UInt8) : UInt64 := 1 <<< (b &&& 63).toUInt64

def contains (set : ByteSet) (b : UInt8) : Bool := set.wordOf b &&& mask b != 0

def insert (set : ByteSet) (b : UInt8) : ByteSet :=
  ⟨set.words.set (slot b) (set.wordOf b ||| mask b)⟩

def insertRange (set : ByteSet) (lo hi : UInt8) : ByteSet :=
  (List.range (hi.toNat + 1 - lo.toNat)).foldl
    (fun set i => set.insert (UInt8.ofNat (lo.toNat + i))) set

def ofBytes (units : List UInt8) : ByteSet := units.foldl insert empty

def range? (lo hi : UInt8) : Option ByteSet :=
  if hi < lo then none else some (empty.insertRange lo hi)

def complement (set : ByteSet) : ByteSet := ⟨set.words.map (~~~·)⟩

def union (left right : ByteSet) : ByteSet := ⟨.zipWith (· ||| ·) left.words right.words⟩

def isEmpty (set : ByteSet) : Bool := set.words.toList.all (· == 0)

def size (set : ByteSet) : Nat :=
  set.words.foldl (fun count word => count + word.toBitVec.cpop.toNat) 0

def allUnits : List UInt8 := (List.range 256).map UInt8.ofNat

def rangesIn (set : ByteSet) (start : Option UInt8) : (units : List UInt8) → List (UInt8 × UInt8)
  | [] =>
    match start with
    | some lo => [(lo, 255)]
    | none => []
  | b :: rest =>
    match set.contains b, start with
    | true, none => rangesIn set (some b) rest
    | false, some lo => (lo, b - 1) :: rangesIn set none rest
    | _, _ => rangesIn set start rest

def ranges (set : ByteSet) : List (UInt8 × UInt8) := set.rangesIn none allUnits

def rangeText (text : UInt8 → String) (separator : String) (range : UInt8 × UInt8) : String :=
  if range.1 = range.2 then text range.1 else text range.1 ++ separator ++ text range.2

def byteLiteral (b : UInt8) : String := "b'" ++ Text.escapeUnit b ++ "'"

/-- The pattern that matches the members in emitted source, e.g. `b'0'..=b'9' | b'_'`. -/
def pattern (set : ByteSet) : String :=
  String.intercalate " | " (set.ranges.map (rangeText byteLiteral "..="))

def describe (set : ByteSet) : String :=
  "CharSet" ++ Text.bracketed (set.ranges.map (rangeText Text.escapeUnit "-"))

end ByteSet

end StagedLexer
