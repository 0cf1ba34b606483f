import StagedLexer.Regex.Program
import StagedLexer.Text.Category
import StagedLexer.Text.Utf8

/-! Running programs on texts. All ways through the program advance together, one character at a
time, in the order of preference; a way that reaches an instruction already reached at the same
position is given up. -/
namespace StagedLexer.Regex

open StagedLexer.Text

def isWordUnit (b : UInt8) : Bool :=
  Bytes.isLetter b || (0x30 ≤ b && b ≤ 0x39) || b == 0x5f

namespace Look

def wordBefore (unicode : Bool) (text : Bytes) (i : Nat) : Option Bool :=
  if i = 0 then some false
  else if unicode then (Utf8.charBefore? text i).map isWord
  else some (text[i - 1]?.any isWordUnit)

def wordAfter (unicode : Bool) (text : Bytes) (i : Nat) : Option Bool :=
  if text.size ≤ i then some false
  else if unicode then (Utf8.charAt? text i).map (isWord ·.1)
  else some (text[i]?.any isWordUnit)

/-- Whether the condition holds at position `i`. Where a malformed part of the text stands beside
the position, it counts as no word character, but the conditions that such a part could satisfy do
not hold. -/
def holds (look : Look) (text : Bytes) (i : Nat) : Bool :=
  let before (unicode : Bool) : Bool := (wordBefore unicode text i).getD false
  let after (unicode : Bool) : Bool := (wordAfter unicode text i).getD false
  match look with
  | startText => i == 0
  | endText => i == text.size
  | startLine => i == 0 || text[i - 1]? == some 0x0a
  | endLine => i == text.size || text[i]? == some 0x0a
  | startAnyLine =>
    i == 0 || text[i - 1]? == some 0x0a ||
      (text[i - 1]? == some 0x0d && text[i]? != some 0x0a)
  | endAnyLine =>
    i == text.size || text[i]? == some 0x0d ||
      (text[i]? == some 0x0a && (i == 0 || text[i - 1]? != some 0x0d))
  | boundary unicode => before unicode != after unicode
  | notBoundary unicode =>
    match wordBefore unicode text i, wordAfter unicode text i with
    | some b, some a => b == a
    | _, _ => false
  | wordStart unicode => !before unicode && after unicode
  | wordEnd unicode => before unicode && !after unicode
  | wordStartHalf unicode => wordBefore unicode text i == some false
  | wordEndHalf unicode => wordAfter unicode text i == some false

end Look

namespace Program

structure Threads where
  waiting : Array Nat := #[]
  reached : Array Nat

def follow (program : Program) (text : Bytes) (round i : Nat) :
    (fuel : Nat) → List Nat → Threads → Threads
  | 0, _, threads => threads
  | _, [], threads => threads
  | fuel + 1, index :: stack, threads =>
    if threads.reached[index]? == some round then follow program text round i fuel stack threads
    else
      let threads := { threads with reached := threads.reached.setIfInBounds index round }
      match program.insts[index]? with
      | none => follow program text round i fuel stack threads
      | some (.split targets) => follow program text round i fuel (targets ++ stack) threads
      | some (.look look next) =>
        if look.holds text i then follow program text round i fuel (next :: stack) threads
        else follow program text round i fuel stack threads
      | some (.char _ _) | some .accept =>
        follow program text round i fuel stack
          { threads with waiting := threads.waiting.push index }

/-- Advances the waiting instructions by the character at the current position, which ends at
position `i`. An accepting instruction ends the list, since it is preferred over what follows it;
the result tells whether there was one. -/
def advance (program : Program) (text : Bytes) (char? : Option Char) (ways round i : Nat) :
    List Nat → Threads → Bool × Threads
  | [], threads => (false, threads)
  | index :: rest, threads =>
    match program.insts[index]? with
    | some .accept => (true, threads)
    | some (.char set next) =>
      if char?.any fun c => set.contains c.toNat then
        advance program text char? ways round i rest
          (follow program text round i ways [next] threads)
      else advance program text char? ways round i rest threads
    | _ => advance program text char? ways round i rest threads

def search (program : Program) (text : Bytes) (ways : Nat) :
    (fuel : Nat) → (i : Nat) → (best : Option Nat) → Threads → Option Nat
  | 0, _, best, _ => best
  | fuel + 1, i, best, threads =>
    if threads.waiting.isEmpty then best
    else
      let next := Utf8.charAt? text i
      let stop := i + (next.map (·.2)).getD 1
      let fresh : Threads := { reached := threads.reached }
      let (accepted, threads) :=
        advance program text (next.map (·.1)) ways (stop + 1) stop threads.waiting.toList fresh
      search program text ways fuel stop (if accepted then some i else best) threads

/-- The end of the match that starts at position `offset`, if there is one. Where there are empty
matches, a match counts only if it ends between characters; a lenient program asks this of empty
matches only. -/
def matchAt? (program : Program) (text : Bytes) (offset : Nat) : Option Nat :=
  let ways := program.ways
  let idle : Threads := { reached := Array.replicate program.insts.size 0 }
  let threads := program.follow text (offset + 1) offset ways [program.start] idle
  match program.search text ways (text.size - offset + 2) offset none threads with
  | none => none
  | some stop =>
    let isChecked := program.nullable && (stop = offset || !program.isLenient)
    if isChecked && text[stop]?.any Utf8.isTail then none else some stop

end Program

end StagedLexer.Regex
