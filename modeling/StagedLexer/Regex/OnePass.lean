import Std.Data.HashSet
import StagedLexer.Regex.Automaton

/-! Machines with one way at a time. In such a machine the next code unit always decides how to go
on, so that a search never has to follow two ways at once. A machine only counts as one if a table
for its states is small enough. -/
namespace StagedLexer.Regex

open StagedLexer.Text

namespace Look

def isScriptWord : Look → Bool
  | boundary unicode | notBoundary unicode | wordStart unicode | wordEnd unicode
  | wordStartHalf unicode | wordEndHalf unicode => unicode
  | _ => false

def isPlain : Look → Bool
  | wordStart _ | wordEnd _ | wordStartHalf _ | wordEndHalf _ => false
  | _ => true

def units : Look → List UnitRange
  | startText | endText => []
  | startLine | endLine => [(0x0a, 0x0a)]
  | startAnyLine | endAnyLine => [(0x0d, 0x0d), (0x0a, 0x0a)]
  | _ => [(0x30, 0x39), (0x41, 0x5a), (0x5f, 0x5f), (0x61, 0x7a)]

end Look

def Node.units : Node → List UnitRange
  | .range way => [(way.lo, way.hi)]
  | .ranges ways => ways.map fun way => (way.lo, way.hi)
  | .look condition _ => condition.units
  | _ => []

namespace Automaton

def settle (nodes : Array Node) : (fuel : Nat) → Nat → Nat
  | 0, index => index
  | fuel + 1, index =>
    match nodes[index]? with
    | some (.skip next) => settle nodes fuel next
    | some (.choice _ #[next]) => settle nodes fuel next
    | _ => index

def size (machine : Automaton) : Nat :=
  machine.nodes.foldl (fun n node =>
    match node with
    | .skip _ | .choice _ #[_] => n
    | _ => n + 1) 0

def cuts (machine : Automaton) : Std.HashSet Nat :=
  machine.nodes.foldl (fun cuts node =>
    node.units.foldl (fun cuts (lo, hi) =>
      let cuts := if hi = 0xff then cuts else cuts.insert hi.toNat
      if lo = 0 then cuts else cuts.insert (lo.toNat - 1)) cuts) {}

/-- The length of a row of a table with one entry for each kind of code unit and one for the end of
the text: a power of two. -/
def rowLength (machine : Automaton) : Nat :=
  let kinds := machine.cuts.size + 2
  ([1, 2, 4, 8, 16, 32, 64, 128, 256].find? (kinds ≤ ·)).getD 512

def anyLook (machine : Automaton) (p : Look → Bool) : Bool :=
  machine.nodes.any fun
    | .look look _ => p look
    | _ => false

def groupCount (machine : Automaton) : Nat :=
  machine.nodes.foldl (fun n node =>
    match node with
    | .border slot _ => max n (slot / 2)
    | _ => n) 0

structure Passed where
  looks : List Look := []
  slots : List Nat := []

namespace Passed

def addLook (passed : Passed) (look : Look) : Passed :=
  if passed.looks.contains look then passed else { passed with looks := look :: passed.looks }

def addSlot (passed : Passed) (slot : Nat) : Passed :=
  if slot < 2 || passed.slots.contains slot then passed
  else { passed with slots := slot :: passed.slots }

def same (a b : Passed) : Bool :=
  a.looks.all b.looks.contains && b.looks.all a.looks.contains &&
    a.slots.all b.slots.contains && b.slots.all a.slots.contains

end Passed

structure Entry where
  next : Nat
  isBehindMatch : Bool
  passed : Passed

def Entry.same (a b : Entry) : Bool :=
  a.next == b.next && a.isBehindMatch == b.isBehindMatch && a.passed.same b.passed

structure Row where
  entries : Array (Option Entry) := Array.replicate 256 none
  nexts : List Nat := []
  matched : Bool := false
  seen : Std.HashSet Nat := {}

namespace Row

def fill (entry : Entry) : (count unit : Nat) → Array (Option Entry) → Option (Array (Option Entry))
  | 0, _, entries => some entries
  | count + 1, unit, entries =>
    match (entries[unit]?).join with
    | none => fill entry count (unit + 1) (entries.setIfInBounds unit (some entry))
    | some other =>
      if entry.same other then fill entry count (unit + 1) entries else none

def enter (nodes : Array Node) (passed : Passed) : List Way → Row → Option Row
  | [], row => some row
  | way :: rest, row => do
    let next := settle nodes nodes.size way.next
    let entry : Entry := ⟨next, row.matched, passed⟩
    let entries ← fill entry (way.hi.toNat + 1 - way.lo.toNat) way.lo.toNat row.entries
    enter nodes passed rest { row with entries, nexts := next :: row.nexts }

def push (nodes : Array Node) (passed : Passed) (stack : List (Nat × Passed)) :
    List Nat → Row → Option (List (Nat × Passed) × Row)
  | [], row => some (stack, row)
  | index :: rest, row => do
    let index := settle nodes nodes.size index
    if row.seen.contains index then none
    else
      let (stack, row) ← push nodes passed stack rest { row with seen := row.seen.insert index }
      return ((index, passed) :: stack, row)

def make (nodes : Array Node) : (fuel : Nat) → List (Nat × Passed) → Row → Option Row
  | _, [], row => some row
  | 0, _, _ => none
  | fuel + 1, (index, passed) :: stack, row =>
    match nodes[index]? with
    | some (.range way) => do make nodes fuel stack (← enter nodes passed [way] row)
    | some (.ranges ways) => do make nodes fuel stack (← enter nodes passed ways row)
    | some (.skip next) => do
      let (stack, row) ← push nodes passed stack [next] row
      make nodes fuel stack row
    | some (.look look next) => do
      let (stack, row) ← push nodes (passed.addLook look) stack [next] row
      make nodes fuel stack row
    | some (.border slot next) => do
      let (stack, row) ← push nodes (passed.addSlot slot) stack [next] row
      make nodes fuel stack row
    | some (.choice isLazy targets) => do
      let targets := targets.toList
      let (stack, row) ← push nodes passed stack (if isLazy then targets.reverse else targets) row
      make nodes fuel stack row
    | some .accept =>
      if row.matched then none else make nodes fuel stack { row with matched := true }
    | none => make nodes fuel stack row

def ofState (nodes : Array Node) (index : Nat) : Option Row := do
  let (stack, row) ← push nodes {} [] [index] {}
  make nodes (nodes.size + 1) stack row

end Row

def haveRows (nodes : Array Node) (limit : Nat) :
    (fuel : Nat) → (waiting : List Nat) → (known : Std.HashSet Nat) → Bool
  | _, [], _ => true
  | 0, _, _ => false
  | fuel + 1, index :: waiting, known =>
    match Row.ofState nodes index with
    | none => false
    | some row =>
      let (waiting, known) := row.nexts.foldr (fun next (waiting, known) =>
        if known.contains next then (waiting, known) else (next :: waiting, known.insert next))
        (waiting, known)
      if limit < known.size then false else haveRows nodes limit fuel waiting known

def tableLimit : Nat := 1024 * 1024

def groupLimit : Nat := 16

def isOnePass (machine : Automaton) : Bool :=
  let start := settle machine.nodes machine.nodes.size machine.start
  let rows := (tableLimit - 8) / (8 * machine.rowLength) - 1
  machine.groupCount ≤ groupLimit && !machine.anyLook (!·.isPlain) && 0 < rows &&
    haveRows machine.nodes rows machine.nodes.size [start] {start}

/-- The memory that a search needs at least that makes a table while it runs, whose rows can stand
for several states. -/
def leastCache (machine : Automaton) : Nat := 27 * machine.size + 20 * machine.rowLength + 294

def cacheLimit : Nat := 2 * 1024 * 1024

end Automaton

end StagedLexer.Regex
