import Std.Data.HashMap
import StagedLexer.Regex.Expr
import StagedLexer.Text.Encoded

/-! Machines that read an expression one code unit at a time. A machine is a graph of states, built
part by part under a bound on its memory; the forward machine reads matches from their starts and
knows the groups, the backward machine reads them from their ends. Both have to stay within the
bound. -/
namespace StagedLexer.Regex

open StagedLexer.Text

structure Way where
  lo : UInt8
  hi : UInt8
  next : Nat
  deriving DecidableEq, Repr

inductive Node where
  | skip (next : Nat)
  | range (way : Way)
  | ranges (ways : List Way)
  | look (condition : Look) (next : Nat)
  | border (slot : Nat) (next : Nat)
  /-- Goes on with each of the states. The first one is preferred, or the last one if it is lazy. -/
  | choice (isLazy : Bool) (targets : Array Nat)
  | accept
  deriving Repr

def Node.leadTo (next : Nat) : Node → Node
  | .skip _ => .skip next
  | .range way => .range { way with next }
  | .look condition _ => .look condition next
  | .border slot _ => .border slot next
  | .choice isLazy targets => .choice isLazy (targets.push next)
  | node => node

structure Automaton where
  nodes : Array Node
  start : Nat

namespace Automaton

def memoryLimit : Nat := 10 * 1024 * 1024

def nodeSize : Nat := 32

def waySize : Nat := 8

def targetSize : Nat := 4

structure Draft where
  nodes : Array Node := #[]
  listed : Nat := 0

abbrev Build := StateT Draft (Except BuildFault)

structure Part where
  start : Nat
  stop : Nat

def charge (bytes : Nat) : Build Unit := fun draft =>
  let draft := { draft with listed := draft.listed + bytes }
  if memoryLimit < nodeSize * draft.nodes.size + draft.listed then .error .tooLarge
  else .ok ((), draft)

def add (node : Node) : Build Nat := do
  let index := (← get).nodes.size
  modify fun draft => { draft with nodes := draft.nodes.push node }
  charge <| match node with
    | .ranges ways => waySize * ways.length
    | .choice _ targets => targetSize * targets.size
    | _ => 0
  return index

def connect (source target : Nat) : Build Unit := do
  let isChoice := match (← get).nodes[source]? with
    | some (.choice _ _) => true
    | _ => false
  modify fun draft => { draft with nodes := draft.nodes.modify source (Node.leadTo target) }
  if isChoice then charge targetSize

def nothing : Build Part := do
  let index ← add (.skip 0)
  return ⟨index, index⟩

def single (node : Node) : Build Part := do
  let index ← add node
  return ⟨index, index⟩

def join (first second : Part) : Build Part := do
  connect first.stop second.start
  return ⟨first.start, second.stop⟩

def joinAfter : Option Part → Part → Build Part
  | none, part => return part
  | some first, part => join first part

def copies (part : Build Part) : (count : Nat) → Option Part → Build Part
  | 0, none => nothing
  | 0, some done => return done
  | count + 1, done => do
    let next ← part
    copies part count (some (← joinAfter done next))

def optionalCopies (greedy : Bool) (part : Build Part) (exit : Nat) :
    (count last : Nat) → Build Unit
  | 0, last => connect last exit
  | count + 1, last => do
    let choice ← add (.choice (!greedy) #[])
    let next ← part
    connect last choice
    connect choice next.start
    connect choice exit
    optionalCopies greedy part exit count next.stop

def loop (greedy : Bool) (part : Part) : Build Part := do
  let choice ← add (.choice (!greedy) #[])
  connect part.stop choice
  connect choice part.start
  return ⟨part.start, choice⟩

/-- A repetition of a part. `movesOn` tells that all its matches have characters: else the loop of
an unbounded repetition is entered through a choice of its own. -/
def repetition (min : Nat) (max : Option Nat) (greedy movesOn : Bool) (part : Build Part) :
    Build Part := do
  match min, max with
  | 0, some 1 =>
    let choice ← add (.choice (!greedy) #[])
    let once ← part
    let exit ← add (.skip 0)
    connect choice once.start
    connect choice exit
    connect once.stop exit
    return ⟨choice, exit⟩
  | 0, none =>
    if movesOn then
      let choice ← add (.choice (!greedy) #[])
      let again ← part
      connect choice again.start
      connect again.stop choice
      return ⟨choice, choice⟩
    else
      let again ← loop greedy (← part)
      let choice ← add (.choice (!greedy) #[])
      let exit ← add (.skip 0)
      connect choice again.start
      connect choice exit
      connect again.stop exit
      return ⟨choice, exit⟩
  | 1, none => loop greedy (← part)
  | min, none =>
    let first ← copies part (min - 1) none
    let last ← loop greedy (← part)
    join first last
  | min, some max =>
    let first ← copies part min none
    if min = max then return first
    else
      let exit ← add (.skip 0)
      optionalCopies greedy part exit (max - min) first.stop
      return ⟨first.start, exit⟩

def mix (numbers : List Nat) : UInt64 :=
  numbers.foldl (fun hash n => (hash ^^^ n.toUInt64) * 1099511628211) 14695981039346656037

/-- States that were built before, by the hashes of what they hold. A slot keeps the last state that
came to it, so a state can be built again after another one took its slot. -/
structure Memo (Key : Type) where
  slots : Nat
  entries : Std.HashMap Nat (Key × Nat) := {}

namespace Memo

variable {Key : Type}

def slot (memo : Memo Key) (numbers : List Nat) : Nat :=
  ((mix numbers) % memo.slots.toUInt64).toNat

def find? [BEq Key] (memo : Memo Key) (slot : Nat) (key : Key) : Option Nat :=
  match memo.entries[slot]? with
  | some (key', index) => if key == key' then some index else none
  | none => none

def insert (memo : Memo Key) (slot : Nat) (key : Key) (index : Nat) : Memo Key :=
  { memo with entries := memo.entries.insert slot (key, index) }

end Memo

def groups : List (List UnitRange) → List (UnitRange × List (List UnitRange))
  | [] => []
  | [] :: rest => groups rest
  | (head :: tail) :: rest =>
    match groups rest with
    | (head', tails) :: more =>
      if head = head' then (head, tail :: tails) :: more
      else (head, [tail]) :: (head', tails) :: more
    | [] => [(head, [tail])]

def forwardWays
    (node : List (List UnitRange) → Memo (List Way) → Build (Nat × Memo (List Way))) :
    List (UnitRange × List (List UnitRange)) → Memo (List Way) →
      Build (List Way × Memo (List Way))
  | [], memo => return ([], memo)
  | ((lo, hi), tails) :: rest, memo => do
    let (next, memo) ← node tails memo
    let (ways, memo) ← forwardWays node rest memo
    return (⟨lo, hi, next⟩ :: ways, memo)

def forwardNode (stop : Nat) : (length : Nat) → List (List UnitRange) → Memo (List Way) →
    Build (Nat × Memo (List Way))
  | 0, _, memo => return (stop, memo)
  | length + 1, sequences, memo => do
    if sequences = [[]] then return (stop, memo)
    else
      let (ways, memo) ← forwardWays (forwardNode stop length) (groups sequences) memo
      let slot := memo.slot (ways.flatMap fun way => [way.lo.toNat, way.hi.toNat, way.next])
      match memo.find? slot ways with
      | some index => return (index, memo)
      | none =>
        let index ← add (.ranges ways)
        return (index, memo.insert slot ways index)

def backwardNodes : List UnitRange → (next : Nat) → Memo (Nat × UnitRange) →
    Build (Nat × Memo (Nat × UnitRange))
  | [], next, memo => return (next, memo)
  | (lo, hi) :: rest, next, memo => do
    let slot := memo.slot [next, lo.toNat, hi.toNat]
    match memo.find? slot (next, lo, hi) with
    | some index => backwardNodes rest index memo
    | none =>
      let index ← add (.range ⟨lo, hi, next⟩)
      backwardNodes rest index (memo.insert slot (next, lo, hi) index)

def backwardChoice (choice stop : Nat) :
    List (List UnitRange) → Memo (Nat × UnitRange) → Build Unit
  | [], _ => return
  | sequence :: rest, memo => do
    let (start, memo) ← backwardNodes sequence stop memo
    connect choice start
    backwardChoice choice stop rest memo

/-- One character of a set. Sets of ASCII characters take one state; else the backward machine has
one way for each sequence of ranges, and the forward machine shares what sequences have in
common. -/
def ofSet (backward : Bool) (set : CodeSet) : Build Part := do
  if set.ranges.all (·.2 < 0x80) then
    let stop ← add (.skip 0)
    let ways := set.ranges.toList.map fun (lo, hi) => ⟨lo.toUInt8, hi.toUInt8, stop⟩
    return ⟨← add (.ranges ways), stop⟩
  else if backward then
    let choice ← add (.choice false #[])
    let stop ← add (.skip 0)
    backwardChoice choice stop (Encoded.sequences set) { slots := 1000 }
    return ⟨choice, stop⟩
  else
    let stop ← add (.skip 0)
    let (start, _) ← forwardNode stop 5 (Encoded.sequences set) { slots := 10000 }
    return ⟨start, stop⟩

def literalUnits (backward : Bool) (codes : List Nat) : List UInt8 :=
  let units := codes.flatMap Encoded.units
  if backward then units.reverse else units

def ofUnits : List UInt8 → Option Part → Build Part
  | [], none => nothing
  | [], some done => return done
  | unit :: rest, done => do
    let next ← single (.range ⟨unit, unit, 0⟩)
    ofUnits rest (some (← joinAfter done next))

/-- The words between complete ones, which are empty. Complete words with no other word in front of
them count once; `complete` and `others` tell what kinds of words there were before. -/
def chunks (complete others : Bool) : List (List UInt8) → List (List (List UInt8))
  | [] => [[]]
  | [] :: rest =>
    if complete && !others then chunks complete others rest else [] :: chunks true others rest
  | word :: rest =>
    match chunks complete true rest with
    | chunk :: more => (word :: chunk) :: more
    | [] => [[word]]

def heads (words : List (List UInt8)) : List (UInt8 × List (List UInt8)) :=
  let units := (words.filterMap List.head?).eraseDups.mergeSort
  units.map fun unit => (unit, words.filterMap fun
    | head :: tail => if head = unit then some tail else none
    | [] => none)

def wordWays (stop : Nat) (node : List (List UInt8) → Build Nat) :
    List (UInt8 × List (List UInt8)) → Build (List Way)
  | [] => return []
  | (unit, tails) :: rest => do
    let next ← if tails.all List.isEmpty then pure stop else node tails
    return ⟨unit, unit, next⟩ :: (← wordWays stop node rest)

def chunkTargets (stop : Nat) (node : List (List UInt8) → Build Nat) :
    List (List (List UInt8)) → Build (List Nat)
  | [] => return []
  | chunk :: rest => do
    let here ← match ← wordWays stop node (heads chunk) with
      | [] => pure []
      | [way] => pure [← add (.range way)]
      | ways => pure [← add (.ranges ways)]
    let later ← chunkTargets stop node rest
    return here ++ (if rest.isEmpty then [] else [stop]) ++ later

def wordNode (stop : Nat) : (length : Nat) → List (List UInt8) → Build Nat
  | 0, _ => return stop
  | length + 1, words => do
    let targets ← chunkTargets stop (wordNode stop length) (chunks false false words)
    add (.choice false targets.toArray)

def ofWords (words : List (List UInt8)) : Build Part := do
  let stop ← add (.skip 0)
  let length := words.foldl (fun n word => max n word.length) 0
  return ⟨← wordNode stop (length + 1) words, stop⟩

def words? (backward : Bool) : List Expr → Option (List (List UInt8))
  | [] => some []
  | .literal codes :: rest => return literalUnits backward codes :: (← words? backward rest)
  | _ => none

def addAlternative (choice stop : Nat) (part : Part) : Build Unit := do
  connect choice part.start
  connect part.stop stop

mutual
def compile (backward : Bool) : Expr → Build Part
  | .empty => nothing
  | .literal codes => ofUnits (literalUnits backward codes) none
  | .oneOf _ set => ofSet backward set
  | .look look => single (.look look 0)
  | .repetition min max greedy inner =>
    repetition min max greedy (inner.minLength.any (0 < ·)) (compile backward inner)
  | .capture number inner =>
    if backward then compile backward inner
    else do
      let start ← single (.border (2 * number) 0)
      let inner ← compile backward inner
      let stop ← single (.border (2 * number + 1) 0)
      join (← join start inner) stop
  | .concat items => do
    match ← compileAll backward items with
    | some part => return part
    | none => nothing
  | .alternation items => do
    match words? backward items with
    | some words => ofWords words
    | none => compileAlternatives backward items
def compileAll (backward : Bool) : List Expr → Build (Option Part)
  | [] => return none
  | item :: rest => do
    if backward then
      let rest ← compileAll backward rest
      let item ← compile backward item
      return some (← joinAfter rest item)
    else
      let item ← compile backward item
      match ← compileAll backward rest with
      | some rest => return some (← join item rest)
      | none => return some item
def compileAlternatives (backward : Bool) : List Expr → Build Part
  | [] => single (.ranges [])
  | [item] => compile backward item
  | first :: second :: rest => do
    let first ← compile backward first
    let second ← compile backward second
    let choice ← add (.choice false #[])
    let stop ← add (.skip 0)
    addAlternative choice stop first
    addAlternative choice stop second
    compileMore backward choice stop rest
    return ⟨choice, stop⟩
def compileMore (backward : Bool) (choice stop : Nat) : List Expr → Build Unit
  | [] => return
  | item :: rest => do
    addAlternative choice stop (← compile backward item)
    compileMore backward choice stop rest
end

def approach (anchored : Bool) : Build Part := do
  if anchored then nothing
  else
    repetition 0 none false true do
      let stop ← add (.skip 0)
      return ⟨← add (.ranges [⟨0x00, 0xff, stop⟩]), stop⟩

def whole (backward : Bool) (expr : Expr) : Build Nat := do
  let before ← approach (if backward then expr.endsWith .endText else expr.startsWith .startText)
  let part ← compile backward (.capture 0 expr)
  connect part.stop (← add .accept)
  connect before.stop part.start
  return part.start

def ofExpr (backward : Bool) (expr : Expr) : Except BuildFault Automaton := do
  let (start, draft) ← (whole backward expr).run {}
  return ⟨draft.nodes, start⟩

end Automaton

end StagedLexer.Regex
