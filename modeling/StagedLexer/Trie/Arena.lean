import StagedLexer.Rule
import StagedLexer.Trie.Basic

/-! The tries of all stages in one array. A branch has its children by their places in the array.
Inserting a rule changes branches in place and adds new ones at the end. Where a place is out of
bounds there is no result. -/
namespace StagedLexer

structure Cell (Ctx : Type) where
  readers : List (Reader Ctx)
  children : List Nat := []
  rule : Option Nat
  owner : Nat

structure Arena (Ctx : Type) where
  cells : Array (Cell Ctx) := #[]
  stages : List String := []
  roots : List (List Nat) := []
  stageless : List Nat := []

namespace Arena

variable {Ctx : Type}

inductive Parent where
  | stage (index : Nat)
  | stageless
  | branch (id : Nat)
  deriving DecidableEq

def addStage (arena : Arena Ctx) (stage : String) : Arena Ctx :=
  if stage ∈ arena.stages then arena
  else { arena with stages := arena.stages ++ [stage], roots := arena.roots ++ [[]] }

def add (arena : Arena Ctx) (cell : Cell Ctx) : Arena Ctx :=
  { arena with cells := arena.cells.push cell }

def modify (arena : Arena Ctx) (id : Nat) (change : Cell Ctx → Cell Ctx) : Arena Ctx :=
  { arena with cells := arena.cells.modify id change }

def siblings? (arena : Arena Ctx) : Parent → Option (List Nat)
  | .stage index => arena.roots[index]?
  | .stageless => some arena.stageless
  | .branch id => arena.cells[id]?.map (·.children)

def setSiblings (arena : Arena Ctx) (ids : List Nat) : Parent → Arena Ctx
  | .stage index => { arena with roots := arena.roots.set index ids }
  | .stageless => { arena with stageless := ids }
  | .branch id => arena.modify id fun cell => { cell with children := ids }

def changeSiblings? (arena : Arena Ctx) (parent : Parent) (change : List Nat → List Nat) :
    Option (Arena Ctx) := do
  return arena.setSiblings (change (← arena.siblings? parent)) parent

def commonCount (first second : List (Reader Ctx)) : Nat :=
  ((first.zip second).takeWhile fun (a, b) => a.id = b.id).length

/-- A branch that starts with readers of a new rule: its position among its siblings, its place and
the number of readers that both share. -/
structure Overlap where
  position : Nat
  id : Nat
  count : Nat
  positive : 0 < count

def overlap? (arena : Arena Ctx) (steps : List (Reader Ctx)) :
    (position : Nat) → List Nat → Option (Option Overlap)
  | _, [] => some none
  | position, id :: rest => do
    let cell ← arena.cells[id]?
    if positive : 0 < commonCount cell.readers steps then
      return some { position, id, count := _, positive }
    arena.overlap? steps (position + 1) rest

/-- Cuts a branch behind the readers that a new rule shares with it. The branch keeps its place with
the readers behind the cut, and a new one takes its position among the siblings. -/
def split (arena : Arena Ctx) (parent : Parent) (overlap : Overlap) (cell : Cell Ctx)
    (remainder : List (Reader Ctx)) (rule : Nat) : Option (Arena Ctx) := do
  let arena := arena.modify overlap.id fun cell =>
    { cell with readers := cell.readers.drop overlap.count }
  let upper := arena.cells.size
  let arena := arena.add
    { readers := cell.readers.take overlap.count, children := [overlap.id], rule := none
      owner := cell.owner }
  let arena ← arena.changeSiblings? parent (·.set overlap.position upper)
  if remainder.isEmpty then return arena.modify upper fun cell => { cell with rule := some rule }
  let added := arena.cells.size
  let arena := arena.add { readers := remainder, rule := some rule, owner := rule }
  return arena.modify upper fun cell => { cell with children := cell.children ++ [added] }

def insert (arena : Arena Ctx) (parent : Parent) (steps : List (Reader Ctx)) (rule : Nat) :
    Option (Arena Ctx × List Note) := do
  match ← arena.overlap? steps 0 (← arena.siblings? parent) with
  | none =>
    let added := arena.add { readers := steps, rule := some rule, owner := rule }
    return (← added.changeSiblings? parent (· ++ [arena.cells.size]), [])
  | some overlap =>
    let cell ← arena.cells[overlap.id]?
    let remainder := steps.drop overlap.count
    if overlap.count = cell.readers.length then
      if remainder.isEmpty then
        match cell.rule with
        | none => return (arena.modify overlap.id fun cell => { cell with rule := some rule }, [])
        | some winner => return (arena, [.shadowed rule winner])
      else arena.insert (.branch overlap.id) remainder rule
    else return (← arena.split parent overlap cell remainder rule, [])
termination_by steps.length
decreasing_by
  rename_i more
  have positive := overlap.positive
  have longer : overlap.count < steps.length := by simpa [remainder] using more
  simp only [List.length_drop]
  omega

def insertEach (steps : List (Reader Ctx)) (rule : Nat) :
    Arena Ctx → List Parent → Option (Arena Ctx × List Note)
  | arena, [] => some (arena, [])
  | arena, parent :: rest => do
    let (arena, notes) ← arena.insert parent steps rule
    let (arena, more) ← insertEach steps rule arena rest
    return (arena, notes ++ more)

def stageIds? (arena : Arena Ctx) (seen : List Nat) : List String → Option (List Nat)
  | [] => some []
  | stage :: rest => do
    let index ← arena.stages.idxOf? stage
    if index ∈ seen then arena.stageIds? seen rest
    else return index :: (← arena.stageIds? (index :: seen) rest)

def insertRule (arena : Arena Ctx) (rule : Rule Ctx) (index : Nat) :
    Option (Arena Ctx × List Note) := do
  let steps := rule.reader.steps
  match rule.activity with
  | .everywhere =>
    insertEach steps index arena ((List.range arena.stages.length).map .stage ++ [.stageless])
  | .inStages stages => insertEach steps index arena ((← arena.stageIds? [] stages).map .stage)
  | .nowhere => return (arena, [.neverActive index])

def insertRules : Arena Ctx → (index : Nat) → List (Rule Ctx) → Option (Arena Ctx × List Note)
  | arena, _, [] => some (arena, [])
  | arena, index, rule :: rest => do
    let (arena, notes) ← arena.insertRule rule index
    let (arena, more) ← insertRules arena (index + 1) rest
    return (arena, notes ++ more)

def build (rules : List (Rule Ctx)) (initialStage : Option String) :
    Option (Arena Ctx × List Note) :=
  let stages := initialStage.toList ++ rules.flatMap Rule.stages
  insertRules (stages.foldl addStage {}) 0 rules

def rootsFor? (arena : Arena Ctx) (stage : Option String) : Option (List Nat) :=
  match stage.bind arena.stages.idxOf? with
  | some index => arena.siblings? (.stage index)
  | none => some arena.stageless

end Arena

end StagedLexer
