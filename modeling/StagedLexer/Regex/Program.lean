import StagedLexer.Regex.OnePass

/-! Programs that search for a match of an expression. A program is a graph of instructions; where
several ways are open they are listed by preference, so that the first way that succeeds is the
match an ordered search would find. Counted repetitions are written out, so an expression whose
machines would be too large is refused before its program is made. -/
namespace StagedLexer.Regex

open StagedLexer.Text

inductive Inst where
  | char (set : CodeSet) (next : Nat)
  | look (look : Look) (next : Nat)
  | split (targets : List Nat)
  | accept

structure Program where
  insts : Array Inst
  start : Nat
  nullable : Bool
  /-- Whether only an empty match has to end between characters, and not every one. -/
  isLenient : Bool

namespace Program

def emit (inst : Inst) : StateM (Array Inst) Nat := fun insts => (insts.size, insts.push inst)

def choice (greedy : Bool) (again next : Nat) : Inst :=
  .split (if greedy then [again, next] else [next, again])

def copies (part : Nat → StateM (Array Inst) Nat) : (count next : Nat) → StateM (Array Inst) Nat
  | 0, next => return next
  | count + 1, next => do copies part count (← part next)

def optionalCopies (greedy : Bool) (part : Nat → StateM (Array Inst) Nat) (exit : Nat) :
    (count next : Nat) → StateM (Array Inst) Nat
  | 0, next => return next
  | count + 1, next => do
    let again ← part next
    optionalCopies greedy part exit count (← emit (choice greedy again exit))

def loopBack (greedy : Bool) (part : Nat → StateM (Array Inst) Nat) (next : Nat) :
    StateM (Array Inst) (Nat × Nat) := do
  let back ← emit (.split [])
  let again ← part back
  modify fun insts => insts.setIfInBounds back (choice greedy again next)
  return (again, back)

def compileLiteral : List Nat → (next : Nat) → StateM (Array Inst) Nat
  | [], next => return next
  | code :: rest, next => do emit (.char (CodeSet.singleton code) (← compileLiteral rest next))

mutual
/-- Adds the instructions of an expression in front of instruction `next` and gives the first. A
loop whose part can match nothing is entered through a choice of its own: through the choice of the
loop, an empty round would be preferred over leaving it. -/
def compile : Expr → (next : Nat) → StateM (Array Inst) Nat
  | .empty, next => return next
  | .literal codes, next => compileLiteral codes next
  | .oneOf _ set, next => emit (.char set next)
  | .look look, next => emit (.look look next)
  | .capture _ inner, next => compile inner next
  | .concat items, next => compileAll items next
  | .alternation items, next => do emit (.split (← compileEach items next))
  | .repetition min max greedy inner, next => do
    match max with
    | some max =>
      let tail ← optionalCopies greedy (compile inner) next (max - min) next
      copies (compile inner) min tail
    | none =>
      let (again, back) ← loopBack greedy (compile inner) next
      match min with
      | 0 =>
        if inner.minLength.any (0 < ·) then return back
        else emit (choice greedy again next)
      | min + 1 => copies (compile inner) min again
def compileAll : List Expr → (next : Nat) → StateM (Array Inst) Nat
  | [], next => return next
  | item :: rest, next => do compile item (← compileAll rest next)
def compileEach : List Expr → (next : Nat) → StateM (Array Inst) (List Nat)
  | [], _ => return []
  | item :: rest, next => do
    let start ← compile item next
    let starts ← compileEach rest next
    return start :: starts
end

/-- Whether a search follows one way through the forward machine. It does so where this is possible
and a table made on the way would not serve: with words of all scripts a table cannot go on at a
character outside of ASCII, and a large machine has no room for one. -/
def followsOneWay (forward backward : Automaton) : Bool :=
  let isWordy := forward.anyLook Look.isScriptWord
  let isLarge :=
    Automaton.cacheLimit < forward.leastCache || Automaton.cacheLimit < backward.leastCache
  (isWordy || (isLarge && 0 < forward.groupCount)) && forward.isOnePass

def ofExpr (expr : Expr) : Except BuildFault Program := do
  let forward ← Automaton.ofExpr false expr
  let backward ← Automaton.ofExpr true expr
  let (start, insts) := (compile expr 0).run #[.accept]
  return { insts, start, nullable := expr.nullable
           isLenient := expr.nullable && followsOneWay forward backward }

def ways (program : Program) : Nat :=
  program.insts.foldl (fun n inst =>
    n + match inst with
      | .split targets => targets.length
      | _ => 1) 1

end Program

end StagedLexer.Regex
