import StagedLexer.Code.Assembler
import StagedLexer.Routine.Statement

/-! The statements that read a reader. Every kind of reader has statements of its own except
regular expressions and custom readers, which are bound and called. -/
namespace StagedLexer

variable {Ctx : Type}

abbrev Assembly (Ctx : Type) := StateM (Assembler Ctx)

namespace Assembly

def var : Assembly Ctx Nat := fun asm => asm.var

def varIf (needed : Bool) : Assembly Ctx (Option Nat) :=
  if needed then some <$> Assembly.var else pure none

def bind (reader : Reader Ctx) : Assembly Ctx Nat := fun asm => asm.bind reader

end Assembly

def Leaf.value (reader : Reader Ctx) (place : Place) : Leaf Ctx → Assembly Ctx Value
  | .never => return .noMatch
  | .always => return .position place
  | .text units => return .probe (.text units) place
  | .textAnyCase units => return .probe (.textAnyCase units) place
  | .oneOf set => return .probe (.oneOf set) place
  | .atEnd => return .probe .atEnd place
  | .skip count => return .probe (.skip count) place
  | .regex _ | .custom _ => return .call (← Assembly.bind reader) place

namespace Stmt

def assignAndLeave (r : Nat) (value : Value) : Stmt := .block [.assign r value true, .leave]

def settled (pos : Nat) (counter : Option Nat) (min : Nat) : Value :=
  match counter with
  | some counter => if 0 < min then .counted counter min pos else .position (.var pos)
  | none => .position (.var pos)

def limit (r pos : Nat) (counter max : Option Nat) : List Stmt :=
  match counter, max with
  | some counter, some max =>
    [.guarded (.reached counter max) (assignAndLeave r (.position (.var pos)))]
  | _, _ => []

def countFromZero (counter : Option Nat) : List Stmt :=
  match counter with
  | some counter => [.declare counter, .assign counter .zero true]
  | none => []

def countUp (counter : Option Nat) : List Stmt :=
  match counter with
  | some counter => [.assign counter (.succ counter) true]
  | none => []

def round (r pos inner : Nat) (counter : Option Nat) (min : Nat) (max : Option Nat)
    (body : Stmt) : Stmt :=
  .block (limit r pos counter max ++ [Stmt.declare inner, body,
    Stmt.guarded (.noMatch inner) (assignAndLeave r (settled pos counter min)),
    Stmt.guarded (.negative inner) (assignAndLeave r (.result inner)),
    Stmt.guarded (.unmoved inner pos) (assignAndLeave r (settled pos counter min)),
    Stmt.assign pos (.asPlace inner) true] ++ countUp counter)

/-- The loop of a repetition of a reader whose statements put the result of reading at `pos` into
`inner`. The counter is there if the repetition has bounds. -/
def repetition (place r pos inner : Nat) (counter : Option Nat) (min : Nat) (max : Option Nat)
    (body : Stmt) : Stmt :=
  .block ([Stmt.declare pos, Stmt.assign pos (.place (.var place)) true] ++ countFromZero counter ++
    [Stmt.loop (round r pos inner counter min max body)])

def probeNext (r pos inner : Nat) (inclusive openEnd : Bool) (body : Stmt) : Stmt :=
  .block [.declare inner, body,
    .guarded (.isMatch inner)
      (assignAndLeave r (if inclusive then .result inner else .position (.var pos))),
    .guarded (.notNoMatch inner) (assignAndLeave r (.result inner)),
    .guarded (.atChunkEnd pos) (assignAndLeave r (if openEnd then .chunkEnd else .noMatch)),
    .assign pos (.succ pos) true]

def seek (place r pos inner : Nat) (inclusive openEnd : Bool) (body : Stmt) : Stmt :=
  .block [.declare pos, .assign pos (.place (.var place)) true,
    .loop (probeNext r pos inner inclusive openEnd body)]

mutual
def ofReader : Reader Ctx → (place r : Nat) → Assembly Ctx Stmt
  | .leaf id leaf, place, r => do
    return .assign r (← leaf.value (.leaf id leaf) (.var place)) true
  | .sequence _ items, place, r => ofSequence items place r
  | .alternation _ items, place, r => ofAlternation items place r
  | .repetition _ inner min max, place, r => do
    let pos ← Assembly.var
    let result ← Assembly.var
    let counter ← Assembly.varIf (0 < min || max.isSome)
    let body ← ofReader inner pos result
    return repetition place r pos result counter min max body
  | .optional _ inner, place, r => do
    let body ← ofReader inner place r
    return .block [body, .guarded (.noMatch r) (.assign r (.position (.var place)) true)]
  | .lookahead _ inner, place, r => do
    let body ← ofReader inner place r
    return .block [body, .guarded (.isMatch r) (.assign r (.position (.var place)) true)]
  | .seek _ inner inclusive openEnd, place, r => do
    let pos ← Assembly.var
    let result ← Assembly.var
    let body ← ofReader inner pos result
    return seek place r pos result inclusive openEnd body
def ofSequence : List (Reader Ctx) → (place r : Nat) → Assembly Ctx Stmt
  | [], place, r => return .assign r (.position (.var place)) true
  | [reader], place, r => ofReader reader place r
  | reader :: rest, place, r => do
    let head ← ofReader reader place r
    let next ← Assembly.var
    let tail ← ofSequence rest next r
    return .block [head, .guarded (.isMatch r) (.block [.declare next,
      .assign next (.asPlace r) false, tail])]
def ofAlternation : List (Reader Ctx) → (place r : Nat) → Assembly Ctx Stmt
  | [], _, r => return .assign r .noMatch true
  | [reader], place, r => ofReader reader place r
  | reader :: rest, place, r => do
    let head ← ofReader reader place r
    let tail ← ofAlternation rest place r
    return .block [head, .guarded (.noMatch r) tail]
end

end Stmt

end StagedLexer
