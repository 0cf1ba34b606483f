import StagedLexer.Regex.ClassQuery
import StagedLexer.Regex.Expr
import StagedLexer.Text.Letter

/-! From patterns to expressions: the switches in force at a place decide what its parts mean. Not
every pattern has an expression, since all that an expression matches is a sequence of whole
characters. -/
namespace StagedLexer.Regex

open StagedLexer.Text

structure Switches where
  ignoreCase : Bool := false
  multiLine : Bool := false
  dotMatchesLineFeed : Bool := false
  swapGreed : Bool := false
  unicode : Bool := true
  carriageReturns : Bool := false
  groups : Nat := 0

def Switches.update (switches : Switches) (items : List FlagItem) : Switches :=
  let value (flag : Flag) (current : Bool) : Bool := (flagState flag false items).getD current
  { switches with
    ignoreCase := value .ignoreCase switches.ignoreCase
    multiLine := value .multiLine switches.multiLine
    dotMatchesLineFeed := value .dotMatchesLineFeed switches.dotMatchesLineFeed
    swapGreed := value .swapGreed switches.swapGreed
    unicode := value .unicode switches.unicode
    carriageReturns := value .carriageReturns switches.carriageReturns }

namespace Switches

def fold (switches : Switches) (set : CodeSet) : CodeSet :=
  if !switches.ignoreCase then set
  else if switches.unicode then Letter.closeUnderCase set
  else
    let move (lo hi shift : Nat) (down : Bool) : List (Nat × Nat) :=
      (set.inter ⟨#[(lo, hi)]⟩).ranges.toList.map fun (first, last) =>
        if down then (first - shift, last - shift) else (first + shift, last + shift)
    set.union (CodeSet.ofRanges (move 0x41 0x5a 32 false ++ move 0x61 0x7a 32 true))

/-- The complement, if asked for. Without Unicode it would hold code units that are only parts of
characters. -/
def negate (switches : Switches) (negated : Bool) (set : CodeSet) : Except BuildFault CodeSet :=
  if !negated then .ok set
  else if switches.unicode then .ok set.complement
  else .error .unsupported

def literal (switches : Switches) (l : Literal) : Except BuildFault Nat :=
  if !switches.unicode && l.isUnit && 0x7f < l.char.toNat then .error .unsupported
  else .ok l.char.toNat

def member (switches : Switches) (l : Literal) : Except BuildFault Nat := do
  let code ← switches.literal l
  if !switches.unicode && 0x7f < code then .error .unsupported else .ok code

def shorthand (switches : Switches) (kind : Shorthand) (negated : Bool) :
    Except BuildFault CodeSet :=
  let ascii (kind : AsciiClass) : CodeSet :=
    CodeSet.ofRanges (kind.ranges.map fun (lo, hi) => (lo.toNat, hi.toNat))
  let set := match kind with
    | .digit => if switches.unicode then digits else ascii .digit
    | .blank => if switches.unicode then blanks else ascii .space
    | .word => if switches.unicode then wordCodes else ascii .word
  switches.negate negated set

def unicodeClass (switches : Switches) (negated : Bool) (query : ClassQuery) :
    Except BuildFault CodeSet :=
  if !switches.unicode then .error .unsupported
  else match query.codes? with
    | none => .error .unsupported
    | some set => switches.negate negated (switches.fold set)

mutual
/-- The members of a class. Case is ignored before a complement is taken and before sets are
intersected or subtracted. -/
def classCodes (switches : Switches) : ClassSet → Except BuildFault CodeSet
  | .empty _ => .ok CodeSet.empty
  | .literal l => return CodeSet.singleton (← switches.member l)
  | .range _ first last => do
    let lo ← switches.member first
    let hi ← switches.member last
    return CodeSet.ofRanges [(lo, hi)]
  | .ascii _ kind negated =>
    switches.negate negated (switches.fold
      (CodeSet.ofRanges (kind.ranges.map fun (lo, hi) => (lo.toNat, hi.toNat))))
  | .unicode _ negated query => switches.unicodeClass negated query
  | .shorthand _ kind negated => switches.shorthand kind negated
  | .bracketed _ negated inner => do
    let set ← switches.classCodes inner
    switches.negate negated (switches.fold set)
  | .union _ items => switches.classUnion items
  | .op _ kind left right => do
    let left ← switches.classCodes left
    let right ← switches.classCodes right
    let left := switches.fold left
    let right := switches.fold right
    return match kind with
      | .intersection => left.inter right
      | .difference => left.diff right
      | .symmetricDifference => left.symmDiff right
def classUnion (switches : Switches) : List ClassSet → Except BuildFault CodeSet
  | [] => .ok CodeSet.empty
  | item :: rest => return (← switches.classCodes item).union (← switches.classUnion rest)
end

def dot (switches : Switches) : Except BuildFault CodeSet :=
  if !switches.unicode then .error .unsupported
  else if switches.dotMatchesLineFeed then .ok ⟨#[(0, CodeSet.top)]⟩
  else if switches.carriageReturns then
    .ok (CodeSet.complement ⟨#[(0x0a, 0x0a), (0x0d, 0x0d)]⟩)
  else .ok (CodeSet.complement ⟨#[(0x0a, 0x0a)]⟩)

def assertion (switches : Switches) : Assertion → Look
  | .startText => .startText
  | .endText => .endText
  | .startLine =>
    if !switches.multiLine then .startText
    else if switches.carriageReturns then .startAnyLine else .startLine
  | .endLine =>
    if !switches.multiLine then .endText
    else if switches.carriageReturns then .endAnyLine else .endLine
  | .wordBoundary => .boundary switches.unicode
  | .notWordBoundary => .notBoundary switches.unicode
  | .wordStart => .wordStart switches.unicode
  | .wordEnd => .wordEnd switches.unicode
  | .wordStartHalf => .wordStartHalf switches.unicode
  | .wordEndHalf => .wordEndHalf switches.unicode

mutual
def expr (switches : Switches) : Pattern → Except BuildFault (Expr × Switches)
  | .empty _ => .ok (.empty, switches)
  | .flags _ items => .ok (.empty, switches.update items)
  | .literal l => do
    let code ← switches.literal l
    return (.ofSet switches.unicode (switches.fold (CodeSet.singleton code)), switches)
  | .dot _ => return (.ofSet switches.unicode (← switches.dot), switches)
  | .assertion _ kind => .ok (.look (switches.assertion kind), switches)
  | .unicode _ negated query =>
    return (.ofSet switches.unicode (← switches.unicodeClass negated query), switches)
  | .shorthand _ kind negated =>
    return (.ofSet switches.unicode (← switches.shorthand kind negated), switches)
  | .bracketed _ negated inner => do
    let set ← switches.classCodes inner
    return (.ofSet switches.unicode (← switches.negate negated (switches.fold set)), switches)
  | .repetition _ min max greedy inner => do
    let (inner, switches) ← switches.expr inner
    return (Expr.repeated min max (greedy != switches.swapGreed) inner, switches)
  | .group _ items capturing inner => do
    let number := if capturing then switches.groups + 1 else switches.groups
    let (inner, after) ← { switches.update items with groups := number }.expr inner
    return (if capturing then .capture number inner else inner,
      { switches with groups := after.groups })
  | .alternation _ items => do
    let (items, switches) ← switches.exprs items
    return (Expr.anyOf items, switches)
  | .concat _ items => do
    let (items, switches) ← switches.exprs items
    return (Expr.inOrder items, switches)
def exprs (switches : Switches) : List Pattern → Except BuildFault (List Expr × Switches)
  | [] => .ok ([], switches)
  | item :: rest => do
    let (item, switches) ← switches.expr item
    let (rest, switches) ← switches.exprs rest
    return (item :: rest, switches)
end

end Switches

def Expr.ofPattern (pattern : Pattern) : Except BuildFault Expr :=
  (·.1) <$> ({} : Switches).expr pattern

end StagedLexer.Regex
