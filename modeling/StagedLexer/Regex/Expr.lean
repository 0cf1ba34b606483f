import StagedLexer.Text.CodeSet

/-! Expressions with a meaning of their own: flags are resolved, classes are sets of characters and
nothing refers to a place in a pattern. They are built by `ofSet`, `repeated`, `inOrder` and
`anyOf`, which keep them in a simple form: neighbouring literals are one, a list is not an item of a
list of the same kind, and alternatives have no common first part. -/
namespace StagedLexer.Regex

open StagedLexer.Text

inductive Look where
  | startText | endText
  | startLine | endLine
  | startAnyLine | endAnyLine
  | boundary (unicode : Bool) | notBoundary (unicode : Bool)
  | wordStart (unicode : Bool) | wordEnd (unicode : Bool)
  | wordStartHalf (unicode : Bool) | wordEndHalf (unicode : Bool)
  deriving DecidableEq, Repr

inductive Expr where
  | empty
  | literal (codes : List Nat)
  /-- A character of a set. A set that is not wide was written where only ASCII is allowed. -/
  | oneOf (isWide : Bool) (set : CodeSet)
  | look (look : Look)
  | repetition (min : Nat) (max : Option Nat) (greedy : Bool) (inner : Expr)
  | capture (number : Nat) (inner : Expr)
  | concat (items : List Expr)
  | alternation (items : List Expr)
  deriving Repr

inductive BuildFault where
  | unsupported
  | tooLarge
  deriving DecidableEq, Repr

namespace Expr

mutual
def minLength : Expr → Option Nat
  | empty | look _ => some 0
  | literal codes => some codes.length
  | oneOf _ set => if set.isEmpty then none else some 1
  | repetition min _ _ inner => inner.minLength.map (min * ·)
  | capture _ inner => inner.minLength
  | concat items => minLengthSum items
  | alternation items => minLengthAny items
def minLengthSum : List Expr → Option Nat
  | [] => some 0
  | item :: rest => return (← item.minLength) + (← minLengthSum rest)
def minLengthAny : List Expr → Option Nat
  | [] => none
  | [item] => item.minLength
  | item :: rest => return min (← item.minLength) (← minLengthAny rest)
end

mutual
def onlyEmpty : Expr → Bool
  | empty | look _ => true
  | literal codes => codes.isEmpty
  | oneOf _ _ => false
  | repetition _ max _ inner => inner.onlyEmpty && max.isSome || max == some 0
  | capture _ inner => inner.onlyEmpty
  | concat items => allOnlyEmpty items
  | alternation items => allOnlyEmpty items
def allOnlyEmpty : List Expr → Bool
  | [] => true
  | item :: rest => item.onlyEmpty && allOnlyEmpty rest
end

mutual
def nullable : Expr → Bool
  | empty | look _ => true
  | literal codes => codes.isEmpty
  | oneOf _ _ => false
  | repetition min _ _ inner => min == 0 || inner.nullable
  | capture _ inner => inner.nullable
  | concat items => allNullable items
  | alternation items => anyNullable items
def allNullable : List Expr → Bool
  | [] => true
  | item :: rest => item.nullable && allNullable rest
def anyNullable : List Expr → Bool
  | [] => false
  | item :: rest => item.nullable || anyNullable rest
end

mutual
def startsWith (condition : Look) : Expr → Bool
  | look l => l == condition
  | repetition min _ _ inner => 0 < min && inner.startsWith condition
  | capture _ inner => inner.startsWith condition
  | concat items => someStartsWith condition items
  | alternation items => eachStartsWith condition items
  | _ => false
def someStartsWith (condition : Look) : List Expr → Bool
  | [] => false
  | item :: rest =>
    item.startsWith condition || (item.onlyEmpty && someStartsWith condition rest)
def eachStartsWith (condition : Look) : List Expr → Bool
  | [] => true
  | item :: rest => item.startsWith condition && eachStartsWith condition rest
end

mutual
def endsWith (condition : Look) : Expr → Bool
  | look l => l == condition
  | repetition min _ _ inner => 0 < min && inner.endsWith condition
  | capture _ inner => inner.endsWith condition
  | concat items => someEndsWith condition items
  | alternation items => eachEndsWith condition items
  | _ => false
def someEndsWith (condition : Look) : List Expr → Bool
  | [] => false
  | item :: rest =>
    someEndsWith condition rest || (allOnlyEmpty rest && item.endsWith condition)
def eachEndsWith (condition : Look) : List Expr → Bool
  | [] => true
  | item :: rest => item.endsWith condition && eachEndsWith condition rest
end

mutual
def same : Expr → Expr → Bool
  | empty, empty => true
  | literal codes, literal codes' => codes == codes'
  | oneOf isWide set, oneOf isWide' set' => isWide == isWide' && set == set'
  | look l, look l' => l == l'
  | repetition min max greedy inner, repetition min' max' greedy' inner' =>
    min == min' && max == max' && greedy == greedy' && inner.same inner'
  | capture number inner, capture number' inner' => number == number' && inner.same inner'
  | concat items, concat items' => allSame items items'
  | alternation items, alternation items' => allSame items items'
  | _, _ => false
def allSame : List Expr → List Expr → Bool
  | [], [] => true
  | item :: rest, item' :: rest' => item.same item' && allSame rest rest'
  | _, _ => false
end

mutual
def depth : Expr → Nat
  | repetition _ _ _ inner | capture _ inner => inner.depth + 1
  | concat items | alternation items => depthOfAll items + 1
  | _ => 0
def depthOfAll : List Expr → Nat
  | [] => 0
  | item :: rest => max item.depth (depthOfAll rest)
end

def surrogates : CodeSet := ⟨#[(0xd800, 0xdfff)]⟩

def ofSet (isWide : Bool) (set : CodeSet) : Expr :=
  let set := set.diff surrogates
  match set.ranges.toList with
  | [] => oneOf false set
  | [(lo, hi)] => if lo = hi then literal [lo] else oneOf isWide set
  | _ => oneOf isWide set

def joinLiterals : List Expr → List Expr
  | [] => []
  | item :: rest =>
    match item, joinLiterals rest with
    | literal codes, literal codes' :: rest => literal (codes ++ codes') :: rest
    | item, rest => item :: rest

def inOrder (items : List Expr) : Expr :=
  let flat := items.flatMap fun
    | empty => []
    | concat items => items
    | item => [item]
  match joinLiterals flat with
  | [] => empty
  | [item] => item
  | items => concat items

def commonStart : List Expr → List Expr → Nat
  | item :: rest, item' :: rest' => if item.same item' then commonStart rest rest' + 1 else 0
  | _, _ => 0

def itemLists? : List Expr → Option (List (List Expr))
  | [] => some []
  | concat items :: rest => return items :: (← itemLists? rest)
  | _ => none

def joinedSet? (items : List Expr) : Option CodeSet :=
  let characters := items.filterMap fun
    | literal [code] => some (code, code)
    | _ => none
  let sets := items.filterMap fun
    | oneOf _ set => some set.ranges.toList
    | _ => none
  if characters.length = items.length then some (CodeSet.ofRanges characters)
  else if sets.length = items.length then some (CodeSet.ofRanges sets.flatten)
  else none

/-- A choice between alternatives. First parts that all alternatives have in common stand in front
of the choice, on `levels` levels at most. -/
def anyOfWithin : (levels : Nat) → List Expr → Expr
  | levels, items =>
    let flat := items.flatMap fun
      | alternation items => items
      | item => [item]
    match flat, joinedSet? flat, levels with
    | [item], _, _ => item
    | _, some set, _ => ofSet true set
    | flat, none, 0 => alternation flat
    | flat, none, levels + 1 =>
      match itemLists? flat with
      | some (first :: rest) =>
        let common := rest.foldl (fun n items => min n (commonStart first items)) first.length
        if common = 0 then alternation flat
        else
          let tails := (first :: rest).map fun items => inOrder (items.drop common)
          inOrder (first.take common ++ [anyOfWithin levels tails])
      | _ => alternation flat

def anyOf (items : List Expr) : Expr := anyOfWithin (depthOfAll items + 1) items

def repeated (min : Nat) (max : Option Nat) (greedy : Bool) (inner : Expr) : Expr :=
  let (min, max) :=
    if inner.onlyEmpty then (Nat.min min 1, some (Nat.min (max.getD 1) 1)) else (min, max)
  if min = 0 && max == some 0 then empty
  else if min = 1 && max == some 1 then inner
  else repetition min max greedy inner

end Expr

end StagedLexer.Regex
