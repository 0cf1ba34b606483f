import StagedLexer.ByteSet
import StagedLexer.Reading
import StagedLexer.Regex

/-! Readers: what they are made of, what they read and how they are shown. Every reader has an
identity, by which rules that start with the same reader are recognised; two readers that read the
same are still different readers unless one was made from the other by reference. -/
namespace StagedLexer

inductive Leaf (Ctx : Type) where
  | never
  | always
  | text (units : List UInt8)
  | textAnyCase (units : List UInt8)
  | oneOf (set : ByteSet)
  | regex (regex : Regex)
  | atEnd
  | skip (count : Nat)
  | custom (run : Bytes → Nat → Ctx → Reading)

inductive Reader (Ctx : Type) where
  | leaf (id : Nat) (leaf : Leaf Ctx)
  | sequence (id : Nat) (items : List (Reader Ctx))
  | alternation (id : Nat) (items : List (Reader Ctx))
  | repetition (id : Nat) (inner : Reader Ctx) (min : Nat) (max : Option Nat)
  | optional (id : Nat) (inner : Reader Ctx)
  | lookahead (id : Nat) (inner : Reader Ctx)
  /-- Everything up to the first match of the reader, which belongs to it if `inclusive` is set.
  Without a match it is everything if `openEnd` is set. -/
  | seek (id : Nat) (inner : Reader Ctx) (inclusive openEnd : Bool)

namespace Leaf

variable {Ctx : Type}

def read (text : Bytes) (ctx : Ctx) (offset : Nat) : Leaf Ctx → Reading
  | .never => .noMatch
  | .always => .matched offset
  | .text units =>
    if Bytes.holdsAt text offset units then .matched (offset + units.length) else .noMatch
  | .textAnyCase units =>
    if Bytes.holdsAnyCaseAt text offset units then .matched (offset + units.length) else .noMatch
  | .oneOf set =>
    match text[offset]? with
    | some b => if set.contains b then .matched (offset + 1) else .noMatch
    | none => .noMatch
  | .regex r =>
    match r.matchAt? text offset with
    | some stop => .matched stop
    | none => .noMatch
  | .atEnd => if offset = text.size then .matched offset else .noMatch
  | .skip count => if offset + count ≤ text.size then .matched (offset + count) else .noMatch
  | .custom run => run text offset ctx

def describe : Leaf Ctx → String
  | never => "never"
  | always => "always"
  | text units => Text.quote (Text.Utf8.decode units.toArray)
  | textAnyCase units => "i" ++ Text.quote (Text.Utf8.decode units.toArray)
  | oneOf set => set.describe
  | regex r => "/" ++ r.pattern ++ "/"
  | atEnd => "end"
  | skip count => "skip(" ++ toString count ++ ")"
  | custom _ => "custom"

end Leaf

namespace Reader

variable {Ctx : Type}

def id : Reader Ctx → Nat
  | leaf id _ | sequence id _ | alternation id _ | repetition id _ _ _ | optional id _
  | lookahead id _ | seek id _ _ _ => id

def isNever : Reader Ctx → Bool
  | leaf _ .never => true
  | _ => false

def isAlways : Reader Ctx → Bool
  | leaf _ .always => true
  | _ => false

/-- Whether the reader is known to match everywhere, unless there is an application error. -/
def neverFails : Reader Ctx → Bool
  | leaf _ .always | optional _ _ => true
  | repetition _ _ min _ => min == 0
  | seek _ _ _ openEnd => openEnd
  | _ => false

def steps : Reader Ctx → List (Reader Ctx)
  | sequence _ items => items
  | reader => [reader]

/-- The number of rounds after which a repetition is complete or has been at one position twice. -/
def rounds (text : Bytes) (max : Option Nat) : Nat := max.getD (text.size + 2)

mutual
def read (text : Bytes) (ctx : Ctx) : Reader Ctx → (offset : Nat) → Reading
  | leaf _ l, offset =>
    if text.size < offset then .noMatch else l.read text ctx offset
  | sequence _ items, offset =>
    if text.size < offset then .noMatch else readAll text ctx items offset
  | alternation _ items, offset =>
    if text.size < offset then .noMatch else readAny text ctx items offset
  | repetition _ inner min max, offset =>
    if text.size < offset then .noMatch
    else Reading.repeatFrom (read text ctx inner) min max.isSome (rounds text max) 0 offset
  | optional _ inner, offset =>
    if text.size < offset then .noMatch
    else (read text ctx inner offset).orElse fun _ => .matched offset
  | lookahead _ inner, offset =>
    if text.size < offset then .noMatch
    else (read text ctx inner offset).andThen fun _ => .matched offset
  -- The position behind the last code unit is tried as well.
  | seek _ inner inclusive openEnd, offset =>
    if text.size < offset then .noMatch
    else Reading.seekFrom (read text ctx inner) inclusive
      (if openEnd then .matched text.size else .noMatch) (text.size - offset) offset
def readAll (text : Bytes) (ctx : Ctx) : List (Reader Ctx) → (offset : Nat) → Reading
  | [], offset => .matched offset
  | reader :: rest, offset => (read text ctx reader offset).andThen (readAll text ctx rest)
def readAny (text : Bytes) (ctx : Ctx) : List (Reader Ctx) → (offset : Nat) → Reading
  | [], _ => .noMatch
  | reader :: rest, offset =>
    (read text ctx reader offset).orElse fun _ => readAny text ctx rest offset
end

def flagText (flag : Bool) : String := if flag then "true" else "false"

mutual
def describe : Reader Ctx → String
  | leaf _ l => l.describe
  | sequence _ items => "seq(" ++ Text.bracketed (describeAll items) ++ ")"
  | alternation _ items => "alt(" ++ Text.bracketed (describeAll items) ++ ")"
  | repetition _ inner min max =>
    "repeat(" ++ describe inner ++ ", " ++ toString min ++ ", " ++
      (match max with
        | some max => toString max
        | none => "..") ++ ")"
  | optional _ inner => "optional(" ++ describe inner ++ ")"
  | lookahead _ inner => "lookahead(" ++ describe inner ++ ")"
  | seek _ inner inclusive openEnd =>
    "until(" ++ describe inner ++ ", inclusive: " ++ flagText inclusive ++ ", open: " ++
      flagText openEnd ++ ")"
def describeAll : List (Reader Ctx) → List String
  | [] => []
  | reader :: rest => describe reader :: describeAll rest
end

end Reader

end StagedLexer
