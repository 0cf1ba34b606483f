import StagedLexer.Error
import StagedLexer.Reader.Basic
import StagedLexer.Text.Letter

/-! Making readers. Every operation takes the identity that a new reader gets; where an argument
already reads what is asked for, the argument itself is the result and keeps its identity. Nested
sequences and alternations are flattened, and readers known to match nowhere or everywhere are left
out where that changes no outcome. -/
namespace StagedLexer.Reader

variable {Ctx : Type}

def never (id : Nat) : Reader Ctx := .leaf id .never

def always (id : Nat) : Reader Ctx := .leaf id .always

def text (id : Nat) (units : List UInt8) : Reader Ctx :=
  if units.isEmpty then always id else .leaf id (.text units)

def textAnyCase (id : Nat) (units : List UInt8) : Reader Ctx :=
  if units.isEmpty then always id
  else if units.any Bytes.isLetter then .leaf id (.textAnyCase (units.map Bytes.lower))
  else .leaf id (.text units)

def ofSet (id : Nat) (set : ByteSet) : Reader Ctx :=
  if set.isEmpty then never id else .leaf id (.oneOf set)

def oneOf (id : Nat) (units : List UInt8) : Reader Ctx := ofSet id (ByteSet.ofBytes units)

def noneOf (id : Nat) (units : List UInt8) : Reader Ctx :=
  ofSet id (ByteSet.ofBytes units).complement

def charRange (id : Nat) (lo hi : UInt8) : Except BuildError (Reader Ctx) :=
  match ByteSet.range? lo hi with
  | some set => .ok (ofSet id set)
  | none => .error (.invalidRange lo hi)

def regex (id : Nat) (pattern : String) : Except BuildError (Reader Ctx) :=
  match Regex.ofPattern pattern with
  | .ok r => .ok (.leaf id (.regex r))
  | .error (.malformed cause) => .error (.malformedRegex pattern cause)
  | .error (.unusable cause) => .error (.unusableRegex pattern cause)

def atEnd (id : Nat) : Reader Ctx := .leaf id .atEnd

def skip (id : Nat) (count : Nat) : Reader Ctx :=
  if count = 0 then always id else .leaf id (.skip count)

def custom (id : Nat) (run : Bytes → Nat → Ctx → Reading) : Reader Ctx := .leaf id (.custom run)

def flattenSequences (items : List (Reader Ctx)) : List (Reader Ctx) :=
  items.flatMap fun
    | .sequence _ inner => inner
    | .leaf _ .always => []
    | reader => [reader]

def inOrder (id : Nat) (items : List (Reader Ctx)) : Reader Ctx :=
  match flattenSequences items with
  | [] => always id
  | first :: rest =>
    if first.isNever then never id
    else if rest.isEmpty then first
    else .sequence id (first :: rest)

def flattenAlternations (items : List (Reader Ctx)) : List (Reader Ctx) :=
  (items.flatMap fun
    | .alternation _ inner => inner
    | reader => [reader]).filter fun reader => !reader.isNever

def reachable : List (Reader Ctx) → List (Reader Ctx)
  | [] => []
  | reader :: rest => if reader.neverFails then [reader] else reader :: reachable rest

def firstOf (id : Nat) (items : List (Reader Ctx)) : Reader Ctx :=
  match reachable (flattenAlternations items) with
  | [] => never id
  | [reader] => reader
  | readers => .alternation id readers

def orNothing (id : Nat) (inner : Reader Ctx) : Reader Ctx :=
  if inner.isNever then always id
  else if inner.neverFails then inner
  else .optional id inner

def times (id : Nat) (inner : Reader Ctx) (min : Nat) (max : Option Nat) : Reader Ctx :=
  if max == some 0 then always id
  else if max.any (· < min) then never id
  else if inner.isNever then if min = 0 then always id else never id
  else if inner.isAlways then inner
  else if min = 0 && max == some 1 then orNothing id inner
  else if min = 1 && max == some 1 then inner
  else .repetition id inner min max

def ahead (id : Nat) (inner : Reader Ctx) : Reader Ctx :=
  match inner with
  | .leaf _ .never | .leaf _ .always | .lookahead _ _ => inner
  | _ => .lookahead id inner

def upTo (id : Nat) (inner : Reader Ctx) (inclusive openEnd : Bool) : Reader Ctx :=
  if inner.isAlways then inner else .seek id inner inclusive openEnd

/-- Matches a character in its lower or upper case form. The identities `id`, `id + 1` and `id + 2`
are for the reader and for those of its two forms. -/
def charAnyCase (id : Nat) (c : Char) : Except BuildError (Reader Ctx) :=
  match Text.Letter.lower? c, Text.Letter.upper? c with
  | some lower, some upper =>
    if lower.utf8Size ≠ upper.utf8Size then .error (.caseMismatch c)
    else if lower = upper then .ok (text id (Bytes.ofString (String.singleton lower)))
    else if lower.toNat < 0x80 then
      .ok (ofSet id (ByteSet.ofBytes [lower.toNat.toUInt8, upper.toNat.toUInt8]))
    else
      let form (id : Nat) (c : Char) : Reader Ctx := text id (Bytes.ofString (String.singleton c))
      .ok (firstOf id [form (id + 1) lower, form (id + 2) upper])
  | _, _ => .error (.caseMismatch c)

end StagedLexer.Reader
