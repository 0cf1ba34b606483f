import StagedLexer.Bytes
import StagedLexer.Text.Quoted

/-! The state of a token stream between two calls: the stage, the text not yet consumed and the
positions of its start and of the next code unit. -/
namespace StagedLexer

inductive Fault where
  | outOfRange
  | endless
  | overflow
  deriving DecidableEq, Repr

def positionBound : Nat := 0x10000000000000000

def positionBehind (base distance : Nat) : Except Fault Nat :=
  if base + distance < positionBound then .ok (base + distance) else .error .overflow

def Bytes.slice (text : Bytes) (start stop : Nat) : Except Fault Bytes :=
  if start ≤ stop ∧ stop ≤ text.size then .ok (text.extract start stop) else .error .outOfRange

structure StreamState where
  stage : Option String := none
  /-- Text that may start with a consumed part. -/
  chunk : Bytes := #[]
  offset : Nat := 0
  chunkOffset : Nat := 0
  deriving DecidableEq

namespace StreamState

def fresh (stage : Option String) : StreamState := { stage }

def position (state : StreamState) : Except Fault Nat :=
  positionBehind state.chunkOffset state.offset

def remaining (state : StreamState) : Except Fault Bytes :=
  state.chunk.slice state.offset state.chunk.size

def append (state : StreamState) (more : Bytes) : Except Fault StreamState := do
  let rest ← state.remaining
  let chunkOffset ← state.position
  return { stage := state.stage, chunk := rest ++ more, offset := 0, chunkOffset }

def describe (state : StreamState) : String :=
  "State \x7b stage: " ++ Text.optional (state.stage.map Text.quote) ++ ", chunk: " ++
    Text.bracketed (state.chunk.toList.map fun b => toString b.toNat) ++ ", offset: " ++
    toString state.offset ++ ", chunk_offset: " ++ toString state.chunkOffset ++ " \x7d"

end StreamState

end StagedLexer
