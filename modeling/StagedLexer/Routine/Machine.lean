import StagedLexer.Routine.Basic
import StagedLexer.Source.Run

/-! Running a scanning routine: its body, as emitted source, is run on the state of a stream. -/
namespace StagedLexer

variable {Ctx : Type}

namespace Source

def Memory.start (bindings : List (Nat × Reader Ctx)) (state : StreamState) (streaming : Bool) :
    Memory Ctx :=
  { vars := .ofList (bindings.map fun (v, reader) => (v, .reader reader))
    names := [("rules", .rules), ("state", .state), ("handler", .handler), ("ctx", .context),
      ("streaming", .truth streaming)]
    state, events := #[] }

def report : Flow × Memory Ctx → Array Event × Except Halt StreamState
  | (.next, memory) | (.stop, memory) => (memory.events, .ok memory.state)
  | (.halt halt, memory) => (memory.events, .error halt)
  | (.leave, memory) | (.again _, memory) => (memory.events, .error .stuck)

def scan (body : Code) (bindings : List (Nat × Reader Ctx)) (rounds : Nat)
    (rules : Array (Rule Ctx)) (state : StreamState) (ctx : Ctx) (streaming : Bool) :
    Array Event × Except Halt StreamState :=
  report (run ⟨rules, ctx⟩ rounds body (.start bindings state streaming))

end Source

namespace Routine

/-- Runs a routine on the state of a stream. A loop that always moves makes at most as many rounds
as the chunk has positions. A program that gets stuck is out of the range of the language. -/
def run (routine : Routine Ctx) (lexicon : Lexicon Ctx) (state : StreamState) (ctx : Ctx)
    (streaming : Bool) : Array Event × Except Fault StreamState :=
  let (events, result) := Source.scan routine.body routine.assembler.bindings
    (state.chunk.size + 3) lexicon.rules state ctx streaming
  (events, result.mapError fun
    | .fault fault => fault
    | .stuck => .outOfRange)

end Routine

end StagedLexer
