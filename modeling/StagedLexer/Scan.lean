import StagedLexer.Event
import StagedLexer.Outcome

/-! One scan over the chunk of a stream. Every match becomes the pending token and confirms the one
before it. While more text may come the pending token is held back, and the state goes back to its
start and to the stage in front of it; at the end of the stream the pending token is confirmed and
text that no rule matches is reported. -/
namespace StagedLexer

structure Lexicon (Ctx : Type) where
  rules : Array (Rule Ctx)
  forest : Forest Ctx

def Lexicon.tokenType {Ctx : Type} (lexicon : Lexicon Ctx) (rule : Nat) : String :=
  (lexicon.rules[rule]?.map (·.tokenType)).getD ""

def Lexicon.nextStage {Ctx : Type} (lexicon : Lexicon Ctx) (rule : Nat) (m : Match) (ctx : Ctx) :
    Except Fault (Option String) :=
  match lexicon.rules[rule]? with
  | some rule => rule.transition.next m ctx
  | none => .ok none

namespace Scan

/-- The last match, which is not confirmed yet, and the stage in which it was found. -/
structure Pending where
  rule : Nat
  start : Nat
  stop : Nat
  stage : Option String
  deriving DecidableEq

structure Report where
  events : Array Event
  notes : Array Note
  result : Except Fault StreamState

structure Progress where
  cursor : Nat
  stage : Option String
  pending : Option Pending := none
  events : Array Event := #[]
  notes : Array Note := #[]

variable {Ctx : Type}

def tokenEvent (lexicon : Lexicon Ctx) (base rule start stop : Nat) : Except Fault Event := do
  let start ← positionBehind base start
  let stop ← positionBehind base stop
  return .token (lexicon.tokenType rule) ⟨start, stop⟩

def confirm (lexicon : Lexicon Ctx) (base : Nat) (progress : Progress) :
    Except Fault (Array Event) :=
  match progress.pending with
  | some p => progress.events.push <$> tokenEvent lexicon base p.rule p.start p.stop
  | none => .ok progress.events

def accept (progress : Progress) (events : Array Event) (rule stop : Nat) (next : Option String) :
    Progress :=
  { cursor := stop
    stage := next.or progress.stage
    pending := some ⟨rule, progress.cursor, stop, progress.stage⟩
    events
    notes := match next with
      | some stage => progress.notes.push (.stageSwitched progress.stage stage)
      | none => progress.notes }

def giveUp (progress : Progress) (fault : Fault) : Report :=
  { events := progress.events, notes := progress.notes, result := .error fault }

def fail (lexicon : Lexicon Ctx) (state : StreamState) (progress : Progress) (owner : Nat)
    (code : ErrorCode) : Report :=
  match confirm lexicon state.chunkOffset progress with
  | .error fault => giveUp progress fault
  | .ok events =>
    match positionBehind state.chunkOffset progress.cursor with
    | .error fault => giveUp { progress with events } fault
    | .ok position =>
      { events := events.push (.error (lexicon.tokenType owner) position code.value)
        notes := progress.notes.push (.ruleFailed owner code.value position)
        result := .ok { state with stage := progress.stage, offset := progress.cursor } }

def conclude (lexicon : Lexicon Ctx) (state : StreamState) (progress : Progress) :
    Except Fault (Array Event) := do
  let base := state.chunkOffset
  let events ← match progress.pending with
    | some p => progress.events.push <$> tokenEvent lexicon base p.rule p.start progress.cursor
    | none => pure progress.events
  if progress.cursor < state.chunk.size then
    return events.push (.unrecognized (← positionBehind base progress.cursor))
  else return events

def finish (lexicon : Lexicon Ctx) (state : StreamState) (streaming : Bool)
    (progress : Progress) : Report :=
  if streaming then
    -- With more text the pending token may become longer, so it is read again with the next chunk.
    let (offset, stage) := match progress.pending with
      | some p => (p.start, p.stage)
      | none => (progress.cursor, progress.stage)
    { events := progress.events, notes := progress.notes
      result := .ok { state with stage, offset } }
  else
    match conclude lexicon state progress with
    | .ok events =>
      { events, notes := progress.notes
        result := .ok { state with stage := progress.stage, offset := progress.cursor } }
    | .error fault => giveUp progress fault

/-- Goes on with a scan. A match ends behind the cursor, so the text left gets shorter. -/
def run (lexicon : Lexicon Ctx) (state : StreamState) (ctx : Ctx) (streaming : Bool)
    (progress : Progress) : Report :=
  if progress.cursor < state.chunk.size then
    match found : Branch.attemptAll state.chunk ctx progress.cursor progress.cursor
        (lexicon.forest.roots progress.stage) with
    | .matched rule stop =>
      have : progress.cursor < stop := Branch.lt_of_attemptAll_eq_matched _ _ found
      let m : Match := ⟨state.chunk, progress.cursor, stop - progress.cursor, progress.stage⟩
      match confirm lexicon state.chunkOffset progress with
      | .error fault => giveUp progress fault
      | .ok events =>
        match lexicon.nextStage rule m ctx with
        | .error fault => giveUp { progress with events } fault
        | .ok next => run lexicon state ctx streaming (accept progress events rule stop next)
    | .failed owner code => fail lexicon state progress owner code
    | .noMatch => finish lexicon state streaming progress
    | .endless => giveUp progress .endless
  else finish lexicon state streaming progress
termination_by state.chunk.size - progress.cursor
decreasing_by simp only [accept]; omega

end Scan

def Lexicon.scan {Ctx : Type} (lexicon : Lexicon Ctx) (state : StreamState) (ctx : Ctx)
    (streaming : Bool) : Scan.Report :=
  Scan.run lexicon state ctx streaming { cursor := state.offset, stage := state.stage }

end StagedLexer
