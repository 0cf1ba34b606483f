import StagedLexer.Routine.Machine

/-! The statements of a routine as steps of a machine with registers for results and positions. What
its emitted source does is related to the steps of the machine, and these to the scan. -/
namespace StagedLexer

abbrev Registers := Std.HashMap Nat Int

structure Machine where
  registers : Registers
  stage : Option String
  pending : Option Scan.Pending
  events : Array Event

inductive Flow where
  | next
  | leave
  | again
  | stop
  | fault (fault : Fault)
  deriving DecidableEq

structure Surroundings (Ctx : Type) where
  lexicon : Lexicon Ctx
  frame : Frame
  bound : List (Nat × Reader Ctx)
  text : Bytes
  base : Nat
  ctx : Ctx

namespace Machine

/-- The number in a register; registers hold 0 at first. -/
def get (machine : Machine) (var : Nat) : Int := machine.registers.getD var 0

def set (machine : Machine) (var : Nat) (value : Int) : Machine :=
  { machine with registers := machine.registers.insert var value }

def number (machine : Machine) : Place → Int
  | .var v => machine.get v
  | .ofResult r => Source.position (machine.get r)

def position (machine : Machine) (place : Place) : Nat := (machine.number place).toNat

end Machine

def Probe.run (text : Bytes) (pos : Nat) (probe : Probe) : Int :=
  let advance (found : Bool) (distance : Nat) : Int :=
    if pos ≤ text.size && found then ((pos + distance : Nat) : Int) else -1
  match probe with
  | .text units => advance (Bytes.holdsAt text pos units) units.length
  | .textAnyCase units => advance (Bytes.holdsAnyCaseAt text pos units) units.length
  | .oneOf set => advance (text[pos]?.any set.contains) 1
  | .atEnd => advance (pos == text.size) 0
  | .skip count => advance (pos + count ≤ text.size) count

namespace Surroundings

variable {Ctx : Type}

def value (s : Surroundings Ctx) (machine : Machine) : Value → Except Fault Int
  | .noMatch => .ok (-1)
  | .position place => .ok (machine.number place)
  | .result v => .ok (machine.get v)
  | .probe probe place => .ok (probe.run s.text (machine.position place))
  | .call bound place =>
    match s.bound.lookup bound with
    | none => .error .outOfRange
    | some reader =>
      match (reader.read s.text s.ctx (machine.position place)).toInt? with
      | some result => .ok result
      | none => .error .endless
  | .chunkEnd => .ok s.text.size
  | .counted counter min pos => .ok (if min ≤ machine.get counter then machine.get pos else -1)
  | .place place => .ok (machine.number place)
  | .asPlace r => .ok (Source.position (machine.get r))
  | .zero => .ok 0
  | .succ v => .ok (machine.get v + 1)

def holds (s : Surroundings Ctx) (machine : Machine) : Cond → Bool
  | .noMatch r => machine.get r == -1
  | .isMatch r => 0 ≤ machine.get r
  | .negative r => machine.get r < 0
  | .notNoMatch r => machine.get r != -1
  | .reached counter bound => machine.get counter == bound
  | .unmoved r pos => (Source.position (machine.get r) : Int) == machine.get pos
  | .atChunkEnd pos => s.text.size ≤ machine.get pos

def confirm (s : Surroundings Ctx) (machine : Machine) : Except Fault Machine :=
  match machine.pending with
  | some p => do
    let event ← Scan.tokenEvent s.lexicon s.base p.rule p.start p.stop
    return { machine with pending := none, events := machine.events.push event }
  | none => .ok machine

def moveStage (s : Surroundings Ctx) (machine : Machine) (rule cursor stop : Nat) :
    StageMove → Except Fault (Option String)
  | .stay => .ok none
  | .switch stage => .ok (some stage)
  | .computed => s.lexicon.nextStage rule ⟨s.text, cursor, stop - cursor, machine.stage⟩ s.ctx

def accept (s : Surroundings Ctx) (machine : Machine) (rule stop : Nat) (move : StageMove) :
    Flow × Machine :=
  let cursor := (machine.get s.frame.cursor).toNat
  if cursor < stop then
    match s.confirm machine with
    | .error fault => (.fault fault, machine)
    | .ok confirmed =>
      match s.moveStage confirmed rule cursor stop move with
      | .error fault => (.fault fault, confirmed)
      | .ok next =>
        -- The stage in front of the match is kept, should the match be read again.
        (.again, { confirmed with
          stage := next.or machine.stage
          pending := some ⟨rule, cursor, stop, machine.stage⟩
          registers := confirmed.registers.insert s.frame.cursor stop })
  else (.next, machine)

def failed (s : Surroundings Ctx) (machine : Machine) (owner : Nat) (code : Int) :
    Flow × Machine :=
  match s.confirm machine with
  | .error fault => (.fault fault, machine)
  | .ok confirmed =>
    match positionBehind s.base (machine.get s.frame.cursor).toNat with
    | .error fault => (.fault fault, confirmed)
    | .ok position =>
      (.stop, { confirmed with
        events := confirmed.events.push (.error (s.lexicon.tokenType owner) position code) })

/-- Repeats a body until it leaves the loop, for at most `rounds` rounds. -/
def iterate (body : Machine → Flow × Machine) : (rounds : Nat) → Machine → Flow × Machine
  | 0, machine => (.fault .endless, machine)
  | rounds + 1, machine =>
    match body machine with
    | (.next, machine) => iterate body rounds machine
    | (.leave, machine) => (.next, machine)
    | other => other

mutual
/-- Runs a statement; every loop makes at most `rounds` rounds. -/
def exec (s : Surroundings Ctx) (rounds : Nat) : Stmt → Machine → Flow × Machine
  | .declare _, machine => (.next, machine)
  | .assign v value _, machine =>
    match s.value machine value with
    | .ok number => (.next, machine.set v number)
    | .error fault => (.fault fault, machine)
  | .block items, machine => execAll s rounds items machine
  | .guarded cond body, machine =>
    if s.holds machine cond then exec s rounds body machine else (.next, machine)
  | .onResult r matched failed, machine =>
    if 0 ≤ machine.get r then exec s rounds matched machine
    else if machine.get r != -1 then exec s rounds failed machine
    else (.next, machine)
  | .loop body, machine => iterate (exec s rounds body) rounds machine
  | .leave, machine => (.leave, machine)
  | .accept rule stop move, machine => s.accept machine rule (machine.position stop) move
  | .fail owner r, machine => s.failed machine owner (machine.get r)
  | .dispatch stages arms otherwise, machine =>
    match execArm s rounds stages arms machine with
    | some result => result
    | none => exec s rounds otherwise machine
def execAll (s : Surroundings Ctx) (rounds : Nat) : List Stmt → Machine → Flow × Machine
  | [], machine => (.next, machine)
  | stmt :: rest, machine =>
    match exec s rounds stmt machine with
    | (.next, machine) => execAll s rounds rest machine
    | other => other
def execArm (s : Surroundings Ctx) (rounds : Nat) (stages : List String) :
    List Stmt → Machine → Option (Flow × Machine)
  | [], _ => none
  | arm :: rest, machine =>
    match stages with
    | [] => none
    | stage :: stages =>
      if machine.stage = some stage then some (exec s rounds arm machine)
      else execArm s rounds stages rest machine
end

/-- The scan loop: tries the rules at the cursor as long as text is left. -/
def scanLoop (s : Surroundings Ctx) (dispatch : Stmt) (rounds : Nat) :
    (fuel : Nat) → Machine → Flow × Machine
  | 0, machine => (.fault .endless, machine)
  | fuel + 1, machine =>
    if machine.get s.frame.cursor < s.text.size then
      match s.exec rounds dispatch machine with
      | (.again, machine) => scanLoop s dispatch rounds fuel machine
      -- No rule matches at the cursor.
      | (.next, machine) | (.leave, machine) => (.next, machine)
      | other => other
    else (.next, machine)

/-- Holds the pending token back: the stream goes back to its start. -/
def holdBack (machine : Machine) (cursor : Nat) (state : StreamState) : StreamState :=
  match machine.pending with
  | some p => { state with stage := p.stage, offset := p.start }
  | none => { state with stage := machine.stage, offset := cursor }

/-- The events with the pending token, which ends at the cursor, and with the text that no rule
matches. -/
def conclude (s : Surroundings Ctx) (machine : Machine) (cursor : Nat) :
    Except Fault (Array Event) := do
  let events ← match machine.pending with
    | some p => machine.events.push <$> Scan.tokenEvent s.lexicon s.base p.rule p.start cursor
    | none => pure machine.events
  if cursor < s.text.size then
    return events.push (.unrecognized (← positionBehind s.base cursor))
  else return events

/-- What stands behind the scan loop: the events that are reported in the end, and the state that
is left. -/
def result (s : Surroundings Ctx) (state : StreamState) (streaming : Bool) (flow : Flow)
    (machine : Machine) : Array Event × Except Fault StreamState :=
  let cursor := (machine.get s.frame.cursor).toNat
  let here : StreamState := { state with stage := machine.stage, offset := cursor }
  match flow with
  | .fault fault => (machine.events, .error fault)
  | .stop => (machine.events, .ok here)
  | _ =>
    if streaming then (machine.events, .ok (holdBack machine cursor state))
    else match s.conclude machine cursor with
      | .ok events => (events, .ok here)
      | .error fault => (machine.events, .error fault)

end Surroundings

namespace Routine

variable {Ctx : Type}

def surroundings (routine : Routine Ctx) (lexicon : Lexicon Ctx) (state : StreamState) (ctx : Ctx) :
    Surroundings Ctx :=
  { lexicon, frame := routine.frame, bound := routine.assembler.bindings, text := state.chunk
    base := state.chunkOffset, ctx }

def start (routine : Routine Ctx) (state : StreamState) : Machine :=
  { registers := Std.HashMap.emptyWithCapacity.insert routine.frame.cursor state.offset
    stage := state.stage, pending := none, events := #[] }

/-- The events and the state that the steps of a routine lead to, with at most `rounds` rounds of
every loop. -/
def walk (routine : Routine Ctx) (lexicon : Lexicon Ctx) (rounds : Nat) (state : StreamState)
    (ctx : Ctx) (streaming : Bool) : Array Event × Except Fault StreamState :=
  let s := routine.surroundings lexicon state ctx
  let (flow, machine) := s.scanLoop routine.dispatch rounds rounds (routine.start state)
  s.result state streaming flow machine

end Routine

end StagedLexer
