import Std.Data.HashMap
import StagedLexer.Event
import StagedLexer.Rule
import StagedLexer.Source.Parser

/-! Running programs of emitted source on the state of a stream. A program that the language would
refuse gets stuck: it reads a variable that has not been assigned, or it mixes types. Numbers are as
large as they have to be, but positions that are reported have to be positions of a stream. -/
namespace StagedLexer.Source

variable {Ctx : Type}

inductive Field where
  | stage
  | chunk
  | offset
  | chunkOffset

inductive Datum (Ctx : Type) where
  /-- A number that takes the type of what it meets. -/
  | number (value : Nat)
  | size (value : Nat)
  | signed (value : Int)
  | truth (value : Bool)
  | text (text : String)
  | units (units : List UInt8)
  | fromOn (start : Nat)
  | upTo (stop : Nat)
  | absent
  | present (inner : Datum Ctx)
  | tuple (items : List (Datum Ctx))
  | state
  | field (field : Field)
  | rules
  | rule (number : Nat)
  | handler
  | context
  | reader (reader : Reader Ctx)

inductive Halt where
  | fault (fault : Fault)
  | stuck

inductive Flow where
  | next
  | leave
  | again (label : String)
  | stop
  | halt (halt : Halt)

structure Host (Ctx : Type) where
  rules : Array (Rule Ctx)
  ctx : Ctx

structure Memory (Ctx : Type) where
  vars : Std.HashMap Nat (Datum Ctx)
  names : List (String × Datum Ctx)
  state : StreamState
  events : Array Event

def Field.ofName? : String → Option Field
  | "stage" => some .stage
  | "chunk" => some .chunk
  | "offset" => some .offset
  | "chunk_offset" => some .chunkOffset
  | _ => none

/-- A result as a position. A negative one wraps around. -/
def position (result : Int) : Nat := (if 0 ≤ result then result else result % positionBound).toNat

@[simp] theorem position_natCast (n : Nat) : position n = n := by simp [position]

namespace Datum

def ofStage : Option String → Datum Ctx
  | none => absent
  | some stage => present (text stage)

def toStage? : Datum Ctx → Option (Option String)
  | absent => some none
  | present (text stage) => some (some stage)
  | _ => none

def cast (type : String) : Datum Ctx → Except Halt (Datum Ctx)
  | number n | size n =>
    match type with
    | "usize" => .ok (size n)
    | "isize" => .ok (signed n)
    | _ => .error .stuck
  | signed i =>
    match type with
    | "usize" => .ok (size (position i))
    | "isize" => .ok (signed i)
    | _ => .error .stuck
  | _ => .error .stuck

def negate : Datum Ctx → Except Halt (Datum Ctx)
  | number n => .ok (signed (-n))
  | signed i => .ok (signed (-i))
  | _ => .error .stuck

def truth? : Datum Ctx → Except Halt Bool
  | truth b => .ok b
  | _ => .error .stuck

def like (other : Datum Ctx) : Datum Ctx → Datum Ctx
  | number n =>
    match other with
    | size _ => size n
    | signed _ => signed n
    | _ => number n
  | datum => datum

def call (path : List String) (arguments : List (Datum Ctx)) : Except Halt (Datum Ctx) :=
  match path, arguments with
  | ["Some"], [inner] => .ok (present inner)
  | ["String", "from"], [text s] => .ok (text s)
  | _, _ => .error .stuck

def item (host : Host Ctx) : (datum place : Datum Ctx) → Except Halt (Datum Ctx)
  | rules, number n | rules, size n =>
    if n < host.rules.size then .ok (rule n) else .error (.fault .outOfRange)
  | units us, upTo n =>
    if n ≤ us.length then .ok (units (us.take n)) else .error (.fault .outOfRange)
  | _, _ => .error .stuck

def method (host : Host Ctx) (name : String) :
    (datum : Datum Ctx) → (arguments : List (Datum Ctx)) → Except Halt (Datum Ctx)
  | units us, [] =>
    match name with
    | "len" => .ok (size us.length)
    | "as_slice" => .ok (units us)
    | _ => .error .stuck
  | units us, [fromOn n] =>
    match name with
    | "get" => .ok (if n ≤ us.length then present (units (us.drop n)) else absent)
    | _ => .error .stuck
  | units us, [units others] =>
    match name with
    | "starts_with" => .ok (truth (others.isPrefixOf us))
    | "eq_ignore_ascii_case" => .ok (truth (us.map Bytes.lower == others.map Bytes.lower))
    | _ => .error .stuck
  | absent, [] => if name = "clone" ∨ name = "as_deref" then .ok absent else .error .stuck
  | present s, [] => if name = "clone" ∨ name = "as_deref" then .ok (present s) else .error .stuck
  | reader r, [units us, size n, context] =>
    match name with
    | "read" =>
      match (r.read us.toArray host.ctx n).toInt? with
      | some result => .ok (signed result)
      | none => .error (.fault .endless)
    | _ => .error .stuck
  | rule n, [units us, size start, size count, context, stage] =>
    match name, host.rules[n]?, stage.toStage? with
    | "next_stage", some asked, some stage =>
      match asked.transition.next ⟨us.toArray, start, count, stage⟩ host.ctx with
      | .ok next => .ok (ofStage next)
      | .error fault => .error (.fault fault)
    | _, _, _ => .error .stuck
  | _, _ => .error .stuck

end Datum

namespace Operator

def compare (operator : Operator) (a b : Int) : Except Halt (Datum Ctx) :=
  match operator with
  | equal => .ok (.truth (a = b))
  | differs => .ok (.truth (a ≠ b))
  | less => .ok (.truth (a < b))
  | greater => .ok (.truth (b < a))
  | atMost => .ok (.truth (a ≤ b))
  | atLeast => .ok (.truth (b ≤ a))
  | plus | minus | both => .error .stuck

def apply (operator : Operator) (left right : Datum Ctx) : Except Halt (Datum Ctx) :=
  match operator, right.like left, left.like right with
  | plus, .size a, .size b => .ok (.size (a + b))
  | minus, .size a, .size b => if b ≤ a then .ok (.size (a - b)) else .error (.fault .overflow)
  | _, .size a, .size b => operator.compare a b
  | _, .signed a, .signed b => operator.compare a b
  | _, _, _ => .error .stuck

end Operator

def Pattern.match? : Pattern → Datum Ctx → Option (List (String × Datum Ctx))
  | anything, _ => .some []
  | name n, datum => .some [(n, datum)]
  | text a, .text b => if a = b then .some [] else .none
  | some inside, .present datum => inside.match? datum
  | tuple parts, .tuple items =>
    if parts.length = items.length then
      .some ((parts.zip items).filterMap fun (part, item) => part.map (·, item))
    else .none
  | emptySlice, .units [] => .some []
  | startsIn n ranges, .units (b :: rest) =>
    if ranges.any fun (lo, hi) => lo ≤ b && b ≤ hi then .some [(n, .units (b :: rest))] else .none
  | fields "State" names, .state =>
    names.mapM fun n => (Field.ofName? n).map fun field => (n, .field field)
  | _, _ => .none

namespace Memory

def field (memory : Memory Ctx) : Field → Datum Ctx
  | .stage => .ofStage memory.state.stage
  | .chunk => .units memory.state.chunk.toList
  | .offset => .size memory.state.offset
  | .chunkOffset => .size memory.state.chunkOffset

def content (memory : Memory Ctx) : Datum Ctx → Datum Ctx
  | .field field => memory.field field
  | datum => datum

def set (memory : Memory Ctx) (v : Nat) (datum : Datum Ctx) : Memory Ctx :=
  { memory with vars := memory.vars.insert v datum }

def setField (memory : Memory Ctx) : Field → Datum Ctx → Except Halt (Memory Ctx)
  | .stage, datum =>
    match datum.toStage? with
    | some stage => .ok { memory with state := { memory.state with stage } }
    | none => .error .stuck
  | .offset, .size n => .ok { memory with state := { memory.state with offset := n } }
  | _, _ => .error .stuck

def push (memory : Memory Ctx) (event : Event) : Memory Ctx :=
  { memory with events := memory.events.push event }

def report (host : Host Ctx) (memory : Memory Ctx) (name : String) :
    List (Datum Ctx) → Except Halt (Memory Ctx)
  | [.rule n, .size start, .size stop] =>
    match name, host.rules[n]? with
    | "token", some rule => do
      return memory.push (.token rule.tokenType ⟨← checked start, ← checked stop⟩)
    | _, _ => .error .stuck
  | [.rule n, .size offset, .signed code] =>
    match name, host.rules[n]? with
    | "error", some rule => do
      return memory.push (.error rule.tokenType (← checked offset) code)
    | _, _ => .error .stuck
  | [.size offset] =>
    match name with
    | "unrecognized_token" => do return memory.push (.unrecognized (← checked offset))
    | _ => .error .stuck
  | _ => .error .stuck
where
  checked (n : Nat) : Except Halt Nat :=
    if n < positionBound then .ok n else .error (.fault .overflow)

end Memory

section Expressions

variable (host : Host Ctx)

mutual
def eval (memory : Memory Ctx) : Expr → Except Halt (Datum Ctx)
  | .number n => .ok (.number n)
  | .size n => .ok (.size n)
  | .text s => .ok (.text s)
  | .units us => .ok (.units us)
  | .var v =>
    match memory.vars[v]? with
    | some datum => .ok datum
    | none => .error .stuck
  | .name n =>
    match memory.names.lookup n with
    | some datum => .ok datum
    | none => .error .stuck
  | .absent _ => .ok .absent
  | .paren inner => eval memory inner
  | .negative inner => do (← eval memory inner).negate
  | .content inner => return memory.content (← eval memory inner)
  | .borrow inner => eval memory inner
  | .cast inner type => do (← eval memory inner).cast type
  | .binary .both left right => do
    if ← (← eval memory left).truth? then return .truth (← (← eval memory right).truth?)
    else return .truth false
  | .binary operator left right => do operator.apply (← eval memory left) (← eval memory right)
  | .fromOn start => do
    match ← eval memory start with
    | .number n | .size n => .ok (.fromOn n)
    | _ => .error .stuck
  | .upTo stop => do
    match ← eval memory stop with
    | .number n | .size n => .ok (.upTo n)
    | _ => .error .stuck
  | .index inner place => do (← eval memory inner).item host (← eval memory place)
  | .call path arguments => do Datum.call path (← evalAll memory arguments)
  | .method receiver name arguments => do
    (memory.content (← eval memory receiver)).method host name (← evalAll memory arguments)
  | .tuple items => return .tuple (← evalAll memory items)
  | .either cond first second => do
    if ← (← eval memory cond).truth? then eval memory first else eval memory second
  | .choose inner arms => do evalArms memory (← eval memory inner) arms
def evalAll (memory : Memory Ctx) : List Expr → Except Halt (List (Datum Ctx))
  | [] => .ok []
  | expr :: rest => return (← eval memory expr) :: (← evalAll memory rest)
def evalArms (memory : Memory Ctx) (datum : Datum Ctx) : Arms → Except Halt (Datum Ctx)
  | .done => .error .stuck
  | .plain pattern value rest =>
    match pattern.match? datum with
    | some names => eval { memory with names := names ++ memory.names } value
    | none => evalArms memory datum rest
  | .guarded pattern guard value rest =>
    match pattern.match? datum with
    | some names => do
      let inside := { memory with names := names ++ memory.names }
      if ← (← eval inside guard).truth? then eval inside value else evalArms memory datum rest
    | none => evalArms memory datum rest
end

/-- What a pattern is matched with, and what is left behind: an optional value may be taken out of
its variable. -/
def look (memory : Memory Ctx) (value : Expr) : Except Halt (Datum Ctx × Memory Ctx) :=
  match value with
  | .method (.var v) "take" [] =>
    match memory.vars[v]? with
    | some .absent => .ok (.absent, memory)
    | some (.present datum) => .ok (.present datum, memory.set v .absent)
    | _ => .error .stuck
  | value => return (← eval host memory value, memory)

def assign (memory : Memory Ctx) (target : Expr) (datum : Datum Ctx) :
    Except Halt (Memory Ctx) :=
  match target with
  | .var v => .ok (memory.set v datum)
  | .content place => do
    match ← eval host memory place with
    | .field field => memory.setField field datum
    | _ => .error .stuck
  | _ => .error .stuck

def perform (memory : Memory Ctx) (action : Expr) : Except Halt (Memory Ctx) :=
  match action with
  | .method receiver name arguments => do
    match ← eval host memory receiver with
    | .handler => memory.report host name (← evalAll host memory arguments)
    | _ => .error .stuck
  | _ => .error .stuck

end Expressions

namespace Memory

def andThen {α : Type} (memory : Memory Ctx) (result : Except Halt α)
    (next : α → Flow × Memory Ctx) : Flow × Memory Ctx :=
  match result with
  | .ok value => next value
  | .error halt => (.halt halt, memory)

def within (memory : Memory Ctx) (names : List (String × Datum Ctx))
    (body : Memory Ctx → Flow × Memory Ctx) : Flow × Memory Ctx :=
  let (flow, after) := body { memory with names := names ++ memory.names }
  (flow, { after with names := memory.names })

end Memory

namespace Flow

def rejoin (label : String) : Flow → Flow
  | again name => if name = label then next else again name
  | flow => flow

end Flow

def repeated (round : Memory Ctx → Flow × Memory Ctx) : (rounds : Nat) → Memory Ctx →
    Flow × Memory Ctx
  | 0, memory => (.halt (.fault .endless), memory)
  | rounds + 1, memory =>
    match round memory with
    | (.next, memory) => repeated round rounds memory
    | (.leave, memory) => (.next, memory)
    | other => other

section Commands

variable (host : Host Ctx) (rounds : Nat)

mutual
def exec : Command → Memory Ctx → Flow × Memory Ctx
  | .declare v none, memory => (.next, { memory with vars := memory.vars.erase v })
  | .declare v (some value), memory | .fix v value, memory =>
    memory.andThen (eval host memory value) fun datum => (.next, memory.set v datum)
  | .bind pattern value, memory =>
    memory.andThen (eval host memory value) fun datum =>
      match pattern.match? datum with
      | some names => (.next, { memory with names := names ++ memory.names })
      | none => (.halt .stuck, memory)
  | .assign target value, memory =>
    memory.andThen (do assign host memory target (← eval host memory value)) fun memory =>
      (.next, memory)
  | .perform action, memory =>
    memory.andThen (perform host memory action) fun memory => (.next, memory)
  | .test cond first second, memory =>
    memory.andThen (do (← eval host memory cond).truth?) fun holds =>
      if holds then memory.within [] (execAll first) else memory.within [] (execAll second)
  | .testPattern pattern value first second, memory =>
    memory.andThen (look host memory value) fun (datum, memory) =>
      match pattern.match? datum with
      | some names => memory.within names (execAll first)
      | none => memory.within [] (execAll second)
  | .choose value patterns bodies, memory =>
    memory.andThen (eval host memory value) fun datum => execCases datum patterns bodies memory
  | .loop body, memory =>
    repeated (fun memory => memory.within [] (execAll body)) rounds memory
  | .during label cond body, memory =>
    repeated (fun memory =>
      memory.andThen (do (← eval host memory cond).truth?) fun holds =>
        if holds then
          let (flow, memory) := memory.within [] (execAll body)
          (flow.rejoin label, memory)
        else (.leave, memory)) rounds memory
  | .leave, memory => (.leave, memory)
  | .again label, memory => (.again label, memory)
  | .stop, memory => (.stop, memory)
def execAll : List Command → Memory Ctx → Flow × Memory Ctx
  | [], memory => (.next, memory)
  | command :: rest, memory =>
    match exec command memory with
    | (.next, memory) => execAll rest memory
    | other => other
def execCases (datum : Datum Ctx) (patterns : List Pattern) :
    List (List Command) → Memory Ctx → Flow × Memory Ctx
  | [], memory => (.halt .stuck, memory)
  | body :: rest, memory =>
    match patterns with
    | [] => (.halt .stuck, memory)
    | pattern :: patterns =>
      match pattern.match? datum with
      | some names => memory.within names (execAll body)
      | none => execCases datum patterns rest memory
end

def run (code : Code) (memory : Memory Ctx) : Flow × Memory Ctx :=
  match parse? code.tokens with
  | some program => execAll host rounds program memory
  | none => (.halt .stuck, memory)

end Commands

end StagedLexer.Source
