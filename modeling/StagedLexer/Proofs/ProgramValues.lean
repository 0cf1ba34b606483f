import StagedLexer.Proofs.ReadBounds
import StagedLexer.Proofs.StatementProgram
import StagedLexer.Proofs.StatementShape
import StagedLexer.Proofs.StatementTypes

/-! The values of expressions in the programs of statements. A memory stands for a machine by the
types of its variables; evaluating the expression of a value in the memory gives what the value is in
the machine. -/
namespace StagedLexer

open Code Source

variable {Ctx : Type}

def Scan.Pending.datum : Option Scan.Pending → Datum Ctx
  | none => .absent
  | some p => .present (.tuple [.number p.rule, .size p.start, .size p.stop, .ofStage p.stage])

/-- What a variable of a kind holds for a machine. The pending token is no register. -/
def Kind.Holds (s : Surroundings Ctx) (m : Machine) (v : Nat) (datum : Option (Datum Ctx)) :
    Kind → Prop
  | position => ∃ n : Nat, m.get v = n ∧ datum = some (.size n)
  | result => datum = some (.signed (m.get v))
  | chunk => datum = some (.units s.text.toList)
  | pending => True
  | reader => ∃ reader, s.bound.lookup v = some reader ∧ datum = some (.reader reader)

def Surroundings.host (s : Surroundings Ctx) : Host Ctx := ⟨s.lexicon.rules, s.ctx⟩

/-- What the program of a statement runs in: the types of the variables, the number of rules if the
statement stands in a scan, the variables that are only read, and the memory in front of it. -/
structure Setting (Ctx : Type) where
  s : Surroundings Ctx
  kinds : Kinds
  rules : Option Nat
  given : Nat → Prop
  start : Memory Ctx

namespace Setting

attribute [local simp] eval evalAll Memory.content Datum.method Datum.cast Operator.apply
  Operator.compare Datum.like bind Except.bind pure Except.pure

variable {setting : Setting Ctx} {known less : Nat → Prop} {m : Machine} {memory : Memory Ctx}

/-- The memory stands for the machine, with the known variables. -/
structure Represents (setting : Setting Ctx) (known : Nat → Prop) (m : Machine)
    (memory : Memory Ctx) : Prop where
  vars : ∀ v kind, known v → setting.kinds v = some kind →
    kind.Holds setting.s m v memory.vars[v]?
  given : ∀ v, setting.given v → memory.vars[v]? = setting.start.vars[v]?
  names : memory.names = setting.start.names
  state : memory.state = { setting.start.state with stage := m.stage }
  events : memory.events = m.events
  pending : ∀ count ∈ setting.rules,
    memory.vars[setting.s.frame.pending]? = some (Scan.Pending.datum m.pending) ∧
      ∀ p ∈ m.pending, p.rule < count

/-- The shared variables have their types. The names of the parameters of a scan and of the fields of
its state stand for these. -/
structure Scans (setting : Setting Ctx) (count : Nat) : Prop where
  cursor : setting.kinds setting.s.frame.cursor = some .position
  pending : setting.kinds setting.s.frame.pending = some .pending
  free : ¬ setting.given setting.s.frame.cursor ∧ ¬ setting.given setting.s.frame.pending
  size : count = setting.s.lexicon.rules.size
  rules : setting.start.names.lookup "rules" = some .rules
  handler : setting.start.names.lookup "handler" = some .handler
  stage : setting.start.names.lookup "stage" = some (.field .stage)
  offset : setting.start.names.lookup "offset" = some (.field .offset)
  chunkOffset : setting.start.names.lookup "chunk_offset" = some (.field .chunkOffset)
  base : setting.start.state.chunkOffset = setting.s.base

/-- The chunk is known by its type and the context by its name, and a scan has what it needs. -/
structure Sound (setting : Setting Ctx) : Prop where
  chunk : setting.kinds setting.s.frame.chunk = some .chunk
  ctx : setting.start.names.lookup "ctx" = some .context
  scans : ∀ count ∈ setting.rules, setting.Scans count

theorem Represents.mono (represents : setting.Represents known m memory)
    (fewer : ∀ v, less v → known v) : setting.Represents less m memory :=
  { represents with vars := fun v kind given => represents.vars v kind (fewer v given) }

section Values

variable (represents : setting.Represents known m memory)

include represents

theorem Represents.position {v : Nat} (ready : known v)
    (kind : setting.kinds v = some .position) :
    ∃ n : Nat, m.get v = n ∧ memory.vars[v]? = some (.size n) :=
  represents.vars v .position ready kind

theorem Represents.result {v : Nat} (ready : known v) (kind : setting.kinds v = some .result) :
    memory.vars[v]? = some (.signed (m.get v)) :=
  represents.vars v .result ready kind

theorem Represents.chunk (sound : setting.Sound) (ready : known setting.s.frame.chunk) :
    memory.vars[setting.s.frame.chunk]? = some (.units setting.s.text.toList) :=
  represents.vars _ .chunk ready sound.chunk

theorem Represents.place {place : Place} (typed : place.Typed setting.kinds)
    (ready : ∀ v ∈ reads place.code, known v) : ∃ n : Nat, m.number place = n := by
  cases place with
  | var v =>
    obtain ⟨n, number, -⟩ := represents.position (ready v (by simp [Place.code, Code.reads])) typed
    exact ⟨n, number⟩
  | ofResult r => exact ⟨Source.position (m.get r), rfl⟩

theorem Represents.eval_place {place : Place} (typed : place.Typed setting.kinds)
    (ready : ∀ v ∈ reads place.code, known v) {n : Nat} (number : m.number place = n)
    (names : List (String × Datum Ctx)) :
    eval setting.s.host { memory with names } place.expr = .ok (.size n) := by
  cases place with
  | var v =>
    obtain ⟨k, here, holds⟩ :=
      represents.position (ready v (by simp [Place.code, Code.reads])) typed
    obtain rfl : k = n := Int.ofNat_inj.mp (here.symm.trans number)
    simp [Place.expr, holds]
  | ofResult r =>
    have holds := represents.result (ready r (by simp [Place.code, Code.reads, readsAll])) typed
    obtain rfl : Source.position (m.get r) = n := Int.ofNat_inj.mp number
    simp [Place.expr, holds]

theorem eval_cond (sound : setting.Sound) {cond : Cond} (typed : cond.Typed setting.kinds)
    (ready : ∀ v ∈ Code.reads (cond.code setting.s.frame.chunk), known v) :
    eval setting.s.host memory (cond.expr setting.s.frame.chunk) =
      .ok (.truth (setting.s.holds m cond)) := by
  cases cond with
  | noMatch r | isMatch r | negative r | notNoMatch r =>
    have holds := represents.result (ready r (by simp)) typed
    simp [Cond.expr, holds, Datum.negate, Surroundings.holds, beq_eq_decide, bne]
  | reached counter bound =>
    obtain ⟨n, number, holds⟩ := represents.position (ready counter (by simp)) typed
    simp [Cond.expr, holds, Surroundings.holds, beq_eq_decide, number]
  | unmoved r pos =>
    have result := represents.result (ready r (by simp)) typed.1
    obtain ⟨n, number, holds⟩ := represents.position (ready pos (by simp)) typed.2
    simp [Cond.expr, result, holds, Surroundings.holds, beq_eq_decide, number]
  | atChunkEnd pos =>
    obtain ⟨n, number, holds⟩ := represents.position (ready pos (by simp)) typed
    have chunk := represents.chunk sound (ready _ (by simp))
    simp [Cond.expr, holds, chunk, Surroundings.holds, number]

end Values

section Probes

variable {host : Host Ctx} {chunk n : Nat} {text : Bytes}

private theorem eval_rest (holds : memory.vars[chunk]? = some (.units text.toList)) {place : Place}
    (position : eval host memory place.expr = .ok (.size n)) :
    eval host memory (.method (.var chunk) "get" [.fromOn place.expr]) =
      .ok (if n ≤ text.size then .present (.units (text.toList.drop n)) else .absent) := by
  simp [holds, position]

private theorem eval_missing : eval host memory Probe.missing = .ok (.signed (-1)) := rfl

/-- The memory in an arm, where the rest of the chunk has a name. -/
private def inArm (memory : Memory Ctx) (rest : List UInt8) : Memory Ctx :=
  { memory with names := ("rest_", .units rest) :: memory.names }

private theorem eval_restName (rest : List UInt8) :
    eval host (inArm memory rest) Probe.rest = .ok (.units rest) := by
  simp [Probe.rest, inArm]

private theorem eval_size (rest : List UInt8) :
    eval host (inArm memory rest) (Probe.size Probe.rest) = .ok (.size rest.length) := by
  simp [Probe.size, eval_restName]

private theorem eval_behind (holds : memory.vars[chunk]? = some (.units text.toList))
    (inside : n ≤ text.size) (distance : Nat) :
    eval host (inArm memory (text.toList.drop n)) (Probe.behind chunk distance) =
      .ok (.signed (n + distance : Nat)) := by
  have whole : eval host (inArm memory (text.toList.drop n)) (Probe.size (.var chunk)) =
      .ok (.size text.size) := by
    simp [Probe.size, inArm, holds]
  have back : text.size - (text.size - n) = n := by omega
  simp [Probe.behind, eval_size, whole, back]

/-- An arm whose guard tells whether the reading matches. -/
private theorem evalArms_guarded {rest : List UInt8} {guard value : Expr} {found : Bool} {i : Int}
    (tells : eval host (inArm memory rest) guard = .ok (.truth found))
    (gives : eval host (inArm memory rest) value = .ok (.signed i)) :
    evalArms host memory (.present (.units rest)) (.guarded (.some (.name "rest_")) guard value
      (.plain .anything Probe.missing .done)) = .ok (.signed (if found then i else -1)) := by
  have names : ([("rest_", Datum.units rest)] ++ memory.names : List (String × Datum Ctx)) =
      ("rest_", .units rest) :: memory.names := rfl
  unfold inArm at tells gives
  cases found <;>
    simp [evalArms, Source.Pattern.match?, tells, gives, Datum.truth?, eval_missing]

private theorem eval_long (rest : List UInt8) (count : Nat) :
    eval host (inArm memory rest) (.binary .atLeast (Probe.size Probe.rest) (.number count)) =
      .ok (.truth (count ≤ rest.length)) := by
  simp [eval_size]

private theorem eval_anyCase (rest units : List UInt8) :
    eval host (inArm memory rest) (.binary .both
      (.binary .atLeast (Probe.size Probe.rest) (.number units.length))
      (.method (.index Probe.rest (.upTo (.number units.length))) "eq_ignore_ascii_case"
        [.units units])) = .ok (.truth (units.length ≤ rest.length ∧
          (rest.take units.length).map Bytes.lower = units.map Bytes.lower)) := by
  rw [eval, eval_long]
  by_cases long : units.length ≤ rest.length
  · simp [eval_restName, long, Datum.item, Datum.truth?, beq_eq_decide]
  · simp [long, Datum.truth?]

private theorem evalArms_plain {pattern : Source.Pattern} {rest : List UInt8} {value : Expr}
    {found : Bool} {names : List (String × Datum Ctx)} {i : Int}
    (tells : pattern.match? (.units rest : Datum Ctx) = if found then some names else none)
    (gives : eval host { memory with names := names ++ memory.names } value = .ok (.signed i)) :
    evalArms host memory (.present (.units rest))
      (.plain (.some pattern) value (.plain .anything Probe.missing .done)) =
        .ok (.signed (if found then i else -1)) := by
  cases found <;> simp [evalArms, Source.Pattern.match?, tells, gives, eval_missing]

private theorem match?_startsIn (set : ByteSet) (rest : List UInt8) :
    (Source.Pattern.startsIn "rest_" set.ranges).match? (.units rest : Datum Ctx) =
      if rest.head?.any set.contains then some [("rest_", .units rest)] else none := by
  cases rest with
  | nil => rfl
  | cons b more =>
    rw [List.head?_cons, Option.any_some, ← ByteSet.matchedBy_ranges]
    rfl

private theorem match?_emptySlice (rest : List UInt8) :
    Source.Pattern.emptySlice.match? (.units rest : Datum Ctx) =
      if rest.isEmpty then some [] else none := by
  cases rest <;> rfl

theorem eval_probe (holds : memory.vars[chunk]? = some (.units text.toList)) {place : Place}
    (position : eval host memory place.expr = .ok (.size n)) (probe : Probe) :
    eval host memory (probe.expr chunk place) = .ok (.signed (probe.run text n)) := by
  rw [Probe.expr, eval, eval_rest holds position]
  by_cases inside : n ≤ text.size
  · simp only [inside, if_true, bind, Except.bind]
    have behind (distance : Nat) : eval host _ (Probe.behind chunk distance) = _ :=
      eval_behind holds inside distance
    cases probe with
    | text units =>
      have tells : eval host (inArm memory (text.toList.drop n))
          (.method Probe.rest "starts_with" [.units units]) =
            .ok (.truth (Bytes.holdsAt text n units)) := by
        simp [eval_restName, Bytes.holdsAt_eq]
      rw [Probe.arm, evalArms_guarded tells (behind units.length)]
      simp [Probe.run, inside]
    | textAnyCase units =>
      have tells : eval host (inArm memory (text.toList.drop n)) (.binary .both
          (.binary .atLeast (Probe.size Probe.rest) (.number units.length))
          (.method (.index Probe.rest (.upTo (.number units.length))) "eq_ignore_ascii_case"
            [.units units])) = .ok (.truth (Bytes.holdsAnyCaseAt text n units)) := by
        simp only [eval_anyCase, ← Bytes.holdsAnyCaseAt_iff, Bool.decide_eq_true]
      rw [Probe.arm, evalArms_guarded tells (behind units.length)]
      simp [Probe.run, inside]
    | oneOf set =>
      rw [Probe.arm, evalArms_plain (match?_startsIn set _) (behind 1), ← Bytes.getElem?_eq_head?]
      simp [Probe.run, inside]
    | atEnd =>
      have whole : eval host memory (.cast (Probe.size (.var chunk)) "isize") =
          .ok (.signed text.size) := by
        simp [Probe.size, holds]
      rw [Probe.arm, evalArms_plain (match?_emptySlice _) whole]
      by_cases last : n = text.size
      · simp [Probe.run, last]
      · have before : n < text.size := Nat.lt_of_le_of_ne inside last
        simp [Probe.run, last, Nat.not_le.mpr before]
    | skip count =>
      have tells : eval host (inArm memory (text.toList.drop n))
          (.binary .atLeast (Probe.size Probe.rest) (.number count)) =
            .ok (.truth (n + count ≤ text.size)) := by
        have same : count ≤ (text.toList.drop n).length ↔ n + count ≤ text.size := by
          rw [List.length_drop, Array.length_toList]
          omega
        simp only [eval_long, same]
      rw [Probe.arm, evalArms_guarded tells (behind count)]
      simp [Probe.run, inside]
  · have away : probe.run text n = -1 := by
      cases probe <;> simp [Probe.run, inside]
    simp only [inside, if_false, bind, Except.bind, away]
    cases probe <;> simp [Probe.arm, evalArms, Source.Pattern.match?, eval_missing]

end Probes

def number (kind : Kind) (i : Int) : Datum Ctx :=
  match kind with
  | .position => .size i.toNat
  | _ => .signed i

/-- The expression of a value gives what the value is in the machine, or has no result for the same
reason. -/
theorem eval_value (represents : setting.Represents known m memory) (sound : setting.Sound)
    {value : Value} (typed : value.Typed setting.kinds)
    (ready : ∀ v ∈ Code.reads (value.code setting.s.frame.chunk), known v) :
    eval setting.s.host memory (value.expr setting.s.frame.chunk) =
      match setting.s.value m value with
      | .ok i => .ok (number value.kind i)
      | .error fault => .error (.fault fault) := by
  cases value with
  | noMatch | zero => rfl
  | result v =>
    have holds := represents.result (ready v (by simp)) typed
    simp [Value.expr, holds, Surroundings.value, number, Value.kind]
  | asPlace r =>
    have holds := represents.result (ready r (by simp)) typed
    simp [Value.expr, holds, Surroundings.value, number, Value.kind]
  | succ v =>
    obtain ⟨n, number', holds⟩ := represents.position (ready v (by simp)) typed
    simp [Value.expr, holds, Surroundings.value, number, Value.kind, number']
  | chunkEnd =>
    have chunk := represents.chunk sound (ready _ (by simp))
    simp [Value.expr, chunk, Surroundings.value, number, Value.kind]
  | counted counter min pos =>
    obtain ⟨n, number₁, holds₁⟩ := represents.position (ready counter (by simp)) typed.1
    obtain ⟨p, number₂, holds₂⟩ := represents.position (ready pos (by simp)) typed.2
    by_cases enough : min ≤ n <;>
      simp [Value.expr, holds₁, holds₂, Surroundings.value, number, Value.kind, number₁, number₂,
        enough, Datum.negate, Datum.truth?]
  | position p | place p =>
    have ready (v) (among : v ∈ Code.reads p.code) := ready v (by simpa using among)
    obtain ⟨n, here⟩ := represents.place typed ready
    have holds : eval setting.s.host memory p.expr = .ok (.size n) :=
      represents.eval_place typed ready here memory.names
    simp [Value.expr, holds, Surroundings.value, number, Value.kind, here]
  | probe test p =>
    have chunk := represents.chunk sound (ready _ (Value.mem_reads_probe.mpr (.inl rfl)))
    have ready (v) (among : v ∈ Code.reads p.code) :=
      ready v (Value.mem_reads_probe.mpr (.inr among))
    obtain ⟨n, here⟩ := represents.place typed.2 ready
    have position : m.position p = n := by simp [Machine.position, here]
    simp only [Surroundings.value, position]
    exact eval_probe chunk (represents.eval_place typed.2 ready here memory.names) test
  | call bound p =>
    obtain ⟨reader, binding, holds⟩ := represents.vars bound .reader (ready _ (by simp)) typed.1
    have chunk := represents.chunk sound (ready _ (by simp))
    have ready (v) (among : v ∈ Code.reads p.code) := ready v (by simp [among])
    obtain ⟨n, here⟩ := represents.place typed.2 ready
    have place : eval setting.s.host memory p.expr = .ok (.size n) :=
      represents.eval_place typed.2 ready here memory.names
    have ctx : memory.names.lookup "ctx" = some .context := represents.names ▸ sound.ctx
    have position : m.position p = n := by simp [Machine.position, here]
    have known : setting.s.host.ctx = setting.s.ctx := rfl
    simp only [Surroundings.value, binding, position]
    cases read : (reader.read setting.s.text setting.s.ctx n).toInt? <;>
      simp [Value.expr, holds, place, chunk, ctx, number, Value.kind, known, read]

end Setting

end StagedLexer
