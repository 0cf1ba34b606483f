import StagedLexer.Proofs.ProgramValues

/-! The programs of what a statement does to a stream: confirming the pending token, accepting a match
and ending with an error. What they make of the state and of the events is what the machine does. -/
namespace StagedLexer

open Source

variable {Ctx : Type}

attribute [local simp] exec evalAll Memory.andThen Memory.content Memory.field Datum.cast
  Operator.apply Operator.compare Datum.like bind Except.bind pure Except.pure

namespace Source

variable {host : Host Ctx} {rounds : Nat} {memory memory' : Memory Ctx} {command : Command}
  {rest : List Command}

theorem eval_var {v : Nat} {datum : Datum Ctx} (holds : memory.vars[v]? = some datum) :
    eval host memory (.var v) = .ok datum := by
  simp [eval, holds]

theorem eval_name {name : String} {datum : Datum Ctx}
    (stands : memory.names.lookup name = some datum) :
    eval host memory (.name name) = .ok datum := by
  simp [eval, stands]

theorem execAll_cons_next (first : exec host rounds command memory = (.next, memory')) :
    execAll host rounds (command :: rest) memory = execAll host rounds rest memory' := by
  simp [execAll, first]

theorem execAll_cons_away {flow : Source.Flow}
    (first : exec host rounds command memory = (flow, memory')) (away : flow ≠ .next) :
    execAll host rounds (command :: rest) memory = (flow, memory') := by
  cases flow with
  | next => exact absurd rfl away
  | leave | again | stop | halt => simp [execAll, first]

theorem execAll_append_next {first : List Command}
    (ahead : execAll host rounds first memory = (.next, memory')) :
    execAll host rounds (first ++ rest) memory = execAll host rounds rest memory' := by
  induction first generalizing memory with
  | nil =>
    simp only [execAll, Prod.mk.injEq, true_and] at ahead
    rw [List.nil_append, ahead]
  | cons command others ih =>
    rcases ran : exec host rounds command memory with ⟨flow, middle⟩
    cases flow with
    | next =>
      rw [execAll_cons_next ran] at ahead
      rw [List.cons_append, execAll_cons_next ran, ih ahead]
    | leave | again | stop | halt =>
      rw [execAll_cons_away ran (by simp)] at ahead
      cases ahead

theorem execAll_append_away {first : List Command} {flow : Source.Flow}
    (ahead : execAll host rounds first memory = (flow, memory')) (away : flow ≠ .next) :
    execAll host rounds (first ++ rest) memory = (flow, memory') := by
  induction first generalizing memory with
  | nil =>
    simp only [execAll, Prod.mk.injEq] at ahead
    exact absurd ahead.1.symm away
  | cons command others ih =>
    rcases ran : exec host rounds command memory with ⟨way, middle⟩
    cases way with
    | next =>
      rw [execAll_cons_next ran] at ahead
      rw [List.cons_append, execAll_cons_next ran, ih ahead]
    | leave | again | stop | halt =>
      rw [execAll_cons_away ran (by simp)] at ahead
      rw [List.cons_append, execAll_cons_away ran (by simp), ahead]

theorem execAll_single (command : Command) (memory : Memory Ctx) :
    execAll host rounds [command] memory = exec host rounds command memory := by
  rcases ran : exec host rounds command memory with ⟨flow, middle⟩
  cases flow with
  | next => rw [execAll_cons_next ran, execAll]
  | leave | again | stop | halt => rw [execAll_cons_away ran (by simp)]

theorem exec_test {cond : Expr} {first second : List Command} {holds : Bool}
    (tells : eval host memory cond = .ok (.truth holds)) :
    exec host rounds (.test cond first second) memory =
      memory.within [] (execAll host rounds (if holds then first else second)) := by
  cases holds <;> simp [tells, Datum.truth?]

theorem exec_testPattern_some {pattern : Pattern} {value : Expr} {first second : List Command}
    {datum : Datum Ctx} {names : List (String × Datum Ctx)}
    (looked : look host memory value = .ok (datum, memory'))
    (found : pattern.match? datum = some names) :
    exec host rounds (.testPattern pattern value first second) memory =
      memory'.within names (execAll host rounds first) := by
  simp [looked, found]

theorem exec_testPattern_none {pattern : Pattern} {value : Expr} {first second : List Command}
    {datum : Datum Ctx} (looked : look host memory value = .ok (datum, memory'))
    (missed : pattern.match? datum = none) :
    exec host rounds (.testPattern pattern value first second) memory =
      memory'.within [] (execAll host rounds second) := by
  simp [looked, missed]

theorem exec_perform {name : String} {arguments : List Expr} {data : List (Datum Ctx)}
    (handler : memory.names.lookup "handler" = some .handler)
    (given : evalAll host memory arguments = .ok data) :
    exec host rounds (.perform (.method (.name "handler") name arguments)) memory =
      memory.andThen (memory.report host name data) fun memory => (.next, memory) := by
  simp [perform, eval, handler, given]

theorem within_nil (memory : Memory Ctx) (body : Memory Ctx → Source.Flow × Memory Ctx) :
    memory.within [] body = ((body memory).1, { (body memory).2 with names := memory.names }) :=
  rfl

theorem vars_set_of_ne {v w : Nat} {datum : Datum Ctx} (other : v ≠ w) :
    (memory.set v datum).vars[w]? = memory.vars[w]? := by
  rw [Memory.set, Std.HashMap.getElem?_insert, beq_eq_false_iff_ne.mpr other, if_neg (by simp)]

theorem exec_assign_var {v : Nat} {value : Expr} {datum : Datum Ctx}
    (gives : eval host memory value = .ok datum) :
    exec host rounds (.assign (.var v) value) memory = (.next, memory.set v datum) := by
  simp [gives, assign]

@[simp] theorem Datum.toStage?_ofStage (stage : Option String) :
    (Datum.ofStage stage : Datum Ctx).toStage? = some stage := by
  cases stage <;> rfl

theorem eval_stage {stage : Option String}
    (stands : memory.names.lookup "stage" = some (.field .stage))
    (current : memory.state.stage = stage) :
    eval host memory (.method (.name "stage") "as_deref" []) = .ok (.ofStage stage) := by
  cases stage <;>
    simp [eval, stands, current, Datum.ofStage, Datum.method]

end Source

namespace Setting

variable {setting : Setting Ctx} {known : Nat → Prop} {m : Machine} {memory : Memory Ctx}
  {rounds : Nat}

theorem Represents.set {v : Nat} {kind : Kind} {i : Int}
    (represents : setting.Represents known m memory) (sound : setting.Sound)
    (free : ¬ setting.given v) (kindOf : setting.kinds v = some kind)
    (fits : kind = .position ∧ 0 ≤ i ∨ kind = .result) :
    setting.Represents (fun w => known w ∨ w = v) (m.set v i) (memory.set v (number kind i)) := by
  refine ⟨fun w other ready given => ?_, fun w among => ?_, represents.names, represents.state,
    represents.events, fun count scan => ?_⟩
  · by_cases same : v = w
    · subst same
      obtain rfl : kind = other := Option.some.inj (kindOf.symm.trans given)
      rcases fits with ⟨rfl, positive⟩ | rfl
      · refine ⟨i.toNat, ?_, ?_⟩
        · simp [Int.toNat_of_nonneg positive]
        · simp [Memory.set, number]
      · simp [Kind.Holds, Memory.set, number]
    · have before := represents.vars w other (ready.resolve_right (Ne.symm same)) given
      rw [vars_set_of_ne same]
      cases other with
      | position | result => simpa [Kind.Holds, same] using before
      | chunk | reader | pending => exact before
  · have other : v ≠ w := by rintro rfl; exact free among
    rw [vars_set_of_ne other]
    exact represents.given w among
  · have other : v ≠ setting.s.frame.pending := by
      rintro rfl
      rw [(sound.scans count scan).pending] at kindOf
      rcases fits with ⟨rfl, -⟩ | rfl <;> cases kindOf
    rw [vars_set_of_ne other]
    exact represents.pending count scan

section Actions

variable {count : Nat}

theorem Represents.setPending (represents : setting.Represents known m memory)
    (scans : setting.Scans count) {pending : Option Scan.Pending}
    (few : ∀ count ∈ setting.rules, ∀ p ∈ pending, p.rule < count) :
    setting.Represents known { m with pending }
      (memory.set setting.s.frame.pending (Scan.Pending.datum pending)) := by
  refine ⟨fun w kind ready given => ?_, fun w among => ?_, represents.names, represents.state,
    represents.events, fun count scan => ⟨by simp [Memory.set], few count scan⟩⟩
  · by_cases same : setting.s.frame.pending = w
    · subst same
      obtain rfl : Kind.pending = kind := Option.some.inj (scans.pending.symm.trans given)
      trivial
    · rw [vars_set_of_ne same]
      have before := represents.vars w kind ready given
      cases kind <;> exact before
  · have other : setting.s.frame.pending ≠ w := by rintro rfl; exact scans.free.2 among
    rw [vars_set_of_ne other]
    exact represents.given w among

theorem Represents.push (represents : setting.Represents known m memory) (event : Event) :
    setting.Represents known { m with events := m.events.push event } (memory.push event) := by
  refine ⟨fun w kind ready given => ?_, represents.given, represents.names, represents.state, ?_,
    represents.pending⟩
  · have before := represents.vars w kind ready given
    cases kind <;> exact before
  · exact congrArg (·.push event) represents.events

private theorem checked_eq (base distance : Nat) : Memory.report.checked (base + distance) =
    match positionBehind base distance with
    | .ok position => .ok position
    | .error fault => .error (.fault fault) := by
  unfold Memory.report.checked positionBehind
  split <;> rfl

private theorem host_rule {rule : Nat} (few : rule < setting.s.lexicon.rules.size) :
    ∃ known, setting.s.host.rules[rule]? = some known ∧
      setting.s.lexicon.tokenType rule = known.tokenType :=
  ⟨setting.s.lexicon.rules[rule], Array.getElem?_eq_getElem few, by simp [Lexicon.tokenType, few]⟩

/-- What a report needs: the names are given, and the chunk is at its place in the stream. -/
structure Reporting (setting : Setting Ctx) (memory : Memory Ctx) : Prop where
  handler : memory.names.lookup "handler" = some .handler
  rules : memory.names.lookup "rules" = some .rules
  chunkOffset : memory.names.lookup "chunk_offset" = some (.field .chunkOffset)
  base : memory.state.chunkOffset = setting.s.base

theorem Represents.reporting (represents : setting.Represents known m memory)
    (scans : setting.Scans count) : setting.Reporting memory where
  handler := represents.names ▸ scans.handler
  rules := represents.names ▸ scans.rules
  chunkOffset := represents.names ▸ scans.chunkOffset
  base := by rw [represents.state, ← scans.base]

namespace Reporting

variable (reporting : setting.Reporting memory)

include reporting

/-- More names do not hide the ones that are needed. -/
theorem behind {given : List (String × Datum Ctx)}
    (apart : ∀ entry ∈ given, entry.1 ∉ ["handler", "rules", "chunk_offset"]) :
    setting.Reporting { memory with names := given ++ memory.names } := by
  have missing (name : String) (needed : name ∈ ["handler", "rules", "chunk_offset"]) :
      given.lookup name = none :=
    List.lookup_eq_none_iff.mpr fun entry among => by
      rw [bne_iff_ne]
      rintro rfl
      exact apart entry among needed
  refine ⟨?_, ?_, ?_, reporting.base⟩ <;>
    rw [List.lookup_append, missing _ (by simp), Option.none_or]
  · exact reporting.handler
  · exact reporting.rules
  · exact reporting.chunkOffset

theorem eval_ruleAt {number : Expr} {rule : Nat}
    (here : eval setting.s.host memory number = .ok (.number rule))
    (few : rule < setting.s.lexicon.rules.size) :
    eval setting.s.host memory (Frame.ruleAt number) = .ok (.rule rule) := by
  have known : rule < setting.s.host.rules.size := few
  simp [Frame.ruleAt, eval, reporting.rules, here, Datum.item, known]

theorem eval_inStream {position : Expr} {n : Nat}
    (here : eval setting.s.host memory position = .ok (.size n)) :
    eval setting.s.host memory (Frame.inStream position) = .ok (.size (setting.s.base + n)) := by
  simp [Frame.inStream, eval, reporting.chunkOffset, here, reporting.base]

theorem exec_token {number first last : Expr} {rule start stop : Nat}
    (few : rule < setting.s.lexicon.rules.size)
    (rule' : eval setting.s.host memory number = .ok (.number rule))
    (start' : eval setting.s.host memory first = .ok (.size start))
    (stop' : eval setting.s.host memory last = .ok (.size stop)) :
    exec setting.s.host rounds (.perform (.method (.name "handler") "token"
      [Frame.ruleAt number, Frame.inStream first, Frame.inStream last])) memory =
        match Scan.tokenEvent setting.s.lexicon setting.s.base rule start stop with
        | .ok event => (.next, memory.push event)
        | .error fault => (.halt (.fault fault), memory) := by
  have data : evalAll setting.s.host memory
      [Frame.ruleAt number, Frame.inStream first, Frame.inStream last] =
        .ok [.rule rule, .size (setting.s.base + start), .size (setting.s.base + stop)] := by
    simp [reporting.eval_ruleAt rule' few, reporting.eval_inStream start',
      reporting.eval_inStream stop']
  obtain ⟨known, found, type⟩ := host_rule few
  rw [exec_perform reporting.handler data]
  simp only [Memory.report, found, checked_eq, Scan.tokenEvent, type]
  cases positionBehind setting.s.base start with
  | error => rfl
  | ok first => cases positionBehind setting.s.base stop <;> rfl

private theorem exec_error {number position code : Expr} {rule n : Nat} {i : Int}
    (few : rule < setting.s.lexicon.rules.size)
    (rule' : eval setting.s.host memory number = .ok (.number rule))
    (position' : eval setting.s.host memory position = .ok (.size n))
    (code' : eval setting.s.host memory code = .ok (.signed i)) :
    exec setting.s.host rounds (.perform (.method (.name "handler") "error"
      [Frame.ruleAt number, Frame.inStream position, code])) memory =
        match positionBehind setting.s.base n with
        | .ok offset =>
          (.next, memory.push (.error (setting.s.lexicon.tokenType rule) offset i))
        | .error fault => (.halt (.fault fault), memory) := by
  have data : evalAll setting.s.host memory [Frame.ruleAt number, Frame.inStream position, code] =
      .ok [.rule rule, .size (setting.s.base + n), .signed i] := by
    simp [reporting.eval_ruleAt rule' few, reporting.eval_inStream position', code']
  obtain ⟨known, found, type⟩ := host_rule few
  rw [exec_perform reporting.handler data]
  simp only [Memory.report, found, checked_eq, type]
  cases positionBehind setting.s.base n <;> rfl

theorem exec_unrecognized {position : Expr} {n : Nat}
    (position' : eval setting.s.host memory position = .ok (.size n)) :
    exec setting.s.host rounds (.perform (.method (.name "handler") "unrecognized_token"
      [Frame.inStream position])) memory =
        match positionBehind setting.s.base n with
        | .ok offset => (.next, memory.push (.unrecognized offset))
        | .error fault => (.halt (.fault fault), memory) := by
  have data : evalAll setting.s.host memory [Frame.inStream position] =
      .ok [.size (setting.s.base + n)] := by
    simp [reporting.eval_inStream position']
  rw [exec_perform reporting.handler data]
  simp only [Memory.report, checked_eq]
  cases positionBehind setting.s.base n <;> rfl

end Reporting

/-- Confirming the pending token, which is gone then. -/
theorem exec_confirm (rounds : Nat) (scans : setting.Scans count) (scan : count ∈ setting.rules)
    (represents : setting.Represents known m memory) :
    match setting.s.confirm m with
    | .ok m' => ∃ memory', exec setting.s.host rounds setting.s.frame.confirm memory =
      (.next, memory') ∧ setting.Represents known m' memory'
    | .error fault => ∃ memory', exec setting.s.host rounds setting.s.frame.confirm memory =
      (.halt (.fault fault), memory') ∧ memory'.events = m.events := by
  obtain ⟨holds, few⟩ := represents.pending count scan
  unfold Surroundings.confirm
  cases pending : m.pending with
  | none =>
    rw [pending] at holds
    refine ⟨memory, ?_, represents⟩
    simp [Frame.confirm, look, holds, Scan.Pending.datum, Source.Pattern.match?, Memory.within,
      execAll]
  | some p =>
    rw [pending] at holds few
    have few : p.rule < setting.s.lexicon.rules.size := scans.size ▸ few p rfl
    let taken := memory.set setting.s.frame.pending .absent
    let names : List (String × Datum Ctx) :=
      [("p_rule", .number p.rule), ("p_start", .size p.start), ("p_end", .size p.stop)]
    have looked : look setting.s.host memory (.method (.var setting.s.frame.pending) "take" []) =
        .ok (Scan.Pending.datum (some p), taken) := by
      simp [look, holds, Scan.Pending.datum, taken]
    have found : Source.Pattern.match? (.some (.tuple [some "p_rule", some "p_start", some "p_end",
        none])) (Scan.Pending.datum (some p) : Datum Ctx) = some names := rfl
    have cleared : setting.Represents known { m with pending := none } taken :=
      represents.setPending scans (by simp)
    let inside : Memory Ctx := { taken with names := names ++ taken.names }
    have reporting : setting.Reporting inside := (cleared.reporting scans).behind (by simp [names])
    have rule : eval setting.s.host inside (.name "p_rule") = .ok (.number p.rule) := eval_name rfl
    have start : eval setting.s.host inside (.name "p_start") = .ok (.size p.start) := eval_name rfl
    have stop : eval setting.s.host inside (.name "p_end") = .ok (.size p.stop) := eval_name rfl
    rw [Frame.confirm, exec_testPattern_some looked found, Memory.within, execAll_single,
      reporting.exec_token few rule start stop]
    simp only
    cases Scan.tokenEvent setting.s.lexicon setting.s.base p.rule p.start p.stop with
    | error fault => exact ⟨_, rfl, represents.events⟩
    | ok event => exact ⟨_, rfl, cleared.push event⟩

private theorem eval_nextStage {rule cursor n : Nat} {stop : Place}
    (rules : memory.names.lookup "rules" = some .rules)
    (stage : memory.names.lookup "stage" = some (.field .stage))
    (ctx : memory.names.lookup "ctx" = some .context)
    (few : rule < setting.s.lexicon.rules.size)
    (chunk : memory.vars[setting.s.frame.chunk]? = some (.units setting.s.text.toList))
    (here : memory.vars[setting.s.frame.cursor]? = some (.size cursor))
    (behind : eval setting.s.host memory stop.expr = .ok (.size n)) (moved : cursor < n)
    (same : memory.state.stage = m.stage) :
    eval setting.s.host memory (.method (.index (.name "rules") (.number rule)) "next_stage"
      [.var setting.s.frame.chunk, .var setting.s.frame.cursor,
        .binary .minus stop.expr (.var setting.s.frame.cursor), .name "ctx",
        .method (.name "stage") "as_deref" []]) =
      match setting.s.moveStage m rule cursor n .computed with
      | .ok next => .ok (.ofStage next)
      | .error fault => .error (.fault fault) := by
  have asked : eval setting.s.host memory (.index (.name "rules") (.number rule)) =
      .ok (.rule rule) := by
    have known : rule < setting.s.host.rules.size := few
    simp [eval, rules, Datum.item, known]
  have current : eval setting.s.host memory (.method (.name "stage") "as_deref" []) =
      .ok (.ofStage m.stage) :=
    eval_stage stage same
  have size : eval setting.s.host memory
      (.binary .minus stop.expr (.var setting.s.frame.cursor)) = .ok (.size (n - cursor)) := by
    simp [eval, behind, here, Nat.le_of_lt moved]
  have data : evalAll setting.s.host memory [.var setting.s.frame.chunk,
      .var setting.s.frame.cursor, .binary .minus stop.expr (.var setting.s.frame.cursor),
      .name "ctx", .method (.name "stage") "as_deref" []] =
        .ok [.units setting.s.text.toList, .size cursor, .size (n - cursor), .context,
          .ofStage m.stage] := by
    simp [current, size, eval_var chunk, eval_var here, eval_name ctx]
  have known : setting.s.host.rules[rule]? = some setting.s.lexicon.rules[rule] :=
    Array.getElem?_eq_getElem few
  have context : setting.s.host.ctx = setting.s.ctx := rfl
  rw [eval, asked, data]
  cases next : setting.s.lexicon.rules[rule].transition.next
      ⟨setting.s.text, cursor, n - cursor, m.stage⟩ setting.s.ctx <;>
    simp only [Memory.content, Datum.method, bind, Except.bind, known, context,
      Datum.toStage?_ofStage, Surroundings.moveStage, Lexicon.nextStage, Array.toArray_toList,
      Array.getElem?_eq_getElem few, next]

theorem exec_move {rule cursor n : Nat} {stop : Place} {move : StageMove}
    (rules : memory.names.lookup "rules" = some .rules)
    (stage : memory.names.lookup "stage" = some (.field .stage))
    (ctx : memory.names.lookup "ctx" = some .context)
    (few : rule < setting.s.lexicon.rules.size)
    (chunk : memory.vars[setting.s.frame.chunk]? = some (.units setting.s.text.toList))
    (here : memory.vars[setting.s.frame.cursor]? = some (.size cursor))
    (behind : eval setting.s.host memory stop.expr = .ok (.size n)) (moved : cursor < n)
    (same : memory.state.stage = m.stage) :
    execAll setting.s.host rounds (setting.s.frame.move rule stop move) memory =
      match setting.s.moveStage m rule cursor n move with
      | .ok next => (.next, { memory with
        state := { memory.state with stage := next.or m.stage } })
      | .error fault => (.halt (.fault fault), memory) := by
  cases move with
  | stay => simp [Frame.move, execAll, Surroundings.moveStage, ← same]
  | switch next =>
    rw [Frame.move, execAll_single]
    simp [Frame.setStage, assign, eval, stage, Memory.setField, Datum.call, Datum.toStage?,
      Surroundings.moveStage]
  | computed =>
    have value := eval_nextStage rules stage ctx few chunk here behind moved same
    rw [Frame.move, execAll_single]
    cases asked : setting.s.moveStage m rule cursor n .computed with
    | error fault =>
      rw [asked] at value
      simp [look, value]
    | ok next =>
      rw [asked] at value
      have looked : look setting.s.host memory (.method (.index (.name "rules") (.number rule))
          "next_stage" [.var setting.s.frame.chunk, .var setting.s.frame.cursor,
            .binary .minus stop.expr (.var setting.s.frame.cursor), .name "ctx",
            .method (.name "stage") "as_deref" []]) = .ok (.ofStage next, memory) := by
        simp [look, value]
      cases next with
      | none =>
        rw [exec_testPattern_none looked rfl]
        simp [Memory.within, execAll, ← same]
      | some next =>
        rw [exec_testPattern_some looked rfl, Memory.within, execAll_single]
        simp [Frame.setStage, assign, eval, stage, Memory.setField, Datum.call, Datum.toStage?,
          List.lookup_cons]

/-- The ends of a statement and of its program: they go on in the same way, and the memory stands
for the machine with the variables that are known there. -/
inductive Ends (setting : Setting Ctx) (behind left known : Nat → Prop) :
    Flow × Machine → Source.Flow × Memory Ctx → Prop
  | next {m : Machine} {memory : Memory Ctx} (represents : setting.Represents behind m memory) :
    Ends setting behind left known (.next, m) (.next, memory)
  | leave {m : Machine} {memory : Memory Ctx} (represents : setting.Represents left m memory) :
    Ends setting behind left known (.leave, m) (.leave, memory)
  | again {m : Machine} {memory : Memory Ctx} (represents : setting.Represents known m memory) :
    Ends setting behind left known (.again, m) (.again "scan", memory)
  | stop {m : Machine} {memory : Memory Ctx} (events : memory.events = m.events)
    (state : memory.state = { setting.start.state with
      stage := m.stage, offset := (m.get setting.s.frame.cursor).toNat }) :
    Ends setting behind left known (.stop, m) (.stop, memory)
  | fault {m : Machine} {memory : Memory Ctx} (fault : Fault) (events : memory.events = m.events) :
    Ends setting behind left known (.fault fault, m) (.halt (.fault fault), memory)

theorem Ends.mono {behind left known behind' left' known' : Nat → Prop}
    {a : Flow × Machine} {b : Source.Flow × Memory Ctx} (ends : setting.Ends behind left known a b)
    (fewer : ∀ v, behind' v → behind v) (fewer' : ∀ v, left' v → left v)
    (fewer'' : ∀ v, known' v → known v) : setting.Ends behind' left' known' a b := by
  cases ends with
  | next represents => exact .next (represents.mono fewer)
  | leave represents => exact .leave (represents.mono fewer')
  | again represents => exact .again (represents.mono fewer'')
  | stop events state => exact .stop events state
  | fault fault events => exact .fault fault events

/-- Names that are given inside of a block are forgotten behind it. -/
theorem Ends.within {behind left known : Nat → Prop} {a : Flow × Machine}
    {body : Memory Ctx → Source.Flow × Memory Ctx} (names : memory.names = setting.start.names)
    (ends : setting.Ends behind left known a (body memory)) :
    setting.Ends behind left known a (memory.within [] body) := by
  have kept {known : Nat → Prop} {m : Machine} {after : Memory Ctx}
      (represents : setting.Represents known m after) :
      setting.Represents known m { after with names := memory.names } :=
    { represents with names }
  rw [within_nil]
  generalize body memory = after at ends
  cases ends with
  | next represents => exact .next (kept represents)
  | leave represents => exact .leave (kept represents)
  | again represents => exact .again (kept represents)
  | stop events state => exact .stop events state
  | fault fault events => exact .fault fault events

private theorem confirm_same {m' : Machine} (confirmed : setting.s.confirm m = .ok m') :
    m'.registers = m.registers ∧ m'.stage = m.stage := by
  unfold Surroundings.confirm at confirmed
  cases pending : m.pending with
  | none =>
    rw [pending] at confirmed
    obtain rfl := Except.ok.inj confirmed
    exact ⟨rfl, rfl⟩
  | some p =>
    rw [pending] at confirmed
    cases event : Scan.tokenEvent setting.s.lexicon setting.s.base p.rule p.start p.stop with
    | error => simp [event] at confirmed
    | ok event' =>
      simp only [event, bind, Except.bind, pure, Except.pure, Except.ok.injEq] at confirmed
      exact confirmed ▸ ⟨rfl, rfl⟩

theorem Represents.setStage (represents : setting.Represents known m memory)
    (stage : Option String) :
    setting.Represents known { m with stage } { memory with
      state := { memory.state with stage } } := by
  refine ⟨fun w kind ready given => ?_, represents.given, represents.names, ?_, represents.events,
    represents.pending⟩
  · have before := represents.vars w kind ready given
    cases kind <;> exact before
  · simp [represents.state]

private theorem exec_remember (represents : setting.Represents known m memory)
    (scans : setting.Scans count) :
    exec setting.s.host rounds (.bind (.name "prev_stage") (.method (.name "stage") "clone" []))
      memory = (.next, { memory with
        names := ("prev_stage", .ofStage m.stage) :: memory.names }) := by
  have stage : memory.names.lookup "stage" = some (.field .stage) :=
    represents.names ▸ scans.stage
  have state := represents.state
  cases given : m.stage <;>
    simp [eval, stage, state, given, Datum.ofStage, Datum.method, Source.Pattern.match?]

private theorem eval_match (rule : Nat) {c n : Nat} {stop : Place} {stage : Option String}
    (here : memory.vars[setting.s.frame.cursor]? = some (.size c))
    (target : eval setting.s.host memory stop.expr = .ok (.size n))
    (remembered : memory.names.lookup "prev_stage" = some (.ofStage stage)) :
    eval setting.s.host memory (.call ["Some"] [.tuple [.number rule,
      .var setting.s.frame.cursor, stop.expr, .name "prev_stage"]]) =
        .ok (Scan.Pending.datum (some ⟨rule, c, n, stage⟩)) := by
  have number : eval setting.s.host memory (.number rule) = .ok (.number rule) := rfl
  have items : evalAll setting.s.host memory [.number rule, .var setting.s.frame.cursor,
      stop.expr, .name "prev_stage"] = .ok [.number rule, .size c, .size n, .ofStage stage] := by
    simp [number, eval_var here, eval_name remembered, target]
  rw [eval, evalAll, eval, items]
  rfl

/-- What stands behind the confirmation of the pending token where a match is accepted. -/
private theorem exec_acceptance (rounds : Nat) (behind left : Nat → Prop) (sound : setting.Sound)
    (scan : count ∈ setting.rules) (represents : setting.Represents known m memory)
    (chunk : known setting.s.frame.chunk)
    {rule c n : Nat} (here : memory.vars[setting.s.frame.cursor]? = some (.size c))
    (few : rule < count) {stop : Place} (typed : stop.Typed setting.kinds)
    (ready : ∀ v ∈ Code.reads stop.code, known v) (behind' : m.number stop = n)
    (moved : c < n) (move : StageMove) :
    Ends setting behind left (fun v => known v ∨ v = setting.s.frame.cursor)
      (match setting.s.moveStage m rule c n move with
      | .error fault => (.fault fault, m)
      | .ok next => (.again, { m with
          stage := next.or m.stage
          pending := some ⟨rule, c, n, m.stage⟩
          registers := m.registers.insert setting.s.frame.cursor n }))
      (memory.within [] (execAll setting.s.host rounds
        (Command.bind (.name "prev_stage") (.method (.name "stage") "clone" []) ::
          setting.s.frame.move rule stop move ++
          [Command.assign (.var setting.s.frame.pending) (.call ["Some"] [.tuple [.number rule,
            .var setting.s.frame.cursor, stop.expr, .name "prev_stage"]]),
          Command.assign (.var setting.s.frame.cursor) stop.expr, Command.again "scan"]))) := by
  have scans := sound.scans count scan
  let kept : Memory Ctx := { memory with
    names := ("prev_stage", .ofStage m.stage) :: memory.names }
  have changed : execAll setting.s.host rounds (setting.s.frame.move rule stop move) kept =
      match setting.s.moveStage m rule c n move with
      | .ok next => (.next, { kept with state := { kept.state with stage := next.or m.stage } })
      | .error fault => (.halt (.fault fault), kept) := by
    refine exec_move ?_ ?_ ?_ (scans.size ▸ few) (represents.chunk sound chunk) here
      (represents.eval_place typed ready behind' _) moved ?_
    · simp [kept, represents.names, List.lookup_cons, scans.rules]
    · simp [kept, represents.names, List.lookup_cons, scans.stage]
    · simp [kept, represents.names, List.lookup_cons, sound.ctx]
    · simp [kept, represents.state]
  rw [within_nil, List.cons_append, execAll_cons_next (exec_remember represents scans)]
  cases asked : setting.s.moveStage m rule c n move with
  | error fault =>
    rw [asked] at changed
    rw [execAll_append_away changed (by simp)]
    exact .fault fault represents.events
  | ok next =>
    rw [asked] at changed
    let stage := next.or m.stage
    let staged : Memory Ctx := { kept with state := { kept.state with stage } }
    have inStage := represents.setStage stage
    have target : eval setting.s.host staged stop.expr = .ok (.size n) :=
      inStage.eval_place typed ready behind' kept.names
    have fewer : ∀ other ∈ setting.rules, ∀ p ∈ some (⟨rule, c, n, m.stage⟩ : Scan.Pending),
        p.rule < other := by
      rintro other scan' p ⟨⟩
      obtain rfl : count = other := Option.some.inj (scan.symm.trans scan')
      exact few
    have pends := inStage.setPending scans fewer
    have stops : eval setting.s.host (staged.set setting.s.frame.pending
        (Scan.Pending.datum (some ⟨rule, c, n, m.stage⟩))) stop.expr = .ok (.size n) :=
      pends.eval_place typed ready behind' kept.names
    have cursor : staged.vars[setting.s.frame.cursor]? = some (.size c) := here
    have token := eval_match rule cursor target rfl
    rw [execAll_append_next changed, execAll_cons_next (exec_assign_var token),
      execAll_cons_next (exec_assign_var stops), execAll_single]
    exact .again (pends.set sound scans.free.1 scans.cursor (.inl ⟨rfl, Int.natCast_nonneg n⟩))

theorem exec_accept (sound : setting.Sound) (scan : count ∈ setting.rules)
    (represents : setting.Represents known m memory) (chunk : known setting.s.frame.chunk)
    (cursor : known setting.s.frame.cursor) {rule : Nat} (few : rule < count) {stop : Place}
    (typed : stop.Typed setting.kinds) (ready : ∀ v ∈ Code.reads stop.code, known v)
    (left : Nat → Prop) (move : StageMove) :
    Ends setting known left known (setting.s.accept m rule (m.position stop) move)
      (execAll setting.s.host rounds ((Stmt.accept rule stop move).program setting.s.frame)
        memory) := by
  have scans := sound.scans count scan
  obtain ⟨c, here, holds⟩ := represents.position cursor scans.cursor
  obtain ⟨n, behind⟩ := represents.place typed ready
  have target : eval setting.s.host memory stop.expr = .ok (.size n) :=
    represents.eval_place typed ready behind memory.names
  have test : eval setting.s.host memory
      (.binary .greater stop.expr (.var setting.s.frame.cursor)) = .ok (.truth (c < n)) := by
    simp [eval, target, holds]
  have position : m.position stop = n := by simp [Machine.position, behind]
  have cursor' : (m.get setting.s.frame.cursor).toNat = c := by simp [here]
  rw [Stmt.program, execAll_single, exec_test test]
  unfold Surroundings.accept
  simp only [position, cursor']
  by_cases moved : c < n
  · have confirms := exec_confirm rounds scans scan represents
    simp only [moved, decide_true, if_true]
    rw [Frame.accept, within_nil]
    cases confirmed : setting.s.confirm m with
    | error fault =>
      rw [confirmed] at confirms
      obtain ⟨memory', ran, events⟩ := confirms
      rw [List.cons_append, execAll_cons_away ran (by simp)]
      exact .fault fault events
    | ok m' =>
      rw [confirmed] at confirms
      obtain ⟨memory', ran, represents'⟩ := confirms
      obtain ⟨registers, stage⟩ := confirm_same confirmed
      have get (v : Nat) : m'.get v = m.get v := by simp [Machine.get, registers]
      have number : m'.number stop = n := by
        cases stop <;> simpa [Machine.number, get] using behind
      obtain ⟨c', here', holds'⟩ := represents'.position cursor scans.cursor
      obtain rfl : c' = c := Int.ofNat_inj.mp (here'.symm.trans ((get _).trans here))
      have accepts := exec_acceptance rounds known left sound scan represents' chunk holds' few typed
        ready number moved move
      rw [List.cons_append, execAll_cons_next ran]
      have names : memory.names = memory'.names :=
        represents.names.trans represents'.names.symm
      rw [within_nil, ← names, stage] at accepts
      have accepts := accepts.mono (fun _ => id) (fun _ => id) fun v (ready : known v) => .inl ready
      simp only
      cases asked : setting.s.moveStage m' rule c' n move with
      | error fault =>
        rw [asked] at accepts
        exact accepts
      | ok next =>
        rw [asked] at accepts
        exact accepts
  · simp only [moved, decide_false, if_false]
    exact .next represents

/-- What stands behind the confirmation of the pending token where a reader reports an error. -/
private theorem exec_failure (rounds : Nat) (behind left again : Nat → Prop)
    (scans : setting.Scans count) (represents : setting.Represents known m memory) {c : Nat}
    (here : m.get setting.s.frame.cursor = c)
    (holds : memory.vars[setting.s.frame.cursor]? = some (.size c)) {owner r : Nat}
    (few : owner < setting.s.lexicon.rules.size) {code : Int}
    (result : memory.vars[r]? = some (.signed code)) :
    Ends setting behind left again
      (match positionBehind setting.s.base c with
      | .error fault => (.fault fault, m)
      | .ok position => (.stop, { m with
          events := m.events.push (.error (setting.s.lexicon.tokenType owner) position code) }))
      (execAll setting.s.host rounds [.perform (.method (.name "handler") "error"
        [Frame.ruleAt (.number owner), Frame.inStream (.var setting.s.frame.cursor), .var r]),
        .assign (.content (.name "offset")) (.var setting.s.frame.cursor), .stop] memory) := by
  have number : eval setting.s.host memory (.number owner) = .ok (.number owner) := rfl
  have reports : exec setting.s.host rounds (.perform (.method (.name "handler") "error"
      [Frame.ruleAt (.number owner), Frame.inStream (.var setting.s.frame.cursor), .var r]))
        memory = _ :=
    (represents.reporting scans).exec_error few number (eval_var holds) (eval_var result)
  cases found : positionBehind setting.s.base c with
  | error fault =>
    rw [found] at reports
    rw [execAll_cons_away reports (by simp)]
    exact .fault fault represents.events
  | ok position =>
    rw [found] at reports
    let reported := memory.push (.error (setting.s.lexicon.tokenType owner) position code)
    have stored : exec setting.s.host rounds (.assign (.content (.name "offset"))
        (.var setting.s.frame.cursor)) reported =
          (.next, { reported with state := { reported.state with offset := c } }) := by
      have offset : reported.names.lookup "offset" = some (.field .offset) :=
        (congrArg (List.lookup "offset") represents.names).trans scans.offset
      have value : eval setting.s.host reported (.var setting.s.frame.cursor) = .ok (.size c) :=
        eval_var holds
      simp [assign, value, eval_name offset, Memory.setField]
    rw [execAll_cons_next reports, execAll_cons_next stored, execAll_single]
    refine .stop ?_ ?_
    · simp [reported, Memory.push, represents.events]
    · have same : ({ m with events := m.events.push (.error
          (setting.s.lexicon.tokenType owner) position code) } : Machine).get
            setting.s.frame.cursor = c := here
      simp [reported, Memory.push, represents.state, same]

theorem exec_fail (sound : setting.Sound) (scan : count ∈ setting.rules)
    (represents : setting.Represents known m memory) (cursor : known setting.s.frame.cursor)
    {owner r : Nat} (few : owner < count) (result : setting.kinds r = some .result)
    (ready : known r) (behind left : Nat → Prop) :
    Ends setting behind left known (setting.s.failed m owner (m.get r))
      (execAll setting.s.host rounds ((Stmt.fail owner r).program setting.s.frame) memory) := by
  have scans := sound.scans count scan
  have confirms := exec_confirm rounds scans scan represents
  rw [Stmt.program, Frame.fail]
  unfold Surroundings.failed
  cases confirmed : setting.s.confirm m with
  | error fault =>
    rw [confirmed] at confirms
    obtain ⟨memory', ran, events⟩ := confirms
    rw [execAll_cons_away ran (by simp)]
    exact .fault fault events
  | ok m' =>
    rw [confirmed] at confirms
    obtain ⟨memory', ran, represents'⟩ := confirms
    have get (v : Nat) : m'.get v = m.get v := by
      simp [Machine.get, (confirm_same confirmed).1]
    obtain ⟨c, here, holds⟩ := represents'.position cursor scans.cursor
    have code := represents'.result ready result
    rw [get] at code
    have cursor' : (m.get setting.s.frame.cursor).toNat = c := by simp [← get, here]
    rw [execAll_cons_next ran]
    simp only [cursor']
    exact exec_failure rounds behind left known scans represents' here holds (scans.size ▸ few) code

end Actions

end Setting

end StagedLexer
