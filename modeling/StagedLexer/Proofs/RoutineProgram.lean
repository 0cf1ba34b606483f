import StagedLexer.Proofs.ProgramRun
import StagedLexer.Proofs.RoutineScope
import StagedLexer.Proofs.StatementParsing

/-! Running the program of the body of a routine: what stands in front of the scan loop, the loop, and
what stands behind it. It reports what the steps of the routine lead to. -/
namespace StagedLexer

open Source

variable {Ctx : Type}

namespace Source

variable {host : Host Ctx} {rounds : Nat} {memory memory' : Memory Ctx} {commands : List Command}

theorem exec_assign_field {name : String} {field : Field} {value : Expr} {datum : Datum Ctx}
    (stands : memory.names.lookup name = some (.field field))
    (gives : eval host memory value = .ok datum)
    (stored : memory.setField field datum = .ok memory') :
    exec host rounds (.assign (.content (.name name)) value) memory = (.next, memory') := by
  simp [exec, gives, assign, eval_name stands, stored, Memory.andThen, bind, Except.bind]

theorem scan_congr {a b : Code} (same : a.flatten = b.flatten) (bindings : List (Nat × Reader Ctx))
    (rounds : Nat) (rules : Array (Rule Ctx)) (state : StreamState) (ctx : Ctx) (streaming : Bool) :
    scan a bindings rounds rules state ctx streaming =
      scan b bindings rounds rules state ctx streaming := by
  rw [scan, scan, run, run, Code.tokens_congr same]

theorem report_within (names : List (String × Datum Ctx))
    (body : Memory Ctx → Source.Flow × Memory Ctx) : report (memory.within names body) =
      report (body { memory with names := names ++ memory.names }) := by
  unfold Memory.within
  rcases body { memory with names := names ++ memory.names } with ⟨flow, after⟩
  cases flow <;> rfl

end Source

/-- The loop is left at its end, or the routine is. -/
theorem Surroundings.scanLoop_ends (s : Surroundings Ctx) (dispatch : Stmt) (rounds left : Nat)
    (m : Machine) : (s.scanLoop dispatch rounds left m).1 ≠ .leave ∧
      (s.scanLoop dispatch rounds left m).1 ≠ .again := by
  induction left generalizing m with
  | zero => simp [scanLoop]
  | succ left ih =>
    rw [scanLoop]
    split
    · rcases s.exec rounds dispatch m with ⟨flow, after⟩
      cases flow with
      | again => exact ih after
      | next | leave | stop | fault => simp
    · simp

namespace Setting

variable {setting : Setting Ctx} {scope : Scope} {rounds : Nat} {m : Machine} {memory : Memory Ctx}

private theorem eval_textLeft (sound : setting.Sound) {count : Nat} (scan : count ∈ setting.rules)
    (shares : setting.Shares scope) (represents : setting.Represents scope.ready m memory) :
    eval setting.s.host memory (Routine.textLeft setting.s.frame) =
      .ok (.truth (m.get setting.s.frame.cursor < setting.s.text.size)) := by
  obtain ⟨chunk, cursor⟩ := shares count scan
  obtain ⟨n, here, holds⟩ := represents.position cursor (sound.scans count scan).cursor
  have text := represents.chunk sound chunk
  simp [Routine.textLeft, eval, evalAll, holds, text, here, Memory.content, Datum.method,
    Operator.apply, Datum.like, Operator.compare, bind, Except.bind]

/-- The scan loop of the program makes the rounds of the scan loop of the routine. -/
theorem ends_scanLoop (sound : setting.Sound) {count : Nat} (scan : count ∈ setting.rules)
    (shares : setting.Shares scope) {dispatch : Stmt}
    (fits : (dispatch.shape setting.s.frame).Fits setting.given scope)
    (typed : dispatch.Typed setting.kinds setting.rules)
    (represents : setting.Represents scope.ready m memory) :
    setting.Ends scope.ready scope.ready scope.ready (setting.s.scanLoop dispatch rounds rounds m)
      (exec setting.s.host rounds (.during "scan" (Routine.textLeft setting.s.frame)
        (dispatch.program setting.s.frame ++ [Command.leave])) memory) := by
  rw [exec]
  generalize hround : (fun memory : Memory Ctx => memory.andThen _ _) = round
  have tries (m : Machine) (memory : Memory Ctx)
      (represents : setting.Represents scope.ready m memory) :
      round memory = if m.get setting.s.frame.cursor < setting.s.text.size then
        (memory.within [] (execAll setting.s.host rounds
          (dispatch.program setting.s.frame ++ [Command.leave]))).map (Flow.rejoin "scan") id
      else (.leave, memory) := by
    rw [← hround]
    simp only [eval_textLeft sound scan shares represents, Datum.truth?, Memory.andThen, bind,
      Except.bind]
    simp only [decide_eq_true_eq]
    rfl
  clear hround
  suffices repeats : ∀ (left : Nat) (m : Machine) (memory : Memory Ctx),
      setting.Represents scope.ready m memory → setting.Ends scope.ready scope.ready scope.ready
        (setting.s.scanLoop dispatch rounds left m) (repeated round left memory) by
    exact repeats rounds m memory represents
  intro left
  induction left with
  | zero => exact fun m memory represents => .fault .endless represents.events
  | succ left ih =>
    intro m memory represents
    rw [Surroundings.scanLoop, repeated, tries m memory represents]
    by_cases textLeft : m.get setting.s.frame.cursor < setting.s.text.size
    · have ends := (Runs.andThen (runs_exec rounds sound dispatch fits typed shares) .leave m memory
        represents).within represents.names
      simp only [textLeft, if_true] at ends ⊢
      generalize memory.within [] _ = after at ends ⊢
      generalize setting.s.exec rounds dispatch m = tried at ends ⊢
      rcases tried with ⟨flow, m₁⟩
      cases flow with
      | next | leave =>
        cases ends with
        | leave represents => exact .next (represents.mono fun v => .of_ready)
      | again =>
        cases ends with
        | again represents => exact ih _ _ represents
      | stop =>
        cases ends with
        | stop events state => exact .stop events state
      | fault fault =>
        cases ends with
        | fault _ events => exact .fault fault events
    · simp only [textLeft, if_false]
      exact .next represents

section Conclusion

variable {count c : Nat}

private def stateAt (setting : Setting Ctx) (m : Machine) (c : Nat) : StreamState :=
  { setting.start.state with stage := m.stage, offset := c }

variable (sound : setting.Sound) (scan : count ∈ setting.rules) (shares : setting.Shares scope)
  (here : m.get setting.s.frame.cursor = c)
  (represents : setting.Represents scope.ready m memory)

include sound scan shares here represents

private theorem cursor_holds : memory.vars[setting.s.frame.cursor]? = some (.size c) := by
  obtain ⟨n, known, holds⟩ :=
    represents.position (shares count scan).2 (sound.scans count scan).cursor
  obtain rfl : n = c := Int.ofNat_inj.mp (known.symm.trans here)
  exact holds

private theorem exec_setOffset :
    exec setting.s.host rounds (Routine.setOffset setting.s.frame) memory =
      (.next, { memory with state := stateAt setting m c }) := by
  have offset : memory.names.lookup "offset" = some (.field .offset) :=
    represents.names ▸ (sound.scans count scan).offset
  rw [Routine.setOffset,
    exec_assign_field offset (eval_var (cursor_holds sound scan shares here represents)) rfl,
    represents.state]
  rfl

private theorem exec_reportRest :
    exec setting.s.host rounds (Routine.reportRest setting.s.frame) memory =
      if c < setting.s.text.size then
        match positionBehind setting.s.base c with
        | .ok position => (.next, memory.push (.unrecognized position))
        | .error fault => (.halt (.fault fault), memory)
      else (.next, memory) := by
  have cursor : eval setting.s.host memory (.var setting.s.frame.cursor) = .ok (.size c) :=
    eval_var (cursor_holds sound scan shares here represents)
  have reporting := represents.reporting (sound.scans count scan)
  rw [Routine.reportRest, exec_test (eval_textLeft sound scan shares represents), here]
  by_cases textLeft : c < setting.s.text.size
  · simp only [Int.ofNat_lt, textLeft, decide_true, if_true, within_nil, execAll_single,
      reporting.exec_unrecognized cursor]
    cases positionBehind setting.s.base c <;> rfl
  · simp [textLeft, within_nil, execAll]

private theorem report_rest :
    report (execAll setting.s.host rounds
      [Routine.reportRest setting.s.frame, Routine.setOffset setting.s.frame] memory) =
        if c < setting.s.text.size then
          match positionBehind setting.s.base c with
          | .ok position =>
            (m.events.push (.unrecognized position), .ok (stateAt setting m c))
          | .error fault => (m.events, .error (.fault fault))
        else (m.events, .ok (stateAt setting m c)) := by
  have reports : exec setting.s.host rounds (Routine.reportRest setting.s.frame) memory = _ :=
    exec_reportRest sound scan shares here represents
  by_cases textLeft : c < setting.s.text.size
  · simp only [textLeft, if_true] at reports ⊢
    cases found : positionBehind setting.s.base c with
    | ok position =>
      rw [found] at reports
      have after := represents.push (.unrecognized position)
      have still : ({ m with events := m.events.push (.unrecognized position) } : Machine).get
        setting.s.frame.cursor = c := here
      rw [execAll_cons_next reports, execAll_single, exec_setOffset sound scan shares still after]
      simp [report, Memory.push, represents.events, stateAt]
    | error fault =>
      rw [found] at reports
      rw [execAll_cons_away reports (by simp)]
      simp [report, represents.events]
  · simp only [textLeft, if_false] at reports ⊢
    rw [execAll_cons_next reports, execAll_single, exec_setOffset sound scan shares here represents]
    simp [report, represents.events]

/-- The pending token, held back, is where the stream goes on. -/
private theorem report_holdBack :
    report (execAll setting.s.host rounds [Routine.holdBack setting.s.frame] memory) =
      (m.events, .ok (Surroundings.holdBack m c setting.start.state)) := by
  have scans := sound.scans count scan
  have pendingHolds := (represents.pending count scan).1
  have names := represents.names
  rw [execAll_single, Routine.holdBack]
  unfold Surroundings.holdBack
  cases pending : m.pending with
  | none =>
    rw [pending] at pendingHolds
    have looked : look setting.s.host memory (.var setting.s.frame.pending) =
        .ok (.absent, memory) := by
      simp [look, eval_var pendingHolds, Scan.Pending.datum, bind, Except.bind, pure, Except.pure]
    rw [exec_testPattern_none looked rfl, report_within, execAll_single]
    simp only [List.nil_append]
    rw [exec_setOffset sound scan shares here represents]
    simp [report, represents.events, stateAt]
  | some p =>
    rw [pending] at pendingHolds
    let held : List (String × Datum Ctx) :=
      [("p_start", .size p.start), ("prev_stage", .ofStage p.stage)]
    have looked : look setting.s.host memory (.var setting.s.frame.pending) =
        .ok (Scan.Pending.datum (some p), memory) := by
      simp [look, eval_var pendingHolds, bind, Except.bind, pure, Except.pure]
    let inside : Memory Ctx := { memory with names := held ++ memory.names }
    have offset : inside.names.lookup "offset" = some (.field .offset) := by
      simp [inside, held, names, List.lookup_cons, scans.offset]
    have start : eval setting.s.host inside (.name "p_start") = .ok (.size p.start) := eval_name rfl
    let moved : Memory Ctx := { inside with state := { inside.state with offset := p.start } }
    have stage : moved.names.lookup "stage" = some (.field .stage) := by
      simp [moved, inside, held, names, List.lookup_cons, scans.stage]
    have before : eval setting.s.host moved (.name "prev_stage") = .ok (.ofStage p.stage) :=
      eval_name rfl
    have stored : moved.setField .stage (.ofStage p.stage) =
        .ok { moved with state := { moved.state with stage := p.stage } } := by
      simp [Memory.setField]
    have found : Pattern.match? (.some (.tuple [none, some "p_start", none, some "prev_stage"]))
        (Scan.Pending.datum (some p) : Datum Ctx) = some held := rfl
    rw [exec_testPattern_some looked found, report_within,
      execAll_cons_next (exec_assign_field offset start rfl), execAll_single,
      exec_assign_field stage before stored]
    simp [report, represents.events, inside, moved, represents.state]

omit sound scan shares here represents in
/-- A token is only reported if the position of its end is one of the stream. -/
private theorem positionBehind_of_tokenEvent {lexicon : Lexicon Ctx} {base rule start stop : Nat}
    {event : Event} (reported : Scan.tokenEvent lexicon base rule start stop = .ok event) :
    ∃ position, positionBehind base stop = .ok position := by
  unfold Scan.tokenEvent at reported
  cases first : positionBehind base start with
  | error => simp [first, bind, Except.bind] at reported
  | ok =>
    cases last : positionBehind base stop with
    | error => simp [first, last, bind, Except.bind] at reported
    | ok position => exact ⟨position, rfl⟩

/-- The pending token and what no rule matches are reported last. -/
private theorem report_conclude :
    report (execAll setting.s.host rounds [Routine.reportPending setting.s.frame,
      Routine.reportRest setting.s.frame, Routine.setOffset setting.s.frame] memory) =
        match setting.s.conclude m c with
        | .ok events => (events, .ok (stateAt setting m c))
        | .error fault => (m.events, .error (.fault fault)) := by
  have scans := sound.scans count scan
  obtain ⟨pendingHolds, few⟩ := represents.pending count scan
  have names := represents.names
  unfold Surroundings.conclude
  cases pending : m.pending with
  | none =>
    rw [pending] at pendingHolds
    have looked : look setting.s.host memory (.var setting.s.frame.pending) =
        .ok (.absent, memory) := by
      simp [look, eval_var pendingHolds, Scan.Pending.datum, bind, Except.bind, pure, Except.pure]
    rw [Routine.reportPending, execAll_cons_next (exec_testPattern_none looked rfl),
      report_rest sound scan shares here represents]
    by_cases textLeft : c < setting.s.text.size
    · cases positionBehind setting.s.base c <;>
        simp [textLeft, bind, Except.bind, pure, Except.pure]
    · simp [textLeft, bind, Except.bind, pure, Except.pure]
  | some p =>
    rw [pending] at pendingHolds few
    let given : List (String × Datum Ctx) :=
      [("p_rule", .number p.rule), ("p_start", .size p.start)]
    let inside : Memory Ctx := { memory with names := given ++ memory.names }
    have looked : look setting.s.host memory (.var setting.s.frame.pending) =
        .ok (Scan.Pending.datum (some p), memory) := by
      simp [look, eval_var pendingHolds, bind, Except.bind, pure, Except.pure]
    have few : p.rule < setting.s.lexicon.rules.size := scans.size ▸ few p rfl
    have reporting : setting.Reporting inside :=
      (represents.reporting scans).behind (by simp [given])
    have rule : eval setting.s.host inside (.name "p_rule") = .ok (.number p.rule) := eval_name rfl
    have start : eval setting.s.host inside (.name "p_start") = .ok (.size p.start) := eval_name rfl
    have holds := cursor_holds sound scan shares here represents
    have stop : eval setting.s.host inside (.var setting.s.frame.cursor) = .ok (.size c) :=
      eval_var holds
    have found : Pattern.match? (.some (.tuple [some "p_rule", some "p_start", none, none]))
        (Scan.Pending.datum (some p) : Datum Ctx) = some given := rfl
    have enters : exec setting.s.host rounds (Routine.reportPending setting.s.frame) memory = _ :=
      exec_testPattern_some looked found
    rw [Memory.within, execAll_single, reporting.exec_token few rule start stop] at enters
    cases event : Scan.tokenEvent setting.s.lexicon setting.s.base p.rule p.start c with
    | error fault =>
      have ran : exec setting.s.host rounds (Routine.reportPending setting.s.frame) memory =
          (.halt (.fault fault), memory) := by rw [enters, event]
      rw [execAll_cons_away ran (by simp)]
      simp [report, represents.events, event, bind, Except.bind]
    | ok token =>
      have ran : exec setting.s.host rounds (Routine.reportPending setting.s.frame) memory =
          (.next, memory.push token) := by rw [enters, event]; rfl
      have after := represents.push token
      have still : ({ m with events := m.events.push token } : Machine).get
        setting.s.frame.cursor = c := here
      obtain ⟨position, found⟩ := positionBehind_of_tokenEvent event
      rw [execAll_cons_next ran, report_rest sound scan shares still after, found]
      by_cases textLeft : c < setting.s.text.size <;>
        simp [textLeft, event, stateAt, bind, Except.bind, pure, Except.pure]

theorem report_lastCommands {streaming : Bool}
    (given : setting.start.names.lookup "streaming" = some (.truth streaming)) :
    report (execAll setting.s.host rounds (Routine.lastCommands setting.s.frame) memory) =
      let (events, result) := setting.s.result setting.start.state streaming .next m
      (events, result.mapError .fault) := by
  have cursor : (m.get setting.s.frame.cursor).toNat = c := by simp [here]
  rw [Routine.lastCommands, execAll_single, exec_test (eval_name (represents.names ▸ given)),
    report_within, List.nil_append]
  unfold Surroundings.result
  cases streaming with
  | true =>
    simp only [if_true, report_holdBack sound scan shares here represents, cursor]
    rfl
  | false =>
    simp only [Bool.false_eq_true, if_false, cursor,
      report_conclude sound scan shares here represents]
    cases setting.s.conclude m c <;> rfl

end Conclusion

theorem report_scan (sound : setting.Sound) {count : Nat} (scan : count ∈ setting.rules)
    (shares : setting.Shares scope) {dispatch : Stmt}
    (fits : (dispatch.shape setting.s.frame).Fits setting.given scope)
    (typed : dispatch.Typed setting.kinds setting.rules)
    (represents : setting.Represents scope.ready m memory) {streaming : Bool}
    (given : setting.start.names.lookup "streaming" = some (.truth streaming)) :
    report (execAll setting.s.host rounds (.during "scan"
      (Routine.textLeft setting.s.frame) (dispatch.program setting.s.frame ++ [Command.leave]) ::
        Routine.lastCommands setting.s.frame) memory) =
      let (flow, after) := setting.s.scanLoop dispatch rounds rounds m
      let (events, result) := setting.s.result setting.start.state streaming flow after
      (events, result.mapError .fault) := by
  have ends : setting.Ends _ _ _ (setting.s.scanLoop dispatch rounds rounds m) _ :=
    ends_scanLoop sound scan shares fits typed represents
  have way := setting.s.scanLoop_ends dispatch rounds rounds m
  generalize ran : exec setting.s.host rounds _ memory = after at ends
  generalize setting.s.scanLoop dispatch rounds rounds m = result at ends way
  cases ends with
  | next represents =>
    obtain ⟨c, here, -⟩ := represents.position (shares count scan).2 (sound.scans count scan).cursor
    rw [execAll_cons_next ran, report_lastCommands sound scan shares here represents given]
  | leave => exact absurd rfl way.1
  | again => exact absurd rfl way.2
  | stop events state =>
    rw [execAll_cons_away ran (by simp)]
    simp [report, events, state, Surroundings.result, Except.mapError]
  | fault fault events =>
    rw [execAll_cons_away ran (by simp)]
    simp [report, events, Surroundings.result, Except.mapError]

end Setting

namespace Routine

variable {routine : Routine Ctx} {lexicon : Lexicon Ctx} {rounds : Nat} {state : StreamState}
  {ctx : Ctx} {streaming : Bool} {kinds : Kinds}

/-- The types of the shared variables and of those of the readers. -/
structure Kinded (routine : Routine Ctx) (kinds : Kinds) : Prop where
  chunk : kinds routine.frame.chunk = some .chunk
  cursor : kinds routine.frame.cursor = some .position
  pending : kinds routine.frame.pending = some .pending
  bound : ∀ binding ∈ routine.assembler.bindings, kinds binding.1 = some .reader

def entered (routine : Routine Ctx) (state : StreamState) (streaming : Bool) : Memory Ctx :=
  let memory := (((Memory.start routine.assembler.bindings state streaming).set routine.frame.chunk
    (.units state.chunk.toList)).set routine.frame.cursor (.size state.offset)).set
      routine.frame.pending .absent
  { memory with names := [("stage", Datum.field .stage), ("chunk", Datum.field .chunk),
    ("offset", Datum.field .offset), ("chunk_offset", Datum.field .chunkOffset)] ++ memory.names }

def setting (routine : Routine Ctx) (lexicon : Lexicon Ctx) (kinds : Kinds) (state : StreamState)
    (ctx : Ctx) (streaming : Bool) : Setting Ctx :=
  { s := routine.surroundings lexicon state ctx
    kinds, rules := some lexicon.rules.size, given := routine.Given
    start := routine.entered state streaming }

private theorem exec_firstCommands (host : Host Ctx) :
    execAll host rounds (firstCommands routine.frame)
      (.start routine.assembler.bindings state streaming) =
        (.next, routine.entered state streaming) := by
  simp [firstCommands, execAll, exec, eval, evalAll, Memory.start, Memory.andThen, Memory.content,
    Memory.field, Memory.set, Datum.method, Pattern.match?, Field.ofName?,
    List.lookup_cons, entered,
    bind, Except.bind, pure, Except.pure]

private theorem sound_setting (separate : routine.Separate) (kinded : routine.Kinded kinds) :
    (routine.setting lexicon kinds state ctx streaming).Sound := by
  refine ⟨kinded.chunk, rfl, ?_⟩
  rintro count ⟨⟩
  exact ⟨kinded.cursor, kinded.pending, ⟨separate.cursor, separate.pending⟩, rfl, rfl, rfl, rfl,
    rfl, rfl, rfl⟩

private theorem shares_setting (separate : routine.Separate) :
    (routine.setting lexicon kinds state ctx streaming).Shares routine.entry := by
  have shares := entry_shares separate
  exact fun count scan => ⟨(shares.known _ shares.chunk).2, shares.cursor.2⟩

/-- The readers that are bound in the memory are those of the routine. -/
private theorem start_holds {bindings : List (Nat × Reader Ctx)}
    (distinct : (bindings.map (·.1)).Nodup) {v : Nat} {reader : Reader Ctx}
    (member : (v, reader) ∈ bindings) :
    (Memory.start bindings state streaming).vars[v]? = some (.reader reader) := by
  refine Std.HashMap.getElem?_ofList_of_mem (k := v) (by simp) ?_
    (List.mem_map.mpr ⟨(v, reader), member, rfl⟩)
  have apart := List.pairwise_map.mp distinct
  rw [List.pairwise_map]
  exact apart.imp fun differs => beq_eq_false_iff_ne.mpr differs

private theorem represents_entered (separate : routine.Separate) (kinded : routine.Kinded kinds)
    {pool : List (Reader Ctx)} (bound : routine.assembler.Fits pool) :
    (routine.setting lexicon kinds state ctx streaming).Represents routine.entry.ready
      (routine.start state) (routine.entered state streaming) := by
  have vars (v : Nat) : (routine.entered state streaming).vars[v]? =
      if v = routine.frame.pending then some .absent
      else if v = routine.frame.cursor then some (.size state.offset)
      else if v = routine.frame.chunk then some (.units state.chunk.toList)
      else (Memory.start routine.assembler.bindings state streaming).vars[v]? := by
    simp only [entered, Memory.set, Std.HashMap.getElem?_insert, beq_iff_eq, eq_comm (b := v)]
  have notPending {v : Nat} (given : routine.Given v) : v ≠ routine.frame.pending := by
    rintro rfl
    exact separate.pending given
  have notCursor {v : Nat} (given : routine.Given v) : v ≠ routine.frame.cursor := by
    rintro rfl
    exact separate.cursor given
  refine ⟨fun v kind known kindOf => ?_, fun _ _ => rfl, rfl, rfl, rfl, ?_⟩
  · rw [vars]
    rcases entry_ready.mp known with given | rfl | rfl
    · rw [if_neg (notPending given), if_neg (notCursor given)]
      rcases given with rfl | among
      · obtain rfl : Kind.chunk = kind := Option.some.inj (kinded.chunk.symm.trans kindOf)
        exact if_pos rfl
      · obtain ⟨⟨v, reader⟩, member, rfl⟩ := List.mem_map.mp among
        have reads := kinded.bound _ member
        obtain rfl : Kind.reader = kind := Option.some.inj (reads.symm.trans kindOf)
        have other : v ≠ routine.frame.chunk := by
          rintro rfl
          cases kinded.chunk.symm.trans reads
        rw [if_neg other]
        exact ⟨reader, bound.lookup member, start_holds bound.distinct member⟩
    · obtain rfl : Kind.position = kind := Option.some.inj (kinded.cursor.symm.trans kindOf)
      rw [if_neg separate.different.symm, if_pos rfl]
      exact ⟨state.offset, by simp [Machine.get, start], rfl⟩
    · obtain rfl : Kind.pending = kind := Option.some.inj (kinded.pending.symm.trans kindOf)
      trivial
  · rintro count ⟨⟩
    exact ⟨(vars _).trans (if_pos rfl), by rintro p ⟨⟩⟩

/-- The body of a routine reports what its steps lead to. -/
theorem scan_eq_walk (separate : routine.Separate) (kinded : routine.Kinded kinds)
    {pool : List (Reader Ctx)} (bound : routine.assembler.Fits pool)
    (fits : (routine.dispatch.shape routine.frame).Fits routine.Given routine.entry)
    (typed : routine.dispatch.Typed kinds (some lexicon.rules.size)) :
    Source.scan routine.body routine.assembler.bindings rounds lexicon.rules state ctx streaming =
      let (events, result) := routine.walk lexicon rounds state ctx streaming
      (events, result.mapError .fault) := by
  rw [Source.scan, Source.run, parse?_body routine (typed.filled _)]
  simp only
  rw [program, execAll_append_next (exec_firstCommands _)]
  have sound : (routine.setting lexicon kinds state ctx streaming).Sound :=
    sound_setting separate kinded
  exact Setting.report_scan sound rfl (shares_setting separate) fits typed
    (represents_entered separate kinded bound) rfl

end Routine

end StagedLexer
