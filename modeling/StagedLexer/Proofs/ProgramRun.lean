import StagedLexer.Proofs.ProgramActions

/-! Running the program of a statement. Where the accesses of a statement are in order and its
variables are typed, its program comes to the same end as the statement: it never gets stuck, and
the memory stands for the machine again. -/
namespace StagedLexer

open Source

variable {Ctx : Type}

namespace Setting

variable {setting : Setting Ctx} {scope : Scope} {m : Machine} {memory : Memory Ctx} {rounds : Nat}

/-- The ends of a piece of source with the given control structure. -/
def EndsIn (setting : Setting Ctx) (scope : Scope) (shape : Shape) :
    Flow × Machine → Source.Flow × Memory Ctx → Prop :=
  setting.Ends (scope.behind shape).ready (fun v => shape.LeavesWith v (scope.ready v)) scope.ready

/-- The commands come to the same end as the step of the machine, from every memory that stands for
the machine in the scope. -/
def Runs (setting : Setting Ctx) (rounds : Nat) (scope : Scope) (shape : Shape)
    (step : Machine → Flow × Machine) (commands : List Command) : Prop :=
  ∀ m memory, setting.Represents scope.ready m memory →
    setting.EndsIn scope shape (step m) (execAll setting.s.host rounds commands memory)

section Structure

variable {one two : Shape} {commands others : List Command}
  {step step' : Machine → Flow × Machine} {a : Flow × Machine} {b : Source.Flow × Memory Ctx}

theorem EndsIn.first {tested : List Access} (ends : setting.EndsIn scope one a b) :
    setting.EndsIn scope (.choice tested one two) a b :=
  ends.mono (fun _ => .imp_right And.left) (fun _ => And.left) fun _ => id

theorem EndsIn.second {tested : List Access} (ends : setting.EndsIn scope two a b) :
    setting.EndsIn scope (.choice tested one two) a b :=
  ends.mono (fun _ => .imp_right And.right) (fun _ => And.right) fun _ => id

theorem EndsIn.within (names : memory.names = setting.start.names)
    (ends : setting.EndsIn scope one a (execAll setting.s.host rounds commands memory)) :
    setting.EndsIn scope one a (memory.within [] (execAll setting.s.host rounds commands)) :=
  Ends.within names ends

theorem Runs.nothing : setting.Runs rounds scope .nothing (fun m => (.next, m)) [] :=
  fun _ _ represents => .next (represents.mono fun _ known =>
    known.resolve_right (by simp [Shape.nothing, Shape.Gains]))

theorem Runs.leave :
    setting.Runs rounds scope (.exit .leave) (fun m => (.leave, m)) [.leave] := by
  intro m memory represents
  rw [execAll_single, exec]
  exact .leave represents

/-- A test and a body for each of its outcomes. -/
theorem Runs.test (sound : setting.Sound) (cond : Cond) (typed : cond.Typed setting.kinds)
    (known : ∀ v ∈ Code.reads (cond.code setting.s.frame.chunk), scope.Has v)
    (tested : List Access) (holds : setting.Runs rounds scope one step commands)
    (fails : setting.Runs rounds scope two step' others) :
    setting.Runs rounds scope (.choice tested one two)
      (fun m => if setting.s.holds m cond then step m else step' m)
      [.test (cond.expr setting.s.frame.chunk) commands others] := by
  intro m memory represents
  rw [execAll_single,
    exec_test (eval_cond represents sound typed fun v among => (known v among).2)]
  by_cases held : setting.s.holds m cond
  · simp only [held, if_true]
    exact ((holds m memory represents).within represents.names).first
  · simp only [held]
    exact ((fails m memory represents).within represents.names).second

theorem Runs.andThen (before : setting.Runs rounds scope one step commands)
    (behind : setting.Runs rounds (scope.behind one) two step' others) :
    setting.Runs rounds scope (.andThen one two)
      (fun m => match step m with
        | (.next, m) => step' m
        | other => other) (commands ++ others) := by
  intro m memory represents
  have ends := before m memory represents
  generalize started : execAll setting.s.host rounds commands memory = started' at ends
  change setting.EndsIn scope _ (match step m with
    | (.next, m) => step' m
    | other => other) _
  generalize step m = result at ends
  cases ends with
  | next represents =>
    rw [execAll_append_next started]
    refine (behind _ _ represents).mono (fun v => ?_) (fun v => And.right) fun v => .inl
    rintro (known | gained | gained)
    · exact .inl (.inl known)
    · exact .inl (.inr gained)
    · exact .inr gained
  | leave represents =>
    rw [execAll_append_away started (by simp)]
    exact .leave (represents.mono fun v => And.left)
  | again represents =>
    rw [execAll_append_away started (by simp)]
    exact .again represents
  | stop events state =>
    rw [execAll_append_away started (by simp)]
    exact .stop events state
  | fault fault events =>
    rw [execAll_append_away started (by simp)]
    exact .fault fault events

/-- The rounds of a loop. Each starts with what is known in front of the loop. -/
theorem Runs.loop (scan : Bool) (round : setting.Runs rounds scope one step commands) :
    setting.Runs rounds scope (.loop scan one) (Surroundings.iterate step rounds)
      [.loop commands] := by
  suffices repeats : ∀ (left : Nat) (m : Machine) (memory : Memory Ctx),
      setting.Represents scope.ready m memory →
        setting.EndsIn scope (.loop scan one) (Surroundings.iterate step left m)
          (repeated (fun memory => memory.within [] (execAll setting.s.host rounds commands)) left
            memory) by
    intro m memory represents
    rw [execAll_single, exec]
    exact repeats rounds m memory represents
  intro left
  induction left with
  | zero => exact fun m memory represents => .fault .endless represents.events
  | succ left ih =>
    intro m memory represents
    have ends := (round m memory represents).within represents.names
    unfold Surroundings.iterate repeated
    generalize memory.within [] (execAll setting.s.host rounds commands) = after at ends
    generalize step m = result at ends
    cases ends with
    | next represents => exact ih _ _ (represents.mono fun _ => .inl)
    | leave represents =>
      refine .next (represents.mono fun v => ?_)
      rintro (known | left)
      · exact .of_ready known
      · exact left.mono False.elim
    | again represents => exact .again represents
    | stop events state => exact .stop events state
    | fault fault events => exact .fault fault events

end Structure

/-- In a scan the chunk and the cursor are known. -/
def Shares (setting : Setting Ctx) (scope : Scope) : Prop :=
  ∀ count ∈ setting.rules,
    scope.ready setting.s.frame.chunk ∧ scope.ready setting.s.frame.cursor

theorem Shares.behind (shares : setting.Shares scope) (shape : Shape) :
    setting.Shares (scope.behind shape) :=
  fun count scan => ⟨.inl (shares count scan).1, .inl (shares count scan).2⟩

private theorem endsIn_declare (sound : setting.Sound) {v : Nat}
    (fits : ((Stmt.declare v).shape setting.s.frame).Fits setting.given scope)
    (typed : (Stmt.declare v).Typed setting.kinds setting.rules)
    (represents : setting.Represents scope.ready m memory) :
    setting.EndsIn scope ((Stmt.declare v).shape setting.s.frame) (.next, m)
      (.next, { memory with vars := memory.vars.erase v }) := by
  rw [Stmt.fits_declare] at fits
  rw [EndsIn, Stmt.behind_declare]
  have elsewhere (w : Nat) (other : v ≠ w) : (memory.vars.erase v)[w]? = memory.vars[w]? := by
    rw [Std.HashMap.getElem?_erase, beq_eq_false_iff_ne.mpr other, if_neg (by simp)]
  refine .next ⟨fun w kind known given => ?_, fun w among => ?_, represents.names, represents.state,
    represents.events, fun count scan => ?_⟩
  · have other : v ≠ w := by rintro rfl; exact fits.2 known
    rw [elsewhere w other]
    exact represents.vars w kind known given
  · have other : v ≠ w := by rintro rfl; exact fits.1 among
    rw [elsewhere w other]
    exact represents.given w among
  · have other : v ≠ setting.s.frame.pending := by
      rintro rfl
      rw [Stmt.Typed, (sound.scans count scan).pending] at typed
      rcases typed with equal | equal <;> cases equal
    rw [elsewhere _ other]
    exact represents.pending count scan

/-- Positions are not negative. -/
private theorem value_nonneg {known : Nat → Prop} (represents : setting.Represents known m memory)
    {value : Value} (typed : value.Typed setting.kinds)
    (ready : ∀ v ∈ Code.reads (value.code setting.s.frame.chunk), known v)
    (kind : value.kind = .position) {i : Int} (found : setting.s.value m value = .ok i) : 0 ≤ i := by
  cases value with
  | place p =>
    obtain ⟨n, here⟩ := represents.place typed fun v among => ready v (by simpa using among)
    rw [Surroundings.value, here] at found
    exact Except.ok.inj found ▸ Int.natCast_nonneg n
  | asPlace r => exact Except.ok.inj found ▸ Int.natCast_nonneg _
  | zero => exact Except.ok.inj found ▸ Int.le_refl 0
  | succ v =>
    obtain ⟨n, here, -⟩ := represents.position (ready v (by simp)) typed
    rw [Surroundings.value, here] at found
    exact Except.ok.inj found ▸ Int.natCast_nonneg (n + 1)
  | noMatch | position | result | probe | call | chunkEnd | counted => cases kind

private theorem endsIn_assign (sound : setting.Sound) {v : Nat} {value : Value} {retained : Bool}
    (fits : ((Stmt.assign v value retained).shape setting.s.frame).Fits setting.given scope)
    (typed : (Stmt.assign v value retained).Typed setting.kinds setting.rules)
    (represents : setting.Represents scope.ready m memory) :
    setting.EndsIn scope ((Stmt.assign v value retained).shape setting.s.frame)
      (setting.s.exec rounds (.assign v value retained) m)
      (execAll setting.s.host rounds ((Stmt.assign v value retained).program setting.s.frame)
        memory) := by
  obtain ⟨known, free, -⟩ := (Stmt.fits_assign _ _ _).mp fits
  have ready (w) (among : w ∈ Code.reads (value.code setting.s.frame.chunk)) := (known w among).2
  have gives := eval_value represents sound typed.2 ready
  rw [Stmt.program, execAll_single, EndsIn, Stmt.behind_assign]
  cases found : setting.s.value m value with
  | error fault =>
    rw [found] at gives
    simp only [Surroundings.exec, found, exec, gives, Memory.andThen, bind, Except.bind]
    exact .fault fault represents.events
  | ok i =>
    rw [found] at gives
    rw [exec_assign_var gives, Surroundings.exec, found]
    refine .next (represents.set sound free typed.1 ?_)
    cases kind : value.kind with
    | position => exact .inl ⟨rfl, value_nonneg represents typed.2 ready kind found⟩
    | result => exact .inr rfl
    | chunk | pending | reader => cases value <;> cases kind

private theorem scope_fail {given : Nat → Prop} {frame : Frame} {owner r : Nat}
    (fits : ((Stmt.fail owner r).shape frame).Fits given scope) : scope.Has r := by
  have allows := fits.1
  simp only [Shape.Fits, Stmt.code, Frame.confirmPending, Code.accesses, Code.accessesAll,
    List.nil_append, List.append_nil, List.cons_append, Scope.Allows] at allows
  exact ⟨allows.2.2.2.2.1, allows.2.2.2.2.2.1⟩

private theorem fits_arms {given : Nat → Prop} {frame : Frame} {arms : List Stmt}
    {stages : List String} {last : Shape}
    (fits : (Stmt.shapeArms frame stages last arms).Fits given scope) :
    (∀ arm ∈ arms.take stages.length, (arm.shape frame).Fits given scope) ∧
      last.Fits given scope := by
  induction arms generalizing stages with
  | nil => exact ⟨by simp, fits⟩
  | cons arm rest ih =>
    cases stages with
    | nil => exact ⟨by simp, fits⟩
    | cons stage stages =>
      obtain ⟨each, last⟩ := ih fits.2.2
      refine ⟨fun other member => ?_, last⟩
      rcases List.mem_cons.mp member with rfl | later
      · exact fits.2.1
      · exact each other later

section Stages

variable {stages : List String} {last : Shape} {others : List Command}
  {otherwise : Machine → Flow × Machine}

/-- The arms of stages, with a body behind them for all other stages. -/
private theorem endsIn_arms {arms : List Stmt}
    (each : ∀ arm ∈ arms.take stages.length, setting.Runs rounds scope (arm.shape setting.s.frame)
      (setting.s.exec rounds arm) (arm.program setting.s.frame))
    (default : setting.Runs rounds scope last otherwise others)
    (represents : setting.Represents scope.ready m memory) :
    setting.EndsIn scope (Stmt.shapeArms setting.s.frame stages last arms)
      (match setting.s.execArm rounds stages arms m with
        | some result => result
        | none => otherwise m)
      (execCases setting.s.host rounds (.ofStage m.stage) (Stmt.patterns stages arms)
        (Stmt.programArms setting.s.frame stages others arms) memory) := by
  have finish : setting.EndsIn scope last (otherwise m) (execCases setting.s.host rounds
      (.ofStage m.stage) [.anything] [others] memory) := by
    simpa [execCases, Pattern.match?] using (default m memory represents).within represents.names
  induction arms generalizing stages with
  | nil =>
    rw [Surroundings.execArm, Stmt.shapeArms, Stmt.patterns, Stmt.programArms]
    exact finish
  | cons arm rest ih =>
    cases stages with
    | nil =>
      rw [Surroundings.execArm, Stmt.shapeArms, Stmt.patterns, Stmt.programArms]
      exact finish
    | cons stage stages =>
      rw [Surroundings.execArm, Stmt.shapeArms, Stmt.patterns, Stmt.programArms, execCases]
      by_cases here : m.stage = some stage
      · have found : (Pattern.some (.text stage)).match? (Datum.ofStage m.stage : Datum Ctx) =
            some [] := by
          simp [here, Datum.ofStage, Pattern.match?]
        simp only [here, if_true]
        rw [← here, found]
        exact ((each arm (by simp) m memory represents).within represents.names).first
      · have missed : (Pattern.some (.text stage)).match? (Datum.ofStage m.stage : Datum Ctx) =
            none := by
          cases given : m.stage with
          | none => simp [Datum.ofStage, Pattern.match?]
          | some other =>
            have differs : stage ≠ other := by rintro rfl; exact here given
            simp [Datum.ofStage, Pattern.match?, differs]
        simp only [here, if_false, missed]
        exact (ih fun other member => each other (by simp [member])).second

end Stages

variable (rounds) in
mutual
/-- The program of a statement comes to the same end as the statement, if the accesses of the
statement are in order and its variables are typed. -/
theorem runs_exec (sound : setting.Sound) : (stmt : Stmt) → {scope : Scope} →
    (stmt.shape setting.s.frame).Fits setting.given scope →
      stmt.Typed setting.kinds setting.rules → setting.Shares scope →
        setting.Runs rounds scope (stmt.shape setting.s.frame) (setting.s.exec rounds stmt)
          (stmt.program setting.s.frame)
  | .declare v, _, fits, typed, _ => by
    intro m memory represents
    rw [Surroundings.exec, Stmt.program, execAll_single, exec]
    exact endsIn_declare sound fits typed represents
  | .assign v value retained, _, fits, typed, _ =>
    fun _ _ represents => endsIn_assign sound fits typed represents
  | .block items, _, fits, typed, shares => by
    intro m memory represents
    rw [Surroundings.exec, Stmt.program]
    exact runs_execAll sound items fits typed shares m memory represents
  | .guarded cond body, _, fits, typed, shares => by
    have fits := (Stmt.fits_guarded _ _).mp fits
    intro m memory represents
    rw [Surroundings.exec, Stmt.program]
    exact Runs.test sound cond typed.1 fits.1 _ (runs_exec sound body fits.2 typed.2 shares) .nothing
      m memory represents
  | .onResult r matched failed, _, fits, typed, shares => by
    have fits := (Stmt.fits_onResult _ _ _).mp fits
    have fails := Runs.test sound (.notNoMatch r) typed.1 (by simpa using fits.1) [.read r]
      (runs_exec sound failed fits.2.2 typed.2.2 shares) .nothing
    have whole := Runs.test sound (.isMatch r) typed.1 (by simpa using fits.1) [.read r]
      (runs_exec sound matched fits.2.1 typed.2.1 shares) fails
    intro m memory represents
    rw [Surroundings.exec, Stmt.program]
    have ends := whole m memory represents
    simp only [Surroundings.holds, decide_eq_true_eq] at ends
    exact ends
  | .loop body, _, fits, typed, shares => by
    intro m memory represents
    rw [Surroundings.exec, Stmt.program]
    exact Runs.loop false (runs_exec sound body fits typed shares) m memory represents
  | .leave, _, _, _, _ => by
    intro m memory represents
    rw [Surroundings.exec, Stmt.program]
    exact Runs.leave m memory represents
  | .accept rule stop move, _, fits, typed, shares => by
    obtain ⟨⟨count, scan, few⟩, typed⟩ := typed
    obtain ⟨chunk, cursor⟩ := shares count scan
    have ready (v) (among : v ∈ Code.reads stop.code) : _ :=
      ((Scope.allows_reads.mp (stop.accesses_code ▸ fits.1)).1 v among).2
    intro m memory represents
    refine (exec_accept sound scan represents chunk cursor few typed ready _ move).mono
      (fun v known => known.resolve_right ?_) (fun _ _ => trivial) fun _ => id
    rw [Stmt.gains_accept]
    exact id
  | .fail owner r, scope, fits, typed, shares => by
    obtain ⟨⟨count, scan, few⟩, typed⟩ := typed
    obtain ⟨-, cursor⟩ := shares count scan
    have ready : scope.ready r := (scope_fail fits).2
    intro m memory represents
    exact exec_fail sound scan represents cursor few typed ready _ _
  | .dispatch stages arms otherwise, _, fits, typed, shares => by
    obtain ⟨count, scan⟩ := Option.isSome_iff_exists.mp typed.1
    have fits := fits_arms fits
    intro m memory represents
    have stage : memory.names.lookup "stage" = some (.field .stage) :=
      represents.names ▸ (sound.scans count scan).stage
    have current : memory.state.stage = m.stage := by rw [represents.state]
    rw [Surroundings.exec, Stmt.program, execAll_single, exec, eval_stage stage current]
    have each := runs_execEach sound arms stages fits.1 typed.2.1 shares
    exact endsIn_arms each (runs_exec sound otherwise fits.2 typed.2.2 shares) represents
theorem runs_execAll (sound : setting.Sound) : (items : List Stmt) → {scope : Scope} →
    (Stmt.shapeAll setting.s.frame items).Fits setting.given scope →
      Stmt.TypedAll setting.kinds setting.rules items → setting.Shares scope →
        setting.Runs rounds scope (Stmt.shapeAll setting.s.frame items)
          (setting.s.execAll rounds items) (Stmt.programAll setting.s.frame items)
  | [], _, _, _, _ => by
    intro m memory represents
    rw [Surroundings.execAll, Stmt.programAll]
    exact Runs.nothing m memory represents
  | item :: rest, _, fits, typed, shares => by
    intro m memory represents
    rw [Surroundings.execAll, Stmt.programAll]
    exact Runs.andThen (runs_exec sound item fits.1 typed.1 shares)
      (runs_execAll sound rest fits.2 typed.2 (shares.behind _)) m memory represents
theorem runs_execEach (sound : setting.Sound) : (arms : List Stmt) → (stages : List String) →
    {scope : Scope} → (∀ arm ∈ arms.take stages.length,
      (arm.shape setting.s.frame).Fits setting.given scope) →
      Stmt.TypedAll setting.kinds setting.rules arms → setting.Shares scope →
        ∀ arm ∈ arms.take stages.length, setting.Runs rounds scope (arm.shape setting.s.frame)
          (setting.s.exec rounds arm) (arm.program setting.s.frame)
  | [], _, _, _, _, _ => by simp
  | _ :: _, [], _, _, _, _ => by simp
  | arm :: rest, stage :: stages, _, fits, typed, shares => by
    intro other member
    rcases List.mem_cons.mp member with same | later
    · rw [same]
      exact runs_exec sound arm (fits arm (by simp)) typed.1 shares
    · exact runs_execEach sound rest stages (fun a among => fits a (by simp [among])) typed.2 shares
        other later
end

end Setting

end StagedLexer
