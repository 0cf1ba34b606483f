import StagedLexer.Proofs.RoutineScope
import StagedLexer.Proofs.StatementProgram

/-! The control structure of programs: blocks, loops and exits as they are read from the text of
emitted source. The program of a statement has the control structure of the statement, in more
detail. -/
namespace StagedLexer

namespace Source

mutual
/-- The variables that are read in an expression, in their order. -/
def Expr.reads : Expr → List Nat
  | number _ | size _ | text _ | units _ | name _ | absent _ => []
  | var v => [v]
  | paren inner | negative inner | content inner | borrow inner | cast inner _ | fromOn inner
  | upTo inner => reads inner
  | binary _ left right | index left right => reads left ++ reads right
  | call _ arguments | tuple arguments => readsAll arguments
  | method receiver _ arguments => reads receiver ++ readsAll arguments
  | either cond first second => reads cond ++ (reads first ++ reads second)
  | choose inner arms => reads inner ++ readsArms arms
def Expr.readsAll : List Expr → List Nat
  | [] => []
  | expr :: rest => Expr.reads expr ++ Expr.readsAll rest
def Expr.readsArms : Arms → List Nat
  | .done => []
  | .plain _ value rest => Expr.reads value ++ Expr.readsArms rest
  | .guarded _ guard value rest => Expr.reads guard ++ (Expr.reads value ++ Expr.readsArms rest)
end

def Expr.accesses (expr : Expr) : List Access := expr.reads.map .read

namespace Command

mutual
/-- The control structure of a command. A `continue` goes on with the loop that has a label. -/
def shape : Command → Shape
  | declare v none => .straight [.declare v]
  | declare v (some value) | fix v value => .straight (value.accesses ++ [Access.declare v,
      Access.assign v])
  | assign (.var v) value => .straight (value.accesses ++ [Access.assign v])
  | assign target value => .straight (value.accesses ++ target.accesses)
  | bind _ value | perform value => .straight value.accesses
  | test cond first second => .choice cond.accesses (shapeAll first) (shapeAll second)
  | testPattern _ value first second =>
    .choice value.accesses (shapeAll first) (shapeAll second)
  | choose value _ bodies => .andThen (.straight value.accesses) (shapeCases bodies)
  | loop body => .loop false (shapeAll body)
  | during _ cond body => .loop true (.choice cond.accesses (shapeAll body) (.exit .leave))
  | leave => .exit .leave
  | again _ => .exit .again
  | stop => .exit .stop
def shapeAll : List Command → Shape
  | [] => .nothing
  | command :: rest => .andThen (shape command) (shapeAll rest)
def shapeCases : List (List Command) → Shape
  | [] => .nothing
  | body :: rest =>
    match rest with
    | [] => shapeAll body
    | _ :: _ => .choice [] (shapeAll body) (shapeCases rest)
end

end Command

end Source

namespace Shape

/-- The second shape is the first one in more detail. -/
abbrev Refines (before after : Shape) : Prop := before.Improves (fun _ => False) after

namespace Refines

variable {a b c first second first' second' : Shape}

theorem trans (one : a.Refines b) (two : b.Refines c) : a.Refines c :=
  ⟨two.declared.trans one.declared, fun v => (two.opens v).trans (one.opens v),
    fun v gains => one.gains v (two.gains v gains),
    fun v still gains => two.kept v still (one.kept v still gains),
    fun v ready leaves => one.leaves v ready (two.leaves v ready leaves),
    fun v ready still leaves => two.keptLeaves v ready still (one.keptLeaves v ready still leaves),
    fun fits => two.fits (one.fits fits)⟩

theorem andThen (ahead : first.Refines first') (behind : second.Refines second') :
    (andThen first second).Refines (andThen first' second') :=
  Improves.andThen ahead behind fun v gained gone => absurd (ahead.kept v id gained) gone

private theorem gains_nothing {v : Nat} : ¬ nothing.Gains v := by simp [nothing, Gains]

private theorem behind_nothing (scope : Scope) : scope.behind nothing = scope :=
  Scope.behind_eq (fun _ => by simp [nothing, Opens]) fun _ => gains_nothing

theorem nothing_andThen (shape : Shape) : (Shape.andThen .nothing shape).Refines shape := by
  refine ⟨by simp, fun v => by simp [Opens, nothing], fun v => .inr,
    fun v _ gains => gains.resolve_left gains_nothing, fun v ready leaves => ?_,
    fun v ready _ leaves => ?_, fun fits => ?_⟩
  · exact ⟨trivial, leaves.mono .inl⟩
  · exact leaves.2.mono fun known => known.resolve_right gains_nothing
  · have inside := fits.2
    rwa [behind_nothing] at inside

theorem nothing_ahead (shape : Shape) : shape.Refines (.andThen .nothing shape) := by
  refine ⟨by simp, fun v => by simp [Opens, nothing],
    fun v gains => gains.resolve_left gains_nothing, fun v _ => .inr, fun v ready leaves => ?_,
    fun v ready _ leaves => ?_, fun fits => ?_⟩
  · exact leaves.2.mono fun known => known.resolve_right gains_nothing
  · exact ⟨trivial, leaves.mono .inl⟩
  · refine ⟨trivial, ?_⟩
    rwa [behind_nothing]

theorem andThen_nothing (shape : Shape) : shape.Refines (.andThen shape .nothing) := by
  refine ⟨by simp, fun v => by simp [Opens, nothing],
    fun v gains => gains.resolve_right gains_nothing, fun v _ => .inl, fun v ready => And.left,
    fun v ready _ leaves => ⟨leaves, trivial⟩, fun fits => ⟨fits, trivial⟩⟩

private theorem behind_andThen (scope : Scope) (a b : Shape) :
    scope.behind (.andThen a b) = (scope.behind a).behind b := by
  ext v <;> simp [Scope.behind, Opens, Gains, or_assoc]

theorem assoc (a b c : Shape) :
    (Shape.andThen (.andThen a b) c).Refines (.andThen a (.andThen b c)) := by
  refine ⟨by simp, fun v => or_assoc.symm, fun v => or_assoc.mpr, fun v _ => or_assoc.mp,
    fun v ready leaves => ?_, fun v ready _ leaves => ?_, fun fits => ?_⟩
  · exact ⟨⟨leaves.1, leaves.2.1⟩, leaves.2.2.mono or_assoc.mp⟩
  · exact ⟨leaves.1.1, leaves.1.2, leaves.2.mono or_assoc.mpr⟩
  · have last := fits.2
    rw [behind_andThen] at last
    exact ⟨fits.1.1, fits.1.2, last⟩

theorem choice {test : List Access} (left : first.Refines first')
    (right : second.Refines second') :
    (Shape.choice test first second).Refines (.choice test first' second') :=
  Improves.choice test left right

private theorem allows_straight {given : Nat → Prop} {scope : Scope} {path more : List Access}
    (allows : scope.Allows given (path ++ more)) :
    scope.Allows given path ∧ (scope.behind (straight path)).Allows given more := by
  induction path generalizing scope with
  | nil => exact ⟨trivial, (behind_nothing scope).symm ▸ allows⟩
  | cons access rest ih =>
    cases access with
    | declare v =>
      obtain ⟨inside, later⟩ := ih allows.2.2
      refine ⟨⟨allows.1, allows.2.1, inside⟩, ?_⟩
      have same : (scope.declare v).behind (straight rest) =
          scope.behind (straight (.declare v :: rest)) := by
        ext w <;> simp [Scope.behind, Scope.declare, Opens, Gains, or_assoc]
      exact same ▸ later
    | assign v =>
      obtain ⟨inside, later⟩ := ih allows.2.2
      refine ⟨⟨allows.1, allows.2.1, inside⟩, ?_⟩
      have same : (scope.assign v).behind (straight rest) =
          scope.behind (straight (.assign v :: rest)) := by
        ext w <;> simp [Scope.behind, Scope.assign, Opens, Gains, or_assoc]
      exact same ▸ later
    | read v =>
      obtain ⟨inside, later⟩ := ih allows.2.2
      refine ⟨⟨allows.1, allows.2.1, inside⟩, ?_⟩
      have same : scope.behind (straight rest) = scope.behind (straight (.read v :: rest)) := by
        ext w <;> simp [Scope.behind, Opens, Gains]
      exact same ▸ later

theorem straight_append (path more : List Access) :
    (straight (path ++ more)).Refines (.andThen (straight path) (straight more)) :=
  ⟨by simp [declared, accesses], fun v => by simp [Opens], fun v => by simp [Gains],
    fun v _ => by simp [Gains], fun v ready _ => trivial, fun v ready _ _ => ⟨trivial, trivial⟩,
    allows_straight⟩

/-- Reading alone can be a test, behind which nothing more is done. -/
theorem test_only (vars : List Nat) (left : nothing.Refines first)
    (right : nothing.Refines second) :
    (straight (vars.map .read)).Refines (.choice (vars.map .read) first second) := by
  have gains {shape : Shape} (refines : nothing.Refines shape) (v : Nat) : ¬ shape.Gains v :=
    fun gained => gains_nothing (refines.gains v gained)
  refine ⟨?_, fun v => by simp [Opens], fun v both => absurd both.1 (gains left v),
    fun v _ gained => by simp [Gains] at gained, fun v ready _ => trivial,
    fun v ready _ _ => ⟨left.keptLeaves v ready id trivial, right.keptLeaves v ready id trivial⟩,
    fun fits => ⟨fits, left.fits trivial, right.fits trivial⟩⟩
  rw [declared_choice, left.declared, right.declared]
  simp [declared, accesses, nothing]

end Refines

variable {given more : Nat → Prop} {scope : Scope}

/-- Fewer variables come with the source. -/
theorem Fits.fewer {shape : Shape} (fits : shape.Fits given scope)
    (fewer : ∀ v, more v → given v) : shape.Fits more scope := by
  have path {scope : Scope} {path : List Access} (allows : scope.Allows given path) :
      scope.Allows more path := by
    induction path generalizing scope with
    | nil => trivial
    | cons access rest ih =>
      cases access with
      | declare | assign => exact ⟨fun among => allows.1 (fewer _ among), allows.2.1, ih allows.2.2⟩
      | read => exact ⟨allows.1, allows.2.1, ih allows.2.2⟩
  induction shape generalizing scope with
  | straight => exact path fits
  | andThen first second first_ih second_ih => exact ⟨first_ih fits.1, second_ih fits.2⟩
  | choice test first second first_ih second_ih =>
    exact ⟨path fits.1, first_ih fits.2.1, second_ih fits.2.2⟩
  | loop scan body ih => exact ih fits
  | exit => trivial

/-- Source that only reads what is known is in order. -/
theorem fits_of_reads {shape : Shape} (vars : List Nat)
    (reads : shape.accesses = vars.map Access.read) (known : ∀ v ∈ vars, scope.Has v) :
    shape.Fits given scope := by
  have path {scope : Scope} {vars : List Nat} (known : ∀ v ∈ vars, scope.Has v) :
      scope.Allows given (vars.map Access.read) := by
    rw [← List.append_nil (vars.map Access.read)]
    exact Scope.allows_reads.mpr ⟨known, trivial⟩
  induction shape generalizing scope vars with
  | straight accesses =>
    obtain rfl : accesses = vars.map Access.read := reads
    exact path known
  | andThen first second first_ih second_ih =>
    obtain ⟨before, behind, rfl, one, two⟩ := List.map_eq_append_iff.mp reads.symm
    refine ⟨first_ih _ one.symm fun v member => known v (by simp [member]), ?_⟩
    exact second_ih _ two.symm fun v member => (known v (by simp [member])).behind first
  | choice test first second first_ih second_ih =>
    obtain ⟨before, behind, rfl, one, rest⟩ := List.map_eq_append_iff.mp reads.symm
    obtain ⟨left, right, rfl, two, three⟩ := List.map_eq_append_iff.mp rest
    refine ⟨one ▸ path fun v member => known v (by simp [member]), ?_, ?_⟩
    · exact first_ih _ two.symm fun v member => known v (by simp [member])
    · exact second_ih _ three.symm fun v member => known v (by simp [member])
  | loop scan body ih => exact ih vars reads known
  | exit => trivial

end Shape

namespace Source.Command

variable {path more : List Access} {commands : List Command}

theorem shapeCases_cons {bodies : List (List Command)} (some : bodies ≠ []) :
    shapeCases (commands :: bodies) = .choice [] (shapeAll commands) (shapeCases bodies) := by
  cases bodies with
  | nil => exact absurd rfl some
  | cons => rfl

theorem refines_append (first second : List Command) :
    (Shape.andThen (shapeAll first) (shapeAll second)).Refines (shapeAll (first ++ second)) := by
  induction first with
  | nil => exact .nothing_andThen _
  | cons command rest ih =>
    rw [List.cons_append, shapeAll, shapeAll]
    exact (Shape.Refines.assoc _ _ _).trans (.andThen (.refl _) ih)

theorem refines_single (command : Command) {whole : Shape} (same : shape command = whole) :
    whole.Refines (shapeAll [command]) :=
  same ▸ .andThen_nothing _

theorem refines_straight {first second : List Command}
    (ahead : (Shape.straight path).Refines (shapeAll first))
    (behind : (Shape.straight more).Refines (shapeAll second)) :
    (Shape.straight (path ++ more)).Refines (shapeAll (first ++ second)) :=
  (Shape.Refines.straight_append path more).trans
    ((Shape.Refines.andThen ahead behind).trans (refines_append first second))

/-- A test behind which nothing is read or assigned. -/
theorem refines_testPattern (pattern : Source.Pattern) (value : Expr) {command : Command}
    (idle : shape command = .nothing) :
    (Shape.straight value.accesses).Refines (shapeAll [.testPattern pattern value [command] []]) :=
  (Shape.Refines.test_only value.reads (refines_single _ idle) (.refl _)).trans
    (refines_single _ rfl)

end Source.Command

open Source Code

attribute [local simp] Expr.reads Expr.readsAll Expr.readsArms Expr.accesses

section Reads

variable {chunk : Nat}

theorem Place.reads_expr (place : Place) : place.expr.reads = Code.reads place.code := by
  cases place <;> simp [Place.expr, Place.code, Code.reads, readsAll]

theorem Value.reads_expr (value : Value) :
    (value.expr chunk).reads = Code.reads (value.code chunk) := by
  cases value with
  | probe test place =>
    cases test <;> simp [Value.expr, Value.code, Probe.expr, Probe.arm, Probe.code, Probe.size,
      Probe.rest, Probe.behind, Probe.missing, Probe.code.advance, Code.reads, readsAll,
      Place.reads_expr]
  | _ => simp [Value.expr, Value.code, Code.reads, readsAll, Place.reads_expr]

theorem Cond.reads_expr (cond : Cond) : (cond.expr chunk).reads = Code.reads (cond.code chunk) := by
  cases cond <;> simp [Cond.expr, Cond.code, Code.reads, readsAll]

end Reads

namespace Stmt

open Source.Command (refines_single refines_append refines_straight refines_testPattern)

variable {frame : Frame}

private theorem refines_confirm (frame : Frame) :
    (Shape.straight [.read frame.pending]).Refines (Command.shapeAll [frame.confirm]) :=
  refines_testPattern _ (.method (.var frame.pending) "take" []) rfl

private theorem refines_move (frame : Frame) (rule : Nat) (stop : Place) (move : StageMove) :
    (Shape.straight (frame.stageMove rule stop move).accesses).Refines
      (Command.shapeAll (frame.move rule stop move)) := by
  cases move with
  | stay => exact .refl _
  | switch stage => exact refines_single _ rfl
  | computed =>
    have refines := refines_testPattern (.some (.name "next_stage"))
      (.method (.index (.name "rules") (.number rule)) "next_stage" [.var frame.chunk,
        .var frame.cursor, .binary .minus stop.expr (.var frame.cursor), .name "ctx",
        .method (.name "stage") "as_deref" []])
      (show Command.shape (Frame.setStage (.name "next_stage")) = .nothing from rfl)
    simpa [Frame.stageMove, Frame.move, accesses, accessesAll, stop.reads_expr,
      stop.accesses_code] using refines

private theorem refines_acceptance (rule : Nat) (stop : Place) (move : StageMove) :
    (Shape.andThen (.straight (acceptance frame rule stop move).accesses) (.exit .again)).Refines
      (Command.shapeAll (frame.accept rule stop move)) := by
  have moved := refines_straight (refines_confirm frame) (refines_straight
    (refines_single (.bind (.name "prev_stage") (.method (.name "stage") "clone" [])) rfl)
    (refines_move frame rule stop move))
  have pended : (Shape.straight (Access.read frame.cursor :: stop.code.accesses ++
      [Access.assign frame.pending])).Refines (Command.shapeAll [.assign (.var frame.pending)
        (.call ["Some"] [.tuple [.number rule, .var frame.cursor, stop.expr,
          .name "prev_stage"]])]) :=
    refines_single _ (by simp [Command.shape, stop.reads_expr, stop.accesses_code])
  have advanced : (Shape.straight (stop.code.accesses ++ [Access.assign frame.cursor])).Refines
      (Command.shapeAll [.assign (.var frame.cursor) stop.expr]) :=
    refines_single _ (by simp [Command.shape, stop.reads_expr, stop.accesses_code])
  have path := refines_straight moved (refines_straight pended advanced)
  have again : (Shape.exit .again).Refines (Command.shapeAll [.again "scan"]) :=
    refines_single _ rfl
  have whole := (Shape.Refines.andThen path again).trans (refines_append _ _)
  simpa [acceptance, Frame.accept, Frame.confirmPending, accesses, accessesAll] using whole

private theorem refines_fail (owner r : Nat) :
    ((Stmt.fail owner r).shape frame).Refines (Command.shapeAll (frame.fail owner r)) := by
  have reported := refines_straight (refines_confirm frame) (refines_straight
    (refines_single (.perform (.method (.name "handler") "error"
      [Frame.ruleAt (.number owner), Frame.inStream (.var frame.cursor), .var r])) rfl)
    (refines_single (.assign (.content (.name "offset")) (.var frame.cursor)) rfl))
  have stop : (Shape.exit .stop).Refines (Command.shapeAll [.stop]) := refines_single _ rfl
  have whole := (Shape.Refines.andThen reported stop).trans (refines_append _ _)
  simpa [Stmt.shape, Stmt.code, Frame.fail, Frame.confirmPending, accesses, accessesAll,
    Frame.ruleAt, Frame.inStream] using whole

private theorem programArms_ne_nil {last : List Command} (arms : List Stmt)
    (stages : List String) : programArms frame stages last arms ≠ [] := by
  cases arms with
  | nil => simp [programArms]
  | cons => cases stages <;> simp [programArms]

mutual
/-- The program of a statement has its control structure. -/
theorem refines_program : (stmt : Stmt) →
    (stmt.shape frame).Refines (Command.shapeAll (stmt.program frame))
  | declare v => refines_single _ rfl
  | assign v value retained => by
    have same : (value.expr frame.chunk).accesses = (value.code frame.chunk).accesses := by
      rw [Expr.accesses, value.reads_expr, value.accesses_code]
    rw [shape, ← same]
    exact refines_single _ rfl
  | block items => refines_programAll items
  | guarded cond body => by
    have same : (cond.expr frame.chunk).accesses = (cond.code frame.chunk).accesses := by
      rw [Expr.accesses, cond.reads_expr, cond.accesses_code]
    rw [shape, ← same]
    exact (Shape.Refines.choice (refines_program body) (.refl _)).trans (refines_single _ rfl)
  | onResult r matched failed => by
    have fails : (Shape.choice [.read r] (failed.shape frame) .nothing).Refines
        (Command.shapeAll [.test (.binary .differs (.var r) (.negative (.number 1)))
          (failed.program frame) []]) :=
      (Shape.Refines.choice (refines_program failed) (.refl _)).trans (refines_single _ rfl)
    exact (Shape.Refines.choice (refines_program matched) fails).trans (refines_single _ rfl)
  | loop body =>
    Shape.Refines.trans (Shape.Improves.loop false (refines_program body)) (refines_single _ rfl)
  | leave => refines_single _ rfl
  | accept rule stop move => by
    have same : (Expr.binary .greater stop.expr (.var frame.cursor)).accesses =
        stop.code.accesses ++ [Access.read frame.cursor] := by
      simp [stop.reads_expr, stop.accesses_code]
    rw [shape, ← same]
    exact (Shape.Refines.choice (refines_acceptance rule stop move) (.refl _)).trans
      (refines_single _ rfl)
  | fail owner r => refines_fail owner r
  | dispatch stages arms otherwise =>
    (refines_programArms (refines_program otherwise) arms stages).trans
      ((Shape.Refines.nothing_ahead _).trans (refines_single _ rfl))
theorem refines_programAll : (items : List Stmt) →
    (Stmt.shapeAll frame items).Refines (Command.shapeAll (programAll frame items))
  | [] => .refl _
  | item :: rest =>
    (Shape.Refines.andThen (refines_program item) (refines_programAll rest)).trans
      (refines_append _ _)
theorem refines_programArms {otherwise : Shape} {last : List Command}
    (refines : otherwise.Refines (Command.shapeAll last)) : (arms : List Stmt) →
    (stages : List String) → (Stmt.shapeArms frame stages otherwise arms).Refines
      (Command.shapeCases (programArms frame stages last arms))
  | [], _ | _ :: _, [] => by
    rw [programArms, shapeArms]
    exact refines
  | arm :: rest, stage :: stages => by
    rw [programArms, shapeArms, Command.shapeCases_cons (programArms_ne_nil rest stages)]
    exact .choice (refines_program arm) (refines_programArms refines rest stages)
end

end Stmt

namespace Routine

open Source.Command (refines_single refines_append)

variable {Ctx : Type} {routine : Routine Ctx}

/-- The variables of the bound readers come with the text of a body, which declares all others. -/
def Bound (routine : Routine Ctx) (v : Nat) : Prop := v ∈ routine.assembler.bindings.map (·.1)

private theorem behind_firstCommands :
    Scope.behind ⟨routine.Bound, routine.Bound⟩ (Command.shapeAll (firstCommands routine.frame)) =
      routine.entry := by
  ext v <;>
    simp [entry, Scope.behind, Given, Bound, firstCommands, Command.shapeAll, Command.shape,
      Shape.Opens, Shape.Gains, Shape.nothing, prologue, accesses, accessesAll] <;>
    tauto

private theorem fits_firstCommands (separate : routine.Separate)
    (unbound : ¬ routine.Bound routine.frame.chunk) :
    (Command.shapeAll (firstCommands routine.frame)).Fits routine.Bound
      ⟨routine.Bound, routine.Bound⟩ := by
  have cursor : ¬ routine.Bound routine.frame.cursor ∧ routine.frame.cursor ≠ routine.frame.chunk :=
    ⟨fun among => separate.cursor (.inr among), fun same => separate.cursor (.inl same)⟩
  have pending : ¬ routine.Bound routine.frame.pending ∧
      routine.frame.pending ≠ routine.frame.chunk :=
    ⟨fun among => separate.pending (.inr among), fun same => separate.pending (.inl same)⟩
  simp [firstCommands, Command.shapeAll, Command.shape, Shape.Fits, Scope.Allows, Scope.declare,
    Scope.behind, Shape.Opens, Shape.Gains, Shape.nothing, unbound, cursor, pending,
    separate.different]

private theorem fits_lastCommands {scope : Scope}
    (shares : scope.Shares routine.Given routine.frame) :
    (Command.shapeAll (lastCommands routine.frame)).Fits routine.Bound scope := by
  let frame := routine.frame
  refine Shape.fits_of_reads [frame.pending, frame.cursor, frame.pending, frame.cursor,
    frame.cursor, frame.chunk, frame.cursor, frame.cursor] rfl fun v member => ?_
  have among : v = frame.pending ∨ v = frame.cursor ∨ v = frame.chunk := by
    simp at member
    tauto
  rcases among with rfl | rfl | rfl
  · exact shares.pending
  · exact shares.cursor
  · exact shares.known _ shares.chunk

private theorem refines_loop (routine : Routine Ctx) : (Shape.loop true (.choice
    [.read routine.frame.cursor, .read routine.frame.chunk]
    (.andThen (routine.dispatch.shape routine.frame) (.exit .leave)) (.exit .leave))).Refines
    (Command.shape (.during "scan" (textLeft routine.frame)
      (routine.dispatch.program routine.frame ++ [Command.leave]))) := by
  have leave : (Shape.exit .leave).Refines (Command.shapeAll [.leave]) := refines_single _ rfl
  have inside : (routine.dispatch.shape routine.frame).Refines _ :=
    routine.dispatch.refines_program
  have round := (inside.andThen leave).trans (refines_append _ _)
  exact Shape.Improves.loop true (.choice _ round (.refl _))

theorem fits_program (routine : Routine Ctx) (separate : routine.Separate)
    (unbound : ¬ routine.Bound routine.frame.chunk)
    (fits : (routine.dispatch.shape routine.frame).Fits routine.Given routine.entry) :
    (Command.shapeAll routine.program).Fits routine.Bound ⟨routine.Bound, routine.Bound⟩ := by
  have shares := entry_shares separate
  have chunk := shares.known _ shares.chunk
  have inside : (routine.dispatch.shape routine.frame).Fits routine.Bound routine.entry :=
    fits.fewer fun v among => .inr among
  have test : routine.entry.Allows routine.Bound
      [.read routine.frame.cursor, .read routine.frame.chunk] := by
    simp [chunk.allows_read, shares.cursor.allows_read]
  refine (refines_append _ _).fits ⟨fits_firstCommands separate unbound, ?_⟩
  rw [behind_firstCommands]
  have loop := (refines_loop routine).fits ⟨test, ⟨inside, trivial⟩, trivial⟩
  exact ⟨loop, fits_lastCommands (shares.behind _)⟩

theorem declared_program (routine : Routine Ctx) : (Command.shapeAll routine.program).declared =
    routine.frame.chunk :: routine.frame.cursor :: routine.frame.pending ::
      (routine.dispatch.shape routine.frame).declared := by
  have front : (Command.shapeAll (firstCommands routine.frame)).declared =
      [routine.frame.chunk, routine.frame.cursor, routine.frame.pending] := rfl
  have last : (Command.shapeAll (lastCommands routine.frame)).declared = [] := rfl
  have whole := (refines_append (firstCommands routine.frame)
    (.during "scan" (textLeft routine.frame) (routine.dispatch.program routine.frame ++
      [Command.leave]) ::
      lastCommands routine.frame)).declared
  have loop := (refines_loop routine).declared
  have test : [Access.read routine.frame.cursor, .read routine.frame.chunk].filterMap
      Access.declared? = [] := rfl
  rw [program, whole, Shape.declared_andThen, front, Command.shapeAll, Shape.declared_andThen, loop,
    last]
  simp [test]

end Routine

end StagedLexer
