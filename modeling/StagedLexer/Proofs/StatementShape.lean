import StagedLexer.Proofs.ControlFlow
import StagedLexer.Routine.Basic

/-! The control structure of the statements of a routine. It makes the accesses of the emitted
source in the order of the source, and says for every kind of statement what has to be known in
front of it and what is known behind it. -/
namespace StagedLexer

namespace Stmt

/-- What accepting a match does, behind the test whether the match is empty. -/
def acceptance (frame : Frame) (rule : Nat) (stop : Place) (move : StageMove) : Code :=
  .block [frame.confirmPending, .literal "let prev_stage = stage.clone();\n",
    frame.stageMove rule stop move,
    .assign frame.pending (.block [.literal ("Some((" ++ toString rule ++ ", "),
      .var frame.cursor, .literal ", ", stop.code, .literal ", prev_stage))"]) true,
    .assign frame.cursor stop.code true]

mutual
def shape (frame : Frame) : Stmt → Shape
  | declare v => .straight [.declare v]
  | assign v value _ => .straight ((value.code frame.chunk).accesses ++ [Access.assign v])
  | block items => shapeAll frame items
  | guarded cond body => .choice (cond.code frame.chunk).accesses (shape frame body) .nothing
  | onResult r matched failed => .choice [.read r] (shape frame matched)
    (.choice [.read r] (shape frame failed) .nothing)
  | loop body => .loop false (shape frame body)
  | leave => .exit .leave
  | accept rule stop move => .choice (stop.code.accesses ++ [Access.read frame.cursor])
    (.andThen (.straight (acceptance frame rule stop move).accesses) (.exit .again)) .nothing
  | fail owner r => .andThen (.straight ((fail owner r).code frame).accesses) (.exit .stop)
  | dispatch stages arms otherwise => shapeArms frame stages (shape frame otherwise) arms
def shapeAll (frame : Frame) : List Stmt → Shape
  | [] => .nothing
  | item :: rest => .andThen (shape frame item) (shapeAll frame rest)
/-- A choice between the arms of the given stages and a last one. -/
def shapeArms (frame : Frame) (stages : List String) (otherwise : Shape) : List Stmt → Shape
  | [] => otherwise
  | arm :: rest =>
    match stages with
    | [] => otherwise
    | _ :: stages => .choice [] (shape frame arm) (shapeArms frame stages otherwise rest)
end

theorem shape_block (frame : Frame) (items : List Stmt) :
    (block items).shape frame = shapeAll frame items := rfl

end Stmt

/-- The control structure of the body of a routine. -/
def Routine.shape {Ctx : Type} (routine : Routine Ctx) : Shape :=
  let frame := routine.frame
  .andThen (.straight (prologue frame).accesses)
    (.andThen (.loop true (.choice [.read frame.cursor, .read frame.chunk]
      (.andThen (routine.dispatch.shape frame) (.exit .leave)) (.exit .leave)))
      (.straight (epilogue frame).accesses))

open Code

section Accesses

variable {frame : Frame}

theorem Place.accesses_code (place : Place) :
    place.code.accesses = (reads place.code).map .read := by
  cases place <;> simp [Place.code, accesses, accessesAll, reads, readsAll]

theorem Cond.accesses_code (cond : Cond) (chunk : Nat) :
    (cond.code chunk).accesses = (reads (cond.code chunk)).map .read := by
  cases cond <;> simp [Cond.code, accesses, accessesAll, reads, readsAll]

theorem Value.accesses_code (value : Value) (chunk : Nat) :
    (value.code chunk).accesses = (reads (value.code chunk)).map .read := by
  cases value with
  | probe test place =>
    cases test <;> simp [Value.code, Probe.code, Probe.code.advance, accesses, accessesAll, reads,
      readsAll, Place.accesses_code]
  | position place | place place | call bound place =>
    simp [Value.code, accesses, accessesAll, reads, readsAll, Place.accesses_code]
  | noMatch | result | chunkEnd | counted | asPlace | zero | succ =>
    simp [Value.code, accesses, accessesAll, reads, readsAll]

namespace Stmt

mutual
theorem accesses_shape : (stmt : Stmt) → (stmt.shape frame).accesses = (stmt.code frame).accesses
  | declare _ | assign _ _ _ | leave => by simp [shape, code, Shape.accesses, accesses]
  | block items => by rw [shape, code, accesses, accesses_shapeAll items]
  | guarded cond body => by
    simp [shape, code, Shape.accesses, Shape.nothing, accesses, accessesAll, accesses_shape body]
  | onResult r matched failed => by
    simp [shape, code, Shape.accesses, Shape.nothing, accesses, accessesAll,
      accesses_shape matched, accesses_shape failed]
  | loop body => by simp [shape, code, Shape.accesses, accesses, accessesAll, accesses_shape body]
  | accept rule stop move => by
    simp [shape, code, acceptance, Shape.accesses, Shape.nothing, accesses, accessesAll]
  | fail owner r => by simp [shape, Shape.accesses]
  | dispatch stages arms otherwise => by
    simp [shape, code, accesses, accessesAll, accesses_shapeArms arms stages,
      accesses_shape otherwise]
theorem accesses_shapeAll : (items : List Stmt) →
    (shapeAll frame items).accesses = accessesAll (codes frame items)
  | [] => by simp [shapeAll, codes, Shape.accesses, Shape.nothing, accessesAll]
  | item :: rest => by
    rw [shapeAll, codes, Shape.accesses, accessesAll, accesses_shape item, accesses_shapeAll rest]
theorem accesses_shapeArms {otherwise : Shape} : (arms : List Stmt) → (stages : List String) →
    (shapeArms frame stages otherwise arms).accesses =
      accessesAll (armCodes frame stages arms) ++ otherwise.accesses
  | [], _ | _ :: _, [] => by simp [shapeArms, armCodes, accessesAll]
  | arm :: rest, stage :: stages => by
    simp [shapeArms, armCodes, armHead, Shape.accesses, accesses, accessesAll, accesses_shape arm,
      accesses_shapeArms rest stages]
end

end Stmt

theorem Routine.accesses_shape {Ctx : Type} (routine : Routine Ctx) :
    routine.shape.accesses = routine.body.accesses := by
  simp [shape, body, Shape.accesses, accesses, accessesAll, Stmt.accesses_shape]

end Accesses

section Reads

variable {chunk r pos : Nat}

@[simp] theorem Cond.reads_noMatch : reads ((noMatch r).code chunk) = [r] := by
  simp [code, reads, readsAll]

@[simp] theorem Cond.reads_isMatch : reads ((isMatch r).code chunk) = [r] := by
  simp [code, reads, readsAll]

@[simp] theorem Cond.reads_negative : reads ((negative r).code chunk) = [r] := by
  simp [code, reads, readsAll]

@[simp] theorem Cond.reads_notNoMatch : reads ((notNoMatch r).code chunk) = [r] := by
  simp [code, reads, readsAll]

@[simp] theorem Cond.reads_reached (bound : Nat) : reads ((reached r bound).code chunk) = [r] := by
  simp [code, reads, readsAll]

@[simp] theorem Cond.reads_unmoved : reads ((unmoved r pos).code chunk) = [r, pos] := by
  simp [code, reads, readsAll]

@[simp] theorem Cond.reads_atChunkEnd : reads ((atChunkEnd pos).code chunk) = [pos, chunk] := by
  simp [code, reads, readsAll]

@[simp] theorem Value.reads_noMatch : reads (noMatch.code chunk) = [] := by
  simp [code, reads, readsAll]

@[simp] theorem Value.reads_zero : reads (zero.code chunk) = [] := by simp [code, reads]

@[simp] theorem Value.reads_chunkEnd : reads (chunkEnd.code chunk) = [chunk] := by
  simp [code, reads, readsAll]

@[simp] theorem Value.reads_result : reads ((result r).code chunk) = [r] := by simp [code, reads]

@[simp] theorem Value.reads_asPlace : reads ((asPlace r).code chunk) = [r] := by
  simp [code, reads, readsAll]

@[simp] theorem Value.reads_succ : reads ((succ r).code chunk) = [r] := by
  simp [code, reads, readsAll]

@[simp] theorem Value.reads_counted (min : Nat) :
    reads ((counted r min pos).code chunk) = [r, pos] := by
  simp [code, reads, readsAll]

@[simp] theorem Value.reads_position (place : Place) :
    reads ((position place).code chunk) = reads place.code := by
  simp [code, reads, readsAll]

@[simp] theorem Value.reads_place (p : Place) : reads ((place p).code chunk) = reads p.code := rfl

@[simp] theorem Place.reads_var : reads (var pos).code = [pos] := by simp [code, reads]

@[simp] theorem Value.reads_call (bound : Nat) (place : Place) :
    reads ((call bound place).code chunk) = bound :: chunk :: reads place.code := by
  simp [code, reads, readsAll]

theorem Value.mem_reads_probe {test : Probe} {place : Place} {v : Nat} :
    v ∈ reads ((probe test place).code chunk) ↔ v = chunk ∨ v ∈ reads place.code := by
  cases test <;>
    simp [code, Probe.code, Probe.code.advance, reads, readsAll, or_comm]

end Reads

def Access.declared? : Access → Option Nat
  | declare v => some v
  | assign _ | read _ => none

@[simp] theorem Access.declared?_declare (v : Nat) : (declare v).declared? = some v := rfl

@[simp] theorem Access.declared?_assign (v : Nat) : (assign v).declared? = none := rfl

@[simp] theorem Access.declared?_read (v : Nat) : (read v).declared? = none := rfl

@[simp] theorem Access.filterMap_declared?_reads (vars : List Nat) :
    (vars.map read).filterMap declared? = [] := by
  rw [List.filterMap_map, List.filterMap_eq_nil_iff]
  exact fun _ _ => rfl

namespace Shape

/-- The variables that are declared in the shape, in all of its blocks. -/
def declared (shape : Shape) : List Nat := shape.accesses.filterMap Access.declared?

theorem mem_declared {shape : Shape} {v : Nat} :
    v ∈ shape.declared ↔ .declare v ∈ shape.accesses := by
  rw [declared, List.mem_filterMap]
  constructor
  · rintro ⟨access, member, found⟩
    cases access with
    | declare => exact Option.some.inj found ▸ member
    | assign | read => cases found
  · exact fun member => ⟨_, member, rfl⟩

theorem count_declared (shape : Shape) (v : Nat) :
    shape.declared.count v = shape.accesses.count (.declare v) := by
  rw [declared, List.count_filterMap]
  apply List.countP_congr
  intro access _
  cases access <;> simp

@[simp] theorem declared_andThen (first second : Shape) :
    (andThen first second).declared = first.declared ++ second.declared :=
  List.filterMap_append

@[simp] theorem declared_choice (test : List Access) (first second : Shape) :
    (choice test first second).declared =
      test.filterMap Access.declared? ++ (first.declared ++ second.declared) := by
  simp only [declared, accesses, List.filterMap_append]

@[simp] theorem declared_loop (scan : Bool) (body : Shape) :
    (loop scan body).declared = body.declared := rfl

@[simp] theorem declared_exit (way : Exit) : (exit way).declared = [] := rfl

@[simp] theorem declared_nothing : nothing.declared = [] := rfl

end Shape

namespace Scope

variable {given : Nat → Prop} {scope : Scope} {v : Nat}

@[ext]
theorem ext {scope other : Scope} (visible : ∀ v, scope.visible v ↔ other.visible v)
    (ready : ∀ v, scope.ready v ↔ other.ready v) : scope = other := by
  cases scope
  cases other
  simp only [mk.injEq]
  exact ⟨funext fun v => propext (visible v), funext fun v => propext (ready v)⟩

/-- The variable is declared and has been assigned. -/
def Has (scope : Scope) (v : Nat) : Prop := scope.visible v ∧ scope.ready v

theorem Has.declare (has : scope.Has v) (w : Nat) : (scope.declare w).Has v :=
  ⟨.inl has.1, has.2⟩

theorem Has.assign (has : scope.Has v) (w : Nat) : (scope.assign w).Has v :=
  ⟨has.1, .inl has.2⟩

theorem Has.behind (has : scope.Has v) (shape : Shape) : (scope.behind shape).Has v :=
  ⟨.inl has.1, .inl has.2⟩

@[simp] theorem visible_declare : (scope.declare v).visible v := .inr rfl

theorem has_assign (visible : scope.visible v) : (scope.assign v).Has v := ⟨visible, .inr rfl⟩

@[simp] theorem allows_nil : scope.Allows given [] := trivial

theorem Has.allows_read (has : scope.Has v) (more : List Access) :
    scope.Allows given (.read v :: more) ↔ scope.Allows given more := by
  simp only [Allows, has.1, has.2, true_and]

theorem allows_append {path more : List Access} (reads : ∀ access ∈ path, ∃ v, access = .read v) :
    scope.Allows given (path ++ more) ↔
      (∀ v, .read v ∈ path → scope.Has v) ∧ scope.Allows given more := by
  induction path with
  | nil => simp
  | cons access rest ih =>
    obtain ⟨w, rfl⟩ := reads access List.mem_cons_self
    have later := ih fun access member => reads access (List.mem_cons_of_mem _ member)
    simp only [List.cons_append, Allows, later, List.mem_cons, Access.read.injEq, forall_eq_or_imp,
      Has, and_assoc]

theorem allows_reads {vars : List Nat} {more : List Access} :
    scope.Allows given (vars.map .read ++ more) ↔
      (∀ v ∈ vars, scope.Has v) ∧ scope.Allows given more := by
  rw [allows_append (by simp)]
  simp

/-- The variables that come with the source and the shared ones can be used, and the chunk is among
the former. -/
structure Shares (given : Nat → Prop) (frame : Frame) (scope : Scope) : Prop where
  known : ∀ v, given v → scope.Has v
  chunk : given frame.chunk
  cursor : scope.Has frame.cursor
  pending : scope.Has frame.pending
  own : ¬ given frame.cursor ∧ ¬ given frame.pending

namespace Shares

variable {frame : Frame}

theorem mono {other : Scope} (shares : scope.Shares given frame)
    (kept : ∀ v, scope.Has v → other.Has v) : other.Shares given frame :=
  ⟨fun v among => kept v (shares.known v among), shares.chunk, kept _ shares.cursor,
    kept _ shares.pending, shares.own⟩

theorem declare (shares : scope.Shares given frame) (w : Nat) :
    (scope.declare w).Shares given frame :=
  shares.mono fun _ has => has.declare w

theorem assign (shares : scope.Shares given frame) (w : Nat) :
    (scope.assign w).Shares given frame :=
  shares.mono fun _ has => has.assign w

theorem behind (shares : scope.Shares given frame) (shape : Shape) :
    (scope.behind shape).Shares given frame :=
  shares.mono fun _ has => has.behind shape

end Shares

theorem behind_eq {shape : Shape} (opens : ∀ v, ¬ shape.Opens v) (gains : ∀ v, ¬ shape.Gains v) :
    scope.behind shape = scope := by
  ext v
  · simp [behind, opens]
  · simp [behind, gains]

end Scope

namespace Stmt

variable {frame : Frame} {v : Nat}

section Declared

@[simp] theorem declared_declare : ((declare v).shape frame).declared = [v] := rfl

@[simp] theorem declared_assign (value : Value) (retained : Bool) :
    ((assign v value retained).shape frame).declared = [] := by
  rw [shape, Shape.declared, Shape.accesses, Value.accesses_code, List.filterMap_append,
    Access.filterMap_declared?_reads]
  rfl

@[simp] theorem declared_guarded (cond : Cond) (body : Stmt) :
    ((guarded cond body).shape frame).declared = (body.shape frame).declared := by
  rw [shape, Shape.declared_choice, Cond.accesses_code, Access.filterMap_declared?_reads]
  simp

@[simp] theorem declared_onResult (matched failed : Stmt) :
    ((onResult v matched failed).shape frame).declared =
      (matched.shape frame).declared ++ (failed.shape frame).declared := by
  simp [shape, List.filterMap_cons]

@[simp] theorem declared_accept (rule : Nat) (stop : Place) (move : StageMove) :
    ((accept rule stop move).shape frame).declared = [] := by
  cases stop <;> cases move <;> simp [shape, acceptance, Frame.confirmPending, Frame.stageMove,
    Shape.declared, Shape.accesses, Shape.nothing, accesses, accessesAll, Place.code]

@[simp] theorem declared_fail (owner r : Nat) : ((fail owner r).shape frame).declared = [] := by
  simp [shape, code, Frame.confirmPending, Shape.declared, Shape.accesses, accesses, accessesAll]

@[simp] theorem declared_block (items : List Stmt) :
    ((block items).shape frame).declared = (shapeAll frame items).declared := rfl

@[simp] theorem declared_loop (body : Stmt) :
    ((loop body).shape frame).declared = (body.shape frame).declared := rfl

@[simp] theorem declared_leave : (leave.shape frame).declared = [] := rfl

@[simp] theorem declaredAll_nil : (shapeAll frame []).declared = [] := rfl

@[simp] theorem declaredAll_cons (item : Stmt) (rest : List Stmt) :
    (shapeAll frame (item :: rest)).declared =
      (item.shape frame).declared ++ (shapeAll frame rest).declared :=
  Shape.declared_andThen _ _

end Declared

section Gains

attribute [local simp] shape shapeAll Shape.Gains Shape.LeavesWith Shape.nothing

variable {ready : Prop}

@[simp] theorem gains_declare (w : Nat) : ((declare w).shape frame).Gains v ↔ False := by
  simp

@[simp] theorem gains_assign (w : Nat) (value : Value) (retained : Bool) :
    ((assign w value retained).shape frame).Gains v ↔ v = w := by
  simp [Value.accesses_code]

@[simp] theorem gains_guarded (cond : Cond) (body : Stmt) :
    ((guarded cond body).shape frame).Gains v ↔ False := by
  simp

@[simp] theorem gains_onResult (r : Nat) (matched failed : Stmt) :
    ((onResult r matched failed).shape frame).Gains v ↔ False := by
  simp

@[simp] theorem gains_accept (rule : Nat) (stop : Place) (move : StageMove) :
    ((accept rule stop move).shape frame).Gains v ↔ False := by
  simp

@[simp] theorem gains_fail (owner r : Nat) : ((fail owner r).shape frame).Gains v ↔ True := by
  simp

@[simp] theorem gains_loop (body : Stmt) :
    ((loop body).shape frame).Gains v ↔ (body.shape frame).LeavesWith v False := Iff.rfl

@[simp] theorem gains_leave : (leave.shape frame).Gains v ↔ True := Iff.rfl

@[simp] theorem gains_block (items : List Stmt) :
    ((block items).shape frame).Gains v ↔ (shapeAll frame items).Gains v := Iff.rfl

@[simp] theorem gainsAll_nil : (shapeAll frame []).Gains v ↔ False := by
  simp

@[simp] theorem gainsAll_cons (item : Stmt) (rest : List Stmt) :
    (shapeAll frame (item :: rest)).Gains v ↔
      (item.shape frame).Gains v ∨ (shapeAll frame rest).Gains v := Iff.rfl

@[simp] theorem leavesWith_declare (w : Nat) :
    ((declare w).shape frame).LeavesWith v ready ↔ True := Iff.rfl

@[simp] theorem leavesWith_assign (w : Nat) (value : Value) (retained : Bool) :
    ((assign w value retained).shape frame).LeavesWith v ready ↔ True := Iff.rfl

@[simp] theorem leavesWith_guarded (cond : Cond) (body : Stmt) :
    ((guarded cond body).shape frame).LeavesWith v ready ↔
      (body.shape frame).LeavesWith v ready := by
  simp

@[simp] theorem leavesWith_onResult (r : Nat) (matched failed : Stmt) :
    ((onResult r matched failed).shape frame).LeavesWith v ready ↔
      (matched.shape frame).LeavesWith v ready ∧ (failed.shape frame).LeavesWith v ready := by
  simp

@[simp] theorem leavesWith_accept (rule : Nat) (stop : Place) (move : StageMove) :
    ((accept rule stop move).shape frame).LeavesWith v ready ↔ True := by
  simp

@[simp] theorem leavesWith_fail (owner r : Nat) :
    ((fail owner r).shape frame).LeavesWith v ready ↔ True := by
  simp

@[simp] theorem leavesWith_loop (body : Stmt) :
    ((loop body).shape frame).LeavesWith v ready ↔ True := Iff.rfl

@[simp] theorem leavesWith_leave : (leave.shape frame).LeavesWith v ready ↔ ready := Iff.rfl

@[simp] theorem leavesWith_block (items : List Stmt) :
    ((block items).shape frame).LeavesWith v ready ↔ (shapeAll frame items).LeavesWith v ready :=
  Iff.rfl

@[simp] theorem leavesWithAll_nil : (shapeAll frame []).LeavesWith v ready ↔ True := Iff.rfl

@[simp] theorem leavesWithAll_cons (item : Stmt) (rest : List Stmt) :
    (shapeAll frame (item :: rest)).LeavesWith v ready ↔
      (item.shape frame).LeavesWith v ready ∧
        (shapeAll frame rest).LeavesWith v (ready ∨ (item.shape frame).Gains v) := Iff.rfl

end Gains

section Scope

variable {given : Nat → Prop} {scope : Scope}

@[simp] theorem behind_declare (w : Nat) :
    scope.behind ((declare w).shape frame) = scope.declare w := by
  ext v <;> simp [Scope.behind, Scope.declare, shape, Shape.Opens, Shape.Gains]

@[simp] theorem behind_assign (w : Nat) (value : Value) (retained : Bool) :
    scope.behind ((assign w value retained).shape frame) = scope.assign w := by
  ext v <;> simp [Scope.behind, Scope.assign, shape, Shape.Opens, Shape.Gains, Value.accesses_code]

@[simp] theorem behind_guarded (cond : Cond) (body : Stmt) :
    scope.behind ((guarded cond body).shape frame) = scope :=
  Scope.behind_eq (fun _ => id) fun _ => (gains_guarded cond body).mp

@[simp] theorem fits_declare (w : Nat) :
    ((declare w).shape frame).Fits given scope ↔ ¬ given w ∧ ¬ scope.ready w := by
  simp [shape, Shape.Fits, Scope.Allows]

@[simp] theorem fits_assign (w : Nat) (value : Value) (retained : Bool) :
    ((assign w value retained).shape frame).Fits given scope ↔
      (∀ v ∈ reads (value.code frame.chunk), scope.Has v) ∧ ¬ given w ∧ scope.visible w := by
  rw [shape, Shape.Fits, Value.accesses_code, Scope.allows_reads]
  simp [Scope.Allows]

@[simp] theorem fits_guarded (cond : Cond) (body : Stmt) :
    ((guarded cond body).shape frame).Fits given scope ↔
      (∀ v ∈ reads (cond.code frame.chunk), scope.Has v) ∧ (body.shape frame).Fits given scope := by
  rw [shape, Shape.Fits, Cond.accesses_code, ← List.append_nil (List.map _ _), Scope.allows_reads]
  simp [Shape.nothing, Shape.Fits]

@[simp] theorem fits_onResult (r : Nat) (matched failed : Stmt) :
    ((onResult r matched failed).shape frame).Fits given scope ↔
      scope.Has r ∧ (matched.shape frame).Fits given scope ∧
        (failed.shape frame).Fits given scope := by
  simp only [shape, Shape.Fits, Shape.nothing, Scope.Allows, Scope.Has, and_true]
  constructor
  · rintro ⟨has, first, -, second⟩
    exact ⟨has, first, second⟩
  · rintro ⟨has, first, second⟩
    exact ⟨has, first, has, second⟩

@[simp] theorem fits_block (items : List Stmt) :
    ((block items).shape frame).Fits given scope ↔ (shapeAll frame items).Fits given scope :=
  Iff.rfl

@[simp] theorem fits_loop (body : Stmt) :
    ((loop body).shape frame).Fits given scope ↔ (body.shape frame).Fits given scope := Iff.rfl

@[simp] theorem fits_leave : (leave.shape frame).Fits given scope ↔ True := Iff.rfl

@[simp] theorem fitsAll_nil : (shapeAll frame []).Fits given scope ↔ True := Iff.rfl

@[simp] theorem fitsAll_cons (item : Stmt) (rest : List Stmt) :
    (shapeAll frame (item :: rest)).Fits given scope ↔
      (item.shape frame).Fits given scope ∧
        (shapeAll frame rest).Fits given (scope.behind (item.shape frame)) := Iff.rfl

theorem fits_accept (shares : scope.Shares given frame) (rule : Nat) {stop : Nat}
    (has : scope.Has stop) (move : StageMove) :
    ((accept rule (.var stop) move).shape frame).Fits given scope := by
  have chunk := shares.known _ shares.chunk
  have ends : scope.Allows given
      [.assign frame.pending, .read stop, .assign frame.cursor] := by
    refine ⟨shares.own.2, shares.pending.1, has.1, .inl has.2, ?_⟩
    exact ⟨shares.own.1, shares.cursor.1, trivial⟩
  have accepts : scope.Allows given (acceptance frame rule (.var stop) move).accesses := by
    cases move <;>
    simpa [acceptance, Frame.confirmPending, Frame.stageMove, Place.code, accesses, accessesAll,
      has.allows_read, chunk.allows_read, shares.cursor.allows_read, shares.pending.allows_read]
      using ends
  have test : scope.Allows given [.read stop, .read frame.cursor] := by
    simp [has.allows_read, shares.cursor.allows_read]
  exact ⟨test, ⟨accepts, trivial⟩, trivial⟩

theorem fits_fail (shares : scope.Shares given frame) (owner : Nat) {r : Nat} (has : scope.Has r) :
    ((fail owner r).shape frame).Fits given scope := by
  refine ⟨?_, trivial⟩
  simp [code, Frame.confirmPending, accesses, accessesAll, Shape.Fits, has.allows_read,
    shares.cursor.allows_read, shares.pending.allows_read]

theorem fits_dispatch {arms : List Stmt} {otherwise : Stmt} (stages : List String)
    (each : ∀ arm ∈ arms, (arm.shape frame).Fits given scope)
    (last : (otherwise.shape frame).Fits given scope) :
    ((dispatch stages arms otherwise).shape frame).Fits given scope := by
  change (shapeArms frame stages (otherwise.shape frame) arms).Fits given scope
  induction arms generalizing stages with
  | nil => exact last
  | cons arm rest ih =>
    cases stages with
    | nil => exact last
    | cons stage stages =>
      exact ⟨trivial, each arm (by simp),
        ih stages fun other member => each other (by simp [member])⟩

end Scope

/-- Arms without a stage are not in the source. -/
theorem declared_dispatch (stages : List String) (arms : List Stmt) (otherwise : Stmt) :
    ((dispatch stages arms otherwise).shape frame).declared.Sublist
      ((shapeAll frame arms).declared ++ (otherwise.shape frame).declared) := by
  change (shapeArms frame stages (otherwise.shape frame) arms).declared.Sublist _
  induction arms generalizing stages with
  | nil => exact List.Sublist.refl _
  | cons arm rest ih =>
    cases stages with
    | nil => exact List.sublist_append_right _ _
    | cons stage stages =>
      rw [shapeArms, Shape.declared_choice, declaredAll_cons, List.append_assoc]
      exact (ih stages).append_left _

end Stmt

end StagedLexer
