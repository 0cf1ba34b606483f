import StagedLexer.Proofs.GeneratedScope
import StagedLexer.Proofs.StatementShape

/-! The control flow of the statements of readers and tries. Their own variables are given out on
the way and declared once, none of them is bound to a reader, and all accesses are in order where
the position in front of them is known. -/
namespace StagedLexer

variable {Ctx : Type}

namespace Assembler

/-- The variables `names` are given out between the two assemblers, each once, and they are not
bound to readers. -/
structure Declares (a b : Assembler Ctx) (names : List Nat) : Prop where
  fresh : a.Fresh b names
  grows : a.Grows b
  unbound : ∀ {T : Nat → Prop}, Marks T a b names → a.Unbound T → b.Unbound T

variable {a b c : Assembler Ctx} {names more : List Nat}

theorem exists_mem_bind (asm : Assembler Ctx) (reader : Reader Ctx) :
    ∃ other, ((asm.bind reader).1, other) ∈ (asm.bind reader).2.bindings := by
  unfold bind
  split
  · next binding found => exact ⟨binding.2, List.mem_of_find?_eq_some found⟩
  · exact ⟨reader, by simp⟩

namespace Declares

theorem refl (asm : Assembler Ctx) : asm.Declares asm [] :=
  ⟨⟨Nat.le_refl _, by simp, by simp⟩, .refl asm, fun _ unbound => unbound⟩

theorem append (first : a.Declares b names) (second : b.Declares c more) :
    a.Declares c (names ++ more) := by
  refine ⟨first.fresh.append second.fresh, first.grows.trans second.grows, fun marks unbound => ?_⟩
  obtain ⟨firstMarks, secondMarks⟩ := Marks.split first.fresh second.fresh marks
  exact second.unbound secondMarks (first.unbound firstMarks unbound)

theorem perm (declares : a.Declares b names) (perm : names.Perm more) : a.Declares b more :=
  ⟨declares.fresh.perm perm, declares.grows, fun marks => declares.unbound (marks.perm perm.symm)⟩

theorem var (asm : Assembler Ctx) : asm.Declares asm.var.2 [asm.nextVar] :=
  ⟨fresh_temp asm, ⟨Nat.le_succ _, fun _ h => h⟩, fun _ unbound => unbound⟩

theorem varIf (needed : Bool) (asm : Assembler Ctx) :
    asm.Declares (Assembly.varIf needed asm).2 (Assembly.varIf needed asm).1.toList := by
  cases needed with
  | false => exact refl asm
  | true => exact var asm

theorem bind (asm : Assembler Ctx) (reader : Reader Ctx) :
    asm.Declares (asm.bind reader).2 [] := by
  refine ⟨fresh_bind asm reader, ?_, fun marks unbound => (unbound.bind reader marks).2⟩
  unfold Assembler.bind
  split
  · exact .refl asm
  · exact ⟨Nat.le_succ _, List.subset_append_left _ _⟩

theorem not_mem_of_lt (declares : a.Declares b names) {v : Nat} (below : v < a.nextVar) :
    v ∉ names :=
  fun member => Nat.not_lt.mpr (declares.fresh.range v member).1 below

end Declares

end Assembler

open Assembler Code

/-- Where statements may stand that declare the variables `new` and begin at the position in
`place`. -/
structure Scope.Hosts (given : Nat → Prop) (frame : Frame) (place : Nat) (new : List Nat)
    (scope : Scope) : Prop where
  shares : scope.Shares given frame
  place : scope.Has place
  own : ∀ v ∈ new, ¬ given v ∧ ¬ scope.ready v

namespace Scope.Hosts

variable {given : Nat → Prop} {frame : Frame} {place : Nat} {names more : List Nat} {scope : Scope}

theorem of_subset (hosts : scope.Hosts given frame place names) (inside : more ⊆ names) :
    scope.Hosts given frame place more :=
  ⟨hosts.shares, hosts.place, fun v member => hosts.own v (inside member)⟩

theorem behind (hosts : scope.Hosts given frame place names) {shape : Shape}
    (apart : ∀ v, shape.Gains v → v ∉ names) :
    (scope.behind shape).Hosts given frame place names := by
  refine ⟨hosts.shares.behind shape, hosts.place.behind shape, fun v member => ?_⟩
  refine ⟨(hosts.own v member).1, fun known => ?_⟩
  exact known.elim (hosts.own v member).2 fun gained => apart v gained member

theorem declare (hosts : scope.Hosts given frame place names) (w : Nat) :
    (scope.declare w).Hosts given frame place names :=
  ⟨hosts.shares.declare w, hosts.place.declare w, hosts.own⟩

theorem assign (hosts : scope.Hosts given frame place names) {w : Nat} (apart : w ∉ names) :
    (scope.assign w).Hosts given frame place names := by
  refine ⟨hosts.shares.assign w, hosts.place.assign w, fun v member => ?_⟩
  refine ⟨(hosts.own v member).1, fun known => known.elim (hosts.own v member).2 ?_⟩
  rintro rfl
  exact apart member

/-- Behind the assignment of a new variable, which is the place from then on. -/
theorem enter (hosts : scope.Hosts given frame place names) {w : Nat} (visible : scope.visible w)
    (apart : w ∉ names) : (scope.assign w).Hosts given frame w names :=
  ⟨hosts.shares.assign w, Scope.has_assign visible, (hosts.assign apart).own⟩

end Scope.Hosts

/-- The statement is made between the two assemblers. It puts the result of reading at `place` into
`r`, and its accesses are in order. -/
structure Stmt.Laid (frame : Frame) (a b : Assembler Ctx) (place r : Nat) (stmt : Stmt) : Prop where
  declares : a.Declares b (stmt.shape frame).declared
  result : (stmt.shape frame).Gains r
  only : ∀ v, (stmt.shape frame).Gains v → v = r ∨ v ∈ (stmt.shape frame).declared
  stays : ∀ v ready, (stmt.shape frame).LeavesWith v ready
  fits : ∀ {given : Nat → Prop} {scope : Scope}, (∀ binding ∈ b.bindings, given binding.1) →
    scope.Hosts given frame place (stmt.shape frame).declared → r < a.nextVar → ¬ given r →
      scope.visible r → (stmt.shape frame).Fits given scope

namespace Stmt

variable {frame : Frame} {a b c : Assembler Ctx} {place r : Nat}

theorem Laid.below {stmt : Stmt} (laid : Laid frame a b place r stmt) (below : r < a.nextVar)
    {v : Nat} (gains : (stmt.shape frame).Gains v) : v < b.nextVar := by
  rcases laid.only v gains with rfl | member
  · exact Nat.lt_of_lt_of_le below laid.declares.grows.vars
  · exact (laid.declares.fresh.range v member).2

private theorem laid_assign {value : Value} (declares : a.Declares b [])
    (known : ∀ {given : Nat → Prop} {scope : Scope}, (∀ binding ∈ b.bindings, given binding.1) →
      scope.Shares given frame → scope.Has place →
        ∀ v ∈ reads (value.code frame.chunk), scope.Has v) :
    Laid frame a b place r (.assign r value true) := by
  refine ⟨by rwa [declared_assign], by simp, by simp, by simp, ?_⟩
  intro given scope bound hosts _ plain visible
  rw [fits_assign]
  exact ⟨known bound hosts.shares hosts.place, plain, visible⟩

private theorem Laid.position (asm : Assembler Ctx) (place r : Nat) :
    Laid frame asm asm place r (.assign r (.position (.var place)) true) :=
  laid_assign (.refl asm) fun _ _ has => by simpa using has

private theorem Laid.missing (asm : Assembler Ctx) (place r : Nat) :
    Laid frame asm asm place r (.assign r .noMatch true) :=
  laid_assign (.refl asm) fun _ _ _ => by simp

private theorem Leaf.value_laid (asm : Assembler Ctx) (reader : Reader Ctx) (place r : Nat)
    (l : Leaf Ctx) : Laid frame asm (l.value reader (.var place) asm).2 place r
      (.assign r (l.value reader (.var place) asm).1 true) := by
  have probes (test : Probe) :
      Laid frame asm asm place r (.assign r (.probe test (.var place)) true) := by
    refine laid_assign (.refl asm) fun _ shares has v member => ?_
    rcases Value.mem_reads_probe.mp member with rfl | here
    · exact shares.known _ shares.chunk
    · rw [Place.reads_var, List.mem_singleton] at here
      exact here ▸ has
  cases l with
  | regex | custom =>
    refine laid_assign (.bind asm reader) fun bound shares has => ?_
    obtain ⟨other, member⟩ := asm.exists_mem_bind reader
    change ∀ v ∈ reads ((Value.call (asm.bind reader).1 (.var place)).code frame.chunk), _
    rw [Value.reads_call, Place.reads_var]
    simpa using And.intro (shares.known _ (bound _ member))
      (And.intro (shares.known _ shares.chunk) has)
  | never => exact .missing asm place r
  | always => exact .position asm place r
  | text | textAnyCase | oneOf | atEnd | skip => exact probes _

private theorem Laid.andThen {head tail : Stmt} (first : Laid frame a b place r head)
    (second : Laid frame b.var.2 c b.nextVar r tail) :
    Laid frame a c place r (.block [head, .guarded (.isMatch r) (.block [.declare b.nextVar,
      .assign b.nextVar (.asPlace r) false, tail])]) := by
  have names : (shape frame (.block [head, .guarded (.isMatch r) (.block [.declare b.nextVar,
      .assign b.nextVar (.asPlace r) false, tail])])).declared =
        (head.shape frame).declared ++ ([b.nextVar] ++ (tail.shape frame).declared) := by
    simp
  have rest := (Declares.var b).append second.declares
  have whole := first.declares.append rest
  refine ⟨by rwa [names], by simp [first.result], fun v gains => ?_, fun v ready => ?_, ?_⟩
  · rw [names]
    simp only [gains_block, gainsAll_cons, gains_guarded, gainsAll_nil, or_false] at gains
    exact (first.only v gains).imp_right (List.mem_append_left _)
  · simp [first.stays, second.stays]
  · intro given scope bound hosts below plain visible
    rw [names] at hosts
    have apart : ∀ v, (head.shape frame).Gains v → v ∉ [b.nextVar] ++ (tail.shape frame).declared :=
      fun v gains member => Nat.not_lt.mpr (rest.fresh.range v member).1 (first.below below gains)
    have later := (hosts.of_subset (List.subset_append_right _ _)).behind apart
    have next := later.own b.nextVar (by simp)
    have has : (scope.behind (head.shape frame)).Has r := ⟨.inl visible, .inr first.result⟩
    have inner := ((later.of_subset (List.subset_append_right _ _)).declare b.nextVar).enter
      (.inr rfl) (Declares.not_mem_of_lt second.declares (Nat.lt_succ_self _))
    -- The second reading starts from the result of the first one, which the guard has shown to be
    -- set.
    have headFits := first.fits (fun binding member => bound binding (rest.grows.bindings member))
      (hosts.of_subset (List.subset_append_left _ _)) below plain visible
    have tailFits := second.fits bound inner
      (Nat.lt_succ_of_lt (Nat.lt_of_lt_of_le below first.declares.grows.vars)) plain
      (.inl has.1)
    simp [headFits, tailFits, has, next, has.declare]

private theorem Laid.guarded {head tail : Stmt} {cond : Cond}
    (test : reads (cond.code frame.chunk) = [r]) (first : Laid frame a b place r head)
    (second : Laid frame b c place r tail) :
    Laid frame a c place r (.block [head, .guarded cond tail]) := by
  have names : (shape frame (.block [head, .guarded cond tail])).declared =
      (head.shape frame).declared ++ (tail.shape frame).declared := by
    simp
  refine ⟨names ▸ first.declares.append second.declares, by simp [first.result], fun v gains => ?_,
    fun v ready => ?_, ?_⟩
  · rw [names]
    simp only [gains_block, gainsAll_cons, gains_guarded, gainsAll_nil, or_false] at gains
    exact (first.only v gains).imp_right (List.mem_append_left _)
  · simp [first.stays, second.stays]
  · intro given scope bound hosts below plain visible
    rw [names] at hosts
    have apart : ∀ v, (head.shape frame).Gains v → v ∉ (tail.shape frame).declared :=
      fun v gains => second.declares.not_mem_of_lt (first.below below gains)
    have later := (hosts.of_subset (List.subset_append_right _ _)).behind apart
    have has : (scope.behind (head.shape frame)).Has r := ⟨.inl visible, .inr first.result⟩
    have headFits := first.fits
      (fun binding member => bound binding (second.declares.grows.bindings member))
      (hosts.of_subset (List.subset_append_left _ _)) below plain visible
    have tailFits := second.fits bound later
      (Nat.lt_of_lt_of_le below first.declares.grows.vars) plain has.1
    simp [test, headFits, tailFits, has]

section Loops

variable {pos inner : Nat} {counter : Option Nat} {body : Stmt}

private theorem Laid.loop (counter : Option Nat) {round : Stmt}
    (declares : a.Declares b (a.nextVar :: (counter.toList ++ (round.shape frame).declared)))
    (result : (round.shape frame).LeavesWith r False)
    (only : ∀ v, (round.shape frame).LeavesWith v False →
      v = r ∨ v ∈ (round.shape frame).declared)
    (fits : ∀ {given : Nat → Prop} {scope : Scope}, (∀ binding ∈ b.bindings, given binding.1) →
      scope.Hosts given frame a.nextVar (round.shape frame).declared → ¬ given a.nextVar →
        (∀ c ∈ counter, scope.Has c ∧ ¬ given c) → r < a.nextVar → ¬ given r → scope.visible r →
          (round.shape frame).Fits given scope) :
    Laid frame a b place r (.block ([Stmt.declare a.nextVar,
      Stmt.assign a.nextVar (.place (.var place)) true] ++ countFromZero counter ++
        [Stmt.loop round])) := by
  have names : (shape frame (.block ([Stmt.declare a.nextVar,
      Stmt.assign a.nextVar (.place (.var place)) true] ++ countFromZero counter ++
        [Stmt.loop round]))).declared =
          a.nextVar :: (counter.toList ++ (round.shape frame).declared) := by
    cases counter <;> simp [countFromZero]
  refine ⟨by rwa [names], ?_, fun v gains => ?_, fun v ready => ?_, ?_⟩
  · cases counter <;> simp [countFromZero, result]
  · rw [names, List.mem_cons, List.mem_append]
    cases counter with
    | none =>
      have gains : v = a.nextVar ∨ (round.shape frame).LeavesWith v False := by
        simpa [countFromZero] using gains
      rcases gains with rfl | left
      · exact .inr (.inl rfl)
      · exact (only v left).imp_right fun member => .inr (.inr member)
    | some c =>
      have gains : v = a.nextVar ∨ v = c ∨ (round.shape frame).LeavesWith v False := by
        simpa [countFromZero] using gains
      rcases gains with rfl | rfl | left
      · exact .inr (.inl rfl)
      · exact .inr (.inr (.inl (by simp)))
      · exact (only v left).imp_right fun member => .inr (.inr member)
  · cases counter <;> simp [countFromZero]
  · intro given scope bound hosts below plain visible
    rw [names] at hosts
    obtain ⟨apart, distinct⟩ := List.nodup_cons.mp declares.fresh.distinct
    obtain ⟨plainPos, new⟩ := hosts.own a.nextVar (by simp)
    have later := ((hosts.of_subset (List.subset_cons_self _ _)).declare a.nextVar).enter
      Scope.visible_declare apart
    have start := hosts.place.declare a.nextVar
    cases counter with
    | none =>
      have inside := fits bound later plainPos (by simp) below plain (.inl visible)
      simp [countFromZero, start, plainPos, new, inside]
    | some c =>
      obtain ⟨plainCounter, unset⟩ := later.own c (by simp)
      have apart' := (List.nodup_cons.mp distinct).1
      have inside := fits bound
        (((later.of_subset (List.subset_cons_self _ _)).declare c).assign apart') plainPos
        (by simp [Scope.has_assign, plainCounter]) below plain (.inl (.inl visible))
      simp [countFromZero, start, plainPos, new, plainCounter, unset,
        inside]

private theorem declared_round (min : Nat) (max : Option Nat) :
    ((round r pos inner counter min max body).shape frame).declared =
      inner :: (body.shape frame).declared := by
  cases counter <;> cases max <;> simp [round, limit, countUp, assignAndLeave]

private theorem leavesWith_round (stays : ∀ v ready, (body.shape frame).LeavesWith v ready)
    (min : Nat) (max : Option Nat) :
    ((round r pos inner counter min max body).shape frame).LeavesWith r False := by
  cases counter <;> cases max <;> simp [round, limit, countUp, assignAndLeave, stays]

private theorem gains_of_leavesWith_round {min : Nat} {max : Option Nat} {v : Nat}
    (leaves : ((round r pos inner counter min max body).shape frame).LeavesWith v False) :
    (body.shape frame).Gains v ∨ v = r := by
  have parts : (body.shape frame).LeavesWith v False ∧ ((body.shape frame).Gains v ∨ v = r) := by
    cases counter with
    | none => simpa [round, limit, countUp, assignAndLeave] using leaves
    | some c =>
      cases max with
      | none => simpa [round, limit, countUp, assignAndLeave] using leaves
      | some max =>
        have all : v = r ∧ (body.shape frame).LeavesWith v False ∧
            ((body.shape frame).Gains v ∨ v = r) := by
          simpa [round, limit, countUp, assignAndLeave] using leaves
        exact all.2
  exact parts.2

private theorem known_settled {scope : Scope} (start : scope.Has pos)
    (counts : ∀ c ∈ counter, scope.Has c) (min : Nat) :
    ∀ v ∈ reads ((settled pos counter min).code frame.chunk), scope.Has v := by
  cases counter with
  | none => simpa [settled] using start
  | some c =>
    rw [settled]
    split
    · simpa using ⟨counts c rfl, start⟩
    · simpa using start

private theorem fits_assignAndLeave {given : Nat → Prop} {scope : Scope} {value : Value} :
    ((assignAndLeave r value).shape frame).Fits given scope ↔
      (∀ v ∈ reads (value.code frame.chunk), scope.Has v) ∧ ¬ given r ∧ scope.visible r := by
  simp [assignAndLeave]

private theorem fits_round {given : Nat → Prop} {scope : Scope} (min : Nat) (max : Option Nat)
    (hosts : scope.Hosts given frame pos (inner :: (body.shape frame).declared))
    (plainPos : ¬ given pos) (counts : ∀ c ∈ counter, scope.Has c ∧ ¬ given c) (plain : ¬ given r)
    (visible : scope.visible r) (result : (body.shape frame).Gains inner)
    (inside : (body.shape frame).Fits given (scope.declare inner)) :
    ((round r pos inner counter min max body).shape frame).Fits given scope := by
  have start := hosts.place
  have own := hosts.own inner (by simp)
  have behind {v : Nat} (has : scope.Has v) :
      ((scope.declare inner).behind (body.shape frame)).Has v :=
    (has.declare inner).behind _
  have has : ((scope.declare inner).behind (body.shape frame)).Has inner :=
    ⟨.inl Scope.visible_declare, .inr result⟩
  have visible' : ((scope.declare inner).behind (body.shape frame)).visible r := .inl (.inl visible)
  have ends : ∀ v ∈ reads ((settled pos counter min).code frame.chunk),
      ((scope.declare inner).behind (body.shape frame)).Has v :=
    known_settled (behind start) (fun c member => behind (counts c member).1) min
  cases counter with
  | none =>
    simpa [round, limit, countUp, fits_assignAndLeave, inside, plain, plainPos, own, has,
      behind start, visible', (behind start).1] using ends
  | some c =>
    obtain ⟨count, plainCount⟩ := counts c rfl
    have count' := (behind count).assign pos
    cases max <;>
    simpa [round, limit, countUp, fits_assignAndLeave, inside, plain, plainPos, start, own, has,
      behind start, visible, visible', (behind start).1, count, plainCount, count', count'.1]
      using ends

private theorem Laid.repetition (needed : Bool) (min : Nat) (max : Option Nat)
    (inside : Laid frame (Assembly.varIf needed a.var.2.var.2).2 b a.nextVar (a.nextVar + 1) body) :
    Laid frame a b place r (.repetition place r a.nextVar (a.nextVar + 1)
      (Assembly.varIf needed a.var.2.var.2).1 min max body) := by
  have front := ((Declares.var a).append (Declares.var _)).append (Declares.varIf needed _)
  have past : a.nextVar + 2 ≤ (Assembly.varIf needed a.var.2.var.2).2.nextVar :=
    (Declares.varIf needed a.var.2.var.2).grows.vars
  apply Laid.loop (Assembly.varIf needed a.var.2.var.2).1
  · rw [declared_round]
    apply (front.append inside.declares).perm
    exact .cons _ (List.perm_middle (a := a.nextVar + 1)).symm
  · exact leavesWith_round inside.stays min max
  · intro v leaves
    rw [declared_round, List.mem_cons]
    rcases gains_of_leavesWith_round leaves with gained | rfl
    · exact .inr (inside.only v gained)
    · exact .inl rfl
  · intro given scope bound hosts plainPos counts below plain visible
    rw [declared_round] at hosts
    obtain ⟨plainInner, -⟩ := hosts.own _ List.mem_cons_self
    have later := (hosts.of_subset (List.subset_cons_self _ _)).declare (a.nextVar + 1)
    exact fits_round min max hosts plainPos counts plain visible inside.result
      (inside.fits bound later past plainInner Scope.visible_declare)

private theorem declared_probeNext (inclusive openEnd : Bool) :
    ((probeNext r pos inner inclusive openEnd body).shape frame).declared =
      inner :: (body.shape frame).declared := by
  simp [probeNext, assignAndLeave]

private theorem leavesWith_probeNext (stays : ∀ v ready, (body.shape frame).LeavesWith v ready)
    (inclusive openEnd : Bool) :
    ((probeNext r pos inner inclusive openEnd body).shape frame).LeavesWith r False := by
  simp [probeNext, assignAndLeave, stays]

private theorem gains_of_leavesWith_probeNext {inclusive openEnd : Bool} {v : Nat}
    (leaves : ((probeNext r pos inner inclusive openEnd body).shape frame).LeavesWith v False) :
    (body.shape frame).Gains v ∨ v = r := by
  have parts : (body.shape frame).LeavesWith v False ∧ ((body.shape frame).Gains v ∨ v = r) := by
    simpa [probeNext, assignAndLeave] using leaves
  exact parts.2

private theorem fits_probeNext {given : Nat → Prop} {scope : Scope} (inclusive openEnd : Bool)
    (hosts : scope.Hosts given frame pos (inner :: (body.shape frame).declared))
    (plainPos : ¬ given pos) (plain : ¬ given r)
    (visible : scope.visible r) (result : (body.shape frame).Gains inner)
    (inside : (body.shape frame).Fits given (scope.declare inner)) :
    ((probeNext r pos inner inclusive openEnd body).shape frame).Fits given scope := by
  have own := hosts.own inner (by simp)
  have behind {v : Nat} (has : scope.Has v) :
      ((scope.declare inner).behind (body.shape frame)).Has v :=
    (has.declare inner).behind _
  have start := behind hosts.place
  have chunk := behind (hosts.shares.known _ hosts.shares.chunk)
  have has : ((scope.declare inner).behind (body.shape frame)).Has inner :=
    ⟨.inl Scope.visible_declare, .inr result⟩
  have visible' : ((scope.declare inner).behind (body.shape frame)).visible r := .inl (.inl visible)
  cases inclusive <;> cases openEnd <;>
    simp [probeNext, fits_assignAndLeave, inside, plain, plainPos, own, has, start, start.1, chunk,
      visible']

private theorem Laid.seek (inclusive openEnd : Bool)
    (inside : Laid frame a.var.2.var.2 b a.nextVar (a.nextVar + 1) body) :
    Laid frame a b place r (.seek place r a.nextVar (a.nextVar + 1) inclusive openEnd body) := by
  have front := (Declares.var a).append (Declares.var _)
  apply Laid.loop none
  · rw [declared_probeNext]
    exact front.append inside.declares
  · exact leavesWith_probeNext inside.stays inclusive openEnd
  · intro v leaves
    rw [declared_probeNext, List.mem_cons]
    rcases gains_of_leavesWith_probeNext leaves with gained | rfl
    · exact .inr (inside.only v gained)
    · exact .inl rfl
  · intro given scope bound hosts plainPos counts below plain visible
    rw [declared_probeNext] at hosts
    obtain ⟨plainInner, -⟩ := hosts.own _ List.mem_cons_self
    have later := (hosts.of_subset (List.subset_cons_self _ _)).declare (a.nextVar + 1)
    exact fits_probeNext inclusive openEnd hosts plainPos plain visible inside.result
      (inside.fits bound later (Nat.lt_succ_self _) plainInner Scope.visible_declare)

end Loops

private theorem ofSequence_laid_of {items : List (Reader Ctx)}
    (each : ∀ item ∈ items, ∀ asm place r,
      Laid frame asm (ofReader item place r asm).2 place r (ofReader item place r asm).1)
    (asm : Assembler Ctx) (place r : Nat) :
    Laid frame asm (ofSequence items place r asm).2 place r (ofSequence items place r asm).1 := by
  induction items generalizing asm place with
  | nil => exact .position asm place r
  | cons item rest ih =>
    cases rest with
    | nil => exact each item (by simp) asm place r
    | cons second rest =>
      exact (each item (by simp) asm place r).andThen
        (ih (fun i member => each i (List.mem_cons_of_mem _ member)) _ _)

private theorem ofAlternation_laid_of {items : List (Reader Ctx)}
    (each : ∀ item ∈ items, ∀ asm place r,
      Laid frame asm (ofReader item place r asm).2 place r (ofReader item place r asm).1)
    (asm : Assembler Ctx) (place r : Nat) :
    Laid frame asm (ofAlternation items place r asm).2 place r
      (ofAlternation items place r asm).1 := by
  induction items generalizing asm with
  | nil => exact .missing asm place r
  | cons item rest ih =>
    cases rest with
    | nil => exact each item (by simp) asm place r
    | cons second rest =>
      exact (each item (by simp) asm place r).guarded Cond.reads_noMatch
        (ih (fun i member => each i (List.mem_cons_of_mem _ member)) _)

theorem ofReader_laid (reader : Reader Ctx) (asm : Assembler Ctx) (place r : Nat) :
    Laid frame asm (ofReader reader place r asm).2 place r (ofReader reader place r asm).1 := by
  induction reader generalizing asm place r with
  | leaf id l => exact Leaf.value_laid asm (.leaf id l) place r l
  | sequence id items ih => exact ofSequence_laid_of ih asm place r
  | alternation id items ih => exact ofAlternation_laid_of ih asm place r
  | optional id inner ih =>
    exact (ih asm place r).guarded Cond.reads_noMatch (.position _ place r)
  | lookahead id inner ih =>
    exact (ih asm place r).guarded Cond.reads_isMatch (.position _ place r)
  | repetition id inner min max ih => exact .repetition _ min max (ih _ _ _)
  | seek id inner inclusive openEnd ih => exact .seek inclusive openEnd (ih _ _ _)

theorem ofSequence_laid (items : List (Reader Ctx)) (asm : Assembler Ctx) (place r : Nat) :
    Laid frame asm (ofSequence items place r asm).2 place r (ofSequence items place r asm).1 :=
  ofSequence_laid_of (fun item _ => ofReader_laid item) asm place r

/-- The statements are made between the two assemblers. The accesses of each one are in order, and
it assigns variables of its own. -/
structure LaidAll (frame : Frame) (a b : Assembler Ctx) (place : Nat) (items : List Stmt) :
    Prop where
  declares : a.Declares b (shapeAll frame items).declared
  only : ∀ item ∈ items, ∀ v, (item.shape frame).Gains v → v ∈ (item.shape frame).declared
  fits : ∀ {given : Nat → Prop} {scope : Scope}, (∀ binding ∈ b.bindings, given binding.1) →
    scope.Hosts given frame place (shapeAll frame items).declared →
      ∀ item ∈ items, (item.shape frame).Fits given scope

theorem gainsAll_mem {items : List Stmt} {v : Nat}
    (only : ∀ item ∈ items, ∀ v, (item.shape frame).Gains v → v ∈ (item.shape frame).declared)
    (gains : (shapeAll frame items).Gains v) : v ∈ (shapeAll frame items).declared := by
  induction items with
  | nil => simp at gains
  | cons item rest ih =>
    rw [declaredAll_cons, List.mem_append]
    rcases gains with first | behind
    · exact .inl (only item (by simp) v first)
    · exact .inr (ih (fun i member => only i (by simp [member])) behind)

/-- Statements that assign variables of their own can stand behind each other. -/
theorem fitsAll_of_each {given : Nat → Prop} {scope : Scope} {items : List Stmt}
    (each : ∀ item ∈ items, (item.shape frame).Fits given scope)
    (only : ∀ item ∈ items, ∀ v, (item.shape frame).Gains v → v ∈ (item.shape frame).declared)
    (distinct : (shapeAll frame items).declared.Nodup) :
    (shapeAll frame items).Fits given scope := by
  induction items with
  | nil => trivial
  | cons item rest ih =>
    rw [declaredAll_cons, List.nodup_append] at distinct
    have behind := ih (fun i member => each i (by simp [member]))
      (fun i member => only i (by simp [member])) distinct.2.1
    refine ⟨each item (by simp), behind.transfer ⟨fun v _ => .inl, fun v _ => .inl, ?_⟩⟩
    intro v new known
    refine known.resolve_right fun gained => ?_
    exact distinct.2.2 v (only item (by simp) v gained) v (Shape.mem_declared.mpr new) rfl

theorem LaidAll.nil (asm : Assembler Ctx) (place : Nat) : LaidAll frame asm asm place [] :=
  ⟨.refl asm, by simp, by simp⟩

theorem LaidAll.cons {item : Stmt} {rest : List Stmt} (first : LaidAll frame a b place [item])
    (others : LaidAll frame b c place rest) : LaidAll frame a c place (item :: rest) := by
  have alone : (shapeAll frame [item]).declared = (item.shape frame).declared := by simp
  refine ⟨?_, ?_, fun bound hosts => ?_⟩
  · rw [declaredAll_cons, ← alone]
    exact first.declares.append others.declares
  · simpa using ⟨first.only item (by simp), others.only⟩
  · rw [declaredAll_cons, ← alone] at hosts
    have here := first.fits
      (fun binding member => bound binding (others.declares.grows.bindings member))
      (hosts.of_subset (List.subset_append_left _ _))
    have there := others.fits bound (hosts.of_subset (List.subset_append_right _ _))
    simpa using ⟨here item (by simp), there⟩

theorem LaidAll.block {items : List Stmt} (laid : LaidAll frame a b place items) :
    LaidAll frame a b place [.block items] := by
  have names : (shapeAll frame [.block items]).declared = (shapeAll frame items).declared := by simp
  refine ⟨names ▸ laid.declares, ?_, fun bound hosts => ?_⟩
  · simpa using fun v => gainsAll_mem laid.only
  · have each := laid.fits bound (names ▸ hosts)
    simpa using fitsAll_of_each each laid.only laid.declares.fresh.distinct

private theorem LaidAll.branch (rules : Array (Rule Ctx)) (rule : Option Nat) (owner : Nat)
    {body : Stmt} {below : List Stmt}
    (children : LaidAll frame a.var.2.var.2 b (a.nextVar + 1) below)
    (readers : Laid frame b c place a.nextVar body) :
    LaidAll frame a c place [Branch.trying rules owner rule a.nextVar body below] := by
  have names : (shapeAll frame
      [Branch.trying rules owner rule a.nextVar body below]).declared =
        a.nextVar :: ((body.shape frame).declared ++
          ((a.nextVar + 1) :: (shapeAll frame below).declared)) := by
    cases rule <;> simp [Branch.completion]
  -- The order of the variables is that of the assembly: the children come before the readers.
  have order : ([a.nextVar] ++ [a.nextVar + 1] ++
      ((shapeAll frame below).declared ++ (body.shape frame).declared)).Perm
      (a.nextVar :: ((body.shape frame).declared ++
        ((a.nextVar + 1) :: (shapeAll frame below).declared))) := by
    have swap := @List.perm_append_comm _ ((a.nextVar + 1) :: (shapeAll frame below).declared)
      (body.shape frame).declared
    exact swap.cons a.nextVar
  have declares := (((Declares.var a).append (Declares.var a.var.2)).append
    (children.declares.append readers.declares)).perm order
  refine ⟨by rwa [names], ?_, fun {given scope} bound hosts => ?_⟩
  · simp only [List.mem_singleton, forall_eq]
    intro v gains
    have gained : (body.shape frame).Gains v := by simpa using gains
    rcases readers.only v gained with rfl | member
    · simp
    · simp [member]
  · rw [names] at hosts
    obtain ⟨apartResult, distinct⟩ := List.nodup_cons.mp declares.fresh.distinct
    obtain ⟨-, distinct, apart⟩ := List.nodup_append.mp distinct
    have own := hosts.own a.nextVar (by simp)
    have hosts' := (hosts.of_subset (List.subset_cons_self _ _)).declare a.nextVar
    have reads := readers.fits bound (hosts'.of_subset (List.subset_append_left _ _))
      (Nat.lt_of_lt_of_le (Nat.lt_add_of_pos_right Nat.two_pos) children.declares.grows.vars) own.1
      Scope.visible_declare
    have unset : ∀ v, (body.shape frame).Gains v →
        v ∉ (a.nextVar + 1) :: (shapeAll frame below).declared := by
      intro v gains member
      rcases readers.only v gains with rfl | inside
      · exact apartResult (List.mem_append_right _ member)
      · exact apart v inside v member rfl
    have later := (hosts'.of_subset (List.subset_append_right _ _)).behind unset
    have ownStop := later.own (a.nextVar + 1) (by simp)
    have has : ((scope.declare a.nextVar).behind (body.shape frame)).Has a.nextVar :=
      ⟨.inl Scope.visible_declare, .inr readers.result⟩
    have inner := ((later.of_subset (List.subset_cons_self _ _)).declare (a.nextVar + 1)).enter
      Scope.visible_declare (List.nodup_cons.mp distinct).1
    have each := children.fits
      (fun binding member => bound binding (readers.declares.grows.bindings member)) inner
    have tries := fitsAll_of_each each children.only children.declares.fresh.distinct
    have fails := fits_fail later.shares owner has
    cases rule with
    | none =>
      simp [Branch.completion, own, reads, has, has.declare, ownStop, tries, fails]
    | some rule =>
      have accepts := fits_accept (inner.shares.behind _) rule
        (inner.place.behind (shapeAll frame below)) (.ofRule rules rule)
      rw [← shape_block] at accepts
      simp [Branch.completion, own, reads, has, has.declare, ownStop, tries, fails, accepts]

end Stmt

namespace Branch

open Stmt

variable {frame : Frame}

private theorem stmts_laid_of {rules : Array (Rule Ctx)} {branches : List (Branch Ctx)}
    (each : ∀ branch ∈ branches, ∀ asm place,
      LaidAll frame asm (stmt rules place branch asm).2 place [(stmt rules place branch asm).1])
    (asm : Assembler Ctx) (place : Nat) :
    LaidAll frame asm (stmts rules place branches asm).2 place
      (stmts rules place branches asm).1 := by
  induction branches generalizing asm with
  | nil => exact .nil asm place
  | cons branch rest ih =>
    exact (each branch (by simp) asm place).cons (ih (fun b member => each b (by simp [member])) _)

theorem stmt_laid (rules : Array (Rule Ctx)) (branch : Branch Ctx) (asm : Assembler Ctx)
    (place : Nat) :
    LaidAll frame asm (stmt rules place branch asm).2 place [(stmt rules place branch asm).1] := by
  induction branch generalizing asm place with
  | mk id readers children rule owner ih =>
    rw [stmt_eq]
    exact .branch rules rule owner (stmts_laid_of ih _ _) (ofSequence_laid readers _ _ _)

theorem stmts_laid (rules : Array (Rule Ctx)) (branches : List (Branch Ctx))
    (asm : Assembler Ctx) (place : Nat) :
    LaidAll frame asm (stmts rules place branches asm).2 place (stmts rules place branches asm).1 :=
  stmts_laid_of (fun branch _ => stmt_laid rules branch) asm place

end Branch

namespace Routine

open Stmt

variable {frame : Frame}

private theorem arms_laid (rules : Array (Rule Ctx)) (cursor : Nat)
    (tries : List (String × List (Branch Ctx))) (asm : Assembler Ctx) :
    LaidAll frame asm (arms rules cursor tries asm).2 cursor (arms rules cursor tries asm).1 := by
  induction tries generalizing asm with
  | nil => exact .nil asm cursor
  | cons trie rest ih =>
    exact (Branch.stmts_laid rules trie.2 asm cursor).block.cons (ih _)

theorem dispatchStmt_laid (lexicon : Lexicon Ctx) (frame : Frame) (asm : Assembler Ctx) :
    let made := dispatchStmt lexicon frame.cursor asm
    ∃ names, asm.Declares made.2 names ∧ (made.1.shape frame).declared.Sublist names ∧
      ∀ {given : Nat → Prop} {scope : Scope}, (∀ binding ∈ made.2.bindings, given binding.1) →
        scope.Hosts given frame frame.cursor names → (made.1.shape frame).Fits given scope := by
  intro made
  have stageless (asm : Assembler Ctx) : LaidAll frame asm _ frame.cursor _ :=
    Branch.stmts_laid lexicon.rules lexicon.forest.stageless asm frame.cursor
  by_cases empty : lexicon.forest.tries.isEmpty
  · have alone := stageless asm
    have equal : made = (.block (Branch.stmts lexicon.rules frame.cursor lexicon.forest.stageless
        asm).1, (Branch.stmts lexicon.rules frame.cursor lexicon.forest.stageless asm).2) := by
      simp only [made, dispatchStmt, empty, if_true]
      rfl
    rw [equal]
    refine ⟨_, alone.declares, List.Sublist.refl _, fun bound hosts => ?_⟩
    exact fitsAll_of_each (alone.fits bound hosts) alone.only alone.declares.fresh.distinct
  · have listed : LaidAll frame asm _ frame.cursor _ :=
      arms_laid lexicon.rules frame.cursor lexicon.forest.tries asm
    have last := stageless (arms lexicon.rules frame.cursor lexicon.forest.tries asm).2
    have equal : made = (.dispatch lexicon.forest.stages
        (arms lexicon.rules frame.cursor lexicon.forest.tries asm).1
        (.block (Branch.stmts lexicon.rules frame.cursor lexicon.forest.stageless
          (arms lexicon.rules frame.cursor lexicon.forest.tries asm).2).1),
        (Branch.stmts lexicon.rules frame.cursor lexicon.forest.stageless
          (arms lexicon.rules frame.cursor lexicon.forest.tries asm).2).2) := by
      simp only [made, dispatchStmt, empty]
      rfl
    rw [equal]
    refine ⟨_, listed.declares.append last.declares, declared_dispatch _ _ _, fun bound hosts => ?_⟩
    apply fits_dispatch
    · exact listed.fits (fun binding member => bound binding (last.declares.grows.bindings member))
        (hosts.of_subset (List.subset_append_left _ _))
    · exact fitsAll_of_each (last.fits bound (hosts.of_subset (List.subset_append_right _ _)))
        last.only last.declares.fresh.distinct

end Routine

end StagedLexer
