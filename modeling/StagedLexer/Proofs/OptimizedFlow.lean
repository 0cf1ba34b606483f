import StagedLexer.Proofs.OptimizedRoutine
import StagedLexer.Proofs.StatementShape

/-! The control flow of an optimized statement. A pass keeps all accesses in order: what it removes
is not read any more, and what takes the place of a temporary has been assigned before it and is in
scope wherever the temporary is. Declarations that are dropped in the end are those of variables
that do not occur. -/
namespace StagedLexer

namespace Shape

/-- The shape with other accesses. -/
def mapPaths (f : List Access → List Access) : Shape → Shape
  | straight path => straight (f path)
  | andThen first second => andThen (first.mapPaths f) (second.mapPaths f)
  | choice test first second => choice (f test) (first.mapPaths f) (second.mapPaths f)
  | loop scan body => loop scan (body.mapPaths f)
  | exit way => exit way

section MapPaths

variable {f : List Access → List Access} {shape : Shape} {v : Nat} {ready : Prop}

theorem mapPaths_of_forall {P : Access → Prop}
    (same : ∀ path, (∀ access ∈ path, P access) → f path = path)
    (each : ∀ access ∈ shape.accesses, P access) : shape.mapPaths f = shape := by
  induction shape with
  | straight path => rw [mapPaths, same path each]
  | andThen first second first_ih second_ih =>
    rw [accesses, List.forall_mem_append] at each
    rw [mapPaths, first_ih each.1, second_ih each.2]
  | choice test first second first_ih second_ih =>
    rw [accesses, List.forall_mem_append, List.forall_mem_append] at each
    rw [mapPaths, same test each.1, first_ih each.2.1, second_ih each.2.2]
  | loop scan body ih => rw [mapPaths, ih each]
  | exit => rfl

theorem accesses_mapPaths (nil : f [] = [])
    (append : ∀ path more, f (path ++ more) = f path ++ f more) :
    (shape.mapPaths f).accesses = f shape.accesses := by
  induction shape with
  | straight path => rfl
  | andThen first second first_ih second_ih =>
    rw [mapPaths, accesses, accesses, append, first_ih, second_ih]
  | choice test first second first_ih second_ih =>
    rw [mapPaths, accesses, accesses, append, append, first_ih, second_ih]
  | loop scan body ih => exact ih
  | exit => exact nil.symm

theorem opens_mapPaths {kept : Prop}
    (declares : ∀ path, .declare v ∈ f path ↔ .declare v ∈ path ∧ kept) :
    (shape.mapPaths f).Opens v ↔ shape.Opens v ∧ kept := by
  induction shape with
  | straight path => exact declares path
  | andThen first second first_ih second_ih =>
    rw [mapPaths, Opens, Opens, first_ih, second_ih, or_and_right]
  | choice | loop | exit => exact ⟨False.elim, fun never => never.1.elim⟩

variable (assigns : ∀ path, .assign v ∈ f path ↔ .assign v ∈ path)

include assigns

private theorem mapPaths_keeps : ((shape.mapPaths f).Gains v ↔ shape.Gains v) ∧
    ∀ ready, (shape.mapPaths f).LeavesWith v ready ↔ shape.LeavesWith v ready := by
  induction shape with
  | straight path => exact ⟨assigns path, fun _ => Iff.rfl⟩
  | andThen first second first_ih second_ih =>
    simp only [mapPaths, Gains, LeavesWith, first_ih, second_ih, implies_true, and_self]
  | choice test first second first_ih second_ih =>
    simp only [mapPaths, Gains, LeavesWith, first_ih, second_ih, implies_true, and_self]
  | loop scan body ih => exact ⟨ih.2 False, fun _ => Iff.rfl⟩
  | exit => exact ⟨Iff.rfl, fun _ => Iff.rfl⟩

theorem gains_mapPaths : (shape.mapPaths f).Gains v ↔ shape.Gains v := (mapPaths_keeps assigns).1

theorem leavesWith_mapPaths :
    (shape.mapPaths f).LeavesWith v ready ↔ shape.LeavesWith v ready :=
  (mapPaths_keeps assigns).2 ready

end MapPaths

/-- Other accesses are in order if they are so in every piece without jumps, where `R` relates what
is known to what is known with the other accesses. -/
theorem Fits.mapPaths {given : Nat → Prop} {f : List Access → List Access}
    {R : Scope → Scope → Prop} {P : Access → Prop}
    (allows : ∀ {scope other path}, R scope other → (∀ access ∈ path, P access) →
      scope.Allows given path → other.Allows given (f path))
    (behind : ∀ {scope other} (shape : Shape), R scope other →
      R (scope.behind shape) (other.behind (shape.mapPaths f)))
    {shape : Shape} {scope other : Scope} (related : R scope other)
    (each : ∀ access ∈ shape.accesses, P access) (fits : shape.Fits given scope) :
    (shape.mapPaths f).Fits given other := by
  induction shape generalizing scope other with
  | straight path => exact allows related each fits
  | andThen first second first_ih second_ih =>
    rw [accesses, List.forall_mem_append] at each
    exact ⟨first_ih related each.1 fits.1, second_ih (behind first related) each.2 fits.2⟩
  | choice test first second first_ih second_ih =>
    rw [accesses, List.forall_mem_append, List.forall_mem_append] at each
    exact ⟨allows related each.1 fits.1, first_ih related each.2.1 fits.2.1,
      second_ih related each.2.2 fits.2.2⟩
  | loop scan body ih => exact ih related each fits
  | exit => trivial

end Shape

section Redirect

def Access.redirect (v r : Nat) : Access → Access
  | read w => read (if w = v then r else w)
  | declare w => declare w
  | assign w => assign w

variable {T : Nat → Prop} {live : List Nat} {frame : Frame} {v r : Nat}

theorem Access.redirect_of_ne {access : Access} (other : access ≠ .read v) :
    access.redirect v r = access := by
  cases access with
  | declare | assign => rfl
  | read w =>
    have different : w ≠ v := fun same => other (congrArg read same)
    rw [redirect, if_neg different]

theorem Access.map_redirect {path : List Access} (unread : ∀ access ∈ path, access ≠ .read v) :
    path.map (redirect v r) = path := by
  rw [List.map_congr_left fun access member => redirect_of_ne (unread access member)]
  exact List.map_id _

theorem Access.mem_redirect {path : List Access} {access : Access} (other : ∀ w, access ≠ .read w) :
    access ∈ path.map (redirect v r) ↔ access ∈ path := by
  rw [List.mem_map]
  constructor
  · rintro ⟨before, member, rfl⟩
    cases before with
    | declare | assign => exact member
    | read w => exact absurd rfl (other _)
  · intro member
    refine ⟨access, member, redirect_of_ne (other v)⟩

theorem Shape.redirect_of_unread {shape : Shape} (unread : .read v ∉ shape.accesses) :
    shape.mapPaths (List.map (Access.redirect v r)) = shape := by
  apply mapPaths_of_forall (P := (· ≠ .read v)) fun path => Access.map_redirect
  rintro access member rfl
  exact unread member

theorem Shape.declared_redirect (shape : Shape) :
    (shape.mapPaths (List.map (Access.redirect v r))).declared = shape.declared := by
  have same : Access.declared? ∘ Access.redirect v r = Access.declared? := by
    funext access
    cases access <;> rfl
  rw [declared, accesses_mapPaths rfl fun _ _ => List.map_append, List.filterMap_map, same]
  rfl

/-- What is known if the variable `v` has not been assigned, while `r` is known. -/
structure Scope.Without (v r : Nat) (scope other : Scope) : Prop where
  visible : ∀ w, scope.visible w → other.visible w
  ready : ∀ w, w ≠ v → scope.ready w → other.ready w
  less : ∀ w, other.ready w → scope.ready w
  has : other.Has r

theorem Scope.Without.allows {given : Nat → Prop} {scope other : Scope} {path : List Access}
    (without : scope.Without v r other) (allows : scope.Allows given path) :
    other.Allows given (path.map (Access.redirect v r)) := by
  induction path generalizing scope other with
  | nil => trivial
  | cons access rest ih =>
    cases access with
    | declare w =>
      refine ⟨allows.1, fun known => allows.2.1 (without.less w known), ih ?_ allows.2.2⟩
      exact ⟨fun u => Or.imp_left (without.visible u), without.ready, without.less,
        without.has.declare w⟩
    | assign w =>
      refine ⟨allows.1, without.visible w allows.2.1, ih ?_ allows.2.2⟩
      exact ⟨without.visible, fun u other => Or.imp_left (without.ready u other),
        fun u => Or.imp_left (without.less u), without.has.assign w⟩
    | read w =>
      obtain ⟨visible, ready, later⟩ := allows
      have has : other.Has (if w = v then r else w) := by
        split
        · exact without.has
        · next different => exact ⟨without.visible w visible, without.ready w different ready⟩
      exact ⟨has.1, has.2, ih without later⟩

namespace Shape

variable {shape : Shape} {w : Nat} {ready : Prop}

theorem opens_redirect :
    (shape.mapPaths (List.map (Access.redirect v r))).Opens w ↔ shape.Opens w := by
  have declares (path : List Access) :
      .declare w ∈ path.map (Access.redirect v r) ↔ .declare w ∈ path ∧ True := by
    rw [and_true]
    exact Access.mem_redirect (by simp)
  rw [opens_mapPaths declares, and_true]

theorem gains_redirect :
    (shape.mapPaths (List.map (Access.redirect v r))).Gains w ↔ shape.Gains w :=
  gains_mapPaths fun _ => Access.mem_redirect (by simp)

theorem leavesWith_redirect :
    (shape.mapPaths (List.map (Access.redirect v r))).LeavesWith w ready ↔
      shape.LeavesWith w ready :=
  leavesWith_mapPaths fun _ => Access.mem_redirect (by simp)

end Shape

theorem Shape.Fits.redirect {given : Nat → Prop} {shape : Shape} {scope other : Scope}
    (fits : shape.Fits given scope) (without : scope.Without v r other) :
    (shape.mapPaths (List.map (Access.redirect v r))).Fits given other := by
  apply Fits.mapPaths (P := fun _ => True) (R := Scope.Without v r) _ _ without (by simp) fits
  · exact fun without _ allows => without.allows allows
  · intro scope other shape without
    refine ⟨fun w => ?_, fun w different => ?_, fun w => ?_, without.has.behind _⟩
    · exact Or.imp (without.visible w) opens_redirect.mpr
    · exact Or.imp (without.ready w different) gains_redirect.mpr
    · exact Or.imp (without.less w) gains_redirect.mp

namespace Stmt

open Code

mutual
private theorem accesses_substitute {value : Code} (reads : value.accesses = [.read r]) :
    (code : Code) →
      (substitute v value code).accesses = code.accesses.map (Access.redirect v r)
  | .literal _ | .declare _ => rfl
  | .var w => by
    rw [substitute]
    split
    · next same => simp [accesses, Access.redirect, same, reads]
    · next other => simp [accesses, Access.redirect, other]
  | .block items => by rw [substitute, accesses, accesses, accesses_substituteAll reads items]
  | .define w init | .assign w init _ => by
    simp [substitute, accesses, accesses_substitute reads init, Access.redirect]
private theorem accesses_substituteAll {value : Code} (reads : value.accesses = [.read r]) :
    (items : List Code) →
      accessesAll (substituteAll v value items) = (accessesAll items).map (Access.redirect v r)
  | [] => rfl
  | item :: rest => by
    rw [substituteAll, accessesAll, accessesAll, List.map_append, accesses_substitute reads item,
      accesses_substituteAll reads rest]
end

private theorem Value.accesses_redirect (clear : frame.Clear T) (temp : T v) {value : Value}
    (inScope : value.Scoped T live) :
    ((value.redirect v r).code frame.chunk).accesses =
      (value.code frame.chunk).accesses.map (Access.redirect v r) := by
  rw [← Value.code_redirect temp clear inScope, accesses_substitute]
  simp [Place.code, accesses, accessesAll]

private theorem redirect_shape_of_unreferenced {stmt : Stmt}
    (unreferenced : references v (stmt.code frame) = 0) :
    (stmt.shape frame).mapPaths (List.map (Access.redirect v r)) = stmt.shape frame := by
  apply Shape.redirect_of_unread
  rw [accesses_shape]
  exact read_not_mem_accesses unreferenced

mutual
theorem shape_redirect (clear : frame.Clear T) (temp : T v) : (stmt : Stmt) → {live : List Nat} →
    stmt.Scoped T live → v ∉ stmt.binders → references v (stmt.code frame) ≤ 1 →
      (stmt.redirect v r).shape frame =
        (stmt.shape frame).mapPaths (List.map (Access.redirect v r))
  | declare _, _, _, _, _ | leave, _, _, _, _ => rfl
  | assign w value retained, _, inScope, _, _ => by
    simp [redirect, shape, Shape.mapPaths, Value.accesses_redirect clear temp inScope.2.2,
      Access.redirect]
  | block items, _, inScope, fresh, atMost =>
    shapeAll_redirectAll clear temp items inScope fresh (by simpa [code, references] using atMost)
  | guarded cond body, _, inScope, fresh, atMost => by
    simp only [code, references, referencesAll] at atMost
    have test := read_not_mem_accesses (Cond.references_eq_zero temp clear inScope.1)
    have inner := shape_redirect clear temp body inScope.2 fresh (by omega)
    have stays : (cond.code frame.chunk).accesses.map (Access.redirect v r) =
        (cond.code frame.chunk).accesses := by
      apply Access.map_redirect
      rintro access member rfl
      exact test member
    simp [redirect, shape, Shape.mapPaths, Shape.nothing, stays, inner]
  | onResult w matched failed, _, inScope, fresh, atMost => by
    have other := ne_of_not_temp temp inScope.1
    simp only [binders, List.mem_append, not_or] at fresh
    simp only [code, references, referencesAll] at atMost
    have first := shape_redirect clear temp matched inScope.2.1 fresh.1 (by omega)
    have second := shape_redirect clear temp failed inScope.2.2 fresh.2 (by omega)
    simp [redirect, shape, Shape.mapPaths, Shape.nothing, Access.redirect, other, first, second]
  | accept rule stop move, _, _, _, atMost => by
    have counts := references_accept clear temp rule stop move
    rw [redirect, redirect_shape_of_unreferenced (counts.2 (by omega))]
  | fail owner w, _, inScope, fresh, _ => by
    have plain : (fail owner w).Scoped T [] := inScope
    rw [redirect,
      redirect_shape_of_unreferenced (references_eq_zero clear temp _ plain (by simp) fresh)]
  | loop body, _, inScope, fresh, _ => by
    have plain : (loop body).Scoped T [] := inScope
    rw [redirect,
      redirect_shape_of_unreferenced (references_eq_zero clear temp _ plain (by simp) fresh)]
  | dispatch stages arms otherwise, _, inScope, fresh, _ => by
    have plain : (dispatch stages arms otherwise).Scoped T [] := inScope
    rw [redirect,
      redirect_shape_of_unreferenced (references_eq_zero clear temp _ plain (by simp) fresh)]
theorem shapeAll_redirectAll (clear : frame.Clear T) (temp : T v) :
    (items : List Stmt) → {live : List Nat} → ScopedAll T live items → v ∉ bindersAll items →
      referencesAll v (codes frame items) ≤ 1 →
        shapeAll frame (redirectAll v r items) =
          (shapeAll frame items).mapPaths (List.map (Access.redirect v r))
  | [], _, _, _, _ => rfl
  | item :: rest, live, inScope, fresh, atMost => by
    simp only [bindersAll, List.mem_append, not_or] at fresh
    rw [codes, referencesAll] at atMost
    rw [ScopedAll] at inScope
    rw [redirectAll, shapeAll, shapeAll, Shape.mapPaths]
    cases bind : item.binding? with
    | none =>
      rw [bind] at inScope
      rw [shape_redirect clear temp item inScope.1 fresh.1 (by omega),
        shapeAll_redirectAll clear temp rest inScope.2 fresh.2 (by omega)]
    | some binding =>
      obtain ⟨w, q⟩ := binding
      rw [bind] at inScope
      obtain rfl := eq_assign_of_binding? bind
      rw [shapeAll_redirectAll clear temp rest inScope.2.2 fresh.2 (by omega)]
      simp [redirect, Value.redirect, shape, Shape.mapPaths, Value.code, accesses, accessesAll,
        Access.redirect, ne_of_not_temp temp inScope.2.1]
end

end Stmt

end Redirect

section Pass

/-- The second shape makes the same declarations, keeps accesses in order, and assigns the same
variables as the first one up to lost ones, which it need not assign. -/
structure Shape.Improves (lost : Nat → Prop) (before after : Shape) : Prop where
  declared : after.declared = before.declared
  opens : ∀ v, after.Opens v ↔ before.Opens v
  gains : ∀ v, after.Gains v → before.Gains v
  kept : ∀ v, ¬ lost v → before.Gains v → after.Gains v
  leaves : ∀ v ready, after.LeavesWith v ready → before.LeavesWith v ready
  keptLeaves : ∀ v ready, ¬ lost v → before.LeavesWith v ready → after.LeavesWith v ready
  fits : ∀ {given : Nat → Prop} {scope : Scope}, before.Fits given scope → after.Fits given scope

namespace Shape.Improves

variable {lost more : Nat → Prop} {before after first first' second second' body body' : Shape}

theorem refl (shape : Shape) : shape.Improves lost shape :=
  ⟨rfl, fun _ => Iff.rfl, fun _ => id, fun _ _ => id, fun _ _ => id, fun _ _ _ => id, id⟩

theorem mono (improves : before.Improves lost after) (weaker : ∀ v, lost v → more v) :
    before.Improves more after :=
  ⟨improves.declared, improves.opens, improves.gains,
    fun v still => improves.kept v fun gone => still (weaker v gone), improves.leaves,
    fun v ready still => improves.keptLeaves v ready fun gone => still (weaker v gone),
    improves.fits⟩

theorem choice (test : List Access) (left : first.Improves lost first')
    (right : second.Improves lost second') :
    (choice test first second).Improves lost (choice test first' second') := by
  refine ⟨?_, fun _ => Iff.rfl, fun v => And.imp (left.gains v) (right.gains v),
    fun v still => And.imp (left.kept v still) (right.kept v still),
    fun v ready => And.imp (left.leaves v ready) (right.leaves v ready),
    fun v ready still => And.imp (left.keptLeaves v ready still) (right.keptLeaves v ready still),
    And.imp_right (And.imp left.fits right.fits)⟩
  rw [declared_choice, declared_choice, left.declared, right.declared]

theorem loop (scan : Bool) (inside : body.Improves lost body') :
    (loop scan body).Improves lost (loop scan body') :=
  ⟨inside.declared, fun _ => Iff.rfl, fun v => inside.leaves v False,
    fun v still => inside.keptLeaves v False still, fun _ _ => id, fun _ _ _ => id, inside.fits⟩

/-- What the first part does not assign any more is not read in the second one. -/
theorem andThen (ahead : first.Improves lost first') (behind : second.Improves lost second')
    (unread : ∀ v, first.Gains v → ¬ first'.Gains v → .read v ∉ second'.accesses) :
    (andThen first second).Improves lost (andThen first' second') := by
  refine ⟨?_, fun v => or_congr (ahead.opens v) (behind.opens v),
    fun v => Or.imp (ahead.gains v) (behind.gains v),
    fun v still => Or.imp (ahead.kept v still) (behind.kept v still), ?_, ?_, ?_⟩
  · rw [declared_andThen, declared_andThen, ahead.declared, behind.declared]
  · intro v ready leaves
    refine ⟨ahead.leaves v ready leaves.1, ?_⟩
    exact (behind.leaves v _ leaves.2).mono (Or.imp_right (ahead.gains v))
  · intro v ready still leaves
    refine ⟨ahead.keptLeaves v ready still leaves.1, ?_⟩
    exact (behind.keptLeaves v _ still leaves.2).mono (Or.imp_right (ahead.kept v still))
  · intro given scope fits
    refine ⟨ahead.fits fits.1, (behind.fits fits.2).transfer ⟨?_, ?_, ?_⟩⟩
    · exact fun v _ => Or.imp_right (ahead.opens v).mpr
    · intro v read
      refine Or.imp_right fun gained => Classical.byContradiction fun gone => ?_
      exact unread v gained gone read
    · exact fun v _ => Or.imp_right (ahead.gains v)

/-- A result takes the place of a temporary that has been made from it. -/
theorem redirect {v r : Nat} (behind : before.Improves lost after) (gone : lost v) :
    (Shape.andThen (straight [.read r, .assign v]) before).Improves lost
      (after.mapPaths (List.map (Access.redirect v r))) := by
  have opens (w : Nat) :
      (after.mapPaths (List.map (Access.redirect v r))).Opens w ↔ after.Opens w := opens_redirect
  have gains (w : Nat) :
      (after.mapPaths (List.map (Access.redirect v r))).Gains w ↔ after.Gains w := gains_redirect
  have leaves (w : Nat) (ready : Prop) :
      (after.mapPaths (List.map (Access.redirect v r))).LeavesWith w ready ↔
        after.LeavesWith w ready := leavesWith_redirect
  have first (w : Nat) : (straight [.read r, .assign v]).Gains w ↔ w = v := by simp [Gains]
  have new (w : Nat) : ¬ (straight [.read r, .assign v]).Opens w := by simp [Opens]
  have different {w : Nat} (still : ¬ lost w) : w ≠ v := fun same => still (same ▸ gone)
  refine ⟨?_, ?_, ?_, ?_, ?_, ?_, ?_⟩
  · rw [declared_redirect, declared_andThen, behind.declared]
    rfl
  · intro w
    rw [opens, behind.opens, Opens, or_iff_right (new w)]
  · exact fun w gained => .inr (behind.gains w ((gains w).mp gained))
  · intro w still gained
    exact (gains w).mpr (behind.kept w still
      (gained.resolve_left fun here => different still ((first w).mp here)))
  · intro w ready left
    exact ⟨trivial, (behind.leaves w ready ((leaves w ready).mp left)).mono .inl⟩
  · intro w ready still left
    refine (leaves w ready).mpr ((behind.keptLeaves w _ still left.2).mono fun known => ?_)
    exact known.resolve_right fun here => different still ((first w).mp here)
  · intro given scope fits
    obtain ⟨⟨visible, ready, -, -, -⟩, inside⟩ := fits
    refine (behind.fits inside).redirect ⟨?_, ?_, ?_, ⟨visible, ready⟩⟩
    · exact fun w known => known.resolve_right (new w)
    · exact fun w other known => known.resolve_right fun here => other ((first w).mp here)
    · exact fun w => .inl

end Shape.Improves

namespace Stmt

open Code

variable {T : Nat → Prop} {frame : Frame} {v r : Nat}

private theorem improves_shorten (clear : frame.Clear T) (temp : T v) {live : List Nat}
    {lost : Nat → Prop} {rest rest' : List Stmt} (inScope : ScopedAll T live rest')
    (fresh : v ∉ bindersAll rest') (gone : lost v)
    (behind : (shapeAll frame rest).Improves lost (shapeAll frame rest')) :
    (shapeAll frame (assign v (.asPlace r) false :: rest)).Improves lost
      (shapeAll frame (shorten frame v r rest')) := by
  have first : shape frame (assign v (.asPlace r) false) = .straight [.read r, .assign v] := by
    simp [shape, Value.code, accesses, accessesAll]
  have redirects (atMost : referencesAll v (codes frame rest') ≤ 1) :
      (shapeAll frame (assign v (.asPlace r) false :: rest)).Improves lost
        (shapeAll frame (redirectAll v r rest')) := by
    rw [shapeAll_redirectAll clear temp rest' inScope fresh atMost, shapeAll, first]
    exact behind.redirect gone
  rcases shorten_cases (r := r) clear temp inScope fresh with ⟨none, equal⟩ | ⟨once, -, equal⟩ |
    ⟨equal, -, -⟩
  · rw [equal, ← redirectAll_of_unreferenced (r := r) rest' none]
    exact redirects (by omega)
  · rw [equal]
    exact redirects (by omega)
  · rw [equal]
    exact (Shape.Improves.refl _).andThen behind fun w gains still => absurd gains still

mutual
/-- A pass keeps the accesses of a statement in order. Of the variables that are assigned for sure
it loses binders only. -/
theorem improves_pass (clear : frame.Clear T) : (stmt : Stmt) → {live : List Nat} →
    stmt.Scoped T live → stmt.binders.Nodup → (∀ v ∈ stmt.binders, v ∉ live) →
      (stmt.shape frame).Improves (· ∈ stmt.binders) ((stmt.pass frame).shape frame)
  | declare _, _, _, _, _ | assign _ _ _, _, _, _, _ | leave, _, _, _, _ | accept _ _ _, _, _, _, _
  | fail _ _, _, _, _, _ => .refl _
  | block items, _, inScope, distinct, apart => improves_passAll clear items inScope distinct apart
  | guarded cond body, _, inScope, distinct, apart =>
    .choice _ (improves_pass clear body inScope.2 distinct apart) (.refl _)
  | onResult w matched failed, _, inScope, distinct, apart => by
    rw [binders, List.nodup_append] at distinct
    simp only [binders, List.mem_append] at apart ⊢
    have first := improves_pass clear matched inScope.2.1 distinct.1
      fun v member => apart v (.inl member)
    have second := improves_pass clear failed inScope.2.2 distinct.2.1
      fun v member => apart v (.inr member)
    exact .choice _ (first.mono fun _ => .inl) (.choice _ (second.mono fun _ => .inr) (.refl _))
  | loop body, _, inScope, distinct, _ =>
    .loop false (improves_pass clear body (show body.Scoped T [] from inScope) distinct (by simp))
  | dispatch stages arms otherwise, _, inScope, distinct, _ => by
    rw [binders, List.nodup_append] at distinct
    have last := improves_pass clear otherwise inScope.2 distinct.2.1 (by simp)
    simp only [binders, List.mem_append]
    exact improves_passEach clear arms stages inScope.1 distinct.1 last
theorem improves_passAll (clear : frame.Clear T) : (items : List Stmt) → {live : List Nat} →
    ScopedAll T live items → (bindersAll items).Nodup → (∀ v ∈ bindersAll items, v ∉ live) →
      (shapeAll frame items).Improves (· ∈ bindersAll items)
        (shapeAll frame (passAll frame items))
  | [], _, _, _, _ => .refl _
  | item :: rest, live, inScope, distinct, apart => by
    rw [ScopedAll] at inScope
    rw [passAll]
    cases bind : item.binding? with
    | none =>
      rw [bind] at inScope
      rw [bindersAll, List.nodup_append] at distinct
      simp only [bindersAll, List.mem_append] at apart ⊢
      have first := improves_pass clear item inScope.1 distinct.1
        fun v member => apart v (.inl member)
      have others := improves_passAll clear rest inScope.2 distinct.2.1
        fun v member => apart v (.inr member)
      refine (first.mono fun _ => .inl).andThen (others.mono fun _ => .inr) fun v gains gone => ?_
      -- What the first statement no longer binds, the ones behind it cannot read: it was out of
      -- their scope.
      have lost : v ∈ item.binders := Classical.byContradiction fun still =>
        gone (first.kept v still gains)
      have temp := temp_of_mem_binders item inScope.1 v lost
      have fresh : v ∉ bindersAll (passAll frame rest) := fun again =>
        distinct.2.2 v lost v ((bindersAll_passAll frame rest).subset again) rfl
      rw [accesses_shapeAll]
      exact read_not_mem_accessesAll (referencesAll_eq_zero clear temp _
        (ScopedAll.passAll clear rest inScope.2 distinct.2.1) (apart v (.inl lost)) fresh)
    | some binding =>
      obtain ⟨v, r⟩ := binding
      rw [bind] at inScope
      obtain rfl := eq_assign_of_binding? bind
      obtain ⟨temp, plain, inScope⟩ := inScope
      obtain ⟨fresh, distinct⟩ := nodup_tail distinct
      have names : bindersAll (assign v (.asPlace r) false :: rest) = v :: bindersAll rest := by
        simp [bindersAll, binders]
      rw [names] at apart ⊢
      have behind := improves_passAll clear rest inScope distinct fun w member => by
        rw [List.mem_cons, not_or]
        exact ⟨fun equal => fresh (equal ▸ member), apart w (List.mem_cons_of_mem v member)⟩
      exact improves_shorten clear temp (ScopedAll.passAll clear rest inScope distinct)
        (fun member => fresh ((bindersAll_passAll frame rest).subset member)) List.mem_cons_self
        (behind.mono fun w => List.mem_cons_of_mem v)
theorem improves_passEach (clear : frame.Clear T) {lost : Nat → Prop}
    {otherwise otherwise' : Shape} : (arms : List Stmt) → (stages : List String) →
      ScopedEach T arms → (bindersAll arms).Nodup → otherwise.Improves lost otherwise' →
        (shapeArms frame stages otherwise arms).Improves (fun v => v ∈ bindersAll arms ∨ lost v)
          (shapeArms frame stages otherwise' (passEach frame arms))
  | [], _, _, _, last => last.mono fun _ => .inr
  | _ :: _, [], _, _, last => last.mono fun _ => .inr
  | arm :: rest, stage :: stages, inScope, distinct, last => by
    rw [bindersAll, List.nodup_append] at distinct
    have first := improves_pass clear arm inScope.1 distinct.1 (by simp)
    have others := improves_passEach clear rest stages inScope.2 distinct.2.1 last
    simp only [bindersAll, List.mem_append, or_assoc]
    exact .choice _ (first.mono fun _ => .inl) (others.mono fun _ => .inr)
end

end Stmt

end Pass

section Undeclare

/-- Whether the access is no declaration of a variable that is not among `vars`. -/
def Access.isNeeded (vars : List Nat) : Access → Bool
  | declare v => vars.contains v
  | assign _ | read _ => true

variable {vars : List Nat} {frame : Frame}

namespace Shape

variable {shape : Shape} {v : Nat} {ready : Prop}

theorem filter_of_undeclared (undeclared : shape.declared = []) :
    shape.mapPaths (List.filter (Access.isNeeded vars)) = shape := by
  apply mapPaths_of_forall (P := fun access => access.isNeeded vars = true)
  · exact fun path each => List.filter_eq_self.mpr each
  · intro access member
    cases access with
    | assign | read => rfl
    | declare w =>
      have listed := mem_declared.mpr member
      rw [undeclared] at listed
      cases listed

theorem declared_filter : (shape.mapPaths (List.filter (Access.isNeeded vars))).declared.Sublist
    shape.declared := by
  rw [declared, accesses_mapPaths rfl List.filter_append]
  exact List.filter_sublist.filterMap _

theorem opens_filter : (shape.mapPaths (List.filter (Access.isNeeded vars))).Opens v ↔
    shape.Opens v ∧ v ∈ vars :=
  opens_mapPaths fun _ => by simp [Access.isNeeded]

theorem gains_filter :
    (shape.mapPaths (List.filter (Access.isNeeded vars))).Gains v ↔ shape.Gains v :=
  gains_mapPaths fun _ => by simp [Access.isNeeded]

private def Fewer (vars : List Nat) (scope other : Scope) : Prop :=
  (∀ v ∈ vars, scope.visible v → other.visible v) ∧ ∀ v, scope.ready v ↔ other.ready v

private theorem Fewer.allows {given : Nat → Prop} {scope other : Scope} {path : List Access}
    (fewer : Fewer vars scope other)
    (occurring : ∀ access ∈ path, ∀ v, access = .read v ∨ access = .assign v → v ∈ vars)
    (allows : scope.Allows given path) :
    other.Allows given (path.filter (Access.isNeeded vars)) := by
  induction path generalizing scope other with
  | nil => trivial
  | cons access rest ih =>
    obtain ⟨visible, ready⟩ := fewer
    rw [List.forall_mem_cons] at occurring
    cases access with
    | declare v =>
      by_cases listed : v ∈ vars
      · rw [List.filter_cons_of_pos (by simp [Access.isNeeded, listed])]
        have later : Fewer vars (scope.declare v) (other.declare v) :=
          ⟨fun w member => Or.imp_left (visible w member), ready⟩
        exact ⟨allows.1, fun known => allows.2.1 ((ready v).mpr known),
          ih later occurring.2 allows.2.2⟩
      · rw [List.filter_cons_of_neg (by simp [Access.isNeeded, listed])]
        have later : Fewer vars (scope.declare v) other := by
          refine ⟨fun w member known => visible w member (known.resolve_right ?_), ready⟩
          rintro rfl
          exact listed member
        exact ih later occurring.2 allows.2.2
    | assign v =>
      rw [List.filter_cons_of_pos rfl]
      have later : Fewer vars (scope.assign v) (other.assign v) :=
        ⟨visible, fun w => or_congr_left (ready w)⟩
      exact ⟨allows.1, visible v (occurring.1 v (.inr rfl)) allows.2.1,
        ih later occurring.2 allows.2.2⟩
    | read v =>
      rw [List.filter_cons_of_pos rfl]
      exact ⟨visible v (occurring.1 v (.inl rfl)) allows.1, (ready v).mp allows.2.1,
        ih ⟨visible, ready⟩ occurring.2 allows.2.2⟩

theorem Fits.filter {given : Nat → Prop} {scope : Scope} (fits : shape.Fits given scope)
    (occurring : ∀ v, .read v ∈ shape.accesses ∨ .assign v ∈ shape.accesses → v ∈ vars) :
    (shape.mapPaths (List.filter (Access.isNeeded vars))).Fits given scope := by
  apply Fits.mapPaths (R := Fewer vars)
    (P := fun access => ∀ v, access = .read v ∨ access = .assign v → v ∈ vars)
    _ _ ⟨fun _ _ => id, fun _ => Iff.rfl⟩ _ fits
  · exact fun fewer occurring allows => fewer.allows occurring allows
  · rintro scope other shape ⟨visible, ready⟩
    refine ⟨fun v member => Or.imp (visible v member) fun opens => ?_, fun v => ?_⟩
    · exact opens_filter.mpr ⟨opens, member⟩
    · exact or_congr (ready v) gains_filter.symm
  · rintro access member v (rfl | rfl)
    · exact occurring v (.inl member)
    · exact occurring v (.inr member)

end Shape

namespace Stmt

open Code

mutual
theorem shape_undeclare : (stmt : Stmt) → (stmt.undeclare vars).shape frame =
    (stmt.shape frame).mapPaths (List.filter (Access.isNeeded vars))
  | declare v => by
    by_cases listed : v ∈ vars <;>
      simp [undeclare, shape, shapeAll, Shape.mapPaths, Shape.nothing, Access.isNeeded, listed]
  | assign _ _ _ => by rw [undeclare, Shape.filter_of_undeclared (declared_assign _ _)]
  | leave => rfl
  | accept _ _ _ => by rw [undeclare, Shape.filter_of_undeclared (declared_accept _ _ _)]
  | fail _ _ => by rw [undeclare, Shape.filter_of_undeclared (declared_fail _ _)]
  | block items => shapeAll_undeclareAll items
  | guarded cond body => by
    have stays : (cond.code frame.chunk).accesses.filter (Access.isNeeded vars) =
        (cond.code frame.chunk).accesses := by
      rw [Cond.accesses_code, List.filter_eq_self]
      simp [Access.isNeeded]
    simp [undeclare, shape, Shape.mapPaths, Shape.nothing, stays, shape_undeclare body]
  | onResult r matched failed => by
    rw [undeclare, shape, shape, shape_undeclare matched, shape_undeclare failed]
    rfl
  | loop body => by
    rw [undeclare, shape, shape, shape_undeclare body]
    rfl
  | dispatch stages arms otherwise => by
    rw [undeclare, shape, shape, shape_undeclare otherwise, shapeArms_undeclareAll arms stages]
theorem shapeAll_undeclareAll : (items : List Stmt) → shapeAll frame (undeclareAll vars items) =
    (shapeAll frame items).mapPaths (List.filter (Access.isNeeded vars))
  | [] => rfl
  | item :: rest => by
    rw [undeclareAll, shapeAll, shapeAll, shape_undeclare item, shapeAll_undeclareAll rest]
    rfl
theorem shapeArms_undeclareAll {otherwise : Shape} : (arms : List Stmt) → (stages : List String) →
    shapeArms frame stages (otherwise.mapPaths (List.filter (Access.isNeeded vars)))
      (undeclareAll vars arms) =
        (shapeArms frame stages otherwise arms).mapPaths (List.filter (Access.isNeeded vars))
  | [], _ | _ :: _, [] => rfl
  | arm :: rest, stage :: stages => by
    rw [undeclareAll, shapeArms, shapeArms, shape_undeclare arm, shapeArms_undeclareAll rest stages]
    rfl
end

end Stmt

end Undeclare

section Used

variable {frame : Frame} {v : Nat}

namespace Code

mutual
theorem mem_used_of_mem_reads : (code : Code) → v ∈ reads code → v ∈ used (flatten code)
  | literal _, member | declare _, member => by simp [reads] at member
  | var _, member | define _ _, member => by simpa [flatten, used, reads] using member
  | assign _ _ _, member => by
    rw [reads] at member
    simp [flatten, used, member]
  | block items, member => by
    rw [reads] at member
    rw [flatten_block]
    exact mem_used_of_mem_readsAll items member
theorem mem_used_of_mem_readsAll : (items : List Code) → v ∈ readsAll items →
    v ∈ used (flattenAll items)
  | [], member => by simp [readsAll] at member
  | item :: rest, member => by
    rw [flattenAll, used_append, List.mem_append]
    rcases List.mem_append.mp member with first | behind
    · exact .inl (mem_used_of_mem_reads item first)
    · exact .inr (mem_used_of_mem_readsAll rest behind)
end

end Code

namespace Stmt

open Code

mutual
private theorem mem_used_of_assign : (stmt : Stmt) → .assign v ∈ (stmt.shape frame).accesses →
    v ∈ used (flatten (stmt.code frame))
  | declare _, member | leave, member => by simp [shape, Shape.accesses] at member
  | assign w value retained, member => by
    have same : v = w := by simpa [shape, Shape.accesses, Value.accesses_code] using member
    simp [code, flatten, used, same]
  | block items, member => mem_used_of_assignAll items member
  | guarded cond body, member => by
    have inner : .assign v ∈ (body.shape frame).accesses := by
      simpa [shape, Shape.accesses, Shape.nothing, Cond.accesses_code] using member
    simp [code, flattenAll, used_append, mem_used_of_assign body inner]
  | onResult r matched failed, member => by
    have either : .assign v ∈ (matched.shape frame).accesses ∨
        .assign v ∈ (failed.shape frame).accesses := by
      simpa [shape, Shape.accesses, Shape.nothing] using member
    rcases either with inner | inner
    · simp [code, flattenAll, used_append, mem_used_of_assign matched inner]
    · simp [code, flattenAll, used_append, mem_used_of_assign failed inner]
  | loop body, member => by
    have inner : .assign v ∈ (body.shape frame).accesses := member
    simp [code, flattenAll, used_append, mem_used_of_assign body inner]
  | accept rule stop move, member => by
    have shared : v = frame.pending ∨ v = frame.cursor := by
      cases move <;> simpa [shape, Shape.accesses, Shape.nothing, acceptance, Frame.confirmPending,
        Frame.stageMove, accesses, accessesAll, Place.accesses_code] using member
    rcases shared with rfl | rfl <;> simp [code, flattenAll, used, flatten]
  | fail owner r, member => by
    simp [shape, Shape.accesses, code, Frame.confirmPending, accesses, accessesAll] at member
  | dispatch stages arms otherwise, member => by
    rcases mem_used_of_assignArms arms stages member with listed | last
    · simp [code, flattenAll, used_append, listed]
    · simp [code, flattenAll, used_append, mem_used_of_assign otherwise last]
private theorem mem_used_of_assignAll : (items : List Stmt) →
    .assign v ∈ (shapeAll frame items).accesses → v ∈ used (flattenAll (codes frame items))
  | [], member => by simp [shapeAll, Shape.nothing, Shape.accesses] at member
  | item :: rest, member => by
    rw [codes, flattenAll, used_append, List.mem_append]
    rcases List.mem_append.mp member with first | behind
    · exact .inl (mem_used_of_assign item first)
    · exact .inr (mem_used_of_assignAll rest behind)
private theorem mem_used_of_assignArms {otherwise : Shape} : (arms : List Stmt) →
    (stages : List String) → .assign v ∈ (shapeArms frame stages otherwise arms).accesses →
      v ∈ used (flattenAll (armCodes frame stages arms)) ∨ .assign v ∈ otherwise.accesses
  | [], _, member | _ :: _, [], member => .inr member
  | arm :: rest, stage :: stages, member => by
    have either : .assign v ∈ (arm.shape frame).accesses ∨
        .assign v ∈ (shapeArms frame stages otherwise rest).accesses := List.mem_append.mp member
    rcases either with first | behind
    · left
      simp [armCodes, flattenAll, used_append, mem_used_of_assign arm first]
    · refine (mem_used_of_assignArms rest stages behind).imp_left fun listed => ?_
      simp [armCodes, flattenAll, used_append, listed]
end

theorem mem_used {stmt : Stmt} (occurs : .read v ∈ (stmt.shape frame).accesses ∨
    .assign v ∈ (stmt.shape frame).accesses) : v ∈ used (flatten (stmt.code frame)) := by
  rcases occurs with read | assigned
  · rw [accesses_shape] at read
    exact mem_used_of_mem_reads _ ((read_mem_accesses _).mp read)
  · exact mem_used_of_assign stmt assigned

end Stmt

end Used

end StagedLexer
