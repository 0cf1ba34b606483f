import StagedLexer.Proofs.CodeStream

/-! Temporaries: the variables of assignments that the optimizer may remove. In a scoped statement
a temporary holds a result as a position; it is referred to only as a position, behind its
assignment in the same list of statements, and not from inside of a loop around the reference. -/
namespace StagedLexer

/-- The shared variables are no temporaries. -/
structure Frame.Clear (frame : Frame) (T : Nat → Prop) : Prop where
  chunk : ¬ T frame.chunk
  cursor : ¬ T frame.cursor
  pending : ¬ T frame.pending

/-- A temporary at the place is one of `live`. -/
def Place.Scoped (T : Nat → Prop) (live : List Nat) : Place → Prop
  | .var v => T v → v ∈ live
  | .ofResult r => ¬ T r

/-- The value refers to temporaries as positions only, and these are among `live`. -/
def Value.Scoped (T : Nat → Prop) (live : List Nat) : Value → Prop
  | .noMatch | .chunkEnd | .zero => True
  | .position p | .probe _ p | .place p => p.Scoped T live
  | .call bound p => ¬ T bound ∧ p.Scoped T live
  | .result v | .asPlace v | .succ v => ¬ T v
  | .counted counter _ pos => ¬ T counter ∧ ¬ T pos

/-- The condition refers to no temporary. -/
def Cond.Scoped (T : Nat → Prop) : Cond → Prop
  | .noMatch v | .isMatch v | .negative v | .notNoMatch v | .reached v _ | .atChunkEnd v => ¬ T v
  | .unmoved r pos => ¬ T r ∧ ¬ T pos

namespace Stmt

/-- The temporary and the result that the statement puts into it, if it is such an assignment. -/
def binding? : Stmt → Option (Nat × Nat)
  | assign v (.asPlace r) false => some (v, r)
  | _ => none

theorem eq_assign_of_binding? {stmt : Stmt} {v r : Nat} (bind : stmt.binding? = some (v, r)) :
    stmt = assign v (.asPlace r) false := by
  unfold binding? at bind
  split at bind
  · obtain ⟨rfl, rfl⟩ := Prod.mk.inj (Option.some.inj bind)
    rfl
  · cases bind

mutual
/-- Temporaries are used as the optimizer expects; those of `live` may be referred to. -/
def Scoped (T : Nat → Prop) (live : List Nat) : Stmt → Prop
  | declare _ | leave => True
  | assign v value retained => retained = true ∧ ¬ T v ∧ value.Scoped T live
  | block items => ScopedAll T live items
  | guarded cond body => cond.Scoped T ∧ Scoped T live body
  | onResult r matched failed => ¬ T r ∧ Scoped T live matched ∧ Scoped T live failed
  | loop body => Scoped T [] body
  | accept _ stop _ => stop.Scoped T live
  | fail _ r => ¬ T r
  | dispatch _ arms otherwise => ScopedEach T arms ∧ Scoped T [] otherwise
/-- A temporary may be referred to behind its assignment. -/
def ScopedAll (T : Nat → Prop) (live : List Nat) : List Stmt → Prop
  | [] => True
  | item :: rest =>
    match item.binding? with
    | some (v, r) => T v ∧ ¬ T r ∧ ScopedAll T (v :: live) rest
    | none => Scoped T live item ∧ ScopedAll T live rest
def ScopedEach (T : Nat → Prop) : List Stmt → Prop
  | [] => True
  | arm :: rest => Scoped T [] arm ∧ ScopedEach T rest
end

mutual
/-- The variables of the assignments that are not retained. -/
def binders : Stmt → List Nat
  | assign v _ retained => if retained then [] else [v]
  | block items => bindersAll items
  | guarded _ body | loop body => binders body
  | onResult _ matched failed => binders matched ++ binders failed
  | dispatch _ arms otherwise => bindersAll arms ++ binders otherwise
  | declare _ | leave | accept _ _ _ | fail _ _ => []
def bindersAll : List Stmt → List Nat
  | [] => []
  | item :: rest => binders item ++ bindersAll rest
end

end Stmt

open Code

variable {T : Nat → Prop} {live : List Nat} {frame : Frame} {v : Nat}

section Unreferenced

variable (temp : T v) (free : v ∉ live)

include temp

theorem ne_of_not_temp {w : Nat} (plain : ¬ T w) : w ≠ v := by
  rintro rfl
  exact plain temp

theorem Cond.references_eq_zero (clear : frame.Clear T) {cond : Cond}
    (inScope : cond.Scoped T) : references v (cond.code frame.chunk) = 0 := by
  have chunk := ne_of_not_temp temp clear.chunk
  cases cond with
  | unmoved r pos =>
    simp [Cond.code, references, referencesAll, ne_of_not_temp temp inScope.1,
      ne_of_not_temp temp inScope.2]
  | noMatch | isMatch | negative | notNoMatch | reached | atChunkEnd =>
    simp [Cond.code, references, referencesAll, chunk, ne_of_not_temp temp inScope]

include free

private theorem Place.references_eq_zero {place : Place} (inScope : place.Scoped T live) :
    references v place.code = 0 := by
  cases place with
  | var w =>
    have other : w ≠ v := by
      rintro rfl
      exact free (inScope temp)
    simp [Place.code, references, other]
  | ofResult r =>
    simp [Place.code, references, referencesAll, ne_of_not_temp temp inScope]

private theorem Value.references_eq_zero (clear : frame.Clear T) {value : Value}
    (inScope : value.Scoped T live) : references v (value.code frame.chunk) = 0 := by
  have chunk := ne_of_not_temp temp clear.chunk
  cases value with
  | noMatch | zero => simp [Value.code, references, referencesAll]
  | chunkEnd => simp [Value.code, references, referencesAll, chunk]
  | position p | place p =>
    simp [Value.code, references, referencesAll, Place.references_eq_zero temp free inScope]
  | probe test p =>
    cases test <;> simp [Value.code, Probe.code, Probe.code.advance, references, referencesAll,
      chunk, Place.references_eq_zero temp free inScope]
  | call bound p =>
    simp [Value.code, references, referencesAll, chunk, ne_of_not_temp temp inScope.1,
      Place.references_eq_zero temp free inScope.2]
  | result w | asPlace w | succ w =>
    simp [Value.code, references, referencesAll, ne_of_not_temp temp inScope]
  | counted counter min pos =>
    simp [Value.code, references, referencesAll, ne_of_not_temp temp inScope.1,
      ne_of_not_temp temp inScope.2]

end Unreferenced

theorem Stmt.references_accept (clear : frame.Clear T) (temp : T v) (rule : Nat) (stop : Place)
    (move : StageMove) :
    3 * references v stop.code ≤ references v ((accept rule stop move).code frame) ∧
      (references v stop.code = 0 → references v ((accept rule stop move).code frame) = 0) := by
  have chunk := ne_of_not_temp temp clear.chunk
  have cursor := ne_of_not_temp temp clear.cursor
  have pending := ne_of_not_temp temp clear.pending
  cases move <;>
  · simp [Stmt.code, Frame.confirmPending, Frame.stageMove, references, referencesAll, chunk,
      cursor, pending]
    omega

namespace Stmt

mutual
/-- A temporary that is neither live nor assigned is not referred to. -/
theorem references_eq_zero (clear : frame.Clear T) (temp : T v) : (stmt : Stmt) →
    {live : List Nat} → stmt.Scoped T live → v ∉ live → v ∉ stmt.binders →
      references v (stmt.code frame) = 0
  | declare _, _, _, _, _ | leave, _, _, _, _ => by simp [code, references]
  | assign w value retained, live, inScope, free, _ => by
    simpa [code, references] using Value.references_eq_zero temp free clear inScope.2.2
  | block items, live, inScope, free, fresh => by
    simpa [code, references] using
      referencesAll_eq_zero clear temp items inScope free (by simpa [binders] using fresh)
  | guarded cond body, live, inScope, free, fresh => by
    have test := Cond.references_eq_zero temp clear inScope.1
    have inner := references_eq_zero clear temp body inScope.2 free (by simpa [binders] using fresh)
    simp [code, references, referencesAll, test, inner]
  | onResult r matched failed, live, inScope, free, fresh => by
    simp only [binders, List.mem_append, not_or] at fresh
    have first := references_eq_zero clear temp matched inScope.2.1 free fresh.1
    have second := references_eq_zero clear temp failed inScope.2.2 free fresh.2
    simp [code, references, referencesAll, ne_of_not_temp temp inScope.1, first, second]
  | loop body, live, inScope, free, fresh => by
    have inner :=
      references_eq_zero clear temp body inScope (by simp) (by simpa [binders] using fresh)
    simp [code, references, referencesAll, inner]
  | accept rule stop move, live, inScope, free, _ =>
    (references_accept clear temp rule stop move).2 (Place.references_eq_zero temp free inScope)
  | fail owner r, live, inScope, _, _ => by
    simp [code, Frame.confirmPending, references, referencesAll, ne_of_not_temp temp inScope,
      ne_of_not_temp temp clear.cursor, ne_of_not_temp temp clear.pending]
  | dispatch stages arms otherwise, live, inScope, free, fresh => by
    simp only [binders, List.mem_append, not_or] at fresh
    have listed := referencesAll_arms_eq_zero clear temp arms stages inScope.1 fresh.1
    have last := references_eq_zero clear temp otherwise inScope.2 (by simp) fresh.2
    simp [code, references, referencesAll, listed, last]
theorem referencesAll_eq_zero (clear : frame.Clear T) (temp : T v) : (items : List Stmt) →
    {live : List Nat} → ScopedAll T live items → v ∉ live → v ∉ bindersAll items →
      referencesAll v (codes frame items) = 0
  | [], _, _, _, _ => by simp [codes, referencesAll]
  | item :: rest, live, inScope, free, fresh => by
    simp only [bindersAll, List.mem_append, not_or] at fresh
    rw [ScopedAll] at inScope
    cases bind : item.binding? with
    | none =>
      rw [bind] at inScope
      rw [codes, referencesAll, references_eq_zero clear temp item inScope.1 free fresh.1,
        referencesAll_eq_zero clear temp rest inScope.2 free fresh.2]
    | some binding =>
      obtain ⟨w, r⟩ := binding
      rw [bind] at inScope
      obtain rfl := eq_assign_of_binding? bind
      have other : v ≠ w := by simpa [binders] using fresh.1
      rw [codes, referencesAll,
        referencesAll_eq_zero clear temp rest inScope.2.2 (by simp [other, free]) fresh.2]
      simp [code, Value.code, references, referencesAll, ne_of_not_temp temp inScope.2.1]
theorem referencesAll_arms_eq_zero (clear : frame.Clear T) (temp : T v) : (arms : List Stmt) →
    (stages : List String) → ScopedEach T arms → v ∉ bindersAll arms →
      referencesAll v (armCodes frame stages arms) = 0
  | [], _, _, _ => by simp [armCodes, referencesAll]
  | arm :: rest, [], _, _ => by simp [armCodes, referencesAll]
  | arm :: rest, stage :: stages, inScope, fresh => by
    simp only [bindersAll, List.mem_append, not_or] at fresh
    have first := references_eq_zero clear temp arm inScope.1 (by simp) fresh.1
    have others := referencesAll_arms_eq_zero clear temp rest stages inScope.2 fresh.2
    simp [armCodes, armHead, references, referencesAll, first, others]
end

private theorem unassigned_place (place : Place) :
    (flatten place.code).any (assigns [v]) = false := by
  cases place <;> simp [Place.code, flatten, flattenAll, assigns]

private theorem unassigned_cond (cond : Cond) (chunk : Nat) :
    (flatten (cond.code chunk)).any (assigns [v]) = false := by
  cases cond <;> simp [Cond.code, flatten, flattenAll, assigns]

mutual
/-- Of the temporaries only the binders are assigned. -/
theorem unassigned (clear : frame.Clear T) (temp : T v) : (stmt : Stmt) → {live : List Nat} →
    stmt.Scoped T live → v ∉ stmt.binders → (flatten (stmt.code frame)).any (assigns [v]) = false
  | declare _, _, _, _ | leave, _, _, _ => by simp [code, flatten, assigns]
  | assign w value retained, _, inScope, _ => by
    simp [code, flatten, assigns, ne_of_not_temp temp inScope.2.1]
  | block items, _, inScope, fresh => by
    simpa [code] using unassignedAll clear temp items inScope (by simpa [binders] using fresh)
  | guarded cond body, _, inScope, fresh => by
    have inner := unassigned clear temp body inScope.2 (by simpa [binders] using fresh)
    simp only [code, flatten_block, flattenAll, List.any_append, inner, unassigned_cond]
    simp [flatten, assigns]
  | onResult r matched failed, _, inScope, fresh => by
    simp only [binders, List.mem_append, not_or] at fresh
    have first := unassigned clear temp matched inScope.2.1 fresh.1
    have second := unassigned clear temp failed inScope.2.2 fresh.2
    simp only [code, flatten_block, flattenAll, List.any_append, first, second]
    simp [flatten, assigns]
  | loop body, _, inScope, fresh => by
    have inner := unassigned clear temp body inScope (by simpa [binders] using fresh)
    simp only [code, flatten_block, flattenAll, List.any_append, inner]
    simp [flatten, assigns]
  | accept rule stop move, _, _, _ => by
    have place := unassigned_place (v := v) stop
    cases move <;>
    · simp only [code, Frame.confirmPending, Frame.stageMove, flatten_block, flattenAll,
        List.any_append, place]
      simp [flatten, assigns, ne_of_not_temp temp clear.cursor, ne_of_not_temp temp clear.pending]
  | fail owner r, _, _, _ => by
    simp [code, Frame.confirmPending, flatten, flattenAll, assigns]
  | dispatch stages arms otherwise, _, inScope, fresh => by
    simp only [binders, List.mem_append, not_or] at fresh
    have listed := unassignedArms clear temp arms stages inScope.1 fresh.1
    have last := unassigned clear temp otherwise inScope.2 fresh.2
    simp only [code, flatten_block, flattenAll, List.any_append, listed, last]
    simp [flatten, assigns]
theorem unassignedAll (clear : frame.Clear T) (temp : T v) : (items : List Stmt) →
    {live : List Nat} → ScopedAll T live items → v ∉ bindersAll items →
      (flattenAll (codes frame items)).any (assigns [v]) = false
  | [], _, _, _ => by simp [codes, flattenAll]
  | item :: rest, live, inScope, fresh => by
    simp only [bindersAll, List.mem_append, not_or] at fresh
    rw [ScopedAll] at inScope
    rw [codes, flattenAll, List.any_append, Bool.or_eq_false_iff]
    cases bind : item.binding? with
    | none =>
      rw [bind] at inScope
      exact ⟨unassigned clear temp item inScope.1 fresh.1,
        unassignedAll clear temp rest inScope.2 fresh.2⟩
    | some binding =>
      obtain ⟨w, r⟩ := binding
      rw [bind] at inScope
      obtain rfl := eq_assign_of_binding? bind
      have other : v ≠ w := by simpa [binders] using fresh.1
      exact ⟨by simp [code, flatten, assigns, other.symm],
        unassignedAll clear temp rest inScope.2.2 fresh.2⟩
theorem unassignedArms (clear : frame.Clear T) (temp : T v) : (arms : List Stmt) →
    (stages : List String) → ScopedEach T arms → v ∉ bindersAll arms →
      (flattenAll (armCodes frame stages arms)).any (assigns [v]) = false
  | [], _, _, _ | _ :: _, [], _, _ => by simp [armCodes, flattenAll]
  | arm :: rest, stage :: stages, inScope, fresh => by
    simp only [bindersAll, List.mem_append, not_or] at fresh
    have first := unassigned clear temp arm inScope.1 fresh.1
    have others := unassignedArms clear temp rest stages inScope.2 fresh.2
    simp only [armCodes, flattenAll, flatten_block, List.any_append, first, others]
    simp [armHead, flatten, assigns]
end

theorem unassigned_head (clear : frame.Clear T) (temp : T v) {item : Stmt} {rest : List Stmt}
    (inScope : ScopedAll T live (item :: rest)) (fresh : v ∉ item.binders) :
    (flatten (item.code frame)).any (assigns [v]) = false := by
  rw [ScopedAll] at inScope
  cases bind : item.binding? with
  | none =>
    rw [bind] at inScope
    exact unassigned clear temp item inScope.1 fresh
  | some binding =>
    obtain rfl := eq_assign_of_binding? bind
    have other : v ≠ binding.1 := by simpa [binders] using fresh
    simp [code, flatten, assigns, other.symm]

theorem ScopedAll.tail {item : Stmt} {rest : List Stmt}
    (inScope : ScopedAll T live (item :: rest)) : ∃ live', ScopedAll T live' rest := by
  rw [ScopedAll] at inScope
  cases bind : item.binding? with
  | none =>
    rw [bind] at inScope
    exact ⟨live, inScope.2⟩
  | some binding =>
    rw [bind] at inScope
    exact ⟨_, inScope.2.2⟩

end Stmt

end StagedLexer
