import StagedLexer.Proofs.OptimizedFlow
import StagedLexer.Proofs.StatementTypes

/-! What the optimizer makes of a statement. Between pieces of code that it leaves as they are, the
statement becomes another one that can stand in its place. -/
namespace StagedLexer

open Code

variable {Ctx : Type} {T : Nat → Prop} {frame : Frame}

namespace Stmt

/-- The other statement can stand in place of the first one. Up to temporaries it runs in the same
way, its variables have the same types, its accesses are in order wherever those of the first one
are, it declares no other variables and assigns the same ones. -/
structure Becomes (Ctx : Type) (T : Nat → Prop) (frame : Frame) (stmt other : Stmt) : Prop where
  runs : ∀ (s : Surroundings Ctx) (rounds : Nat) (m : Machine), s.frame = frame →
    Surroundings.Alike (Kept T []) (s.exec rounds stmt m) (s.exec rounds other m)
  typed : ∀ {kinds rules}, stmt.Typed kinds rules → other.Typed kinds rules
  fits : ∀ {given scope}, (stmt.shape frame).Fits given scope → (other.shape frame).Fits given scope
  declared : (other.shape frame).declared.Sublist (stmt.shape frame).declared
  gains : ∀ {v}, ¬ T v → (stmt.shape frame).Gains v → (other.shape frame).Gains v

variable {stmt other : Stmt}

theorem Becomes.refl (stmt : Stmt) : Becomes Ctx T frame stmt stmt :=
  ⟨fun _ _ _ _ => ⟨rfl, Machine.Agrees.refl _⟩, id, id, List.Sublist.refl _, fun _ => id⟩

theorem Becomes.pass (becomes : Becomes Ctx T frame stmt other) (clear : frame.Clear T)
    (inScope : other.Scoped T []) (distinct : other.binders.Nodup) :
    Becomes Ctx T frame stmt (other.pass frame) := by
  have improves := improves_pass clear other inScope distinct (by simp)
  refine ⟨fun s rounds m same => ?_, fun typed => (becomes.typed typed).pass frame other,
    fun fits => improves.fits (becomes.fits fits), improves.declared ▸ becomes.declared,
    fun plain gains => improves.kept _ (fun bound => plain ?_) (becomes.gains plain gains)⟩
  · have next : s.Mimics rounds (Kept T []) other (other.pass s.frame) :=
      Surroundings.mimics_pass (same ▸ clear) other inScope distinct (by simp)
    rw [same] at next
    exact (becomes.runs s rounds m same).trans (next m m (Machine.Agrees.refl m))
  · exact temp_of_mem_binders other inScope _ bound

theorem Becomes.undeclare (becomes : Becomes Ctx T frame stmt other) {vars : List Nat}
    (listed : used (flatten (other.code frame)) ⊆ vars) :
    Becomes Ctx T frame stmt (other.undeclare vars) := by
  refine ⟨fun s rounds m same => ?_, fun typed => (becomes.typed typed).undeclare vars other,
    fun fits => ?_, ?_, fun plain gains => ?_⟩
  · rw [Surroundings.exec_undeclare]
    exact becomes.runs s rounds m same
  · rw [shape_undeclare]
    exact (becomes.fits fits).filter fun v occurs => listed (mem_used occurs)
  · rw [shape_undeclare]
    exact Shape.declared_filter.trans becomes.declared
  · rw [shape_undeclare]
    exact Shape.gains_filter.mpr (becomes.gains plain gains)

/-- The optimizer makes of a statement one that can stand in its place. -/
theorem exists_replacement (clear : frame.Clear T) (inScope : stmt.Scoped T [])
    (distinct : stmt.binders.Nodup) {front behind : List Code} (steadfast : Steadfast front)
    (steadfast' : Steadfast behind) (unreferenced : ∀ v, T v → referencesAll v behind = 0)
    {code : Code} (form : flatten code = front ++ (flatten (stmt.code frame) ++ behind)) :
    ∃ other : Stmt, flatten code.optimize = front ++ (flatten (other.code frame) ++ behind) ∧
      Becomes Ctx T frame stmt other := by
  have kept (other : Stmt) (inScope : other.Scoped T []) (distinct : other.binders.Nodup)
      (becomes : Becomes Ctx T frame stmt other) : Becomes Ctx T frame stmt (other.pass frame) :=
    becomes.pass clear inScope distinct
  obtain ⟨other, becomes, equal⟩ := exists_undeclared clear inScope distinct kept (.refl stmt)
    steadfast steadfast' unreferenced form
  refine ⟨_, equal, becomes.undeclare fun v member => ?_⟩
  rw [used_append, used_append]
  exact List.mem_append_right _ (List.mem_append_left _ member)

end Stmt

/-- The optimizer makes of the body of a routine that with another statement. -/
theorem Routine.exists_replacement {routine : Routine Ctx} (clear : routine.frame.Clear T)
    (inScope : routine.dispatch.Scoped T []) (distinct : routine.dispatch.binders.Nodup) :
    ∃ dispatch : Stmt,
      flatten routine.body.optimize = flatten ({ routine with dispatch } : Routine Ctx).body ∧
      Stmt.Becomes Ctx T routine.frame routine.dispatch dispatch := by
  have kept (other : Stmt) (inScope : other.Scoped T []) (distinct : other.binders.Nodup)
      (becomes : Stmt.Becomes Ctx T routine.frame routine.dispatch other) :
      Stmt.Becomes Ctx T routine.frame routine.dispatch (other.pass routine.frame) :=
    becomes.pass clear inScope distinct
  obtain ⟨other, vars, becomes, listed, equal⟩ :=
    exists_undeclared clear inScope distinct kept (.refl _)
  exact ⟨other.undeclare vars, equal, becomes.undeclare listed⟩

end StagedLexer
