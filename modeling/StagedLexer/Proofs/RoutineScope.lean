import StagedLexer.Proofs.GeneratedFlow
import StagedLexer.Proofs.Replacement

/-! The scope of the scan loop in the body of a routine, and statements whose accesses are in order
there. -/
namespace StagedLexer

open Code

variable {Ctx : Type}

namespace Routine

/-- The variables that come with the body of a routine: the chunk and the bound readers. -/
def Given (routine : Routine Ctx) (v : Nat) : Prop :=
  v = routine.frame.chunk ∨ v ∈ routine.assembler.bindings.map (·.1)

def entry (routine : Routine Ctx) : Scope :=
  Scope.behind ⟨routine.Given, routine.Given⟩ (.straight (prologue routine.frame).accesses)

/-- The shared variables are no others, and those that are declared do not come with the body. -/
structure Separate (routine : Routine Ctx) : Prop where
  cursor : ¬ routine.Given routine.frame.cursor
  pending : ¬ routine.Given routine.frame.pending
  different : routine.frame.pending ≠ routine.frame.cursor

variable {routine : Routine Ctx}

theorem accesses_prologue (frame : Frame) : (prologue frame).accesses =
    [.read frame.chunk, .declare frame.cursor, .assign frame.cursor, .declare frame.pending,
      .assign frame.pending] := by
  simp [prologue, accesses, accessesAll]

theorem entry_ready {v : Nat} : routine.entry.ready v ↔
    routine.Given v ∨ v = routine.frame.cursor ∨ v = routine.frame.pending := by
  simp [entry, Scope.behind, Shape.Gains, accesses_prologue]

theorem entry_shares (separate : routine.Separate) :
    routine.entry.Shares routine.Given routine.frame := by
  have visible (v : Nat) (shared : v = routine.frame.cursor ∨ v = routine.frame.pending) :
      routine.entry.Has v := by
    refine ⟨.inr ?_, entry_ready.mpr (.inr shared)⟩
    simpa [Shape.Opens, accesses_prologue] using shared
  exact ⟨fun v among => ⟨.inl among, .inl among⟩, .inl rfl, visible _ (.inl rfl),
    visible _ (.inr rfl), separate.cursor, separate.pending⟩

theorem fits_shape (separate : routine.Separate) {dispatch : Stmt}
    (inside : (dispatch.shape routine.frame).Fits routine.Given routine.entry) :
    ({ routine with dispatch } : Routine Ctx).shape.Fits routine.Given
      ⟨routine.Given, routine.Given⟩ := by
  have shares := entry_shares separate
  have chunk := shares.known _ shares.chunk
  have first : Scope.Allows routine.Given ⟨routine.Given, routine.Given⟩
      (prologue routine.frame).accesses := by
    rw [accesses_prologue]
    refine ⟨.inl rfl, .inl rfl, separate.cursor, separate.cursor, separate.cursor, .inr rfl,
      separate.pending, ?_, separate.pending, .inr rfl, trivial⟩
    rintro (among | same)
    · exact separate.pending among
    · exact separate.different same
  have test : routine.entry.Allows routine.Given
      [.read routine.frame.cursor, .read routine.frame.chunk] := by
    simp [chunk.allows_read, shares.cursor.allows_read]
  have last (scope : Scope) (shares : scope.Shares routine.Given routine.frame) :
      scope.Allows routine.Given (epilogue routine.frame).accesses := by
    simp [epilogue, accesses, accessesAll, shares.cursor.allows_read, shares.pending.allows_read,
      (shares.known _ shares.chunk).allows_read]
  exact ⟨first, ⟨test, ⟨inside, trivial⟩, trivial⟩, last _ (shares.behind _)⟩

theorem declared_shape : routine.shape.declared =
    routine.frame.cursor :: routine.frame.pending ::
      (routine.dispatch.shape routine.frame).declared := by
  have front : (Shape.straight (prologue routine.frame).accesses).declared =
      [routine.frame.cursor, routine.frame.pending] := by
    rw [Shape.declared, Shape.accesses, accesses_prologue]
    rfl
  have last : (Shape.straight (epilogue routine.frame).accesses).declared = [] := by
    simp [Shape.declared, Shape.accesses, epilogue, accesses, accessesAll]
  have test : [Access.read routine.frame.cursor, .read routine.frame.chunk].filterMap
      Access.declared? = [] := rfl
  simp [shape, front, last, test]

/-- The accesses of the statement are in order in the scan loop, and it declares other variables
than the shared ones, each once. -/
structure Orderly (routine : Routine Ctx) (stmt : Stmt) : Prop where
  distinct : (routine.frame.cursor :: routine.frame.pending ::
    (stmt.shape routine.frame).declared).Nodup
  fits : (stmt.shape routine.frame).Fits routine.Given routine.entry

theorem orderly_ofLexicon (lexicon : Lexicon Ctx) :
    (ofLexicon lexicon).Separate ∧ (ofLexicon lexicon).Orderly (ofLexicon lexicon).dispatch := by
  let routine := ofLexicon lexicon
  let start : Assembler Ctx := { nextVar := 3 }
  obtain ⟨names, declares, listed, fits⟩ := dispatchStmt_laid lexicon routine.frame start
  have high (v : Nat) (member : v ∈ names) : 3 ≤ v := (declares.fresh.range v member).1
  -- No variable of the start and none that is declared is bound to a reader.
  have unbound : (dispatchStmt lexicon 1 start).2.Unbound fun v => v < 3 ∨ v ∈ names := by
    refine declares.unbound (fun v low _ => ?_) (by simp [Assembler.Unbound, start])
    exact or_iff_right (Nat.not_lt.mpr low)
  have apart {v : Nat} (own : v < 3 ∨ v ∈ names) (other : v ≠ 0) : ¬ routine.Given v := by
    rintro (same | among)
    · exact other same
    · obtain ⟨binding, member, rfl⟩ := List.mem_map.mp among
      exact unbound binding member own
  have cursor : ¬ routine.Given 1 := apart (.inl (by decide)) (by decide)
  have pending : ¬ routine.Given 2 := apart (.inl (by decide)) (by decide)
  have separate : routine.Separate := ⟨cursor, pending, show 2 ≠ 1 by decide⟩
  refine ⟨separate, ?_, ?_⟩
  · have fresh (v : Nat) (member : v ∈ (routine.dispatch.shape routine.frame).declared) : 3 ≤ v :=
      high v (listed.subset member)
    refine List.nodup_cons.mpr ⟨?_, List.nodup_cons.mpr ⟨fun member => ?_, ?_⟩⟩
    · rintro (_ | ⟨_, member⟩)
      exact absurd (fresh 1 member) (by decide)
    · exact absurd (fresh 2 member) (by decide)
    · exact listed.nodup declares.fresh.distinct
  · refine fits ?_ ⟨entry_shares separate, (entry_shares separate).cursor, fun v member => ?_⟩
    · exact fun binding member => .inr (List.mem_map_of_mem member)
    · have positive : 0 < v := Nat.lt_of_lt_of_le (by decide) (high v member)
      have own : ¬ routine.Given v := apart (.inr member) (Nat.ne_of_gt positive)
      refine ⟨own, fun known => ?_⟩
      rcases entry_ready.mp known with among | rfl | rfl
      · exact own among
      · exact absurd (high 1 member) (by decide)
      · exact absurd (high 2 member) (by decide)

theorem Orderly.of_becomes {T : Nat → Prop} {stmt other : Stmt} (orderly : routine.Orderly stmt)
    (becomes : Stmt.Becomes Ctx T routine.frame stmt other) : routine.Orderly other :=
  ⟨((becomes.declared.cons_cons _).cons_cons _).nodup orderly.distinct, becomes.fits orderly.fits⟩

end Routine

end StagedLexer
