import Mathlib.Data.List.Pairwise
import StagedLexer.Code.Assembler

/-! The variables that an assembler gives out. A reader gets one variable however often it is bound,
and everything else gets a variable of its own. -/
namespace StagedLexer.Assembler

variable {Ctx : Type}

/-- What an assembler is asked for: a new variable, or the variable of a reader. -/
inductive Operation (Ctx : Type) where
  | var
  | bind (reader : Reader Ctx)

/-- Whether both operations bind readers with one identity. -/
def Operation.Same (a b : Operation Ctx) : Prop :=
  ∃ reader other, a = bind reader ∧ b = bind other ∧ reader.id = other.id

def operate (asm : Assembler Ctx) : Operation Ctx → Nat × Assembler Ctx
  | .var => asm.var
  | .bind reader => asm.bind reader

/-- The variables that operations return one after the other. -/
def operateAll (asm : Assembler Ctx) : List (Operation Ctx) → List Nat × Assembler Ctx
  | [] => ([], asm)
  | op :: rest =>
    let (v, asm) := asm.operate op
    let (more, asm) := asm.operateAll rest
    (v :: more, asm)

/-- The assembler has done these operations, which have returned these variables. -/
structure Recorded (asm : Assembler Ctx) (done : List (Operation Ctx × Nat)) : Prop where
  below : ∀ entry ∈ done, entry.2 < asm.nextVar
  count : asm.nextVar ≤ done.length
  bound : ∀ binding ∈ asm.bindings, (.bind binding.2, binding.1) ∈ done
  complete : ∀ reader v, (.bind reader, v) ∈ done →
    ∃ binding ∈ asm.bindings, binding.1 = v ∧ binding.2.id = reader.id
  coherent : done.Pairwise fun x y => x.2 = y.2 ↔ x.1.Same y.1

variable {asm : Assembler Ctx} {done : List (Operation Ctx × Nat)} {op : Operation Ctx}

theorem Operation.Same.symm {a b : Operation Ctx} (same : a.Same b) : b.Same a := by
  obtain ⟨reader, other, rfl, rfl, equal⟩ := same
  exact ⟨other, reader, rfl, rfl, equal.symm⟩

theorem Operation.Same.trans {a b c : Operation Ctx} (first : a.Same b) (second : b.Same c) :
    a.Same c := by
  obtain ⟨reader, other, rfl, rfl, equal⟩ := first
  obtain ⟨_, last, here, rfl, equal'⟩ := second
  cases here
  exact ⟨reader, last, rfl, rfl, equal.trans equal'⟩

namespace Recorded

/-- Among what has been done, one variable belongs to one reader. -/
theorem iff_of_mem (recorded : asm.Recorded done) {x y : Operation Ctx × Nat} (inX : x ∈ done)
    (inY : y ∈ done) : (x.1.Same y.1 → x.2 = y.2) ∧ (x.2 = y.2 → x = y ∨ x.1.Same y.1) := by
  let Agree (x y : Operation Ctx × Nat) : Prop :=
    (x.1.Same y.1 → x.2 = y.2) ∧ (x.2 = y.2 → x = y ∨ x.1.Same y.1)
  have symmetric : Std.Symm Agree := ⟨fun x y both => ⟨fun same => (both.1 same.symm).symm,
    fun equal => (both.2 equal.symm).imp Eq.symm Operation.Same.symm⟩⟩
  have agree : done.Pairwise Agree :=
    recorded.coherent.imp fun same => ⟨same.mpr, fun equal => .inr (same.mp equal)⟩
  exact agree.forall_of_forall (fun x _ => ⟨fun _ => rfl, fun _ => .inl rfl⟩) inX inY

/-- A variable that is new, for an operation that has not been done for the same reader. -/
private theorem step_new (recorded : asm.Recorded done)
    (new : ∀ entry ∈ done, ¬ entry.1.Same op) {after : Assembler Ctx}
    (next : after.nextVar = asm.nextVar + 1)
    (bound : ∀ binding ∈ after.bindings,
      binding ∈ asm.bindings ∨ op = .bind binding.2 ∧ binding.1 = asm.nextVar)
    (kept : asm.bindings ⊆ after.bindings)
    (complete : ∀ reader, op = .bind reader → (asm.nextVar, reader) ∈ after.bindings) :
    after.Recorded (done ++ [(op, asm.nextVar)]) := by
  refine ⟨fun entry member => ?_, ?_, fun binding member => ?_, fun reader v member => ?_, ?_⟩
  · rcases List.mem_append.mp member with old | last
    · have less := recorded.below entry old
      omega
    · rw [List.mem_singleton.mp last, next]
      exact Nat.lt_succ_self _
  · rw [List.length_append, next]
    exact Nat.succ_le_succ recorded.count
  · rcases bound binding member with old | ⟨rfl, here⟩
    · exact List.mem_append_left _ (recorded.bound binding old)
    · rw [here]
      exact List.mem_append_right _ (List.mem_singleton_self _)
  · rcases List.mem_append.mp member with old | last
    · obtain ⟨binding, inside, equal⟩ := recorded.complete reader v old
      exact ⟨binding, kept inside, equal⟩
    · obtain ⟨equal, rfl⟩ := Prod.mk.inj (List.mem_singleton.mp last)
      exact ⟨_, complete reader equal.symm, rfl, rfl⟩
  · rw [List.pairwise_append]
    refine ⟨recorded.coherent, List.pairwise_singleton _ _, fun x inX y inY => ?_⟩
    rw [List.mem_singleton.mp inY]
    have less := recorded.below x inX
    exact iff_of_false (Nat.ne_of_lt less) (new x inX)

/-- The variable of a reader that is bound already. -/
private theorem step_old (recorded : asm.Recorded done) {binding : Nat × Reader Ctx}
    {reader : Reader Ctx} (inside : binding ∈ asm.bindings) (known : binding.2.id = reader.id) :
    asm.Recorded (done ++ [(Operation.bind reader, binding.1)]) := by
  have listed := recorded.bound binding inside
  have same : Operation.Same (.bind binding.2) (.bind reader : Operation Ctx) :=
    ⟨_, _, rfl, rfl, known⟩
  refine ⟨fun entry member => ?_, ?_, fun other member => ?_, fun other v member => ?_, ?_⟩
  · rcases List.mem_append.mp member with old | last
    · exact recorded.below entry old
    · rw [List.mem_singleton.mp last]
      exact recorded.below (.bind binding.2, binding.1) listed
  · rw [List.length_append]
    exact Nat.le_trans recorded.count (Nat.le_add_right _ _)
  · exact List.mem_append_left _ (recorded.bound other member)
  · rcases List.mem_append.mp member with old | last
    · exact recorded.complete other v old
    · obtain ⟨equal, rfl⟩ := Prod.mk.inj (List.mem_singleton.mp last)
      cases equal
      exact ⟨binding, inside, rfl, known⟩
  · rw [List.pairwise_append]
    refine ⟨recorded.coherent, List.pairwise_singleton _ _, fun x inX y inY => ?_⟩
    rw [List.mem_singleton.mp inY]
    have both := recorded.iff_of_mem inX listed
    constructor
    · intro equal
      rcases both.2 equal with rfl | first
      · exact same
      · exact first.trans same
    · exact fun first => both.1 (first.trans same.symm)

theorem operate (recorded : asm.Recorded done) (op : Operation Ctx) :
    (asm.operate op).2.Recorded (done ++ [(op, (asm.operate op).1)]) := by
  cases op with
  | var =>
    change asm.var.2.Recorded (done ++ [(Operation.var, asm.nextVar)])
    apply recorded.step_new
    · rintro entry - ⟨_, _, -, impossible, -⟩
      cases impossible
    · rfl
    · exact fun binding member => .inl member
    · exact fun _ member => member
    · rintro reader ⟨⟩
  | bind reader =>
    -- A reader that is bound already keeps its variable; another one gets a new variable.
    cases found : asm.bindings.find? fun binding => binding.2.id == reader.id with
    | none =>
      have made : asm.bind reader = (asm.nextVar,
          { nextVar := asm.nextVar + 1, bindings := asm.bindings ++ [(asm.nextVar, reader)] }) := by
        rw [Assembler.bind, found]
      change (asm.bind reader).2.Recorded (done ++ [(Operation.bind reader, (asm.bind reader).1)])
      rw [made]
      apply recorded.step_new
      · rintro ⟨_, v⟩ member ⟨other, _, rfl, equal, same⟩
        cases equal
        obtain ⟨binding, inside, -, known⟩ := recorded.complete other v member
        have missing := List.find?_eq_none.mp found binding inside
        exact missing (beq_iff_eq.mpr (known.trans same))
      · rfl
      · intro binding member
        rcases List.mem_append.mp member with old | new
        · exact .inl old
        · rw [List.mem_singleton.mp new]
          exact .inr ⟨rfl, rfl⟩
      · exact List.subset_append_left _ _
      · rintro _ ⟨⟩
        exact List.mem_append_right _ (List.mem_singleton_self _)
    | some binding =>
      have made : asm.bind reader = (binding.1, asm) := by
        rw [Assembler.bind, found]
      change (asm.bind reader).2.Recorded (done ++ [(Operation.bind reader, (asm.bind reader).1)])
      rw [made]
      exact recorded.step_old (List.mem_of_find?_eq_some found) (by simpa using List.find?_some found)

theorem operateAll (recorded : asm.Recorded done) (ops : List (Operation Ctx)) :
    (asm.operateAll ops).2.Recorded (done ++ ops.zip (asm.operateAll ops).1) := by
  induction ops generalizing asm done with
  | nil => simpa [Assembler.operateAll] using recorded
  | cons op rest ih =>
    have behind := ih (recorded.operate op)
    rwa [List.append_assoc] at behind

end Recorded

theorem length_operateAll (asm : Assembler Ctx) (ops : List (Operation Ctx)) :
    (asm.operateAll ops).1.length = ops.length := by
  induction ops generalizing asm with
  | nil => rfl
  | cons op rest ih => exact congrArg Nat.succ (ih _)

theorem recorded_operateAll (ops : List (Operation Ctx)) :
    (operateAll {} ops).2.Recorded (ops.zip (operateAll {} ops).1) := by
  have start : Recorded ({} : Assembler Ctx) [] :=
    ⟨by simp, Nat.le_refl 0, by simp, by simp, .nil⟩
  exact start.operateAll ops

theorem lt_of_mem_operateAll (ops : List (Operation Ctx)) {v : Nat}
    (member : v ∈ (operateAll {} ops).1) : v < ops.length := by
  have recorded := recorded_operateAll ops
  have lengths := length_operateAll {} ops
  obtain ⟨i, inside, rfl⟩ := List.mem_iff_getElem.mp member
  have listed : (ops[i], (operateAll {} ops).1[i]) ∈ ops.zip (operateAll {} ops).1 :=
    List.mem_iff_getElem.mpr ⟨i, by rw [List.length_zip]; omega, List.getElem_zip⟩
  have below := recorded.below _ listed
  have count := recorded.count
  rw [List.length_zip] at count
  exact Nat.lt_of_lt_of_le below (Nat.le_trans count (Nat.min_le_left _ _))

/-- Two operations return one variable exactly if they bind one reader. -/
theorem operateAll_coherent (ops : List (Operation Ctx)) {i j : Nat} (ordered : i < j)
    (inside : j < ops.length) :
    (operateAll {} ops).1[i]? = (operateAll {} ops).1[j]? ↔
      ∃ reader other, ops[i]? = some (.bind reader) ∧ ops[j]? = some (.bind other) ∧
        reader.id = other.id := by
  have lengths := length_operateAll {} ops
  have count : (ops.zip (operateAll {} ops).1).length = ops.length := by
    rw [List.length_zip, lengths, Nat.min_self]
  have coherent := List.pairwise_iff_getElem.mp (recorded_operateAll ops).coherent i j
    (by omega) (by omega) ordered
  rw [List.getElem_zip, List.getElem_zip] at coherent
  rw [List.getElem?_eq_getElem (by omega), List.getElem?_eq_getElem (by omega),
    List.getElem?_eq_getElem inside, List.getElem?_eq_getElem (by omega)]
  simpa [Operation.Same] using coherent

end StagedLexer.Assembler
