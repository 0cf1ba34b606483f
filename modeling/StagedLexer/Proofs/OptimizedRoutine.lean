import StagedLexer.Proofs.PassRun

/-! The optimized body of a routine. It is the body of a routine again, with a statement that runs as
the one before does but for temporaries. -/
namespace StagedLexer

open Code

namespace Code

/-- What passes keep is kept until nothing more applies. -/
theorem settle_induction (holds : List Code → Prop)
    (step : ∀ items, holds items → holds (passed items)) (items : List Code) (passes : Nat)
    (start : holds items) : holds (settle items passes).1 := by
  fun_induction settle items passes with
  | case1 items passes items' notes equal none =>
    have next := step items start
    simpa [passed, equal, none] using next
  | case2 items passes items' notes equal some shorter items'' more passes' rest ih =>
    have next := step items start
    rw [passed, equal] at next
    have done := ih next
    simp only [rest] at done
    simpa [equal, some, rest] using done

/-- Whether the statement is no declaration of a variable that is not among `vars`. -/
def isNeeded (vars : List Nat) : Code → Bool
  | declare v => vars.contains v
  | _ => true

theorem dropUnused_eq (items : List Code) :
    dropUnused items = items.filter (isNeeded (used items)) := by
  rfl

theorem used_append (front behind : List Code) :
    used (front ++ behind) = used front ++ used behind := by
  simp [used]

end Code

namespace Stmt

mutual
/-- The statement without declarations of variables that are not among `vars`. -/
def undeclare (vars : List Nat) : Stmt → Stmt
  | declare v => if vars.contains v then declare v else block []
  | block items => block (undeclareAll vars items)
  | guarded cond body => guarded cond (undeclare vars body)
  | onResult r matched failed => onResult r (undeclare vars matched) (undeclare vars failed)
  | loop body => loop (undeclare vars body)
  | dispatch stages arms otherwise =>
    dispatch stages (undeclareAll vars arms) (undeclare vars otherwise)
  | assign v value retained => assign v value retained
  | leave => leave
  | accept rule stop move => accept rule stop move
  | fail owner r => fail owner r
def undeclareAll (vars : List Nat) : List Stmt → List Stmt
  | [] => []
  | item :: rest => undeclare vars item :: undeclareAll vars rest
end

variable {frame : Frame} {vars : List Nat}

private theorem filter_place (place : Place) :
    (flatten place.code).filter (isNeeded vars) = flatten place.code := by
  cases place <;> simp [Place.code, flatten, flattenAll, isNeeded]

private theorem filter_cond (cond : Cond) (chunk : Nat) :
    (flatten (cond.code chunk)).filter (isNeeded vars) = flatten (cond.code chunk) := by
  cases cond <;> simp [Cond.code, flatten, flattenAll, isNeeded]

mutual
/-- Dropping declarations from the emitted source drops them from the statement. -/
theorem flatten_code_undeclare : (stmt : Stmt) →
    flatten ((stmt.undeclare vars).code frame) =
      (flatten (stmt.code frame)).filter (isNeeded vars)
  | declare v => by
    cases listed : vars.contains v <;>
      simp only [undeclare, code, codes, flatten, flattenAll, List.filter, isNeeded, listed, if_true,
        Bool.false_eq_true, if_false]
  | assign _ _ _ | leave => by simp [undeclare, code, flatten, List.filter, isNeeded]
  | block items => by
    simpa [undeclare, code] using flattenAll_codes_undeclareAll items
  | guarded cond body => by
    simp only [undeclare, code, flatten_block, flattenAll, List.filter_append, filter_cond,
      flatten_code_undeclare body]
    simp [flatten, List.filter, isNeeded]
  | onResult r matched failed => by
    simp only [undeclare, code, flatten_block, flattenAll, List.filter_append,
      flatten_code_undeclare matched, flatten_code_undeclare failed]
    simp [flatten, List.filter, isNeeded]
  | loop body => by
    simp only [undeclare, code, flatten_block, flattenAll, List.filter_append,
      flatten_code_undeclare body]
    simp [flatten, List.filter, isNeeded]
  | accept rule stop move => by
    have place : (flatten stop.code).filter (isNeeded vars) = flatten stop.code :=
      filter_place stop
    cases move <;>
    · simp only [undeclare, code, Frame.confirmPending, Frame.stageMove, flatten_block, flattenAll,
        List.filter_append, place]
      simp [flatten, List.filter, isNeeded]
  | fail owner r => by
    simp [undeclare, code, Frame.confirmPending, flatten, flattenAll, List.filter, isNeeded]
  | dispatch stages arms otherwise => by
    simp only [undeclare, code, flatten_block, flattenAll, List.filter_append,
      flattenAll_armCodes_undeclareAll arms stages, flatten_code_undeclare otherwise]
    simp [flatten, List.filter, isNeeded]
theorem flattenAll_codes_undeclareAll : (items : List Stmt) →
    flattenAll (codes frame (undeclareAll vars items)) =
      (flattenAll (codes frame items)).filter (isNeeded vars)
  | [] => by simp [undeclareAll, codes, flattenAll]
  | item :: rest => by
    rw [undeclareAll, codes, codes, flattenAll, flattenAll, List.filter_append,
      flatten_code_undeclare item, flattenAll_codes_undeclareAll rest]
theorem flattenAll_armCodes_undeclareAll : (arms : List Stmt) → (stages : List String) →
    flattenAll (armCodes frame stages (undeclareAll vars arms)) =
      (flattenAll (armCodes frame stages arms)).filter (isNeeded vars)
  | [], _ | _ :: _, [] => by simp [undeclareAll, armCodes, flattenAll]
  | arm :: rest, stage :: stages => by
    simp only [undeclareAll, armCodes, flattenAll, flatten_block, List.filter_append,
      flatten_code_undeclare arm, flattenAll_armCodes_undeclareAll rest stages]
    simp [armHead, flatten, List.filter, isNeeded]
end

end Stmt

namespace Surroundings

variable {Ctx : Type} {s : Surroundings Ctx} {rounds : Nat} {vars : List Nat}

mutual
theorem exec_undeclare : (stmt : Stmt) → (m : Machine) →
    s.exec rounds (stmt.undeclare vars) m = s.exec rounds stmt m
  | .declare v, m => by
    rw [Stmt.undeclare]
    split
    · rfl
    · rw [exec_block_nil, exec_declare]
  | .assign _ _ _, m | .leave, m | .accept _ _ _, m | .fail _ _, m => by rw [Stmt.undeclare]
  | .block items, m => by rw [Stmt.undeclare, exec, exec, execAll_undeclareAll items m]
  | .guarded cond body, m => by rw [Stmt.undeclare, exec, exec, exec_undeclare body m]
  | .onResult r matched failed, m => by
    rw [Stmt.undeclare, exec, exec, exec_undeclare matched m, exec_undeclare failed m]
  | .loop body, m => by
    have same : s.exec rounds (body.undeclare vars) = s.exec rounds body :=
      funext fun m => exec_undeclare body m
    rw [Stmt.undeclare, exec, exec, same]
  | .dispatch stages arms otherwise, m => by
    rw [Stmt.undeclare, exec, exec, execArm_undeclareAll arms stages m, exec_undeclare otherwise m]
theorem execAll_undeclareAll : (items : List Stmt) → (m : Machine) →
    s.execAll rounds (Stmt.undeclareAll vars items) m = s.execAll rounds items m
  | [], m => by rw [Stmt.undeclareAll]
  | item :: rest, m => by
    rw [Stmt.undeclareAll, execAll, execAll, exec_undeclare item m]
    rcases s.exec rounds item m with ⟨flow, m₁⟩
    cases flow with
    | next => exact execAll_undeclareAll rest m₁
    | leave | again | stop | fault => rfl
theorem execArm_undeclareAll : (arms : List Stmt) → (stages : List String) → (m : Machine) →
    s.execArm rounds stages (Stmt.undeclareAll vars arms) m = s.execArm rounds stages arms m
  | [], _, _ => by rw [Stmt.undeclareAll]
  | _ :: _, [], _ => by rw [Stmt.undeclareAll, execArm, execArm]
  | arm :: rest, stage :: stages, m => by
    rw [Stmt.undeclareAll, execArm, execArm, exec_undeclare arm m,
      execArm_undeclareAll rest stages m]
end

end Surroundings

namespace Code

/-- Flat code that is left as it is: no assignment of it may be removed, and no declaration. -/
structure Steadfast (items : List Code) : Prop where
  flat : flattenAll items = items
  plain : items.all (!·.isPassing)
  undeclared : ∀ vars, items.filter (isNeeded vars) = items

theorem Steadfast.passed {items : List Code} (steadfast : Steadfast items) :
    passed items = items := by
  have whole := passed_append steadfast.plain []
  rwa [List.append_nil, passed_nil, List.append_nil] at whole

theorem steadfast_nil : Steadfast [] := ⟨rfl, rfl, fun _ => rfl⟩

end Code

namespace Stmt

variable {Ctx : Type} {T : Nat → Prop} {frame : Frame} {stmt : Stmt} {front behind : List Code}

/-- The code is that of a scoped statement with a property between `front` and `behind`. -/
private def Framed (T : Nat → Prop) (frame : Frame) (holds : Stmt → Prop)
    (front behind items : List Code) : Prop :=
  ∃ other : Stmt, items = front ++ (flatten (other.code frame) ++ behind) ∧
    other.Scoped T [] ∧ other.binders.Nodup ∧ holds other

variable {holds : Stmt → Prop}

private theorem Framed.passed (clear : frame.Clear T)
    (kept : ∀ other : Stmt, other.Scoped T [] → other.binders.Nodup → holds other →
      holds (other.pass frame))
    (steadfast : Steadfast front) (steadfast' : Steadfast behind)
    (unreferenced : ∀ v, T v → referencesAll v behind = 0)
    {items : List Code} (framed : Framed T frame holds front behind items) :
    Framed T frame holds front behind (passed items) := by
  obtain ⟨other, rfl, inScope, distinct, found⟩ := framed
  refine ⟨other.pass frame, ?_, Scoped.pass clear other inScope distinct,
    (binders_pass frame other).nodup distinct, kept other inScope distinct found⟩
  rw [passed_append steadfast.plain, passed_code clear other inScope distinct (by simp) _
    fun v member => unreferenced v (temp_of_mem_binders other inScope v member),
    steadfast'.passed]

/-- A statement that is optimized between pieces of code that passes leave as they are becomes one
that has every property that passes keep, without the declarations that are not used. -/
theorem exists_undeclared (clear : frame.Clear T) (inScope : stmt.Scoped T [])
    (distinct : stmt.binders.Nodup)
    (kept : ∀ other : Stmt, other.Scoped T [] → other.binders.Nodup → holds other →
      holds (other.pass frame))
    (start : holds stmt) (steadfast : Steadfast front) (steadfast' : Steadfast behind)
    (unreferenced : ∀ v, T v → referencesAll v behind = 0) {code : Code}
    (form : flatten code = front ++ (flatten (stmt.code frame) ++ behind)) :
    ∃ other : Stmt, holds other ∧ flatten code.optimize = front ++ (flatten ((other.undeclare
      (used (front ++ (flatten (other.code frame) ++ behind)))).code frame) ++ behind) := by
  obtain ⟨other, equal, -, -, found⟩ :
      Framed T frame holds front behind (settle (flatten code) 0).1 :=
    settle_induction (Framed T frame holds front behind)
      (fun items => Framed.passed clear kept steadfast steadfast' unreferenced) (flatten code) 0
      ⟨stmt, form, inScope, distinct, start⟩
  refine ⟨other, found, ?_⟩
  have dropped : dropUnused (settle (flatten code) 0).1 = front ++ (flatten ((other.undeclare
      (used (front ++ (flatten (other.code frame) ++ behind)))).code frame) ++ behind) := by
    rw [dropUnused_eq, equal, List.filter_append, List.filter_append, steadfast.undeclared,
      steadfast'.undeclared, flatten_code_undeclare]
  simp only [optimize, optimizeNoted, flatten_block, dropped,
    flattenAll_append, flattenAll_flatten, steadfast.flat, steadfast'.flat]

end Stmt

namespace Routine

variable {Ctx : Type} {T : Nat → Prop}

private def before (frame : Frame) : List Code :=
  flatten (prologue frame) ++
    [Code.literal "'scan: while ", Code.var frame.cursor, Code.literal " < ", Code.var frame.chunk,
      Code.literal ".len() \x7b\n"]

private def behind (frame : Frame) : List Code :=
  .literal "break;\n\x7d\n" :: flatten (epilogue frame)

private theorem flatten_body (routine : Routine Ctx) :
    flatten routine.body =
      before routine.frame ++ (flatten (routine.dispatch.code routine.frame) ++
        behind routine.frame) := by
  simp [body, before, behind, flatten, flattenAll]

private theorem steadfast_before (frame : Frame) : Steadfast (before frame) := by
  refine ⟨?_, ?_, fun vars => ?_⟩
  · simp [before, prologue, flatten, flattenAll]
  · simp [before, prologue, flatten, flattenAll, isPassing]
  · simp [before, prologue, flatten, flattenAll, List.filter, isNeeded]

private theorem steadfast_behind (frame : Frame) : Steadfast (behind frame) := by
  refine ⟨?_, ?_, fun vars => ?_⟩
  · simp [behind, epilogue, flatten, flattenAll]
  · simp [behind, epilogue, flatten, flattenAll, isPassing]
  · simp [behind, epilogue, flatten, flattenAll, List.filter, isNeeded]

private theorem referencesAll_behind {frame : Frame} (clear : frame.Clear T) {v : Nat}
    (temp : T v) : referencesAll v (behind frame) = 0 := by
  simp [behind, epilogue, flatten, flattenAll, referencesAll, references,
    ne_of_not_temp temp clear.chunk, ne_of_not_temp temp clear.cursor,
    ne_of_not_temp temp clear.pending]

/-- The optimized body is the body of the routine with a statement that has every property that
passes keep, without declarations of variables that do not occur in it. -/
theorem exists_undeclared {routine : Routine Ctx} {holds : Stmt → Prop}
    (clear : routine.frame.Clear T) (inScope : routine.dispatch.Scoped T [])
    (distinct : routine.dispatch.binders.Nodup)
    (kept : ∀ other : Stmt, other.Scoped T [] → other.binders.Nodup → holds other →
      holds (other.pass routine.frame)) (start : holds routine.dispatch) :
    ∃ (other : Stmt) (vars : List Nat), holds other ∧
      used (flatten (other.code routine.frame)) ⊆ vars ∧
      flatten routine.body.optimize =
        flatten ({ routine with dispatch := other.undeclare vars } : Routine Ctx).body := by
  obtain ⟨other, found, equal⟩ := Stmt.exists_undeclared clear inScope distinct kept start
    (steadfast_before _) (steadfast_behind _) (fun v => referencesAll_behind clear)
    (flatten_body routine)
  refine ⟨other, _, found, fun v member => ?_, equal.trans (flatten_body { routine with
    dispatch := other.undeclare _ }).symm⟩
  rw [used_append, used_append]
  exact List.mem_append_right _ (List.mem_append_left _ member)

end Routine

end StagedLexer
