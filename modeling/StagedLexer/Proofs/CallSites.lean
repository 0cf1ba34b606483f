import StagedLexer.Proofs.Naming
import StagedLexer.Proofs.OptimizedRoutine
import StagedLexer.Proofs.SourceTokens

/-! Where emitted source calls bound readers. The calls of a statement are found in the pieces of its
text, in order, and the optimizer keeps all of them. -/
namespace StagedLexer

namespace Code

namespace Piece

/-- The variables behind whose names a call of a reader stands, in order. -/
def calls : List Piece → List Nat
  | [] => []
  | .text _ :: rest => calls rest
  | .var v :: rest => if rest.head? = some (.text ".read(") then v :: calls rest else calls rest

/-- Other texts are told from a call by their first two characters. -/
theorem ne_read {text : String} (other : text.toList.take 2 ≠ ['.', 'r']) : text ≠ ".read(" := by
  rintro rfl
  exact other rfl

end Piece

end Code

open Code Piece

/-- The variables of the bound readers that are called for a value. -/
def Value.calls : Value → List Nat
  | .call bound _ => [bound]
  | _ => []

namespace Stmt

mutual
/-- The variables of the bound readers that a statement calls, in the order of its source. -/
def calls : Stmt → List Nat
  | assign _ value _ => value.calls
  | block items => callsAll items
  | guarded _ body | loop body => calls body
  | onResult _ matched failed => calls matched ++ calls failed
  | dispatch stages arms otherwise => armCalls stages arms ++ calls otherwise
  | declare _ | leave | accept _ _ _ | fail _ _ => []
def callsAll : List Stmt → List Nat
  | [] => []
  | item :: rest => calls item ++ callsAll rest
def armCalls (stages : List String) : List Stmt → List Nat
  | [] => []
  | arm :: rest =>
    match stages with
    | [] => []
    | _ :: stages => calls arm ++ armCalls stages rest
end

theorem callsAll_append (front behind : List Stmt) :
    callsAll (front ++ behind) = callsAll front ++ callsAll behind := by
  induction front with
  | nil => rfl
  | cons item rest ih => simp [callsAll, ih]

theorem armCalls_of_length {stages : List String} {arms : List Stmt}
    (enough : arms.length = stages.length) : armCalls stages arms = callsAll arms := by
  induction arms generalizing stages with
  | nil => rfl
  | cons arm rest ih =>
    obtain ⟨stage, stages, rfl⟩ := List.exists_cons_of_length_eq_add_one enough.symm
    rw [armCalls, callsAll, ih (Nat.succ.inj enough)]

section Source

attribute [local simp] pieces piecesAll Piece.calls

variable {frame : Frame} {chunk : Nat} {rest : List Piece}

private theorem calls_advance (place : Place) (pattern : String) (distance : Nat) :
    Piece.calls ((Probe.code.advance chunk place pattern distance).pieces ++ rest) =
      Piece.calls rest := by
  have middle : "..) \x7b\n" ++ pattern ++ " => (" ≠ ".read(" := ne_read (by simp)
  have last : ".len() - rest_.len() + " ++ toString distance ++ ") as isize,\n_ => -1,\n\x7d" ≠
      ".read(" := ne_read (by simp)
  cases place <;>
  simpa [Probe.code.advance, Place.code, middle] using last

private theorem calls_value (value : Value) (text : String) (other : text ≠ ".read(") :
    Piece.calls ((value.code chunk).pieces ++ Piece.text text :: rest) =
      value.calls ++ Piece.calls rest := by
  cases value with
  | probe test place =>
    cases test with
    | text | textAnyCase | oneOf | skip => exact calls_advance place _ _
    | atEnd =>
      cases place <;>
      simp [Value.code, Probe.code, Place.code, Value.calls]
  | counted counter min pos =>
    have middle : " >= " ++ toString min ++ " \x7b " ≠ ".read(" := ne_read (by simp)
    simpa [Value.code, Value.calls] using middle
  | position place | call bound place | place place =>
    cases place <;>
    simp [Value.code, Place.code, Value.calls, other]
  | noMatch | result | chunkEnd | asPlace | zero | succ =>
    simp [Value.code, Value.calls, other]

private theorem calls_cond (cond : Cond) :
    Piece.calls ((cond.code chunk).pieces ++ Piece.text " \x7b\n" :: rest) = Piece.calls rest := by
  cases cond with
  | reached counter bound =>
    have last : " == " ++ toString bound ≠ ".read(" := ne_read (by simp)
    simpa [Cond.code] using last
  | noMatch | isMatch | negative | notNoMatch | unmoved | atChunkEnd =>
    simp [Cond.code]

private theorem calls_accept (rule : Nat) (stop : Place) (move : StageMove) :
    Piece.calls (((accept rule stop move).code frame).pieces ++ rest) = Piece.calls rest := by
  cases move <;> cases stop <;>
  simp [code, Frame.confirmPending, Frame.stageMove, Place.code]

private theorem calls_fail (owner r : Nat) :
    Piece.calls (((fail owner r).code frame).pieces ++ rest) = Piece.calls rest := by
  simp [code, Frame.confirmPending]

mutual
/-- The calls in the text of a statement are those of the statement, whatever stands behind it. -/
theorem calls_code : (stmt : Stmt) → (rest : List Piece) →
    Piece.calls ((stmt.code frame).pieces ++ rest) = stmt.calls ++ Piece.calls rest
  | declare v, _ | leave, _ => by simp [code, calls]
  | assign v value _, rest => by
    have inside : Piece.calls ((value.code frame.chunk).pieces ++ Piece.text ";\n" :: rest) =
        value.calls ++ Piece.calls rest := calls_value value ";\n" (by decide)
    simpa [code, calls] using inside
  | block items, rest => calls_codes items rest
  | guarded cond body, rest => by
    simp [code, calls, calls_cond, calls_code body]
  | onResult r matched failed, rest => by
    simp [code, calls, calls_code matched, calls_code failed]
  | loop body, rest => by
    simp [code, calls, calls_code body]
  | accept rule stop move, rest => calls_accept rule stop move
  | fail owner r, rest => calls_fail owner r
  | dispatch stages arms otherwise, rest => by
    simp [code, calls, calls_armCodes arms stages, calls_code otherwise]
theorem calls_codes : (items : List Stmt) → (rest : List Piece) →
    Piece.calls (piecesAll (codes frame items) ++ rest) = callsAll items ++ Piece.calls rest
  | [], _ => rfl
  | item :: items, rest => by
    simp [codes, callsAll, calls_code item, calls_codes items]
theorem calls_armCodes : (arms : List Stmt) → (stages : List String) → (rest : List Piece) →
    Piece.calls (piecesAll (armCodes frame stages arms) ++ rest) =
      armCalls stages arms ++ Piece.calls rest
  | [], _, _ | _ :: _, [], _ => by simp [armCodes, armCalls]
  | arm :: arms, stage :: stages, rest => by
    simp [armCodes, armCalls, armHead, calls_code arm, calls_armCodes arms stages]
end

end Source

section Optimizer

variable {frame : Frame} {vars : List Nat} {v r : Nat}

theorem calls_redirect_value (value : Value) : (value.redirect v r).calls = value.calls := by
  cases value <;> rfl

mutual
theorem calls_redirect : (stmt : Stmt) → (stmt.redirect v r).calls = stmt.calls
  | assign _ value _ => calls_redirect_value value
  | block items => callsAll_redirectAll items
  | guarded _ body => calls_redirect body
  | onResult _ matched failed => by
    rw [redirect, calls, calls, calls_redirect matched, calls_redirect failed]
  | declare _ | loop _ | leave | accept _ _ _ | fail _ _ | dispatch _ _ _ => rfl
theorem callsAll_redirectAll : (items : List Stmt) →
    callsAll (redirectAll v r items) = callsAll items
  | [] => rfl
  | item :: rest => by
    rw [redirectAll, callsAll, callsAll, calls_redirect item, callsAll_redirectAll rest]
end

theorem callsAll_shorten (rest : List Stmt) :
    callsAll (shorten frame v r rest) = callsAll rest := by
  unfold shorten
  dsimp only
  split
  · rfl
  · split
    · exact callsAll_redirectAll rest
    · rfl
  · rfl

mutual
/-- A pass keeps all calls. -/
theorem calls_pass : (stmt : Stmt) → (stmt.pass frame).calls = stmt.calls
  | block items => callsAll_passAll items
  | guarded _ body | loop body => calls_pass body
  | onResult _ matched failed => by
    rw [pass, calls, calls, calls_pass matched, calls_pass failed]
  | dispatch stages arms otherwise => by
    rw [pass, calls, calls, armCalls_passEach arms stages, calls_pass otherwise]
  | declare _ | assign _ _ _ | leave | accept _ _ _ | fail _ _ => rfl
theorem callsAll_passAll : (items : List Stmt) →
    callsAll (passAll frame items) = callsAll items
  | [] => rfl
  | item :: rest => by
    rw [passAll]
    cases bind : item.binding? with
    | none =>
      dsimp only
      rw [callsAll, callsAll, calls_pass item, callsAll_passAll rest]
    | some binding =>
      -- The assignment of a temporary calls nothing.
      obtain rfl := eq_assign_of_binding? bind
      exact (callsAll_shorten _).trans (callsAll_passAll rest)
theorem armCalls_passEach : (arms : List Stmt) → (stages : List String) →
    armCalls stages (passEach frame arms) = armCalls stages arms
  | [], _ | _ :: _, [] => rfl
  | arm :: rest, _ :: stages => by
    rw [passEach, armCalls, armCalls, calls_pass arm, armCalls_passEach rest stages]
end

mutual
theorem calls_undeclare : (stmt : Stmt) → (stmt.undeclare vars).calls = stmt.calls
  | declare v => by
    rw [undeclare]
    split <;> rfl
  | block items => callsAll_undeclareAll items
  | guarded _ body | loop body => calls_undeclare body
  | onResult _ matched failed => by
    rw [undeclare, calls, calls, calls_undeclare matched, calls_undeclare failed]
  | dispatch stages arms otherwise => by
    rw [undeclare, calls, calls, armCalls_undeclareAll arms stages, calls_undeclare otherwise]
  | assign _ _ _ | leave | accept _ _ _ | fail _ _ => rfl
theorem callsAll_undeclareAll : (items : List Stmt) →
    callsAll (undeclareAll vars items) = callsAll items
  | [] => rfl
  | item :: rest => by
    rw [undeclareAll, callsAll, callsAll, calls_undeclare item, callsAll_undeclareAll rest]
theorem armCalls_undeclareAll : (arms : List Stmt) → (stages : List String) →
    armCalls stages (undeclareAll vars arms) = armCalls stages arms
  | [], _ | _ :: _, [] => rfl
  | arm :: rest, _ :: stages => by
    rw [undeclareAll, armCalls, armCalls, calls_undeclare arm, armCalls_undeclareAll rest stages]
end

end Optimizer

end Stmt

/-- The calls in the text of a body are those of its statement. -/
theorem Routine.calls_body {Ctx : Type} (routine : Routine Ctx) :
    Piece.calls routine.body.pieces = routine.dispatch.calls := by
  have front (rest : List Piece) :
      Piece.calls ((prologue routine.frame).pieces ++ rest) = Piece.calls rest := by
    simp [prologue, pieces, piecesAll, Piece.calls]
  have last : Piece.calls (epilogue routine.frame).pieces = [] := by
    simp [epilogue, pieces, piecesAll, Piece.calls]
  simp [body, pieces, piecesAll, Piece.calls, front, last, Stmt.calls_code]

end StagedLexer
