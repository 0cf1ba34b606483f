import StagedLexer.Proofs.Induction
import StagedLexer.Proofs.StatementRun

/-! Running statements: what the registers hold, how lists of statements run, and when two machines
agree. -/
namespace StagedLexer

namespace Machine

@[simp] theorem get_set (m : Machine) (v w : Nat) (x : Int) :
    (m.set v x).get w = if v = w then x else m.get w := by
  simp only [get, set, Std.HashMap.getD_insert, beq_iff_eq]

@[simp] theorem stage_set (m : Machine) (v : Nat) (x : Int) : (m.set v x).stage = m.stage := rfl

@[simp] theorem pending_set (m : Machine) (v : Nat) (x : Int) :
    (m.set v x).pending = m.pending := rfl

@[simp] theorem events_set (m : Machine) (v : Nat) (x : Int) : (m.set v x).events = m.events := rfl

/-- The second machine has the kept registers of the first one, its stage, its pending token and its
events. -/
structure Agrees (keep : Nat → Prop) (m m' : Machine) : Prop where
  get : ∀ v, keep v → m'.get v = m.get v
  stage : m'.stage = m.stage
  pending : m'.pending = m.pending
  events : m'.events = m.events

namespace Agrees

variable {keep more : Nat → Prop} {m m' m'' : Machine}

theorem refl (m : Machine) : m.Agrees keep m := ⟨fun _ _ => rfl, rfl, rfl, rfl⟩

theorem symm (agrees : m.Agrees keep m') : m'.Agrees keep m :=
  ⟨fun v kept => (agrees.get v kept).symm, agrees.stage.symm, agrees.pending.symm,
    agrees.events.symm⟩

theorem trans (first : m.Agrees keep m') (second : m'.Agrees keep m'') : m.Agrees keep m'' :=
  ⟨fun v kept => (second.get v kept).trans (first.get v kept), second.stage.trans first.stage,
    second.pending.trans first.pending, second.events.trans first.events⟩

theorem mono (agrees : m.Agrees more m') (less : ∀ v, keep v → more v) : m.Agrees keep m' :=
  ⟨fun v kept => agrees.get v (less v kept), agrees.stage, agrees.pending, agrees.events⟩

theorem set (agrees : m.Agrees keep m') {v : Nat} (free : ¬ keep v) (x : Int) :
    m.Agrees keep (m'.set v x) := by
  refine ⟨fun w kept => ?_, agrees.stage, agrees.pending, agrees.events⟩
  have other : v ≠ w := by rintro rfl; exact free kept
  rw [get_set, if_neg other, agrees.get w kept]

end Agrees

end Machine

namespace Surroundings

variable {Ctx : Type} {s : Surroundings Ctx} {rounds : Nat}

attribute [local simp] exec execAll

theorem exec_block_nil (m : Machine) : s.exec rounds (.block []) m = (.next, m) := by
  simp

theorem exec_block_next {stmt : Stmt} {rest : List Stmt} {m m' : Machine}
    (first : s.exec rounds stmt m = (.next, m')) :
    s.exec rounds (.block (stmt :: rest)) m = s.exec rounds (.block rest) m' := by
  simp [first]

theorem exec_block_end {stmt : Stmt} {rest : List Stmt} {m m' : Machine} {flow : Flow}
    (first : s.exec rounds stmt m = (flow, m')) (ends : flow ≠ .next) :
    s.exec rounds (.block (stmt :: rest)) m = (flow, m') := by
  cases flow with
  | next => exact absurd rfl ends
  | leave | again | stop | fault => simp [first]

theorem exec_block_last {stmt : Stmt} {m : Machine} :
    s.exec rounds (.block [stmt]) m = s.exec rounds stmt m := by
  rcases equal : s.exec rounds stmt m with ⟨flow, m'⟩
  cases flow with
  | next => rw [exec_block_next equal, exec_block_nil]
  | leave | again | stop | fault => rw [exec_block_end equal (by simp)]

theorem exec_declare (v : Nat) (m : Machine) : s.exec rounds (.declare v) m = (.next, m) := by
  simp

theorem exec_assign {v : Nat} {value : Value} {retained : Bool} {m : Machine} {x : Int}
    (ok : s.value m value = .ok x) :
    s.exec rounds (.assign v value retained) m = (.next, m.set v x) := by
  simp [ok]

theorem exec_guarded_pos {cond : Cond} {body : Stmt} {m : Machine}
    (holds : s.holds m cond = true) :
    s.exec rounds (.guarded cond body) m = s.exec rounds body m := by
  simp [holds]

theorem exec_guarded_neg {cond : Cond} {body : Stmt} {m : Machine}
    (fails : s.holds m cond = false) :
    s.exec rounds (.guarded cond body) m = (.next, m) := by
  simp [fails]

theorem exec_assignAndLeave {r : Nat} {value : Value} {m : Machine} {x : Int}
    (ok : s.value m value = .ok x) :
    s.exec rounds (Stmt.assignAndLeave r value) m = (.leave, m.set r x) := by
  unfold Stmt.assignAndLeave
  rw [exec_block_next (exec_assign ok), exec_block_last]
  simp

theorem iterate_next {body : Machine → Flow × Machine} {m m' : Machine} {fuel : Nat}
    (round : body m = (.next, m')) : iterate body (fuel + 1) m = iterate body fuel m' := by
  simp [iterate, round]

theorem iterate_leave {body : Machine → Flow × Machine} {m m' : Machine} {fuel : Nat}
    (round : body m = (.leave, m')) : iterate body (fuel + 1) m = (.next, m') := by
  simp [iterate, round]

end Surroundings

end StagedLexer
