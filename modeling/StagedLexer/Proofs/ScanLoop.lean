import StagedLexer.Proofs.RegisterUse
import StagedLexer.Proofs.ScanStep

/-! The scan loop of a routine is the scan. The statement of the current stage tries the branches of
that stage, and one round of the loop makes one step of the scan. -/
namespace StagedLexer

open Machine Assembly

variable {Ctx : Type}

theorem Routine.arms_sound {pool : List (Reader Ctx)} (rules : Array (Rule Ctx)) (cursor : Nat)
    {tries : List (String × List (Branch Ctx))}
    (known : ∀ trie ∈ tries, ∀ branch ∈ trie.2, branch.EachReader (·.parts ⊆ pool)) :
    Sound pool (Routine.arms rules cursor tries) := by
  induction tries with
  | nil => exact Sound.pure _
  | cons trie rest ih =>
    exact (Branch.stmts_sound rules (known trie (by simp)) cursor).bind fun _ =>
      (ih fun trie member => known trie (by simp [member])).bind fun _ => Sound.pure _

namespace Surroundings

variable {s : Surroundings Ctx} {rounds : Nat} {pool : List (Reader Ctx)}

/-- The arm that is run belongs to the trie of the current stage; without one, the last statement
is run. -/
private theorem exec_dispatch_arms (enough : s.text.size < rounds)
    (identified : ∀ a ∈ pool, ∀ b ∈ pool, a.id = b.id → a = b)
    {tries : List (String × List (Branch Ctx))}
    (usable : ∀ trie ∈ tries, ∀ branch ∈ trie.2, branch.EachReader (s.Usable pool))
    {stageless : List (Branch Ctx)} {otherwise : Stmt} {asm : Assembler Ctx} {m : Machine}
    {start : Nat} (fits : asm.Fits pool)
    (linked : s.Linked (Routine.arms s.lexicon.rules s.frame.cursor tries asm).2)
    (cursorBelow : s.frame.cursor < asm.nextVar) (cursor : m.get s.frame.cursor = start)
    (inside : start ≤ s.text.size)
    (last : Alike (· = s.frame.cursor)
      (s.react m (Branch.attemptAll s.text s.ctx start start stageless))
      (s.exec rounds otherwise m)) :
    Alike (· = s.frame.cursor)
      (s.react m (Branch.attemptAll s.text s.ctx start start
        ((m.stage.bind fun name => tries.lookup name).getD stageless)))
      (s.exec rounds (.dispatch (tries.map (·.1))
        (Routine.arms s.lexicon.rules s.frame.cursor tries asm).1 otherwise) m) := by
  induction tries generalizing asm with
  | nil =>
    have none : (m.stage.bind fun name => List.lookup name ([] : List (String × List (Branch Ctx))))
        = none := by cases m.stage <;> rfl
    rw [none]
    change Alike _ _ (s.exec rounds (.dispatch [] [] otherwise) m)
    rw [exec_dispatch_nil]
    exact last
  | cons trie rest ih =>
    obtain ⟨name, branches⟩ := trie
    have known : ∀ trie ∈ (name, branches) :: rest, ∀ branch ∈ trie.2,
        branch.EachReader (·.parts ⊆ pool) := fun trie among branch member b below reader inside =>
      (usable trie among branch member b below reader inside).known
    obtain ⟨fits₁, grows⟩ :=
      Branch.stmts_sound s.lexicon.rules (known (name, branches) (by simp)) s.frame.cursor asm fits
    obtain ⟨-, grows₁⟩ := Routine.arms_sound s.lexicon.rules s.frame.cursor
      (fun trie among => known trie (List.mem_cons_of_mem _ among)) _ fits₁
    change Alike _ _ (s.exec rounds (.dispatch (name :: rest.map (·.1))
      (.block (Branch.stmts s.lexicon.rules s.frame.cursor branches asm).1 ::
        (Routine.arms s.lexicon.rules s.frame.cursor rest
          (Branch.stmts s.lexicon.rules s.frame.cursor branches asm).2).1) otherwise) m)
    rw [exec_dispatch_cons]
    by_cases here : m.stage = some name
    · have tried := stmts_tries enough identified (usable (name, branches) (by simp)) asm
        s.frame.cursor m start start fits (linked.of_grows grows₁) cursorBelow cursorBelow cursor
        inside cursor
      simp only [here, if_true, Option.bind_some, List.lookup_cons_self, Option.getD_some]
      exact tried.mono fun v equal => equal ▸ cursorBelow
    · have other : (m.stage.bind fun n => List.lookup n ((name, branches) :: rest)) =
          m.stage.bind fun n => List.lookup n rest := by
        cases current : m.stage with
        | none => rfl
        | some n =>
          have differ : (n == name) = false := by simpa [current] using here
          simp [List.lookup_cons, differ]
      rw [if_neg here, other]
      exact ih (fun trie among => usable trie (List.mem_cons_of_mem _ among)) fits₁ linked
        (Nat.lt_of_lt_of_le cursorBelow grows.vars)

/-- The statement of a lexicon tries the branches of the current stage at the cursor. -/
theorem exec_dispatchStmt (enough : s.text.size < rounds)
    (identified : ∀ a ∈ pool, ∀ b ∈ pool, a.id = b.id → a = b)
    (usable : s.lexicon.forest.EachReader (s.Usable pool))
    {asm : Assembler Ctx} {m : Machine} {start : Nat} (fits : asm.Fits pool)
    (linked : s.Linked (Routine.dispatchStmt s.lexicon s.frame.cursor asm).2)
    (cursorBelow : s.frame.cursor < asm.nextVar) (cursor : m.get s.frame.cursor = start)
    (inside : start ≤ s.text.size) :
    Alike (· = s.frame.cursor)
      (s.react m (Branch.attemptAll s.text s.ctx start start (s.lexicon.forest.roots m.stage)))
      (s.exec rounds (Routine.dispatchStmt s.lexicon s.frame.cursor asm).1 m) := by
  have tryStageless (asm : Assembler Ctx) (fits : asm.Fits pool)
      (linked : s.Linked (Branch.stmts s.lexicon.rules s.frame.cursor
        s.lexicon.forest.stageless asm).2) (cursorBelow : s.frame.cursor < asm.nextVar) :=
    (stmts_tries enough identified usable.stageless asm s.frame.cursor m start start fits linked
      cursorBelow cursorBelow cursor inside cursor).mono fun v (equal : v = s.frame.cursor) =>
        equal ▸ cursorBelow
  unfold Routine.dispatchStmt at linked ⊢
  by_cases none : s.lexicon.forest.tries.isEmpty
  · have roots : s.lexicon.forest.roots m.stage = s.lexicon.forest.stageless := by
      rw [List.isEmpty_iff] at none
      cases m.stage <;> simp [Forest.roots, none]
    simp only [none, if_true] at linked ⊢
    rw [roots]
    exact tryStageless asm fits linked cursorBelow
  · simp only [none] at linked ⊢
    obtain ⟨fits₁, grows₁⟩ := Routine.arms_sound s.lexicon.rules s.frame.cursor
      (fun trie among => (usable.mono fun _ usable => usable.known).tries trie among) asm fits
    obtain ⟨-, grows₂⟩ := Branch.stmts_sound s.lexicon.rules
      (usable.mono fun _ usable => usable.known).stageless s.frame.cursor _ fits₁
    exact exec_dispatch_arms enough identified usable.tries fits (linked.of_grows grows₂)
      cursorBelow cursor inside
      (tryStageless _ fits₁ linked (Nat.lt_of_lt_of_le cursorBelow grows₁.vars))

/-- Run at any position of the text, the statement does what the outcome of trying the rules of the
current stage there asks for. -/
def Dispatches (s : Surroundings Ctx) (rounds : Nat) (dispatch : Stmt) : Prop :=
  ∀ (m : Machine) (start : Nat), m.get s.frame.cursor = start → start ≤ s.text.size →
    Alike (· = s.frame.cursor) (s.react m (s.lexicon.outcome s.text s.ctx start m.stage))
      (s.exec rounds dispatch m)

/-- The machine is where the scan is. -/
structure Holds (s : Surroundings Ctx) (progress : Scan.Progress) (m : Machine) : Prop where
  cursor : m.get s.frame.cursor = progress.cursor
  stage : m.stage = progress.stage
  pending : m.pending = progress.pending
  events : m.events = progress.events

theorem Holds.of_agrees {progress : Scan.Progress} {m m' : Machine} (holds : s.Holds progress m)
    (agrees : m.Agrees (· = s.frame.cursor) m') : s.Holds progress m' :=
  ⟨(agrees.get _ rfl).trans holds.cursor, agrees.stage.trans holds.stage,
    agrees.pending.trans holds.pending, agrees.events.trans holds.events⟩

theorem result_congr {a b : Flow × Machine} (alike : Alike (· = s.frame.cursor) a b)
    (state : StreamState) (streaming : Bool) :
    s.result state streaming b.1 b.2 = s.result state streaming a.1 a.2 := by
  have cursor := alike.machine.get _ rfl
  unfold result conclude holdBack
  simp only [cursor, alike.flow, alike.machine.stage, alike.machine.pending, alike.machine.events]

private theorem moveStage_ofRule (m : Machine) (rule start stop : Nat) :
    s.moveStage m rule start stop (.ofRule s.lexicon.rules rule) =
      s.lexicon.nextStage rule ⟨s.text, start, stop - start, m.stage⟩ s.ctx := by
  unfold StageMove.ofRule Lexicon.nextStage
  cases equal : s.lexicon.rules[rule]? with
  | none => rfl
  | some r =>
    cases move : r.transition <;>
      simp [StageMove.ofTransition, moveStage, Transition.next, Lexicon.nextStage, equal, move]

private theorem confirm_eq {progress : Scan.Progress} {m : Machine} (holds : s.Holds progress m) :
    s.confirm m = (Scan.confirm s.lexicon s.base progress).map
      fun events => { m with pending := none, events } := by
  unfold confirm Scan.confirm
  rw [holds.pending]
  cases pending : progress.pending with
  | none =>
    have same : m = { m with pending := none, events := progress.events } := by
      rw [← holds.events, ← pending, ← holds.pending]
    simpa [Except.map] using same
  | some p =>
    simp only [holds.events]
    cases Scan.tokenEvent s.lexicon s.base p.rule p.start p.stop <;> rfl

variable {state : StreamState} {streaming : Bool} {progress : Scan.Progress} {m : Machine}

private theorem result_next (text : s.text = state.chunk) (base : s.base = state.chunkOffset)
    (holds : s.Holds progress m) :
    s.result state streaming .next m =
      ((Scan.finish s.lexicon state streaming progress).events,
        (Scan.finish s.lexicon state streaming progress).result) := by
  unfold result Scan.finish
  simp only [holds.cursor, holds.stage, holds.events, Int.toNat_natCast]
  cases streaming with
  | true => cases pending : progress.pending <;> simp [holdBack, holds.pending, holds.stage, pending]
  | false =>
    have same : s.conclude m progress.cursor = Scan.conclude s.lexicon state progress := by
      cases pending : progress.pending <;>
        simp [conclude, Scan.conclude, holds.pending, holds.events, text, base, pending]
    simp only [same]
    cases Scan.conclude s.lexicon state progress <;> rfl

private theorem result_stop {cursor : Nat} (here : m.get s.frame.cursor = cursor) :
    s.result state streaming .stop m =
      (m.events, .ok { state with stage := m.stage, offset := cursor }) := by
  simp [result, here]

private theorem result_failed (base : s.base = state.chunkOffset) (holds : s.Holds progress m)
    (owner : Nat) (code : ErrorCode) :
    s.result state streaming (s.failed m owner code.value).1 (s.failed m owner code.value).2 =
      ((Scan.fail s.lexicon state progress owner code).events,
        (Scan.fail s.lexicon state progress owner code).result) := by
  unfold failed Scan.fail
  rw [confirm_eq holds, base]
  cases Scan.confirm s.lexicon state.chunkOffset progress with
  | error fault => simp [Except.map, result, Scan.giveUp, holds.events]
  | ok events =>
    simp only [Except.map, holds.cursor, Int.toNat_natCast]
    cases positionBehind state.chunkOffset progress.cursor with
    | error fault => simp [result, Scan.giveUp]
    | ok position =>
      rw [← holds.stage]
      exact result_stop holds.cursor

private theorem failed_flow (owner : Nat) (code : Int) : (s.failed m owner code).1 ≠ .again := by
  unfold failed
  cases s.confirm m with
  | error => simp
  | ok c => simp only; cases positionBehind s.base (m.get s.frame.cursor).toNat <;> simp

/-- A match becomes the pending token, unless a position or the next stage is missing. -/
private theorem accept_cases (rule : Nat) (base : s.base = state.chunkOffset)
    (holds : s.Holds progress m) {stop : Nat} (moved : progress.cursor < stop) :
    (∃ fault, Scan.confirm s.lexicon state.chunkOffset progress = .error fault ∧
      s.accept m rule stop (.ofRule s.lexicon.rules rule) = (.fault fault, m)) ∨
    ∃ events, Scan.confirm s.lexicon state.chunkOffset progress = .ok events ∧
      ((∃ fault, s.lexicon.nextStage rule
          ⟨s.text, progress.cursor, stop - progress.cursor, progress.stage⟩ s.ctx = .error fault ∧
        s.accept m rule stop (.ofRule s.lexicon.rules rule) =
          (.fault fault, { m with pending := none, events })) ∨
      ∃ next, s.lexicon.nextStage rule
          ⟨s.text, progress.cursor, stop - progress.cursor, progress.stage⟩ s.ctx = .ok next ∧
        (s.accept m rule stop (.ofRule s.lexicon.rules rule)).1 = .again ∧
        s.Holds (Scan.accept progress events rule stop next)
          (s.accept m rule stop (.ofRule s.lexicon.rules rule)).2) := by
  unfold accept
  simp only [holds.cursor, Int.toNat_natCast, moved, if_true]
  rw [confirm_eq holds, base]
  cases Scan.confirm s.lexicon state.chunkOffset progress with
  | error fault => exact .inl ⟨fault, rfl, rfl⟩
  | ok events =>
    refine .inr ⟨events, rfl, ?_⟩
    simp only [Except.map, moveStage_ofRule, holds.stage]
    cases s.lexicon.nextStage rule
        ⟨s.text, progress.cursor, stop - progress.cursor, progress.stage⟩ s.ctx with
    | error fault => exact .inl ⟨fault, rfl, rfl⟩
    | ok next =>
      refine .inr ⟨next, rfl, rfl, ⟨?_, ?_, ?_, rfl⟩⟩
      · simp [Machine.get, Scan.accept]
      · simp [Scan.accept]
      · simp [Scan.accept]

/-- A round that does not go on is the last one. -/
private theorem result_scanLoop_last {dispatch : Stmt} {fuel : Nat} {ending : Flow × Machine}
    (left : m.get s.frame.cursor < s.text.size)
    (alike : Alike (· = s.frame.cursor) ending (s.exec rounds dispatch m))
    (ends : ending.1 ≠ .again) :
    s.result state streaming (s.scanLoop dispatch rounds (fuel + 1) m).1
        (s.scanLoop dispatch rounds (fuel + 1) m).2 =
      s.result state streaming ending.1 ending.2 := by
  rw [scanLoop, if_pos left, ← result_congr alike]
  rw [alike.flow] at ends
  generalize s.exec rounds dispatch m = round at ends ⊢
  obtain ⟨flow, m₁⟩ := round
  cases flow with
  | again => exact absurd rfl ends
  | next | leave | stop | fault => rfl

/-- The scan loop and what stands behind it report what the scan reports and leave its state. -/
theorem result_scanLoop {dispatch : Stmt} (dispatches : s.Dispatches rounds dispatch)
    (calls : s.lexicon.forest.EachReader (·.CallsWithin s.text s.ctx))
    (text : s.text = state.chunk) (base : s.base = state.chunkOffset) {fuel : Nat}
    (enough : state.chunk.size - progress.cursor < fuel)
    (inside : progress.cursor ≤ state.chunk.size) (holds : s.Holds progress m) :
    s.result state streaming (s.scanLoop dispatch rounds fuel m).1
        (s.scanLoop dispatch rounds fuel m).2 =
      ((Scan.run s.lexicon state s.ctx streaming progress).events,
        (Scan.run s.lexicon state s.ctx streaming progress).result) := by
  -- Every match moves the cursor, so a round that is repeated has less text in front of it.
  induction fuel generalizing progress m with
  | zero => omega
  | succ fuel ih =>
    by_cases left : progress.cursor < state.chunk.size
    · have left' : m.get s.frame.cursor < s.text.size := by
        rw [holds.cursor, text]
        exact_mod_cast left
      have tried := dispatches m progress.cursor holds.cursor (text ▸ inside)
      rw [holds.stage] at tried
      cases found : s.lexicon.outcome s.text s.ctx progress.cursor progress.stage with
      | matched rule stop =>
        have moved := Lexicon.lt_of_outcome found
        have stopInside : stop ≤ state.chunk.size :=
          text ▸ Branch.stop_le_of_attemptAll (calls.roots _) (text ▸ inside) found
        rw [found, react] at tried
        rw [Scan.run_of_matched left (text ▸ found), ← text]
        rcases accept_cases rule base holds moved with ⟨fault, confirmed, gives⟩ |
          ⟨events, confirmed, ⟨fault, next, gives⟩ | ⟨next, follows, gives, after⟩⟩
        · rw [gives] at tried
          rw [result_scanLoop_last left' tried (by simp)]
          simp [result, Scan.giveUp, confirmed, holds.events]
        · rw [gives] at tried
          rw [result_scanLoop_last left' tried (by simp)]
          simp [result, Scan.giveUp, confirmed, next]
        -- A match that is taken is the only way to another round.
        · rcases ran : s.exec rounds dispatch m with ⟨flow, m₁⟩
          rw [ran] at tried
          obtain rfl : flow = .again := tried.flow.symm.trans gives
          have further : (Scan.accept progress events rule stop next).cursor = stop := rfl
          rw [scanLoop, if_pos left', ran]
          simp only [confirmed, follows]
          exact ih (by omega) (by omega) (after.of_agrees tried.machine)
      | failed owner code =>
        rw [found, react] at tried
        rw [Scan.run_of_failed left (text ▸ found), ← result_failed base holds]
        exact result_scanLoop_last left' tried (failed_flow owner _)
      | noMatch =>
        rw [found, react] at tried
        rw [Scan.run_of_noMatch left (text ▸ found), ← result_next text base holds]
        exact result_scanLoop_last left' tried (by simp)
      | endless =>
        rw [found, react] at tried
        rw [Scan.run_of_endless left (text ▸ found), result_scanLoop_last left' tried (by simp)]
        simp [result, Scan.giveUp, holds.events]
    · have stays : ¬ m.get s.frame.cursor < s.text.size := by
        rw [holds.cursor, text]
        omega
      rw [scanLoop, if_neg stays, Scan.run_of_end left]
      exact result_next text base holds

end Surroundings

end StagedLexer
