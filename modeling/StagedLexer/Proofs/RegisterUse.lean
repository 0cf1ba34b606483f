import StagedLexer.Proofs.BranchCode
import StagedLexer.Proofs.CodeStream

/-! Which registers a statement changes and on which it depends, read off its form in emitted source:
a register that is not assigned there keeps its number, and one that is not referred to there does
not matter. -/
namespace StagedLexer

open Code Machine

theorem Machine.Agrees.set_set {keep : Nat → Prop} {m m' : Machine} (agrees : m.Agrees keep m')
    (v : Nat) (x : Int) : (m.set v x).Agrees keep (m'.set v x) := by
  refine ⟨fun w kept => ?_, agrees.stage, agrees.pending, agrees.events⟩
  rw [get_set, get_set, agrees.get w kept]

namespace Surroundings

variable {Ctx : Type} {s : Surroundings Ctx} {rounds : Nat}

/-- Run on machines that agree on the kept registers, the statements end alike. -/
def Mimics (s : Surroundings Ctx) (rounds : Nat) (keep : Nat → Prop) (a b : Stmt) : Prop :=
  ∀ m m', m.Agrees keep m' → Alike keep (s.exec rounds a m) (s.exec rounds b m')

section Mimics

variable {keep : Nat → Prop} {a b a' b' : Stmt} {as bs : List Stmt}

theorem alike_block_cons {m m' : Machine} {less : Nat → Prop} (fewer : ∀ v, less v → keep v)
    (first : Alike keep (s.exec rounds a m) (s.exec rounds b m'))
    (rest : ∀ m m', m.Agrees keep m' →
      Alike less (s.exec rounds (.block as) m) (s.exec rounds (.block bs) m')) :
    Alike less (s.exec rounds (.block (a :: as)) m) (s.exec rounds (.block (b :: bs)) m') := by
  rcases runA : s.exec rounds a m with ⟨flow, m₁⟩
  rcases runB : s.exec rounds b m' with ⟨flow', m₂⟩
  rw [runA, runB] at first
  obtain rfl : flow = flow' := first.flow
  by_cases goes : flow = .next
  · subst goes
    rw [exec_block_next runA, exec_block_next runB]
    exact rest m₁ m₂ first.machine
  · rw [exec_block_end runA goes, exec_block_end runB goes]
    exact first.mono fewer

theorem mimics_nil : s.Mimics rounds keep (.block []) (.block []) := by
  intro m m' agrees
  rw [exec_block_nil, exec_block_nil]
  exact ⟨rfl, agrees⟩

theorem mimics_cons (first : s.Mimics rounds keep a b)
    (rest : s.Mimics rounds keep (.block as) (.block bs)) :
    s.Mimics rounds keep (.block (a :: as)) (.block (b :: bs)) :=
  fun m m' agrees => alike_block_cons (fun _ kept => kept) (first m m' agrees) rest

theorem mimics_guarded {cond : Cond}
    (same : ∀ m m', m.Agrees keep m' → s.holds m' cond = s.holds m cond)
    (body : s.Mimics rounds keep a b) :
    s.Mimics rounds keep (.guarded cond a) (.guarded cond b) := by
  intro m m' agrees
  rw [exec, exec, same m m' agrees]
  split
  · exact body m m' agrees
  · exact ⟨rfl, agrees⟩

theorem mimics_onResult {r : Nat} (kept : keep r) (matched : s.Mimics rounds keep a b)
    (failed : s.Mimics rounds keep a' b') :
    s.Mimics rounds keep (.onResult r a a') (.onResult r b b') := by
  intro m m' agrees
  rw [exec, exec, agrees.get r kept]
  split
  · exact matched m m' agrees
  · split
    · exact failed m m' agrees
    · exact ⟨rfl, agrees⟩

theorem mimics_loop (body : s.Mimics rounds keep a b) :
    s.Mimics rounds keep (.loop a) (.loop b) := by
  intro m m' agrees
  rw [exec, exec]
  -- The bodies are run for `rounds` rounds with loops of their own of `rounds` rounds.
  suffices ∀ fuel m m', m.Agrees keep m' →
      Alike keep (iterate (s.exec rounds a) fuel m) (iterate (s.exec rounds b) fuel m') from
    this rounds m m' agrees
  intro fuel
  induction fuel with
  | zero => intro m m' agrees; exact ⟨rfl, agrees⟩
  | succ fuel ih =>
    intro m m' agrees
    have ran := body m m' agrees
    rw [iterate, iterate]
    rcases runA : s.exec rounds a m with ⟨flow, m₁⟩
    rcases runB : s.exec rounds b m' with ⟨flow', m₂⟩
    rw [runA, runB] at ran
    obtain rfl : flow = flow' := ran.flow
    cases flow with
    | next => exact ih m₁ m₂ ran.machine
    | leave => exact ⟨rfl, ran.machine⟩
    | again | stop | fault => exact ran

theorem exec_dispatch_nil (stages : List String) (otherwise : Stmt) (m : Machine) :
    s.exec rounds (.dispatch stages [] otherwise) m = s.exec rounds otherwise m := by
  simp [exec, execArm]

theorem exec_dispatch_unlisted (arms : List Stmt) (otherwise : Stmt) (m : Machine) :
    s.exec rounds (.dispatch [] arms otherwise) m = s.exec rounds otherwise m := by
  cases arms <;> simp [exec, execArm]

theorem exec_dispatch_cons (stage : String) (stages : List String) (arm : Stmt)
    (arms : List Stmt) (otherwise : Stmt) (m : Machine) :
    s.exec rounds (.dispatch (stage :: stages) (arm :: arms) otherwise) m =
      if m.stage = some stage then s.exec rounds arm m
      else s.exec rounds (.dispatch stages arms otherwise) m := by
  by_cases here : m.stage = some stage <;> simp [exec, execArm, here]

theorem mimics_dispatch_cons {stage : String} {stages : List String} {arms arms' : List Stmt}
    (first : s.Mimics rounds keep a b)
    (others : s.Mimics rounds keep (.dispatch stages arms a') (.dispatch stages arms' b')) :
    s.Mimics rounds keep (.dispatch (stage :: stages) (a :: arms) a')
      (.dispatch (stage :: stages) (b :: arms') b') := by
  intro m m' agrees
  rw [exec_dispatch_cons, exec_dispatch_cons, agrees.stage]
  split
  · exact first m m' agrees
  · exact others m m' agrees

end Mimics

section Unreferenced

variable {keep : Nat → Prop} {m m' : Machine}

/-- The code refers to kept registers only. -/
def RefersTo (keep : Nat → Prop) (code : Code) : Prop := ∀ v, ¬ keep v → references v code = 0

private theorem RefersTo.kept {code : Code} (refers : RefersTo keep code) {v : Nat}
    (used : references v code ≠ 0) : keep v :=
  Classical.byContradiction fun out => used (refers v out)

private theorem number_congr (agrees : m.Agrees keep m') {place : Place}
    (refers : RefersTo keep place.code) : m'.number place = m.number place := by
  cases place with
  | var w | ofResult w =>
    have same := agrees.get w (refers.kept (by simp [Place.code, references, referencesAll]))
    simp only [Machine.number, same]

private theorem value_congr (agrees : m.Agrees keep m') {value : Value}
    (refers : RefersTo keep (value.code s.frame.chunk)) : s.value m' value = s.value m value := by
  cases value with
  | noMatch | chunkEnd | zero => rfl
  | position p | place p | call bound p =>
    have same : m'.number p = m.number p := number_congr agrees fun v out => by
      have := refers v out
      simp only [Value.code, references, referencesAll] at this
      omega
    simp [Surroundings.value, Machine.position, same]
  | probe test p =>
    have same : m'.number p = m.number p := number_congr agrees fun v out => by
      have := refers v out
      cases test <;>
      · simp only [Value.code, Probe.code, Probe.code.advance, references, referencesAll] at this
        omega
    simp [Surroundings.value, Machine.position, same]
  | result w | asPlace w | succ w =>
    have same := agrees.get w (refers.kept (by simp [Value.code, references, referencesAll]))
    simp [Surroundings.value, same]
  | counted counter min pos =>
    have first := agrees.get counter
      (refers.kept (by simp [Value.code, references, referencesAll]))
    have second := agrees.get pos (refers.kept (by simp [Value.code, references, referencesAll]))
    simp [Surroundings.value, first, second]

theorem holds_congr (agrees : m.Agrees keep m') {cond : Cond}
    (refers : RefersTo keep (cond.code s.frame.chunk)) : s.holds m' cond = s.holds m cond := by
  cases cond with
  | noMatch w | isMatch w | negative w | notNoMatch w | reached w _ | atChunkEnd w =>
    have same := agrees.get w (refers.kept (by simp [Cond.code, references, referencesAll]))
    simp [holds, same]
  | unmoved r pos =>
    have first := agrees.get r (refers.kept (by simp [Cond.code, references, referencesAll]))
    have second := agrees.get pos (refers.kept (by simp [Cond.code, references, referencesAll]))
    simp [holds, first, second]

mutual
/-- Registers that are not referred to do not matter. -/
theorem mimics_self {keep : Nat → Prop} : (stmt : Stmt) → RefersTo keep (stmt.code s.frame) →
    s.Mimics rounds keep stmt stmt
  | .declare _, _ => fun m m' agrees => by
    rw [exec_declare, exec_declare]
    exact ⟨rfl, agrees⟩
  | .assign w value _, refers => fun m m' agrees => by
    rw [exec, exec, value_congr agrees fun v out => by
      have := refers v out
      rwa [Stmt.code, references] at this]
    cases s.value m value with
    | error fault => exact ⟨rfl, agrees⟩
    | ok x => exact ⟨rfl, agrees.set_set w x⟩
  | .block items, refers =>
    mimics_block_self items fun v out => by simpa [Stmt.code, references] using refers v out
  | .guarded cond body, refers => by
    have parts (v : Nat) (out : ¬ keep v) := refers v out
    simp only [Stmt.code, references, referencesAll, Nat.add_eq_zero_iff] at parts
    exact mimics_guarded (fun m m' agrees => holds_congr agrees fun v out => (parts v out).2.1)
      (mimics_self body fun v out => (parts v out).2.2.2.1)
  | .onResult r matched failed, refers => by
    have parts (v : Nat) (out : ¬ keep v) := refers v out
    simp only [Stmt.code, references, referencesAll, Nat.add_eq_zero_iff] at parts
    exact mimics_onResult
      (refers.kept (by simp [Stmt.code, references, referencesAll]))
      (mimics_self matched fun v out => (parts v out).2.2.2.1)
      (mimics_self failed fun v out => (parts v out).2.2.2.2.2.2.2.1)
  | .loop body, refers => by
    have parts (v : Nat) (out : ¬ keep v) := refers v out
    simp only [Stmt.code, references, referencesAll, Nat.add_eq_zero_iff] at parts
    exact mimics_loop (mimics_self body fun v out => (parts v out).2.1)
  | .leave, _ => fun m m' agrees => by
    rw [exec, exec]
    exact ⟨rfl, agrees⟩
  | .accept rule stop move, refers => fun m m' agrees => by
    have parts (v : Nat) (out : ¬ keep v) := refers v out
    simp only [Stmt.code, references, referencesAll, Nat.add_eq_zero_iff] at parts
    have cursor : keep s.frame.cursor :=
      refers.kept (by simp [Stmt.code, references, referencesAll])
    have same : m'.position stop = m.position stop := by
      rw [Machine.position, number_congr agrees fun v out => (parts v out).2.1, Machine.position]
    rw [exec, exec, same]
    exact accept_congr agrees cursor _ _ _
  | .fail owner r, refers => fun m m' agrees => by
    have cursor : keep s.frame.cursor :=
      refers.kept (by simp [Stmt.code, references, referencesAll])
    rw [exec, exec, agrees.get r (refers.kept (by simp [Stmt.code, references, referencesAll]))]
    exact failed_congr agrees cursor _ _
  | .dispatch stages arms otherwise, refers => by
    have parts (v : Nat) (out : ¬ keep v) := refers v out
    simp only [Stmt.code, references, referencesAll, Nat.add_eq_zero_iff] at parts
    exact mimics_dispatch_self arms stages (fun v out => (parts v out).2.1)
      (mimics_self otherwise fun v out => (parts v out).2.2.2.1)
theorem mimics_block_self {keep : Nat → Prop} : (items : List Stmt) →
    (∀ v, ¬ keep v → referencesAll v (Stmt.codes s.frame items) = 0) →
      s.Mimics rounds keep (.block items) (.block items)
  | [], _ => mimics_nil
  | item :: rest, refers => by
    simp only [Stmt.codes, referencesAll, Nat.add_eq_zero_iff] at refers
    exact mimics_cons (mimics_self item fun v out => (refers v out).1)
      (mimics_block_self rest fun v out => (refers v out).2)
theorem mimics_dispatch_self {keep : Nat → Prop} {otherwise : Stmt} : (arms : List Stmt) →
    (stages : List String) →
      (∀ v, ¬ keep v → referencesAll v (Stmt.armCodes s.frame stages arms) = 0) →
        s.Mimics rounds keep otherwise otherwise →
          s.Mimics rounds keep (.dispatch stages arms otherwise) (.dispatch stages arms otherwise)
  | [], _, _, last => fun m m' agrees => by
    rw [exec_dispatch_nil, exec_dispatch_nil]
    exact last m m' agrees
  | _ :: _, [], _, last => fun m m' agrees => by
    rw [exec_dispatch_unlisted, exec_dispatch_unlisted]
    exact last m m' agrees
  | arm :: rest, stage :: stages, refers, last => by
    simp only [Stmt.armCodes, references, referencesAll, Nat.add_eq_zero_iff] at refers
    exact mimics_dispatch_cons (mimics_self arm fun v out => (refers v out).1.2.1)
      (mimics_dispatch_self rest stages (fun v out => (refers v out).2) last)
end

theorem refersTo_ne {v : Nat} {code : Code} (unreferenced : references v code = 0) :
    RefersTo (· ≠ v) code := by
  intro w equal
  rw [Decidable.not_not.mp equal]
  exact unreferenced

end Unreferenced

section Unassigned

variable {v : Nat}

private theorem confirm_registers {m c : Machine} (confirmed : s.confirm m = .ok c) :
    c.registers = m.registers := by
  unfold confirm at confirmed
  split at confirmed
  · next p _ =>
    cases event : Scan.tokenEvent s.lexicon s.base p.rule p.start p.stop with
    | error => rw [event] at confirmed; cases confirmed
    | ok event' => rw [event] at confirmed; cases confirmed; rfl
  · cases confirmed
    rfl

private theorem accept_get (other : s.frame.cursor ≠ v) (m : Machine) (rule stop : Nat)
    (move : StageMove) : (s.accept m rule stop move).2.get v = m.get v := by
  unfold accept
  simp only
  split
  · split
    · rfl
    · next c confirmed =>
      have same := confirm_registers confirmed
      split
      · simp [Machine.get, same]
      · simp [Machine.get, Std.HashMap.getD_insert, other, same]
  · rfl

private theorem failed_get (m : Machine) (owner : Nat) (code : Int) :
    (s.failed m owner code).2.get v = m.get v := by
  unfold failed
  split
  · rfl
  · next c confirmed =>
    have same := confirm_registers confirmed
    split <;> simp [Machine.get, same]

private theorem iterate_get {body : Machine → Flow × Machine}
    (kept : ∀ m, (body m).2.get v = m.get v) (fuel : Nat) (m : Machine) :
    (iterate body fuel m).2.get v = m.get v := by
  induction fuel generalizing m with
  | zero => rfl
  | succ fuel ih =>
    have round := kept m
    rw [iterate]
    rcases ran : body m with ⟨flow, m₁⟩
    rw [ran] at round
    cases flow with
    | next => exact (ih m₁).trans round
    | leave | again | stop | fault => exact round

mutual
/-- A register that is not assigned keeps its number. -/
theorem exec_get_of_unassigned {v : Nat} : (stmt : Stmt) →
    (flatten (stmt.code s.frame)).any (assigns [v]) = false → (m : Machine) →
      (s.exec rounds stmt m).2.get v = m.get v
  | .declare _, _, m => by rw [exec_declare]
  | .leave, _, m => by rw [exec]
  | .assign w value _, unassigned, m => by
    have other : w ≠ v := by simpa [Stmt.code, flatten, assigns] using unassigned
    rw [exec]
    cases s.value m value with
    | error fault => rfl
    | ok x => simp [other]
  | .block items, unassigned, m => by
    rw [exec]
    exact execAll_get_of_unassigned items (by simpa [Stmt.code] using unassigned) m
  | .guarded cond body, unassigned, m => by
    simp only [Stmt.code, flatten_block, flattenAll, List.any_append, Bool.or_eq_false_iff]
      at unassigned
    rw [exec]
    split
    · exact exec_get_of_unassigned body unassigned.2.2.2.1 m
    · rfl
  | .onResult r matched failed, unassigned, m => by
    simp only [Stmt.code, flatten_block, flattenAll, List.any_append, Bool.or_eq_false_iff]
      at unassigned
    rw [exec]
    split
    · exact exec_get_of_unassigned matched unassigned.2.2.2.1 m
    · split
      · exact exec_get_of_unassigned failed unassigned.2.2.2.2.2.2.2.1 m
      · rfl
  | .loop body, unassigned, m => by
    simp only [Stmt.code, flatten_block, flattenAll, List.any_append, Bool.or_eq_false_iff]
      at unassigned
    rw [exec]
    exact iterate_get (exec_get_of_unassigned body unassigned.2.1) rounds m
  | .accept rule stop move, unassigned, m => by
    have other : s.frame.cursor ≠ v := by
      simp only [Stmt.code, flatten_block, flattenAll, List.any_append, Bool.or_eq_false_iff,
        flatten, assigns, List.any_cons] at unassigned
      simp_all
    rw [exec]
    exact accept_get other m _ _ _
  | .fail owner r, _, m => by
    rw [exec]
    exact failed_get m _ _
  | .dispatch stages arms otherwise, unassigned, m => by
    simp only [Stmt.code, flatten_block, flattenAll, List.any_append, Bool.or_eq_false_iff]
      at unassigned
    rw [exec]
    split
    · next found => exact execArm_get_of_unassigned arms stages unassigned.2.1 m found
    · exact exec_get_of_unassigned otherwise unassigned.2.2.2.1 m
theorem execAll_get_of_unassigned {v : Nat} : (items : List Stmt) →
    (flattenAll (Stmt.codes s.frame items)).any (assigns [v]) = false → (m : Machine) →
      (s.execAll rounds items m).2.get v = m.get v
  | [], _, m => by rw [execAll]
  | item :: rest, unassigned, m => by
    simp only [Stmt.codes, flattenAll, List.any_append, Bool.or_eq_false_iff] at unassigned
    have first : (s.exec rounds item m).2.get v = m.get v :=
      exec_get_of_unassigned item unassigned.1 m
    rw [execAll]
    split
    · next m₁ equal =>
      rw [equal] at first
      exact (execAll_get_of_unassigned rest unassigned.2 m₁).trans first
    · exact first
theorem execArm_get_of_unassigned {v : Nat} : (arms : List Stmt) → (stages : List String) →
    (flattenAll (Stmt.armCodes s.frame stages arms)).any (assigns [v]) = false → (m : Machine) →
      {ending : Flow × Machine} → s.execArm rounds stages arms m = some ending →
        ending.2.get v = m.get v
  | [], _, _, _, _, found => by rw [execArm] at found; cases found
  | _ :: _, [], _, _, _, found => by rw [execArm] at found; cases found
  | arm :: rest, stage :: stages, unassigned, m, ending, found => by
    simp only [Stmt.armCodes, flattenAll, flatten_block, List.any_append, Bool.or_eq_false_iff]
      at unassigned
    rw [execArm] at found
    split at found
    · cases found
      exact exec_get_of_unassigned arm unassigned.1.2.1 m
    · exact execArm_get_of_unassigned rest stages unassigned.2 m found
end

end Unassigned

end Surroundings

end StagedLexer
