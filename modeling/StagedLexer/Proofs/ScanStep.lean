import StagedLexer.Scan

/-! One step of a scan, by the outcome of trying the rules of the current stage at the cursor. -/
namespace StagedLexer

variable {Ctx : Type}

/-- The outcome of trying the rules of a stage at a position of a text. -/
def Lexicon.outcome (lexicon : Lexicon Ctx) (text : Bytes) (ctx : Ctx) (pos : Nat)
    (stage : Option String) : Outcome :=
  Branch.attemptAll text ctx pos pos (lexicon.forest.roots stage)

theorem Lexicon.lt_of_outcome {lexicon : Lexicon Ctx} {text : Bytes} {ctx : Ctx}
    {pos rule stop : Nat} {stage : Option String}
    (found : lexicon.outcome text ctx pos stage = .matched rule stop) : pos < stop :=
  Branch.lt_of_attemptAll_eq_matched pos _ found

namespace Scan

variable {lexicon : Lexicon Ctx} {state : StreamState} {ctx : Ctx} {streaming : Bool}
  {progress : Progress}

theorem run_of_end (none : ¬ progress.cursor < state.chunk.size) :
    run lexicon state ctx streaming progress = finish lexicon state streaming progress := by
  rw [run, if_neg none]

variable (left : progress.cursor < state.chunk.size)

include left

theorem run_of_noMatch
    (found : lexicon.outcome state.chunk ctx progress.cursor progress.stage = .noMatch) :
    run lexicon state ctx streaming progress = finish lexicon state streaming progress := by
  rw [Lexicon.outcome] at found
  rw [run, if_pos left]
  split <;> simp_all

theorem run_of_failed {owner : Nat} {code : ErrorCode}
    (found : lexicon.outcome state.chunk ctx progress.cursor progress.stage = .failed owner code) :
    run lexicon state ctx streaming progress = fail lexicon state progress owner code := by
  rw [Lexicon.outcome] at found
  rw [run, if_pos left]
  split <;> simp_all

theorem run_of_endless
    (found : lexicon.outcome state.chunk ctx progress.cursor progress.stage = .endless) :
    run lexicon state ctx streaming progress = giveUp progress .endless := by
  rw [Lexicon.outcome] at found
  rw [run, if_pos left]
  split <;> simp_all

theorem run_of_matched {rule stop : Nat}
    (found : lexicon.outcome state.chunk ctx progress.cursor progress.stage = .matched rule stop) :
    run lexicon state ctx streaming progress =
      match confirm lexicon state.chunkOffset progress with
      | .error fault => giveUp progress fault
      | .ok events =>
        match lexicon.nextStage rule
            ⟨state.chunk, progress.cursor, stop - progress.cursor, progress.stage⟩ ctx with
        | .error fault => giveUp { progress with events } fault
        | .ok next => run lexicon state ctx streaming (accept progress events rule stop next) := by
  rw [Lexicon.outcome] at found
  rw [run, if_pos left]
  split
  · next rule' stop' found' =>
    obtain ⟨rfl, rfl⟩ := Outcome.matched.inj (found.symm.trans found')
    rfl
  · simp_all
  · simp_all
  · simp_all

end Scan

end StagedLexer
