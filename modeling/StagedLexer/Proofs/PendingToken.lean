import StagedLexer.Proofs.PlainReaders
import StagedLexer.Proofs.Trail

/-! One scan as a machine with a pending token. The matches that follow one another from the offset
of the state decide what is reported and where the stream goes on: behind the last match, or at its
start and in its stage where more text may come. -/
namespace StagedLexer

variable {Ctx : Type}

theorem Lexicon.Trail.increasing {lexicon : Lexicon Ctx} {text : Bytes} {ctx : Ctx}
    {pos final : Nat} {stage last : Option String} {steps : List Scan.Pending}
    (trail : lexicon.Trail text ctx pos stage steps final last) :
    (pos :: steps.map (·.stop)).Pairwise (· < ·) := by
  induction trail with
  | nil => exact List.pairwise_singleton _ _
  | @cons pos rule stop _ _ _ _ steps left found follows rest ih =>
    have further := lt_of_outcome found
    refine .cons (fun position member => ?_) ih
    rcases List.mem_cons.mp member with rfl | behind
    · exact further
    · exact Nat.lt_trans further ((List.pairwise_cons.mp ih).1 position behind)

/-- If every reading comes to an end, so does the scan. The trail of matches from the offset ends in
an application error, where no text is left or nothing matches, or where a stage function has no
answer; the scan reports its matches and leaves the chunk and its position as they are. -/
theorem Lexicon.scan_runs_pending_machine (lexicon : Lexicon Ctx) (state : StreamState) (ctx : Ctx)
    (reads : lexicon.forest.EachReader fun reader =>
      ∀ pos, reader.read state.chunk ctx pos ≠ .endless) :
    ∃ steps final last ending,
      lexicon.Trail state.chunk ctx state.offset state.stage steps final last ∧
      lexicon.Ends state.chunk ctx final last ending ∧ ending ≠ .endless ∧
      (state.offset :: steps.map (·.stop)).Pairwise (· < ·) ∧
      let base := state.chunkOffset
      let tokens := steps.map fun step =>
        Event.token (lexicon.tokenType step.rule) ⟨base + step.start, base + step.stop⟩
      let behind := { state with stage := last, offset := final }
      (∀ owner code streaming, ending = .failed owner code →
        (lexicon.scan state ctx streaming).Makes
          (tokens ++ [Event.error (lexicon.tokenType owner) (base + final) code.value]) (.ok behind)) ∧
      (ending = .idle → (lexicon.scan state ctx false).Makes
        (tokens ++ if final < state.chunk.size then [Event.unrecognized (base + final)] else [])
        (.ok behind)) ∧
      (ending = .idle → (lexicon.scan state ctx true).Makes tokens.dropLast
        (.ok (match steps.getLast? with
          | some step => { state with stage := step.stage, offset := step.start }
          | none => state))) ∧
      ∀ fault streaming, ending = .unanswered fault →
        (lexicon.scan state ctx streaming).Makes tokens (.error fault) := by
  obtain ⟨steps, final, last, ending, trail, ends⟩ :=
    lexicon.exists_trail state.chunk ctx state.offset state.stage
  have makes (streaming : Bool) := Scan.scan_makes state streaming trail ends
  refine ⟨steps, final, last, ending, trail, ends, ?_, trail.increasing, ?_⟩
  · rintro rfl
    exact Branch.attemptAll_ne_endless (reads.roots last) ends.2
  · refine ⟨?_, ?_, ?_, ?_⟩
    · rintro owner code streaming rfl
      exact makes streaming
    · rintro rfl
      exact makes false
    · rintro rfl
      have made := makes true
      rw [Scan.resultOf_streaming_of_trail trail] at made
      rw [← List.map_dropLast]
      exact made
    · rintro fault streaming rfl
      exact makes streaming

/-- A quote leads into a stage in which letters are read. -/
def quotedLetters : List (Rule Unit) :=
  [{ tokenType := "quote", reader := .text 0 [34], transition := .switch "quoted" },
    { tokenType := "letter", reader := .text 1 [97], activity := .inStages ["quoted"] }]

theorem plain_of_mem_quotedLetters : ∀ rule ∈ quotedLetters, rule.reader.Plain := by
  intro rule member
  simp only [quotedLetters, List.mem_cons, List.not_mem_nil, or_false] at member
  rcases member with rfl | rfl <;> simp [Reader.Plain, Reader.text, Reader.parts]

/-- In `"aa?` the second letter is held back, and the stage goes back with it. -/
theorem Lexicon.scan_runs_pending_machine_quoted :
    let lexicon : Lexicon Unit := ⟨quotedLetters.toArray, .ofRules quotedLetters none⟩
    let state : StreamState := { chunk := #[34, 97, 97, 63], chunkOffset := 7 }
    (∃ steps final last ending,
      lexicon.Trail state.chunk () 0 none steps final last ∧
      lexicon.Ends state.chunk () final last ending ∧ ending ≠ .endless ∧
      (0 :: steps.map (·.stop)).Pairwise (· < ·)) ∧
    (lexicon.scan state () true).events = #[.token "quote" ⟨7, 8⟩, .token "letter" ⟨8, 9⟩] ∧
    (lexicon.scan state () true).result.toOption =
      some { state with stage := some "quoted", offset := 2 } ∧
    (lexicon.scan state () false).events =
      #[.token "quote" ⟨7, 8⟩, .token "letter" ⟨8, 9⟩, .token "letter" ⟨9, 10⟩, .unrecognized 10] ∧
    (lexicon.scan state () false).result.toOption =
      some { state with stage := some "quoted", offset := 3 } := by
  intro lexicon state
  have reads : lexicon.forest.EachReader fun reader =>
      ∀ pos, reader.read state.chunk () pos ≠ .endless := by
    refine Forest.eachReader_ofRules (fun rule member step among pos => ?_) none
    have plain := (plain_of_mem_quotedLetters rule member).of_parts_subset
      (Reader.parts_subset_of_mem_steps among)
    exact (plain.callsWithin _ _).read_ne_endless pos
  obtain ⟨steps, final, last, ending, trail, ends, terminates, increasing, -⟩ :=
    lexicon.scan_runs_pending_machine state () reads
  refine ⟨⟨steps, final, last, ending, trail, ends, terminates, increasing⟩, ?_⟩
  decide +kernel

end StagedLexer
