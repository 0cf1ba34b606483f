import StagedLexer.Proofs.CallHistory

/-! Lexicons that differ in the numbers of their rules only. Their scans follow the same trails, so
tokenizers that have them report the same events and leave the same states behind, whatever calls
are made. -/
namespace StagedLexer

variable {Ctx : Type}

namespace Outcome

def renumber (f : Nat → Nat) : Outcome → Outcome
  | matched rule stop => matched (f rule) stop
  | failed owner code => failed (f owner) code
  | noMatch => noMatch
  | endless => endless

theorem renumber_orElse (f : Nat → Nat) (outcome other : Outcome) :
    (outcome.orElse fun _ => other).renumber f =
      (outcome.renumber f).orElse fun _ => other.renumber f := by
  cases outcome <;> rfl

end Outcome

/-- A lexicon that makes the same of every text as another one, with other numbers for the
rules. -/
structure Lexicon.Renumbers (f : Nat → Nat) (lexicon other : Lexicon Ctx) : Prop where
  outcome (text : Bytes) (ctx : Ctx) (pos : Nat) (stage : Option String) :
    other.outcome text ctx pos stage = (lexicon.outcome text ctx pos stage).renumber f
  rule (number : Nat) : other.rules[f number]? = lexicon.rules[number]?

namespace Lexicon.Renumbers

variable {f : Nat → Nat} {lexicon other : Lexicon Ctx} (renumbers : Renumbers f lexicon other)

include renumbers

theorem tokenType (rule : Nat) : other.tokenType (f rule) = lexicon.tokenType rule := by
  rw [Lexicon.tokenType, renumbers.rule, ← Lexicon.tokenType]

theorem nextStage (rule : Nat) : other.nextStage (f rule) = lexicon.nextStage rule := by
  funext m ctx
  simp only [Lexicon.nextStage, renumbers.rule]

end Lexicon.Renumbers

namespace Scan

def Pending.renumber (f : Nat → Nat) (step : Pending) : Pending :=
  { step with rule := f step.rule }

def Ending.renumber (f : Nat → Nat) : Ending → Ending
  | failed owner code => failed (f owner) code
  | ending => ending

/-- The reports have the same events and results; their notes may differ. -/
structure Report.Alike (report other : Report) : Prop where
  events : report.events = other.events
  result : report.result = other.result

theorem Report.Alike.andThen {report other : Report} (alike : report.Alike other)
    {next next' : StreamState → Report} (each : ∀ state, (next state).Alike (next' state)) :
    (report.andThen next).Alike (other.andThen next') := by
  unfold Report.andThen
  rw [alike.result]
  cases other.result with
  | ok state => exact ⟨by simp only [alike.events, (each state).events], (each state).result⟩
  | error fault => exact alike

end Scan

section

variable {f : Nat → Nat} {lexicon other : Lexicon Ctx} {text : Bytes} {ctx : Ctx}
  {pos final : Nat} {stage last : Option String} {steps : List Scan.Pending}
  {ending : Scan.Ending} (renumbers : lexicon.Renumbers f other)

include renumbers

theorem Lexicon.Trail.renumber (trail : lexicon.Trail text ctx pos stage steps final last) :
    other.Trail text ctx pos stage (steps.map (Scan.Pending.renumber f)) final last := by
  induction trail with
  | nil pos stage => exact .nil pos stage
  | cons left found follows rest ih =>
    refine .cons left ?_ ?_ ih
    · rw [renumbers.outcome, found]
      rfl
    · rw [renumbers.nextStage]
      exact follows

theorem Lexicon.ends_renumber (ends : lexicon.Ends text ctx pos stage ending) :
    other.Ends text ctx pos stage (ending.renumber f) := by
  have outcome := renumbers.outcome text ctx pos stage
  cases ending with
  | idle =>
    refine ends.imp_right fun found => ?_
    rw [outcome, found]
    rfl
  | failed owner code =>
    refine ⟨ends.1, ?_⟩
    rw [outcome, ends.2]
    rfl
  | endless =>
    refine ⟨ends.1, ?_⟩
    rw [outcome, ends.2]
    rfl
  | unanswered fault =>
    obtain ⟨left, rule, stop, found, follows⟩ := ends
    refine ⟨left, f rule, stop, ?_, ?_⟩
    · rw [outcome, found]
      rfl
    · rw [renumbers.nextStage]
      exact follows

namespace Scan

theorem tokenOf_renumber (base : Nat) (step : Pending) :
    tokenOf other base (step.renumber f) = tokenOf lexicon base step := by
  simp only [tokenOf, Pending.renumber, renumbers.tokenType]

theorem eventsOf_renumber (state : StreamState) (streaming : Bool) :
    eventsOf other state streaming (steps.map (Pending.renumber f)) final (ending.renumber f) =
      eventsOf lexicon state streaming steps final ending := by
  have tokens (steps : List Pending) :
      (steps.map (Pending.renumber f)).map (tokenOf other state.chunkOffset) =
        steps.map (tokenOf lexicon state.chunkOffset) := by
    rw [List.map_map]
    exact List.map_congr_left fun step _ => tokenOf_renumber renumbers _ step
  cases ending <;>
    simp only [eventsOf, Ending.renumber, ← List.map_dropLast, tokens, renumbers.tokenType]

omit renumbers in
theorem resultOf_renumber (state : StreamState) (streaming : Bool) :
    resultOf state streaming (steps.map (Pending.renumber f)) final last (ending.renumber f) =
      resultOf state streaming steps final last ending := by
  cases ending with
  | idle =>
    simp only [resultOf, Ending.renumber, List.getLast?_map]
    cases streaming <;> cases steps.getLast? <;> rfl
  | failed | endless | unanswered => rfl

theorem scan_alike (state : StreamState) (ctx : Ctx) (streaming : Bool) :
    (other.scan state ctx streaming).Alike (lexicon.scan state ctx streaming) := by
  obtain ⟨steps, final, last, ending, trail, ends⟩ :=
    lexicon.exists_trail state.chunk ctx state.offset state.stage
  have makes := scan_makes state streaming trail ends
  have makes' := scan_makes state streaming (trail.renumber renumbers)
    (Lexicon.ends_renumber renumbers ends)
  rw [eventsOf_renumber renumbers, resultOf_renumber] at makes'
  refine ⟨Array.toList_inj.mp ?_, ?_⟩
  · rw [makes'.events, makes.events]
  · rw [makes'.result, makes.result]

end Scan

end

namespace Tokenizer

/-- The report of calls that are made one after the other on a stream in the given state, or on a
fresh one. -/
def callAllFrom (tokenizer : Tokenizer Ctx) (ctx : Ctx) (state : Option StreamState)
    (calls : List StreamCall) : Scan.Report :=
  calls.foldl (fun report call => report.andThen fun state => tokenizer.call ctx state call)
    { events := #[], notes := #[], result := .ok (state.getD (.fresh tokenizer.initialStage)) }

variable {f : Nat → Nat} {tokenizer other : Tokenizer Ctx}
  (renumbers : tokenizer.lexicon.Renumbers f other.lexicon)

include renumbers

theorem call_alike (ctx : Ctx) (state : StreamState) (call : StreamCall) :
    (other.call ctx state call).Alike (tokenizer.call ctx state call) := by
  cases call with
  | write chunk =>
    simp only [Tokenizer.call, write, Option.getD_some]
    cases state.append chunk with
    | ok next => exact Scan.scan_alike renumbers next ctx true
    | error fault => exact ⟨rfl, rfl⟩
  | finish => exact Scan.scan_alike renumbers state ctx false

theorem callAllFrom_alike (same : other.initialStage = tokenizer.initialStage) (ctx : Ctx)
    (state : Option StreamState) (calls : List StreamCall) :
    (other.callAllFrom ctx state calls).Alike (tokenizer.callAllFrom ctx state calls) := by
  induction calls using List.reverseRecOn with
  | nil => exact ⟨rfl, by simp only [callAllFrom, List.foldl_nil, same]⟩
  | append_singleton calls call ih =>
    simp only [callAllFrom, List.foldl_append, List.foldl_cons, List.foldl_nil] at ih ⊢
    exact ih.andThen fun state => call_alike renumbers ctx state call

end Tokenizer

end StagedLexer
