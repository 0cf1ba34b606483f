import Mathlib.Data.List.TakeWhile
import StagedLexer.Proofs.ScanStep

/-! The matches that a scan makes one after the other. A scan follows the trail of matches from its
start to where nothing matches or no text is left. At the end of a stream it reports all of them; as
long as more text may come it holds the last one back and goes back to its start. -/
namespace StagedLexer

variable {Ctx : Type}

/-- A trail of matches from a position and a stage to another position and stage: each match starts
where the one before it ends, in the stage that follows. -/
inductive Lexicon.Trail (lexicon : Lexicon Ctx) (text : Bytes) (ctx : Ctx) :
    Nat → Option String → List Scan.Pending → Nat → Option String → Prop
  | nil (pos : Nat) (stage : Option String) : Trail lexicon text ctx pos stage [] pos stage
  | cons {pos rule stop final : Nat} {stage next last : Option String}
      {steps : List Scan.Pending} (left : pos < text.size)
      (found : lexicon.outcome text ctx pos stage = .matched rule stop)
      (follows : lexicon.nextStage rule ⟨text, pos, stop - pos, stage⟩ ctx = .ok next)
      (rest : Trail lexicon text ctx stop (next.or stage) steps final last) :
      Trail lexicon text ctx pos stage (⟨rule, pos, stop, stage⟩ :: steps) final last

/-- No text is left, or nothing matches. -/
def Lexicon.Halts (lexicon : Lexicon Ctx) (text : Bytes) (ctx : Ctx) (pos : Nat)
    (stage : Option String) : Prop :=
  text.size ≤ pos ∨ lexicon.outcome text ctx pos stage = .noMatch

namespace Lexicon.Trail

variable {lexicon : Lexicon Ctx} {text : Bytes} {ctx : Ctx} {pos final : Nat}
  {stage last : Option String} {steps : List Scan.Pending}

theorem le (trail : lexicon.Trail text ctx pos stage steps final last) : pos ≤ final := by
  induction trail with
  | nil => exact Nat.le_refl _
  | cons _ found _ _ ih => exact Nat.le_trans (Nat.le_of_lt (lt_of_outcome found)) ih

theorem append {middle : Nat} {between : Option String} {more : List Scan.Pending}
    (first : lexicon.Trail text ctx pos stage steps middle between)
    (second : lexicon.Trail text ctx middle between more final last) :
    lexicon.Trail text ctx pos stage (steps ++ more) final last := by
  induction first with
  | nil => exact second
  | cons left found follows _ ih => exact .cons left found follows (ih second)

theorem bounds (trail : lexicon.Trail text ctx pos stage steps final last) :
    ∀ step ∈ steps, step.start < step.stop ∧ step.stop ≤ final := by
  induction trail with
  | nil => simp
  | cons left found follows rest ih =>
    intro step member
    rcases List.mem_cons.mp member with rfl | behind
    · exact ⟨lt_of_outcome found, rest.le⟩
    · exact ih step behind

theorem found_of_mem (trail : lexicon.Trail text ctx pos stage steps final last) :
    ∀ step ∈ steps,
      lexicon.outcome text ctx step.start step.stage = .matched step.rule step.stop := by
  induction trail with
  | nil => simp
  | cons left found follows rest ih =>
    intro step member
    rcases List.mem_cons.mp member with rfl | behind
    · exact found
    · exact ih step behind

theorem dropLast (trail : lexicon.Trail text ctx pos stage steps final last)
    {step : Scan.Pending} (final_step : steps.getLast? = some step) :
    lexicon.Trail text ctx pos stage steps.dropLast step.start step.stage := by
  induction trail with
  | nil => cases final_step
  | @cons pos rule stop _ stage _ _ steps left found follows rest ih =>
    cases steps with
    | nil =>
      cases final_step
      exact .nil pos stage
    | cons second more => exact .cons left found follows (ih (by simpa using final_step))

theorem last_alone (trail : lexicon.Trail text ctx pos stage steps final last)
    {step : Scan.Pending} (final_step : steps.getLast? = some step) :
    lexicon.Trail text ctx step.start step.stage [step] final last := by
  induction trail with
  | nil => cases final_step
  | @cons pos rule stop _ stage _ _ steps left found follows rest ih =>
    cases steps with
    | nil =>
      cases final_step
      exact .cons left found follows rest
    | cons second more => exact ih (by simpa using final_step)

end Lexicon.Trail

/-- On the text every reading comes to an end, and every match ends within the text, with a stage
that follows it. -/
structure Lexicon.Contained (lexicon : Lexicon Ctx) (text : Bytes) (ctx : Ctx) : Prop where
  inside {pos : Nat} {stage : Option String} {rule stop : Nat} : pos ≤ text.size →
    lexicon.outcome text ctx pos stage = .matched rule stop → stop ≤ text.size
  ending {pos : Nat} {stage : Option String} :
    pos ≤ text.size → lexicon.outcome text ctx pos stage ≠ .endless
  answered {pos : Nat} {stage : Option String} {rule stop : Nat} : pos ≤ text.size →
    lexicon.outcome text ctx pos stage = .matched rule stop →
    ∃ next, lexicon.nextStage rule ⟨text, pos, stop - pos, stage⟩ ctx = .ok next

/-- On the text every position of every stage has a match within the text, with a stage that follows
it, or none at all. -/
structure Lexicon.Decided (lexicon : Lexicon Ctx) (text : Bytes) (ctx : Ctx) : Prop where
  /-- Matches end within the text. -/
  inside {pos : Nat} {stage : Option String} {rule stop : Nat} : pos ≤ text.size →
    lexicon.outcome text ctx pos stage = .matched rule stop → stop ≤ text.size
  /-- No reading reports an application error. -/
  noFailure {pos : Nat} {stage : Option String} {owner : Nat} {code : ErrorCode} :
    pos ≤ text.size → lexicon.outcome text ctx pos stage ≠ .failed owner code
  /-- Every reading comes to an end. -/
  ending {pos : Nat} {stage : Option String} :
    pos ≤ text.size → lexicon.outcome text ctx pos stage ≠ .endless
  /-- Every match has a stage that follows. -/
  answered {pos : Nat} {stage : Option String} {rule stop : Nat} : pos ≤ text.size →
    lexicon.outcome text ctx pos stage = .matched rule stop →
    ∃ next, lexicon.nextStage rule ⟨text, pos, stop - pos, stage⟩ ctx = .ok next

theorem Lexicon.Decided.contained {lexicon : Lexicon Ctx} {text : Bytes} {ctx : Ctx}
    (decided : lexicon.Decided text ctx) : lexicon.Contained text ctx :=
  ⟨decided.inside, decided.ending, decided.answered⟩

theorem Lexicon.Trail.le_size {lexicon : Lexicon Ctx} {text : Bytes} {ctx : Ctx} {pos final : Nat}
    {stage last : Option String} {steps : List Scan.Pending}
    (trail : lexicon.Trail text ctx pos stage steps final last)
    (contained : lexicon.Contained text ctx) (small : pos ≤ text.size) : final ≤ text.size := by
  induction trail with
  | nil => exact small
  | cons left found follows rest ih => exact ih (contained.inside small found)

/-- Why a trail of matches goes no further. -/
inductive Scan.Ending where
  /-- No text is left, or nothing matches. -/
  | idle
  /-- A reader reports an application error. -/
  | failed (owner : Nat) (code : ErrorCode)
  /-- A reading never comes to an end. -/
  | endless
  /-- There is one more match, but no answer to which stage follows it. -/
  | unanswered (fault : Fault)

def Lexicon.Ends (lexicon : Lexicon Ctx) (text : Bytes) (ctx : Ctx) (pos : Nat)
    (stage : Option String) : Scan.Ending → Prop
  | .idle => lexicon.Halts text ctx pos stage
  | .failed owner code =>
    pos < text.size ∧ lexicon.outcome text ctx pos stage = .failed owner code
  | .endless => pos < text.size ∧ lexicon.outcome text ctx pos stage = .endless
  | .unanswered fault =>
    pos < text.size ∧ ∃ rule stop, lexicon.outcome text ctx pos stage = .matched rule stop ∧
      lexicon.nextStage rule ⟨text, pos, stop - pos, stage⟩ ctx = .error fault

/-- From every position and stage a trail leads to an ending. -/
theorem Lexicon.exists_trail (lexicon : Lexicon Ctx) (text : Bytes) (ctx : Ctx) (pos : Nat)
    (stage : Option String) :
    ∃ steps final last ending, lexicon.Trail text ctx pos stage steps final last ∧
      lexicon.Ends text ctx final last ending := by
  by_cases left : pos < text.size
  · cases found : lexicon.outcome text ctx pos stage with
    | matched rule stop =>
      have further := lt_of_outcome found
      cases follows : lexicon.nextStage rule ⟨text, pos, stop - pos, stage⟩ ctx with
      | error fault =>
        exact ⟨[], pos, stage, .unanswered fault, .nil pos stage, left, rule, stop, found, follows⟩
      | ok next =>
        obtain ⟨steps, final, last, ending, rest, ends⟩ :=
          lexicon.exists_trail text ctx stop (next.or stage)
        exact ⟨_, final, last, ending, .cons left found follows rest, ends⟩
    | failed owner code => exact ⟨[], pos, stage, .failed owner code, .nil pos stage, left, found⟩
    | noMatch => exact ⟨[], pos, stage, .idle, .nil pos stage, .inr found⟩
    | endless => exact ⟨[], pos, stage, .endless, .nil pos stage, left, found⟩
  · exact ⟨[], pos, stage, .idle, .nil pos stage, .inl (Nat.not_lt.mp left)⟩
termination_by text.size - pos

theorem Lexicon.Contained.exists_trail {lexicon : Lexicon Ctx} {text : Bytes} {ctx : Ctx}
    (contained : lexicon.Contained text ctx) (pos : Nat) (small : pos ≤ text.size)
    (stage : Option String) :
    ∃ steps final last ending, lexicon.Trail text ctx pos stage steps final last ∧
      lexicon.Ends text ctx final last ending ∧ final ≤ text.size ∧
      (ending = .idle ∨ ∃ owner code, ending = .failed owner code) := by
  obtain ⟨steps, final, last, ending, trail, ends⟩ := lexicon.exists_trail text ctx pos stage
  have within := trail.le_size contained small
  refine ⟨steps, final, last, ending, trail, ends, within, ?_⟩
  cases ending with
  | idle => exact .inl rfl
  | failed owner code => exact .inr ⟨owner, code, rfl⟩
  | endless => exact (contained.ending within ends.2).elim
  | unanswered fault =>
    obtain ⟨-, rule, stop, found, follows⟩ := ends
    obtain ⟨next, answer⟩ := contained.answered within found
    rw [follows] at answer
    cases answer

theorem Lexicon.Decided.exists_trail {lexicon : Lexicon Ctx} {text : Bytes} {ctx : Ctx}
    (decided : lexicon.Decided text ctx) (pos : Nat) (small : pos ≤ text.size)
    (stage : Option String) :
    ∃ steps final last, lexicon.Trail text ctx pos stage steps final last ∧
      lexicon.Halts text ctx final last ∧ final ≤ text.size := by
  obtain ⟨steps, final, last, ending, trail, ends, within, rfl | ⟨owner, code, rfl⟩⟩ :=
    decided.contained.exists_trail pos small stage
  · exact ⟨steps, final, last, trail, ends, within⟩
  · exact (decided.noFailure within ends.2).elim

/-- Whether the positions of an event are positions that a stream can have. -/
def Event.fits : Event → Bool
  | .token _ span => span.start < positionBound && span.stop < positionBound
  | .error _ offset _ | .unrecognized offset => offset < positionBound

namespace Scan

variable {lexicon : Lexicon Ctx} {state : StreamState} {ctx : Ctx}
  {steps : List Pending} {final : Nat} {last : Option String} {ending : Ending}

/-- The token of a match in a chunk that starts at `base`. -/
def tokenOf (lexicon : Lexicon Ctx) (base : Nat) (step : Pending) : Event :=
  .token (lexicon.tokenType step.rule) ⟨base + step.start, base + step.stop⟩

/-- The event of the text from `pos` on, which no rule matches, if there is any; the text starts at
`base`. -/
def leftover (base : Nat) (text : Bytes) (pos : Nat) : List Event :=
  if pos < text.size then [.unrecognized (base + pos)] else []

/-- The report has the given events and result, unless one of the events is at a position that no
stream has: there it breaks off. -/
structure Report.Makes (report : Report) (made : List Event)
    (left : Except Fault StreamState) : Prop where
  events : report.events.toList = made.takeWhile Event.fits
  result : report.result = if made.all Event.fits then left else .error .overflow

/-- The events of a scan that makes the matches `steps` and ends at `final`. -/
def eventsOf (lexicon : Lexicon Ctx) (state : StreamState) (streaming : Bool)
    (steps : List Pending) (final : Nat) : Ending → List Event
  | .idle =>
    if streaming then steps.dropLast.map (tokenOf lexicon state.chunkOffset)
    else steps.map (tokenOf lexicon state.chunkOffset) ++
      leftover state.chunkOffset state.chunk final
  | .failed owner code => steps.map (tokenOf lexicon state.chunkOffset) ++
    [Event.error (lexicon.tokenType owner) (state.chunkOffset + final) code.value]
  | .endless => steps.dropLast.map (tokenOf lexicon state.chunkOffset)
  | .unanswered _ => steps.map (tokenOf lexicon state.chunkOffset)

/-- The state that a scan leaves behind. -/
def resultOf (state : StreamState) (streaming : Bool) (steps : List Pending) (final : Nat)
    (last : Option String) : Ending → Except Fault StreamState
  | .idle =>
    match streaming, steps.getLast? with
    | true, some step => .ok { state with stage := step.stage, offset := step.start }
    | _, _ => .ok { state with stage := last, offset := final }
  | .failed _ _ => .ok { state with stage := last, offset := final }
  | .endless => .error .endless
  | .unanswered fault => .error fault

theorem positionBehind_of_lt {base distance : Nat} (fits : base + distance < positionBound) :
    positionBehind base distance = .ok (base + distance) :=
  if_pos fits

theorem tokenEvent_eq (base : Nat) (step : Pending) :
    tokenEvent lexicon base step.rule step.start step.stop =
      if (tokenOf lexicon base step).fits then .ok (tokenOf lexicon base step)
      else .error .overflow := by
  simp only [tokenEvent, positionBehind, tokenOf, Event.fits, Bool.and_eq_true, decide_eq_true_eq]
  by_cases start : base + step.start < positionBound <;>
    by_cases stop : base + step.stop < positionBound <;>
      simp [start, stop, bind, Except.bind, pure, Except.pure]

/-- The report goes on behind the events `before` in the same way. -/
private structure Report.Continues (report : Report) (before : Array Event) (made : List Event)
    (left : Except Fault StreamState) : Prop where
  events : report.events.toList = before.toList ++ made.takeWhile Event.fits
  result : report.result = if made.all Event.fits then left else .error .overflow

private theorem Report.Continues.behind {report : Report} {before : Array Event}
    {first made : List Event} {left : Except Fault StreamState}
    (continues : report.Continues (before ++ first.toArray) made left)
    (fit : ∀ event ∈ first, event.fits) : report.Continues before (first ++ made) left := by
  refine ⟨?_, ?_⟩
  · rw [continues.events, List.takeWhile_append_of_pos fit]
    simp
  · have all : first.all Event.fits = true := List.all_eq_true.mpr fit
    rw [continues.result, List.all_append, all, Bool.true_and]

/-- The token that is held back, if there is one. -/
private def held (lexicon : Lexicon Ctx) (base : Nat) (progress : Progress) : List Event :=
  progress.pending.toList.map (tokenOf lexicon base)

private theorem confirm_eq_held (base : Nat) (progress : Progress) :
    confirm lexicon base progress =
      if (held lexicon base progress).all Event.fits then
        .ok (progress.events ++ (held lexicon base progress).toArray)
      else .error .overflow := by
  rw [confirm, held]
  cases progress.pending with
  | none => simp
  | some p =>
    simp only [tokenEvent_eq, Option.toList_some, List.map_cons, List.map_nil, List.all_cons,
      List.all_nil, Bool.and_true]
    split <;> simp [Functor.map, Except.map]

/-- Where the token that is held back has no position, the scan breaks off. -/
private theorem continues_overflow {base : Nat} {progress : Progress}
    (large : ¬ (held lexicon base progress).all Event.fits) (more : List Event)
    (left : Except Fault StreamState) :
    (giveUp progress .overflow).Continues progress.events (held lexicon base progress ++ more)
      left := by
  unfold held at large ⊢
  cases pending : progress.pending with
  | none => simp [pending] at large
  | some p =>
    have large : ¬ (tokenOf lexicon base p).fits := by simpa [pending] using large
    constructor <;> simp [giveUp, large]

private theorem conclude_eq_held {progress : Progress}
    (behind : ∀ p, progress.pending = some p → p.stop = progress.cursor) :
    conclude lexicon state progress =
      if (held lexicon state.chunkOffset progress ++
          leftover state.chunkOffset state.chunk progress.cursor).all Event.fits then
        .ok (progress.events ++ (held lexicon state.chunkOffset progress ++
          leftover state.chunkOffset state.chunk progress.cursor).toArray)
      else .error .overflow := by
  have split : conclude lexicon state progress =
      confirm lexicon state.chunkOffset progress >>= fun events =>
        if progress.cursor < state.chunk.size then do
          return events.push (.unrecognized (← positionBehind state.chunkOffset progress.cursor))
        else pure events := by
    unfold conclude confirm
    cases found : progress.pending with
    | none => rfl
    | some p =>
      simp only
      rw [behind p found]
  rw [split, confirm_eq_held, leftover, List.all_append, positionBehind]
  by_cases fit : (held lexicon state.chunkOffset progress).all Event.fits <;>
    by_cases left : progress.cursor < state.chunk.size <;>
      by_cases small : state.chunkOffset + progress.cursor < positionBound <;>
        simp [fit, left, small, Event.fits, bind, Except.bind, pure, Except.pure]

private theorem eventsOf_append_cons (streaming : Bool) (front : List Pending) (step : Pending)
    (rest : List Pending) (final : Nat) (ending : Ending) :
    eventsOf lexicon state streaming (front ++ step :: rest) final ending =
      front.map (tokenOf lexicon state.chunkOffset) ++
        eventsOf lexicon state streaming (step :: rest) final ending := by
  cases ending <;> cases streaming <;> simp [eventsOf]

private theorem resultOf_append_cons (streaming : Bool) (front : List Pending) (step : Pending)
    (rest : List Pending) (final : Nat) (last : Option String) (ending : Ending) :
    resultOf state streaming (front ++ step :: rest) final last ending =
      resultOf state streaming (step :: rest) final last ending := by
  have same : (front ++ step :: rest).getLast? = (step :: rest).getLast? := by
    rw [List.getLast?_append, List.getLast?_cons, Option.some_or]
  cases ending <;> simp only [resultOf, same]

/-- The token that is held back ends where the text behind it starts, so either both have a position
or none has. -/
private theorem continues_of_finish {progress : Progress}
    (behind : ∀ p, progress.pending = some p → p.stop = progress.cursor) :
    (finish lexicon state false progress).Continues progress.events
      (held lexicon state.chunkOffset progress ++
        leftover state.chunkOffset state.chunk progress.cursor)
      (.ok { state with stage := progress.stage, offset := progress.cursor }) := by
  rw [finish, if_neg Bool.false_ne_true, conclude_eq_held behind]
  by_cases fit : (held lexicon state.chunkOffset progress ++
      leftover state.chunkOffset state.chunk progress.cursor).all Event.fits
  · rw [if_pos fit]
    refine ⟨?_, by rw [if_pos fit]⟩
    rw [List.takeWhile_eq_self_iff.mpr (List.all_eq_true.mp fit)]
    simp
  · rw [if_neg fit]
    -- Something that is left to report does not fit: without a held token it is the dropped text,
    -- and with one it is the token, since the text starts where the token stops.
    cases pending : progress.pending with
    | none =>
      unfold held leftover at fit ⊢
      rw [pending] at fit ⊢
      by_cases left : progress.cursor < state.chunk.size
      · have large : ¬ state.chunkOffset + progress.cursor < positionBound := by
          simpa [left, Event.fits] using fit
        constructor <;> simp [giveUp, left, large, Event.fits]
      · simp [left] at fit
    | some p =>
      refine continues_overflow (fun small => fit ?_) _ _
      rw [List.all_append, small, Bool.true_and, leftover]
      have stop : state.chunkOffset + p.stop < positionBound := by
        have both : (tokenOf lexicon state.chunkOffset p).fits := by
          simpa [held, pending] using small
        exact of_decide_eq_true (Bool.and_eq_true_iff.mp both).2
      rw [behind p pending] at stop
      split <;> simp [Event.fits, stop]

/-- Where a trail ends, what is left to report is the token that is held back and the ending. -/
private theorem continues_of_ends (streaming : Bool) {progress : Progress}
    (ends : lexicon.Ends state.chunk ctx progress.cursor progress.stage ending)
    (behind : ∀ p, progress.pending = some p → p.stop = progress.cursor) :
    (run lexicon state ctx streaming progress).Continues progress.events
      (eventsOf lexicon state streaming progress.pending.toList progress.cursor ending)
      (resultOf state streaming progress.pending.toList progress.cursor progress.stage ending) := by
  cases ending with
  | idle =>
    -- Nothing matches, or no text is left: either way the scan finishes here.
    have stops : run lexicon state ctx streaming progress =
        finish lexicon state streaming progress := by
      by_cases left : progress.cursor < state.chunk.size
      · exact run_of_noMatch left (ends.resolve_left (Nat.not_le.mpr left))
      · exact run_of_end left
    rw [stops]
    cases streaming with
    | true =>
      rw [finish]
      cases progress.pending <;> constructor <;> simp [eventsOf, resultOf]
    | false => exact continues_of_finish behind
  | failed owner code =>
    have parts : eventsOf lexicon state streaming progress.pending.toList progress.cursor
        (.failed owner code) = held lexicon state.chunkOffset progress ++
          [Event.error (lexicon.tokenType owner) (state.chunkOffset + progress.cursor) code.value] := rfl
    rw [run_of_failed ends.1 ends.2, fail, confirm_eq_held, positionBehind, parts]
    by_cases fit : (held lexicon state.chunkOffset progress).all Event.fits
    · rw [if_pos fit]
      refine Report.Continues.behind ?_ (List.all_eq_true.mp fit)
      by_cases small : state.chunkOffset + progress.cursor < positionBound <;>
        constructor <;> simp [giveUp, small, Event.fits, resultOf]
    · rw [if_neg fit]
      exact continues_overflow fit _ _
  | endless =>
    rw [run_of_endless ends.1 ends.2]
    cases progress.pending <;> constructor <;> simp [eventsOf, resultOf, giveUp]
  | unanswered fault =>
    obtain ⟨left, rule, stop, found, follows⟩ := ends
    have parts : eventsOf lexicon state streaming progress.pending.toList progress.cursor
        (.unanswered fault) = held lexicon state.chunkOffset progress ++ [] :=
      (List.append_nil _).symm
    rw [run_of_matched left found, follows, confirm_eq_held, parts]
    by_cases fit : (held lexicon state.chunkOffset progress).all Event.fits
    · rw [if_pos fit]
      refine Report.Continues.behind ?_ (List.all_eq_true.mp fit)
      constructor <;> simp [giveUp, resultOf]
    · rw [if_neg fit]
      exact continues_overflow fit _ _

/-- A scan goes on to report the token that it holds back and the matches of the trail before it. -/
private theorem continues_of_trail (streaming : Bool) (progress : Progress)
    (trail : lexicon.Trail state.chunk ctx progress.cursor progress.stage steps final last)
    (ends : lexicon.Ends state.chunk ctx final last ending)
    (behind : ∀ p, progress.pending = some p → p.stop = progress.cursor) :
    (run lexicon state ctx streaming progress).Continues progress.events
      (eventsOf lexicon state streaming (progress.pending.toList ++ steps) final ending)
      (resultOf state streaming (progress.pending.toList ++ steps) final last ending) := by
  generalize cursor : progress.cursor = pos at trail
  generalize here : progress.stage = stage at trail
  induction trail generalizing progress with
  | nil =>
    subst cursor here
    rw [List.append_nil]
    exact continues_of_ends streaming ends behind
  | @cons pos rule stop final stage next last steps left found follows rest ih =>
    subst cursor here
    rw [run_of_matched left found, follows, confirm_eq_held, eventsOf_append_cons,
      resultOf_append_cons]
    -- The match confirms the token that was held back and is itself held back from here on.
    by_cases fit : (held lexicon state.chunkOffset progress).all Event.fits
    · rw [if_pos fit]
      refine Report.Continues.behind ?_ (List.all_eq_true.mp fit)
      have accepted : ∀ p, (accept progress (progress.events ++
          (held lexicon state.chunkOffset progress).toArray) rule stop next).pending = some p →
          p.stop = stop := by
        rintro p ⟨⟩
        rfl
      exact ih _ ends accepted rfl rfl
    · rw [if_neg fit]
      exact continues_overflow fit _ _

/-- A scan reports the matches of the trail, as many as its mode and its ending confirm. -/
theorem scan_makes (state : StreamState) (streaming : Bool)
    (trail : lexicon.Trail state.chunk ctx state.offset state.stage steps final last)
    (ends : lexicon.Ends state.chunk ctx final last ending) :
    (lexicon.scan state ctx streaming).Makes
      (eventsOf lexicon state streaming steps final ending)
      (resultOf state streaming steps final last ending) := by
  have start : ∀ p, (none : Option Pending) = some p → p.stop = state.offset := by simp
  have continues := continues_of_trail streaming
    { cursor := state.offset, stage := state.stage } trail ends start
  exact ⟨continues.events.trans (List.nil_append _), continues.result⟩

theorem Report.Makes.of_fits {report : Report} {made : List Event}
    {left : Except Fault StreamState} (makes : report.Makes made left)
    (fit : ∀ event ∈ made, event.fits) : report.events = made.toArray ∧ report.result = left := by
  constructor
  · apply Array.toList_inj.mp
    rw [makes.events, List.takeWhile_eq_self_iff.mpr fit]
  · rw [makes.result, if_pos (List.all_eq_true.mpr fit)]

/-- The events of a trail have positions where its end has one. -/
theorem fits_of_trail {base pos : Nat} {text : Bytes} {stage : Option String}
    (trail : lexicon.Trail text ctx pos stage steps final last)
    (fits : base + final < positionBound) :
    ∀ event ∈ steps.map (tokenOf lexicon base), event.fits := by
  intro event member
  obtain ⟨step, among, rfl⟩ := List.mem_map.mp member
  have bound := trail.bounds step among
  simp only [tokenOf, Event.fits, Bool.and_eq_true, decide_eq_true_eq]
  omega

theorem resultOf_streaming_of_trail
    (trail : lexicon.Trail state.chunk ctx state.offset state.stage steps final last) :
    resultOf state true steps final last .idle = .ok (match steps.getLast? with
      | some step => { state with stage := step.stage, offset := step.start }
      | none => state) := by
  cases found : steps.getLast? with
  | some step => simp [resultOf, found]
  | none =>
    obtain rfl := List.getLast?_eq_none_iff.mp found
    cases trail
    rfl

/-- As long as more text may come, all matches of the trail but the last are reported, and the state
goes back to the start of the last one. -/
theorem scan_streaming (state : StreamState)
    (trail : lexicon.Trail state.chunk ctx state.offset state.stage steps final last)
    (halts : lexicon.Halts state.chunk ctx final last)
    (fits : state.chunkOffset + final < positionBound) :
    (lexicon.scan state ctx true).events =
        (steps.dropLast.map (tokenOf lexicon state.chunkOffset)).toArray ∧
      (lexicon.scan state ctx true).result = .ok (match steps.getLast? with
        | some step => { state with stage := step.stage, offset := step.start }
        | none => state) := by
  have ends : lexicon.Ends state.chunk ctx final last .idle := halts
  have makes := scan_makes state true trail ends
  obtain ⟨events, result⟩ := makes.of_fits fun event member => by
    refine fits_of_trail trail fits event ?_
    exact List.map_subset _ (List.dropLast_subset steps) member
  exact ⟨events, result.trans (resultOf_streaming_of_trail trail)⟩

/-- At the end of a stream all matches of the trail are reported, and the text behind them that no
rule matches. -/
theorem scan_final (state : StreamState)
    (trail : lexicon.Trail state.chunk ctx state.offset state.stage steps final last)
    (halts : lexicon.Halts state.chunk ctx final last)
    (fits : state.chunkOffset + final < positionBound) :
    (lexicon.scan state ctx false).events =
        (steps.map (tokenOf lexicon state.chunkOffset) ++
          leftover state.chunkOffset state.chunk final).toArray ∧
      (lexicon.scan state ctx false).result =
        .ok { state with stage := last, offset := final } := by
  have ends : lexicon.Ends state.chunk ctx final last .idle := halts
  have makes := scan_makes state false trail ends
  refine makes.of_fits fun event member => ?_
  rcases List.mem_append.mp member with token | unread
  · exact fits_of_trail trail fits event token
  · unfold leftover at unread
    split at unread
    · obtain rfl := List.mem_singleton.mp unread
      simpa [Event.fits] using fits
    · cases unread

end Scan

end StagedLexer
