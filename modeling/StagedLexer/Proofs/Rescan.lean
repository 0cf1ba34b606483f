import Mathlib.Data.List.Basic
import StagedLexer.Proofs.Confirmation

/-! Scanning again without new text. What a scan holds back is found again by the next one, in the
same stage, so two scans report what one scan reports. Only an application error is reported again,
because a scan that meets one does not hold anything back. -/
namespace StagedLexer

variable {Ctx : Type}

namespace Event

def isToken : Event → Bool
  | token _ _ => true
  | _ => false

def isError : Event → Bool
  | error _ _ _ => true
  | _ => false

theorem isError_of_isToken {event : Event} (token : event.isToken) : event.isError = false := by
  cases event with
  | token => rfl
  | error | unrecognized => cases token

end Event

namespace Scan

/-- The report together with the one that goes on from the state left behind, if there is one. -/
def Report.andThen (report : Report) (next : StreamState → Report) : Report :=
  match report.result with
  | .ok state =>
    let later := next state
    { later with events := report.events ++ later.events, notes := report.notes ++ later.notes }
  | .error _ => report

private theorem takeWhile_append_of_not_all (events more : List Event)
    (large : ¬ events.all Event.fits) :
    (events ++ more).takeWhile Event.fits = events.takeWhile Event.fits := by
  induction events with
  | nil => simp at large
  | cons event rest ih =>
    by_cases fit : event.fits
    · have behind : ¬ rest.all Event.fits := by simpa [fit] using large
      simp [fit, ih behind]
    · simp [fit]

namespace Report

variable {report : Report} {next : StreamState → Report} {made more : List Event}
  {state : StreamState} {left : Except Fault StreamState}

theorem andThen_of_ok (result : report.result = .ok state) :
    (report.andThen next).events = report.events ++ (next state).events ∧
      (report.andThen next).result = (next state).result := by
  simp [Report.andThen, result]

theorem Makes.andThen (first : report.Makes made (.ok state))
    (second : (next state).Makes more left) : (report.andThen next).Makes (made ++ more) left := by
  by_cases fit : made.all Event.fits
  · have result : report.result = .ok state := first.result.trans (if_pos fit)
    have whole : made.takeWhile Event.fits = made :=
      List.takeWhile_eq_self_iff.mpr (List.all_eq_true.mp fit)
    obtain ⟨events, left⟩ := andThen_of_ok result
    refine ⟨?_, ?_⟩
    · rw [events, Array.toList_append, first.events, second.events, whole,
        List.takeWhile_append_of_pos (List.all_eq_true.mp fit)]
    · rw [left, second.result, List.all_append, fit, Bool.true_and]
  · have result : report.result = .error .overflow := first.result.trans (if_neg fit)
    have same : report.andThen next = report := by simp [Report.andThen, result]
    rw [same]
    refine ⟨?_, ?_⟩
    · rw [first.events, takeWhile_append_of_not_all made more fit]
    · rw [result, if_neg (by simp [fit])]

theorem Makes.andThen_error {fault : Fault} (first : report.Makes made (.error fault)) :
    (report.andThen next).Makes made (.error fault) := by
  have same : report.andThen next = report := by
    have result := first.result
    unfold Report.andThen
    split at result <;> simp [result]
  rwa [same]

end Report

/-- Only the last event may be other than a token. -/
def Orderly (events : List Event) : Prop := ∀ event ∈ events.dropLast, event.isToken

theorem Orderly.filter_eq {events : List Event} (orderly : Orderly events) {p : Event → Bool}
    (others : ∀ {event}, event.isToken → p event = false) :
    events.filter p = events.getLast?.toList.filter p := by
  rcases List.eq_nil_or_concat events with rfl | ⟨front, event, rfl⟩
  · rfl
  · have tokens : front.filter p = [] := by
      refine List.filter_eq_nil_iff.mpr fun e member => ?_
      simp [others (orderly e (by simpa using member))]
    simp [tokens]

/-- Where not all events have a position, the report breaks off before the last one. -/
theorem Orderly.isToken_of_not_all {events : List Event} (orderly : Orderly events)
    (large : ¬ events.all Event.fits) : ∀ event ∈ events.takeWhile Event.fits, event.isToken := by
  rcases List.eq_nil_or_concat events with rfl | ⟨front, last, rfl⟩
  · simp
  · intro event member
    have among : event ∈ front := by
      by_cases fit : front.all Event.fits
      · have large : ¬ last.fits := by simpa [fit, -List.all_eq_true] using large
        rw [List.concat_eq_append, List.takeWhile_append_of_pos (List.all_eq_true.mp fit)] at member
        simpa [large] using member
      · rw [List.concat_eq_append, takeWhile_append_of_not_all front _ fit] at member
        exact (List.takeWhile_prefix _).subset member
    exact orderly event (by simpa using among)

theorem Orderly.takeWhile_fits {events : List Event} (orderly : Orderly events) :
    Orderly (events.takeWhile Event.fits) := by
  by_cases fit : events.all Event.fits
  · rwa [List.takeWhile_eq_self_iff.mpr (List.all_eq_true.mp fit)]
  · intro event member
    exact orderly.isToken_of_not_all fit event (List.dropLast_subset _ member)

theorem Orderly.append_filter_isError {events : List Event} (orderly : Orderly events) :
    events ++ events.filter Event.isError =
      if events.any Event.isError then events ++ events.getLast?.toList else events := by
  rw [orderly.filter_eq Event.isError_of_isToken]
  rcases List.eq_nil_or_concat events with rfl | ⟨front, event, rfl⟩
  · rfl
  · have tokens : front.any Event.isError = false := by
      refine List.any_eq_false.mpr fun e member => ?_
      simp [Event.isError_of_isToken (orderly e (by simpa using member))]
    cases error : event.isError <;> simp [tokens, error, -List.any_eq_true]

variable {lexicon : Lexicon Ctx} {state : StreamState} {ctx : Ctx}
  {steps : List Pending} {final : Nat} {last : Option String} {ending : Ending}

theorem isToken_of_mem_map_tokenOf {base : Nat} :
    ∀ event ∈ steps.map (tokenOf lexicon base), event.isToken := by
  intro event member
  obtain ⟨step, -, rfl⟩ := List.mem_map.mp member
  rfl

private theorem filter_map_tokenOf {base : Nat} {p : Event → Bool}
    (others : ∀ {event}, event.isToken → p event = false) (steps : List Pending) :
    (steps.map (tokenOf lexicon base)).filter p = [] := by
  refine List.filter_eq_nil_iff.mpr fun event member => ?_
  simp [others (isToken_of_mem_map_tokenOf event member)]

theorem orderly_eventsOf (streaming : Bool) :
    Orderly (eventsOf lexicon state streaming steps final ending) := by
  have tokens {steps : List Pending} :
      Orderly (steps.map (tokenOf lexicon state.chunkOffset)) := fun event member =>
    isToken_of_mem_map_tokenOf event (List.dropLast_subset _ member)
  have behind (event : Event) :
      Orderly (steps.map (tokenOf lexicon state.chunkOffset) ++ [event]) := fun e member =>
    isToken_of_mem_map_tokenOf e (by simpa using member)
  cases ending with
  | idle =>
    cases streaming with
    | true => exact tokens
    | false =>
      rw [eventsOf, if_neg Bool.false_ne_true, leftover]
      split
      · exact behind _
      · rw [List.append_nil]
        exact tokens
  | failed owner code => exact behind _
  | endless | unanswered fault => exact tokens

private theorem filter_eventsOf_idle {p : Event → Bool}
    (others : ∀ {event}, event.isToken → p event = false) :
    (eventsOf lexicon state false steps final .idle).filter p =
      (leftover state.chunkOffset state.chunk final).filter p := by
  rw [eventsOf, if_neg Bool.false_ne_true, List.filter_append, filter_map_tokenOf others,
    List.nil_append]

private theorem filter_eventsOf_failed {p : Event → Bool} (streaming : Bool) (owner : Nat)
    (code : ErrorCode) (others : ∀ {event}, event.isToken → p event = false) :
    (eventsOf lexicon state streaming steps final (.failed owner code)).filter p =
      [.error (lexicon.tokenType owner) (state.chunkOffset + final) code.value].filter p := by
  rw [eventsOf, List.filter_append, filter_map_tokenOf others, List.nil_append]

/-- A scan while more text may come and one at the end behind it make the events of the one at the
end, and the application error once more. -/
theorem rescan_makes (state : StreamState)
    (trail : lexicon.Trail state.chunk ctx state.offset state.stage steps final last)
    (ends : lexicon.Ends state.chunk ctx final last ending) :
    let made := eventsOf lexicon state false steps final ending
    ((lexicon.scan state ctx true).andThen fun left => lexicon.scan left ctx false).Makes
      (made ++ made.filter Event.isError) (resultOf state false steps final last ending) := by
  intro made
  have first := scan_makes state true trail ends
  cases ending with
  | idle =>
    have none : made.filter Event.isError = [] := by
      rw [filter_eventsOf_idle Event.isError_of_isToken, leftover]
      split <;> rfl
    rw [none, List.append_nil]
    rw [resultOf_streaming_of_trail trail] at first
    cases pending : steps.getLast? with
    | none =>
      obtain rfl := List.getLast?_eq_none_iff.mp pending
      exact first.andThen (scan_makes state false trail ends)
    | some step =>
      -- The last match is found again, in its own stage.
      simp only [pending] at first
      have again := scan_makes { state with stage := step.stage, offset := step.start } false
        (trail.last_alone pending) ends
      have split : made = steps.dropLast.map (tokenOf lexicon state.chunkOffset) ++
          eventsOf lexicon { state with stage := step.stage, offset := step.start } false [step]
            final .idle := by
        simp only [made, eventsOf, Bool.false_eq_true, if_false, ← List.append_assoc,
          ← List.map_append, List.dropLast_append_getLast? step pending]
      rw [split]
      exact first.andThen again
  | failed owner code =>
    have again := scan_makes { state with stage := last, offset := final } false (.nil _ _) ends
    have repeated : made.filter Event.isError =
        [.error (lexicon.tokenType owner) (state.chunkOffset + final) code.value] :=
      filter_eventsOf_failed false owner code Event.isError_of_isToken
    rw [repeated]
    exact first.andThen again
  | endless | unanswered fault =>
    have none : made.filter Event.isError = [] := filter_map_tokenOf Event.isError_of_isToken _
    rw [none, List.append_nil]
    exact first.andThen_error

/-- Where a scan leaves a state, a scan from there makes the event behind the tokens only. -/
theorem scan_makes_again (streaming : Bool) {left : StreamState}
    (trail : lexicon.Trail state.chunk ctx state.offset state.stage steps final last)
    (ends : lexicon.Ends state.chunk ctx final last ending)
    (result : resultOf state streaming steps final last ending = .ok left) :
    (lexicon.scan left ctx streaming).Makes
      ((eventsOf lexicon state streaming steps final ending).filter fun event => !event.isToken)
      (.ok left) := by
  have others {event : Event} (token : event.isToken) : (!event.isToken) = false := by
    rw [token]
    rfl
  -- The scan starts again at the end of the trail, or at the match held back, which alone remains.
  have behind := scan_makes { state with stage := last, offset := final } streaming (.nil _ _) ends
  cases ending with
  | idle =>
    cases streaming with
    | true =>
      have none : (eventsOf lexicon state true steps final .idle).filter
          (fun event => !event.isToken) = [] := filter_map_tokenOf others _
      rw [none]
      rw [resultOf_streaming_of_trail trail] at result
      cases pending : steps.getLast? with
      | none =>
        obtain rfl := List.getLast?_eq_none_iff.mp pending
        cases result
        cases trail
        exact behind
      | some step =>
        simp only [pending] at result
        cases result
        exact scan_makes { state with stage := step.stage, offset := step.start } true
          (trail.last_alone pending) ends
    | false =>
      cases result
      have unread : (leftover state.chunkOffset state.chunk final).filter
          (fun event => !event.isToken) = leftover state.chunkOffset state.chunk final := by
        unfold leftover
        split <;> rfl
      rw [filter_eventsOf_idle others, unread]
      exact behind
  | failed owner code =>
    cases result
    rw [filter_eventsOf_failed streaming owner code others]
    exact behind
  | endless | unanswered fault => cases result

end Scan

namespace Lexicon

theorem orderly_scan (lexicon : Lexicon Ctx) (state : StreamState) (ctx : Ctx) (streaming : Bool) :
    Scan.Orderly (lexicon.scan state ctx streaming).events.toList := by
  obtain ⟨steps, final, last, ending, trail, ends⟩ :=
    lexicon.exists_trail state.chunk ctx state.offset state.stage
  rw [(Scan.scan_makes state streaming trail ends).events]
  exact (Scan.orderly_eventsOf streaming).takeWhile_fits

theorem rescan_eq (lexicon : Lexicon Ctx) (state : StreamState) (ctx : Ctx) :
    let once := lexicon.scan state ctx false
    let twice := (lexicon.scan state ctx true).andThen fun left => lexicon.scan left ctx false
    twice.result = once.result ∧
      twice.events.toList =
        if once.events.toList.any Event.isError then
          once.events.toList ++ once.events.toList.getLast?.toList
        else once.events.toList := by
  intro once twice
  obtain ⟨steps, final, last, ending, trail, ends⟩ :=
    lexicon.exists_trail state.chunk ctx state.offset state.stage
  have first := Scan.scan_makes state false trail ends
  have both := Scan.rescan_makes state trail ends
  have orderly : Scan.Orderly (Scan.eventsOf lexicon state false steps final ending) :=
    Scan.orderly_eventsOf false
  generalize Scan.eventsOf lexicon state false steps final ending = made at first both orderly
  by_cases fit : made.all Event.fits
  · have fits := List.all_eq_true.mp fit
    obtain ⟨events, result⟩ := first.of_fits fits
    obtain ⟨events', result'⟩ := both.of_fits fun event member =>
      (List.mem_append.mp member).elim (fits event) fun repeated =>
        fits event (List.mem_filter.mp repeated).1
    refine ⟨result'.trans result.symm, ?_⟩
    rw [events', events]
    exact orderly.append_filter_isError
  · -- The scan breaks off before an error could be reported.
    have events : twice.events.toList = once.events.toList := by
      rw [both.events, first.events, Scan.takeWhile_append_of_not_all made _ fit]
    have none : once.events.toList.any Event.isError = false := by
      refine List.any_eq_false.mpr fun event member => ?_
      rw [first.events] at member
      simp [Event.isError_of_isToken (orderly.isToken_of_not_all fit event member)]
    refine ⟨?_, by rw [events, none, if_neg Bool.false_ne_true]⟩
    rw [both.result, first.result, if_neg fit, if_neg (by simp [fit])]

theorem scan_again (lexicon : Lexicon Ctx) {state left : StreamState} {ctx : Ctx}
    {streaming : Bool} (result : (lexicon.scan state ctx streaming).result = .ok left) :
    (lexicon.scan left ctx streaming).events.toList =
        (lexicon.scan state ctx streaming).events.toList.getLast?.toList.filter
          (fun event => !event.isToken) ∧
      (lexicon.scan left ctx streaming).result = .ok left := by
  obtain ⟨steps, final, last, ending, trail, ends⟩ :=
    lexicon.exists_trail state.chunk ctx state.offset state.stage
  have first := Scan.scan_makes state streaming trail ends
  have orderly : Scan.Orderly (Scan.eventsOf lexicon state streaming steps final ending) :=
    Scan.orderly_eventsOf streaming
  have fits : ∀ event ∈ Scan.eventsOf lexicon state streaming steps final ending, event.fits := by
    have ended := first.result
    rw [result] at ended
    split at ended
    · next fit => exact List.all_eq_true.mp fit
    · cases ended
  obtain ⟨events, ended⟩ := first.of_fits fits
  have again := Scan.scan_makes_again streaming trail ends (ended.symm.trans result)
  obtain ⟨repeated, stays⟩ := again.of_fits fun event member =>
    fits event (List.mem_filter.mp member).1
  refine ⟨?_, stays⟩
  rw [repeated, events]
  exact orderly.filter_eq fun token => by rw [token]; rfl

end Lexicon

/-- Scanning again without new text repeats no token: a scan while more text may come and one at the
end report what a single scan at the end reports, with a second copy of an application error, and
scanning twice in the same mode repeats the event behind the tokens only. -/
theorem Tokenizer.rescan_repeats_no_token (tokenizer : Tokenizer Ctx) (ctx : Ctx) :
    (∀ state : StreamState,
      let once := tokenizer.lexicon.scan state ctx false
      let twice := (tokenizer.lexicon.scan state ctx true).andThen fun left =>
        tokenizer.lexicon.scan left ctx false
      Scan.Orderly once.events.toList ∧ twice.result = once.result ∧
        twice.events.toList =
          if once.events.toList.any Event.isError then
            once.events.toList ++ once.events.toList.getLast?.toList
          else once.events.toList) ∧
    (∀ text : Bytes, (tokenizer.tokenize text ctx).events.toList.any Event.isError = false →
      let streamed := (tokenizer.write text none ctx).andThen fun left => tokenizer.finish left ctx
      streamed.events = (tokenizer.tokenize text ctx).events ∧
        streamed.result = (tokenizer.tokenize text ctx).result) ∧
    ∀ (state left : StreamState) (streaming : Bool),
      (tokenizer.lexicon.scan state ctx streaming).result = .ok left →
      (tokenizer.lexicon.scan left ctx streaming).events.toList =
          (tokenizer.lexicon.scan state ctx streaming).events.toList.getLast?.toList.filter
            (fun event => !event.isToken) ∧
        (tokenizer.lexicon.scan left ctx streaming).result = .ok left := by
  refine ⟨fun state => ?_, fun text unfailing => ?_, fun state left streaming result => ?_⟩
  · exact ⟨tokenizer.lexicon.orderly_scan state ctx false, tokenizer.lexicon.rescan_eq state ctx⟩
  · obtain ⟨result, events⟩ := tokenizer.lexicon.rescan_eq
      { StreamState.fresh tokenizer.initialStage with chunk := text } ctx
    rw [write_none]
    refine ⟨Array.toList_inj.mp (events.trans ?_), result⟩
    exact if_neg (Bool.eq_false_iff.mp unfailing)
  · exact tokenizer.lexicon.scan_again result

/-- The letter `a`, and an application error everywhere else. -/
def guardedLetter : Settings Unit :=
  { rules :=
      [{ tokenType := "letter", reader := .text 0 [97] },
        { tokenType := "other", reader := .custom 1 fun _ _ _ => .ofInt (-2) }] }

theorem Tokenizer.rescan_repeats_no_token_guarded :
    ∃ tokenizer, guardedLetter.build = .ok tokenizer ∧
      (let streamed := (tokenizer.write #[97, 97] none ()).andThen fun left =>
        tokenizer.finish left ()
      streamed.events = #[.token "letter" ⟨0, 1⟩, .token "letter" ⟨1, 2⟩]) ∧
      (let twice := (tokenizer.lexicon.scan { chunk := #[97, 97, 98] } () true).andThen fun left =>
        tokenizer.lexicon.scan left () false
      twice.events.toList = [.token "letter" ⟨0, 1⟩, .token "letter" ⟨1, 2⟩, .error "other" 2 (-2),
        .error "other" 2 (-2)]) ∧
      ∃ left, (tokenizer.lexicon.scan { chunk := #[97, 97, 98] } () true).result = .ok left ∧
        (tokenizer.lexicon.scan left () true).events.toList = [.error "other" 2 (-2)] ∧
        (tokenizer.lexicon.scan left () true).result = .ok left := by
  refine ⟨_, rfl, ?_, ?_, ?_⟩
  · refine ((rescan_repeats_no_token _ ()).2.1 #[97, 97] (by decide +kernel)).1.trans ?_
    decide +kernel
  · refine ((rescan_repeats_no_token _ ()).1 { chunk := #[97, 97, 98] }).2.2.trans ?_
    decide +kernel
  · generalize scanned : Lexicon.scan _ _ _ true = report
    have kept : report.result.toOption = some { chunk := #[97, 97, 98], offset := 2 } := by
      rw [← scanned]
      decide +kernel
    cases result : report.result with
    | error fault =>
      rw [result] at kept
      cases kept
    | ok left =>
      obtain ⟨events, stays⟩ := (rescan_repeats_no_token _ ()).2.2 _ left true
        ((congrArg _ scanned).trans result)
      refine ⟨left, rfl, events.trans ?_, stays⟩
      decide +kernel

end StagedLexer
