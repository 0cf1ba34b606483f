import Mathlib.Data.List.Induction
import StagedLexer.Proofs.Rescan

/-! Whole runs of a stream, in which text is written and the stream is ended in any order. After
every call the state holds the text that is not yet consumed, and the tokens reported so far cover
the text in front of it without a gap. -/
namespace StagedLexer

variable {Ctx : Type}

/-- The spans follow one another from `start` to `stop`, and none of them is empty. -/
def Span.Tile : Nat → List Span → Nat → Prop
  | start, [], stop => start = stop
  | start, span :: rest, stop => span.start = start ∧ start < span.stop ∧ Tile span.stop rest stop

theorem Span.Tile.append {start middle stop : Nat} {spans more : List Span}
    (first : Tile start spans middle) (second : Tile middle more stop) :
    Tile start (spans ++ more) stop := by
  induction spans generalizing start with
  | nil =>
    cases first
    exact second
  | cons span rest ih => exact ⟨first.1, first.2.1, ih first.2.2⟩

namespace Event

/-- The span of a token. -/
def span? : Event → Option Span
  | token _ span => some span
  | _ => none

/-- The position of an event that is no token. -/
def offset? : Event → Option Nat
  | token _ _ => none
  | error _ offset _ | unrecognized offset => some offset

theorem span?_of_offset? {event : Event} {offset : Nat} (stands : event.offset? = some offset) :
    event.span? = none := by
  cases event with
  | token => cases stands
  | error | unrecognized => rfl

theorem fits_of_offset? {event : Event} {offset : Nat} (stands : event.offset? = some offset)
    (small : offset < positionBound) : event.fits := by
  cases event with
  | token => cases stands
  | error | unrecognized =>
    cases stands
    exact decide_eq_true small

end Event

theorem Lexicon.Trail.tile {lexicon : Lexicon Ctx} {text : Bytes} {ctx : Ctx} {pos final : Nat}
    {stage last : Option String} {steps : List Scan.Pending} (base : Nat)
    (trail : lexicon.Trail text ctx pos stage steps final last) :
    Span.Tile (base + pos) ((steps.map (Scan.tokenOf lexicon base)).filterMap Event.span?)
      (base + final) := by
  induction trail with
  | nil => rfl
  | cons left found follows rest ih =>
    exact ⟨rfl, Nat.add_lt_add_left (lt_of_outcome found) base, ih⟩

/-- A report that goes on from one state to another in the same chunk. -/
structure Scan.Report.Advances (report : Report) (state left : StreamState) : Prop where
  result : report.result = .ok left
  chunk : left.chunk = state.chunk
  chunkOffset : left.chunkOffset = state.chunkOffset
  forward : state.offset ≤ left.offset
  inside : left.offset ≤ left.chunk.size
  /-- The tokens cover the text between the two states. -/
  tiled : Span.Tile (state.chunkOffset + state.offset)
    (report.events.toList.filterMap Event.span?) (state.chunkOffset + left.offset)
  orderly : Orderly report.events.toList
  /-- What is no token stands at the state left behind. -/
  stands : ∀ event ∈ report.events.toList, ∀ offset, event.offset? = some offset →
    offset = state.chunkOffset + left.offset

namespace Scan

variable {lexicon : Lexicon Ctx} {state : StreamState} {ctx : Ctx} {steps : List Pending}
  {final : Nat} {last : Option String}

private theorem advances_of_makes {streaming : Bool} {behind : List Event}
    (trail : lexicon.Trail state.chunk ctx state.offset state.stage steps final last)
    (makes : (lexicon.scan state ctx streaming).Makes
      (steps.map (tokenOf lexicon state.chunkOffset) ++ behind)
      (.ok { state with stage := last, offset := final }))
    (stands : ∀ event ∈ behind, event.offset? = some (state.chunkOffset + final))
    (inside : final ≤ state.chunk.size)
    (fits : state.chunkOffset + state.chunk.size < positionBound) :
    (lexicon.scan state ctx streaming).Advances state
      { state with stage := last, offset := final } := by
  have small : state.chunkOffset + final < positionBound := by omega
  obtain ⟨events, result⟩ := makes.of_fits fun event member =>
    (List.mem_append.mp member).elim (fits_of_trail trail small event) fun trouble =>
      Event.fits_of_offset? (stands event trouble) small
  have none : behind.filterMap Event.span? = [] :=
    List.filterMap_eq_nil_iff.mpr fun event member => Event.span?_of_offset? (stands event member)
  refine ⟨result, rfl, rfl, trail.le, inside, ?_, lexicon.orderly_scan state ctx streaming, ?_⟩
  · rw [events, List.filterMap_append, none, List.append_nil]
    exact trail.tile state.chunkOffset
  · intro event member offset found
    rw [events] at member
    rcases List.mem_append.mp member with token | trouble
    · obtain ⟨step, -, rfl⟩ := List.mem_map.mp token
      cases found
    · rw [stands event trouble] at found
      exact (Option.some.inj found).symm

/-- A scan goes on to a state of the same chunk, whatever it meets on the way. -/
theorem scan_advances (contained : lexicon.Contained state.chunk ctx)
    (inside : state.offset ≤ state.chunk.size)
    (fits : state.chunkOffset + state.chunk.size < positionBound) (streaming : Bool) :
    ∃ left, (lexicon.scan state ctx streaming).Advances state left := by
  obtain ⟨steps, final, last, ending, trail, ends, within, reason⟩ :=
    contained.exists_trail state.offset inside state.stage
  have makes := scan_makes state streaming trail ends
  -- A streaming scan steps back to the start of the match it holds back; the others go to the end
  -- of the trail.
  rcases reason with rfl | ⟨owner, code, rfl⟩
  · cases streaming with
    | true =>
      rw [resultOf_streaming_of_trail trail] at makes
      rw [eventsOf, if_pos rfl, ← List.append_nil (List.map _ _)] at makes
      cases pending : steps.getLast? with
      | none =>
        obtain rfl := List.getLast?_eq_none_iff.mp pending
        exact ⟨_, advances_of_makes (.nil _ _) makes (by simp) inside fits⟩
      | some step =>
        have shorter := trail.dropLast pending
        have bound := trail.bounds step (List.mem_of_getLast? pending)
        rw [pending] at makes
        exact ⟨_, advances_of_makes shorter makes (by simp) (by omega) fits⟩
    | false =>
      refine ⟨_, advances_of_makes trail makes (fun event member => ?_) within fits⟩
      unfold leftover at member
      split at member
      · cases List.mem_singleton.mp member
        rfl
      · cases member
  · refine ⟨_, advances_of_makes trail makes (fun event member => ?_) within fits⟩
    cases List.mem_singleton.mp member
    rfl

end Scan

/-- The state of a stream to which `text` was written and which has reported `events`. -/
structure StreamState.Accounts (state : StreamState) (text : Bytes) (events : List Event) :
    Prop where
  inside : state.offset ≤ state.chunk.size
  started : state.chunkOffset ≤ text.size
  chunk : state.chunk = text.extract state.chunkOffset text.size
  tiled : Span.Tile 0 (events.filterMap Event.span?) (state.chunkOffset + state.offset)

namespace StreamState.Accounts

variable {state : StreamState} {text : Bytes} {events : List Event}

theorem of_fresh (stage : Option String) : (fresh stage).Accounts #[] [] :=
  ⟨Nat.le_refl _, Nat.le_refl _, rfl, rfl⟩

theorem size (accounts : state.Accounts text events) :
    state.chunkOffset + state.chunk.size = text.size := by
  have started := accounts.started
  rw [accounts.chunk, Array.size_extract]
  omega

theorem remaining (accounts : state.Accounts text events) :
    state.remaining = .ok (text.extract (state.chunkOffset + state.offset) text.size) := by
  have size := accounts.size
  rw [StreamState.remaining, Bytes.slice, if_pos ⟨accounts.inside, Nat.le_refl _⟩]
  nth_rewrite 1 [accounts.chunk]
  rw [Array.extract_extract, size, Nat.min_self]

theorem position (accounts : state.Accounts text events) (fits : text.size < positionBound) :
    state.position = .ok (state.chunkOffset + state.offset) := by
  have size := accounts.size
  have inside := accounts.inside
  exact Scan.positionBehind_of_lt (by omega)

/-- Adding text drops what is consumed and stays at the same position. -/
theorem append (accounts : state.Accounts text events) (fits : text.size < positionBound)
    (more : Bytes) :
    ∃ next, state.append more = .ok next ∧ next.Accounts (text ++ more) events ∧
      next.chunkOffset + next.offset = state.chunkOffset + state.offset := by
  have size := accounts.size
  have inside := accounts.inside
  let next : StreamState :=
    { stage := state.stage
      chunk := text.extract (state.chunkOffset + state.offset) text.size ++ more
      chunkOffset := state.chunkOffset + state.offset }
  refine ⟨next, ?_, ?_, rfl⟩
  · rw [StreamState.append, accounts.remaining, accounts.position fits]
    rfl
  · refine ⟨Nat.zero_le _, ?_, ?_, accounts.tiled⟩
    · simp only [Array.size_append, next]
      omega
    · have before : next.chunkOffset - text.size = 0 := by
        simp only [next]
        omega
      have whole : text.extract next.chunkOffset (text.size + more.size) =
          text.extract next.chunkOffset text.size := by grind
      rw [Array.extract_append, before, Array.size_append, Nat.add_sub_cancel_left,
        Array.extract_size, whole]

theorem advance (accounts : state.Accounts text events) {report : Scan.Report}
    {left : StreamState} (advances : report.Advances state left) :
    left.Accounts text (events ++ report.events.toList) := by
  refine ⟨advances.inside, ?_, ?_, ?_⟩
  · rw [advances.chunkOffset]
    exact accounts.started
  · rw [advances.chunk, advances.chunkOffset]
    exact accounts.chunk
  · rw [List.filterMap_append, advances.chunkOffset]
    exact accounts.tiled.append advances.tiled

end StreamState.Accounts

inductive StreamCall where
  | write (chunk : Bytes)
  | finish

namespace StreamCall

def chunk : StreamCall → Bytes
  | write chunk => chunk
  | finish => #[]

/-- The text that the calls write. -/
def written (calls : List StreamCall) : Bytes := Tokenizer.joined (calls.map chunk)

theorem written_append_singleton (calls : List StreamCall) (call : StreamCall) :
    written (calls ++ [call]) = written calls ++ call.chunk := by
  induction calls with
  | nil => simp [written, Tokenizer.joined]
  | cons first rest ih =>
    simp only [written, Tokenizer.joined, List.cons_append, List.map_cons, List.foldr_cons] at ih ⊢
    rw [ih, Array.append_assoc]

end StreamCall

namespace Tokenizer

def call (tokenizer : Tokenizer Ctx) (ctx : Ctx) (state : StreamState) : StreamCall → Scan.Report
  | .write chunk => tokenizer.write chunk (some state) ctx
  | .finish => tokenizer.finish state ctx

/-- The report of calls that are made one after the other on a fresh stream. -/
def callAll (tokenizer : Tokenizer Ctx) (ctx : Ctx) (calls : List StreamCall) : Scan.Report :=
  calls.foldl (fun report call => report.andThen fun state => tokenizer.call ctx state call)
    { events := #[], notes := #[], result := .ok (.fresh tokenizer.initialStage) }

theorem callAll_append_singleton (tokenizer : Tokenizer Ctx) (ctx : Ctx)
    (calls : List StreamCall) (call : StreamCall) :
    tokenizer.callAll ctx (calls ++ [call]) =
      (tokenizer.callAll ctx calls).andThen fun state => tokenizer.call ctx state call :=
  List.foldl_append ..

variable {tokenizer : Tokenizer Ctx} {ctx : Ctx} {state : StreamState} {text : Bytes}
  {events : List Event}

/-- What one call keeps. -/
theorem call_accounts (contained : ∀ text, tokenizer.lexicon.Contained text ctx)
    (accounts : state.Accounts text events) (call : StreamCall)
    (fits : (text ++ call.chunk).size < positionBound) :
    let report := tokenizer.call ctx state call
    ∃ after, report.result = .ok after ∧
      after.Accounts (text ++ call.chunk) (events ++ report.events.toList) ∧
      state.chunkOffset + state.offset ≤ after.chunkOffset + after.offset ∧
      Scan.Orderly report.events.toList ∧
      ∀ event ∈ report.events.toList, ∀ offset, event.offset? = some offset →
        offset = after.chunkOffset + after.offset := by
  intro report
  have before : text.size < positionBound := by
    rw [Array.size_append] at fits
    omega
  -- Every call is a scan of a state at the same position.
  obtain ⟨entered, streaming, accounts', same, scanned⟩ :
      ∃ (entered : StreamState) (streaming : Bool),
      entered.Accounts (text ++ call.chunk) events ∧
      entered.chunkOffset + entered.offset = state.chunkOffset + state.offset ∧
      report = tokenizer.lexicon.scan entered ctx streaming := by
    cases call with
    | write chunk =>
      obtain ⟨next, appended, accounts', same⟩ := accounts.append before chunk
      refine ⟨next, true, accounts', same, ?_⟩
      simp only [report, Tokenizer.call, write, Option.getD_some, appended]
    | finish => exact ⟨state, false, by simpa [StreamCall.chunk] using accounts, rfl, rfl⟩
  have small : entered.chunkOffset + entered.chunk.size < positionBound := by
    rwa [accounts'.size]
  obtain ⟨after, advances⟩ :=
    Scan.scan_advances (contained entered.chunk) accounts'.inside small streaming
  rw [← scanned] at advances
  refine ⟨after, advances.result, accounts'.advance advances, ?_, advances.orderly, ?_⟩
  · have forward := advances.forward
    rw [advances.chunkOffset]
    omega
  · rw [advances.chunkOffset]
    exact advances.stands

/-- What a run of calls keeps. -/
theorem callAll_accounts (contained : ∀ text, tokenizer.lexicon.Contained text ctx)
    (calls : List StreamCall) (fits : (StreamCall.written calls).size < positionBound) :
    ∃ state, (tokenizer.callAll ctx calls).result = .ok state ∧
      state.Accounts (StreamCall.written calls) (tokenizer.callAll ctx calls).events.toList := by
  induction calls using List.reverseRecOn with
  | nil => exact ⟨_, rfl, .of_fresh tokenizer.initialStage⟩
  | append_singleton calls call ih =>
    rw [StreamCall.written_append_singleton] at fits ⊢
    have small : (StreamCall.written calls).size < positionBound := by
      rw [Array.size_append] at fits
      omega
    obtain ⟨before, earlier, accounts⟩ := ih small
    obtain ⟨after, result, accounts', -⟩ := call_accounts contained accounts call fits
    obtain ⟨events, left⟩ := Scan.Report.andThen_of_ok earlier
    rw [callAll_append_singleton, events, left, Array.toList_append]
    exact ⟨after, result, accounts'⟩

/-- Whatever calls are made on a fresh stream, in any order, nothing is lost, repeated or moved. The
state holds the text behind its position, and the tokens reported so far cover the text in front of
it. A call never goes back, and what it reports besides tokens is one event, the last, at the new
position. -/
theorem calls_keep_every_token (settings : Settings Ctx) {tokenizer : Tokenizer Ctx}
    (built : settings.build = .ok tokenizer) (ctx : Ctx)
    (calls : ∀ rule ∈ settings.rules, ∀ text, rule.reader.CallsWithin text ctx)
    (answers : ∀ rule ∈ settings.rules, ∀ m : Match, m.start + m.size ≤ m.text.size →
      ∃ next, rule.transition.next m ctx = .ok next)
    (history : List StreamCall) (call : StreamCall)
    (fits : (StreamCall.written (history ++ [call])).size < positionBound) :
    let text := StreamCall.written (history ++ [call])
    let whole := tokenizer.callAll ctx (history ++ [call])
    ∃ before after passed position, (tokenizer.callAll ctx history).result = .ok before ∧
      whole.result = .ok after ∧
      let report := tokenizer.call ctx before call
      report.result = .ok after ∧
      whole.events = (tokenizer.callAll ctx history).events ++ report.events ∧
      after.offset ≤ after.chunk.size ∧
      after.chunkOffset + after.chunk.size = text.size ∧
      after.chunk = text.extract after.chunkOffset text.size ∧
      before.position = .ok passed ∧ after.position = .ok position ∧ passed ≤ position ∧
      after.remaining = .ok (text.extract position text.size) ∧
      Span.Tile 0 (whole.events.toList.filterMap Event.span?) position ∧
      Scan.Orderly report.events.toList ∧
      ∀ event ∈ report.events.toList, ∀ offset, event.offset? = some offset →
        offset = position := by
  intro text whole
  have contained (text : Bytes) : tokenizer.lexicon.Contained text ctx := by
    rw [(Settings.of_build built).1]
    exact Lexicon.contained_of_calls settings.initialStage
      (fun rule member => calls rule member text) answers
  have joined : text = StreamCall.written history ++ call.chunk :=
    StreamCall.written_append_singleton history call
  have small : (StreamCall.written history).size < positionBound := by
    rw [StreamCall.written_append_singleton, Array.size_append] at fits
    omega
  obtain ⟨before, earlier, accounts⟩ := callAll_accounts contained history small
  obtain ⟨after, result, accounts', forward, orderly, stands⟩ :=
    call_accounts contained accounts call (joined ▸ fits)
  rw [← joined] at accounts'
  obtain ⟨events, left⟩ := Scan.Report.andThen_of_ok earlier
  rw [← callAll_append_singleton] at events left
  refine ⟨before, after, before.chunkOffset + before.offset, after.chunkOffset + after.offset,
    earlier, left.trans result, result, events, accounts'.inside, accounts'.size, accounts'.chunk,
    accounts.position small, accounts'.position fits, forward, accounts'.remaining, ?_, orderly,
    stands⟩
  rw [events, Array.toList_append]
  exact accounts'.tiled

/-- The stream is ended and goes on; the application error is met twice, at the same position. -/
theorem calls_keep_every_token_guarded :
    ∃ tokenizer, guardedLetter.build = .ok tokenizer ∧
      let whole := tokenizer.callAll ()
        [.write #[97, 97], .finish, .write #[97, 98], .finish]
      whole.events = #[.token "letter" ⟨0, 1⟩, .token "letter" ⟨1, 2⟩, .token "letter" ⟨2, 3⟩,
        .error "other" 3 (-2), .error "other" 3 (-2)] ∧
      ∃ after, whole.result = .ok after ∧ after.position = .ok 3 ∧ after.remaining = .ok #[98] := by
  obtain ⟨tokenizer, built, events⟩ : ∃ tokenizer, guardedLetter.build = .ok tokenizer ∧
      (tokenizer.callAll () [.write #[97, 97], .finish, .write #[97, 98], .finish]).events =
        #[.token "letter" ⟨0, 1⟩, .token "letter" ⟨1, 2⟩, .token "letter" ⟨2, 3⟩,
          .error "other" 3 (-2), .error "other" 3 (-2)] :=
    ⟨_, rfl, by decide +kernel⟩
  refine ⟨tokenizer, built, events, ?_⟩
  have calls : ∀ rule ∈ guardedLetter.rules, ∀ text, rule.reader.CallsWithin text () := by
    intro rule member text id l part called offset inside
    simp only [guardedLetter, List.mem_cons, List.not_mem_nil, or_false] at member
    rcases member with rfl | rfl
    · obtain ⟨-, rfl⟩ : id = 0 ∧ l = .text [97] := by simpa [Reader.text, Reader.parts] using part
      cases called
    · cases List.mem_singleton.mp part
      trivial
  have answers : ∀ rule ∈ guardedLetter.rules, ∀ m : Match, m.start + m.size ≤ m.text.size →
      ∃ next, rule.transition.next m () = .ok next := by
    intro rule member m _
    simp only [guardedLetter, List.mem_cons, List.not_mem_nil, or_false] at member
    rcases member with rfl | rfl <;> exact ⟨none, rfl⟩
  obtain ⟨before, after, passed, position, -, result, -, -, -, -, -, -, reached, -, remaining,
    tiled, -⟩ := calls_keep_every_token guardedLetter built () calls answers
      [.write #[97, 97], .finish, .write #[97, 98]] .finish (by decide)
  obtain rfl : 3 = position := by
    simp only [List.cons_append, List.nil_append, events] at tiled
    exact tiled.2.2.2.2.2.2
  exact ⟨after, result, reached, remaining⟩

end Tokenizer

end StagedLexer
