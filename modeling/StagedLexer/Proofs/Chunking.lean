import StagedLexer.Proofs.ReadBounds
import StagedLexer.Proofs.Trail
import StagedLexer.Tokenizer

/-! Text that comes in chunks. After every chunk a stream goes back to the start of the token that it
holds back, drops the text in front of it and scans again behind the next chunk. Where the rules meet
the conditions of `Lexicon.Firm` and the text leads to no application error, this gives the same
tokens as a scan of the whole text; the conditions of `Lexicon.Steady` rule such errors out. -/
namespace StagedLexer

variable {Ctx : Type}

def Outcome.shift (distance : Nat) : Outcome → Outcome
  | matched rule stop => matched rule (distance + stop)
  | outcome => outcome

def Scan.Pending.shift (distance : Nat) (step : Scan.Pending) : Scan.Pending :=
  { step with start := distance + step.start, stop := distance + step.stop }

private theorem Scan.map_tokenOf_shift (lexicon : Lexicon Ctx) (base distance : Nat)
    (steps : List Scan.Pending) :
    (steps.map (·.shift distance)).map (tokenOf lexicon base) =
      steps.map (tokenOf lexicon (base + distance)) := by
  simp only [List.map_map]
  apply List.map_congr_left
  intro step _
  simp only [Function.comp, tokenOf, Pending.shift, Nat.add_assoc]

/-- The conditions under which the tokens of a text do not depend on its chunks. -/
structure Lexicon.Steady (lexicon : Lexicon Ctx) (ctx : Ctx) : Prop where
  /-- Matches end within the text, and there is no application error. -/
  decided (text : Bytes) : lexicon.Decided text ctx
  /-- A match with another match behind it stays when text is added. -/
  committed {text : Bytes} {pos : Nat} {stage next : Option String} {rule stop rule' stop' : Nat}
    (more : Bytes) : pos ≤ text.size →
    lexicon.outcome text ctx pos stage = .matched rule stop →
    lexicon.nextStage rule ⟨text, pos, stop - pos, stage⟩ ctx = .ok next →
    lexicon.outcome text ctx stop (next.or stage) = .matched rule' stop' →
    lexicon.outcome (text ++ more) ctx pos stage = .matched rule stop
  /-- The text in front of a position has no influence. -/
  shifted (front : Bytes) {text : Bytes} {pos : Nat} (stage : Option String) : pos ≤ text.size →
    lexicon.outcome (front ++ text) ctx (front.size + pos) stage =
      (lexicon.outcome text ctx pos stage).shift front.size
  /-- The stage that follows depends on the matched text and the current stage only. -/
  lexical {rule : Nat} {m m' : Match} {lexeme : Bytes} : m.lexeme = .ok lexeme →
    m'.lexeme = .ok lexeme → m.stage = m'.stage →
    lexicon.nextStage rule m ctx = lexicon.nextStage rule m' ctx

/-- Weaker conditions, under which there may be application errors. What settles a match is whatever
else than no match stands behind it. -/
structure Lexicon.Firm (lexicon : Lexicon Ctx) (ctx : Ctx) : Prop where
  contained (text : Bytes) : lexicon.Contained text ctx
  committed {text : Bytes} {pos : Nat} {stage next : Option String} {rule stop : Nat}
    (more : Bytes) : pos ≤ text.size →
    lexicon.outcome text ctx pos stage = .matched rule stop →
    lexicon.nextStage rule ⟨text, pos, stop - pos, stage⟩ ctx = .ok next →
    lexicon.outcome text ctx stop (next.or stage) ≠ .noMatch →
    lexicon.outcome (text ++ more) ctx pos stage = .matched rule stop
  /-- An application error stays when text is added. -/
  failing {text : Bytes} {pos : Nat} {stage : Option String} {owner : Nat} {code : ErrorCode}
    (more : Bytes) : pos ≤ text.size →
    lexicon.outcome text ctx pos stage = .failed owner code →
    lexicon.outcome (text ++ more) ctx pos stage = .failed owner code
  shifted (front : Bytes) {text : Bytes} {pos : Nat} (stage : Option String) : pos ≤ text.size →
    lexicon.outcome (front ++ text) ctx (front.size + pos) stage =
      (lexicon.outcome text ctx pos stage).shift front.size
  lexical {rule : Nat} {m m' : Match} {lexeme : Bytes} : m.lexeme = .ok lexeme →
    m'.lexeme = .ok lexeme → m.stage = m'.stage →
    lexicon.nextStage rule m ctx = lexicon.nextStage rule m' ctx

/-- No trail from the position leads to an application error. -/
def Lexicon.Calm (lexicon : Lexicon Ctx) (text : Bytes) (ctx : Ctx) (pos : Nat)
    (stage : Option String) : Prop :=
  ∀ {steps final last owner code}, lexicon.Trail text ctx pos stage steps final last →
    ¬ lexicon.Ends text ctx final last (.failed owner code)

namespace Lexicon

variable {lexicon : Lexicon Ctx} {ctx : Ctx} {text : Bytes} {pos final : Nat}
  {stage last : Option String} {steps : List Scan.Pending}

theorem Steady.firm (steady : lexicon.Steady ctx) : lexicon.Firm ctx where
  contained text := (steady.decided text).contained
  committed {text pos stage next rule stop} more small found follows behind := by
    have inside := (steady.decided text).inside small found
    cases next_found : lexicon.outcome text ctx stop (next.or stage) with
    | matched rule' stop' => exact steady.committed more small found follows next_found
    | noMatch => exact (behind next_found).elim
    | failed owner code => exact ((steady.decided text).noFailure inside next_found).elim
    | endless => exact ((steady.decided text).ending inside next_found).elim
  failing {text} _ _ _ _ _ small found := ((steady.decided text).noFailure small found).elim
  shifted := steady.shifted
  lexical := steady.lexical

theorem Steady.calm (steady : lexicon.Steady ctx) (small : pos ≤ text.size) :
    lexicon.Calm text ctx pos stage := fun trail ends =>
  (steady.decided text).noFailure (trail.le_size (steady.decided text).contained small) ends.2

theorem Calm.behind {middle : Nat} {between : Option String}
    (calm : lexicon.Calm text ctx pos stage)
    (trail : lexicon.Trail text ctx pos stage steps middle between) :
    lexicon.Calm text ctx middle between := fun rest ends => calm (trail.append rest) ends

private theorem lexeme_within (stage : Option String) (front more : Bytes) {start stop : Nat}
    (sorted : start ≤ stop) (inside : stop ≤ text.size) :
    Match.lexeme ⟨front ++ (text ++ more), front.size + start, stop - start, stage⟩ =
      .ok (text.extract start stop) := by
  have end_eq : front.size + start + (stop - start) = front.size + stop := by omega
  have small : front.size + start ≤ front.size + stop ∧
      front.size + stop ≤ (front ++ (text ++ more)).size := by
    simp only [Array.size_append]
    omega
  rw [Match.lexeme, Bytes.slice, end_eq, if_pos small]
  simp [Array.extract_append, Nat.sub_eq_zero_of_le inside]

private theorem Firm.follows_within (firm : lexicon.Firm ctx) (front more : Bytes)
    {rule start stop : Nat} (sorted : start ≤ stop) (inside : stop ≤ text.size) :
    lexicon.nextStage rule ⟨front ++ (text ++ more), front.size + start, stop - start, stage⟩ ctx =
      lexicon.nextStage rule ⟨text, start, stop - start, stage⟩ ctx := by
  have alone := lexeme_within stage #[] #[] sorted inside
  refine firm.lexical (lexeme_within stage front more sorted inside) ?_ rfl
  simpa using alone

/-- A trail whose matches stay in a longer text is a trail of that text. -/
theorem Trail.within (firm : lexicon.Firm ctx) (front more : Bytes)
    (trail : lexicon.Trail text ctx pos stage steps final last)
    (stays : ∀ step ∈ steps,
      lexicon.outcome (text ++ more) ctx step.start step.stage = .matched step.rule step.stop) :
    lexicon.Trail (front ++ (text ++ more)) ctx (front.size + pos) stage
      (steps.map (·.shift front.size)) (front.size + final) last := by
  induction trail with
  | nil pos stage => exact .nil _ stage
  | @cons pos rule stop _ stage next _ steps left found follows rest ih =>
    have sorted := Nat.le_of_lt (lt_of_outcome found)
    have inside := (firm.contained _).inside (Nat.le_of_lt left) found
    have small : pos ≤ (text ++ more).size := by
      simp only [Array.size_append]
      omega
    have first : lexicon.outcome (text ++ more) ctx pos stage = .matched rule stop :=
      stays _ (List.mem_cons_self ..)
    have same : lexicon.outcome (front ++ (text ++ more)) ctx (front.size + pos) stage =
        .matched rule (front.size + stop) := by
      rw [firm.shifted front stage small, first]
      rfl
    refine .cons ?_ same ?_ (ih fun step member => stays step (by simp [member]))
    · simp only [Array.size_append]
      omega
    · rw [Nat.add_sub_add_left, firm.follows_within front more sorted inside, follows]

/-- The matches of a trail stay when text is added, if there is anything else than no match behind
the last one. -/
theorem Trail.stays_of_ne_noMatch (firm : lexicon.Firm ctx) (more : Bytes)
    (trail : lexicon.Trail text ctx pos stage steps final last)
    (settled : lexicon.outcome text ctx final last ≠ .noMatch) :
    ∀ step ∈ steps,
      lexicon.outcome (text ++ more) ctx step.start step.stage = .matched step.rule step.stop := by
  induction trail with
  | nil => simp
  | cons left found follows rest ih =>
    intro step member
    rcases List.mem_cons.mp member with rfl | behind
    · refine firm.committed more (Nat.le_of_lt left) found follows ?_
      cases rest with
      | nil => exact settled
      | cons _ found' => simp [found']
    · exact ih settled step behind

/-- The matches of a trail that have another match behind them stay when text is added. -/
theorem Trail.stays (firm : lexicon.Firm ctx) (more : Bytes)
    (trail : lexicon.Trail text ctx pos stage steps final last) :
    ∀ step ∈ steps.dropLast,
      lexicon.outcome (text ++ more) ctx step.start step.stage = .matched step.rule step.stop := by
  cases pending : steps.getLast? with
  | none => simp [List.getLast?_eq_none_iff.mp pending]
  | some step =>
    refine (trail.dropLast pending).stays_of_ne_noMatch firm more ?_
    simp [trail.found_of_mem step (List.mem_of_getLast? pending)]

/-- A trail of a text stands behind other text as well. -/
theorem Trail.behind (firm : lexicon.Firm ctx) (front : Bytes)
    (trail : lexicon.Trail text ctx pos stage steps final last) :
    lexicon.Trail (front ++ text) ctx (front.size + pos) stage
      (steps.map (·.shift front.size)) (front.size + final) last := by
  simpa using trail.within firm front #[] (by simpa using trail.found_of_mem)

theorem Halts.behind (firm : lexicon.Firm ctx) (front : Bytes)
    (halts : lexicon.Halts text ctx final last) :
    lexicon.Halts (front ++ text) ctx (front.size + final) last := by
  by_cases left : final < text.size
  · right
    rw [firm.shifted front last (Nat.le_of_lt left), halts.resolve_left (Nat.not_le.mpr left)]
    rfl
  · left
    simp only [Array.size_append]
    omega

/-- Where a longer text leads to no application error, a part of it does not either. -/
theorem Firm.halts_of_calm (firm : lexicon.Firm ctx) (front more : Bytes)
    (calm : lexicon.Calm (front ++ (text ++ more)) ctx front.size stage) :
    ∃ steps final last, lexicon.Trail text ctx 0 stage steps final last ∧
      lexicon.Halts text ctx final last ∧ final ≤ text.size := by
  obtain ⟨steps, final, last, ending, trail, ends, within, rfl | ⟨owner, code, rfl⟩⟩ :=
    (firm.contained text).exists_trail 0 (Nat.zero_le _) stage
  · exact ⟨steps, final, last, trail, ends, within⟩
  · have stays := trail.stays_of_ne_noMatch firm more (by simp [ends.2])
    have small : final ≤ (text ++ more).size := by
      rw [Array.size_append]
      omega
    have fails : lexicon.outcome (front ++ (text ++ more)) ctx (front.size + final) last =
        .failed owner code := by
      rw [firm.shifted front last small, firm.failing more within ends.2]
      rfl
    refine (calm (trail.within firm front more stays) ⟨?_, fails⟩).elim
    have left := ends.1
    simp only [Array.size_append]
    omega

end Lexicon

namespace Tokenizer

/-- Writes chunks to a stream, one after the other, and ends it. -/
def stream (tokenizer : Tokenizer Ctx) (ctx : Ctx) : Option StreamState → List Bytes → Scan.Report
  | state, [] => tokenizer.finish (state.getD (.fresh tokenizer.initialStage)) ctx
  | state, chunk :: rest =>
    let report := tokenizer.write chunk state ctx
    match report.result with
    | .ok state =>
      let later := stream tokenizer ctx (some state) rest
      { later with events := report.events ++ later.events, notes := report.notes ++ later.notes }
    | .error _ => report

def joined (chunks : List Bytes) : Bytes := chunks.foldr (· ++ ·) #[]

variable {tokenizer : Tokenizer Ctx} {ctx : Ctx}

/-- The state of a stream has passed the text `front` and holds the text `rest`. -/
structure Passed (state : StreamState) (front rest : Bytes) : Prop where
  chunk : ∃ used : Bytes, used.size = state.offset ∧ state.chunk = used ++ rest
  position : front.size = state.chunkOffset + state.offset

private theorem append_of_passed {state : StreamState} {front rest : Bytes}
    (passed : Passed state front rest) (fits : front.size < positionBound) (more : Bytes) :
    state.append more =
      .ok { stage := state.stage, chunk := rest ++ more, chunkOffset := front.size } := by
  obtain ⟨used, size, text⟩ := passed.chunk
  have within : state.offset ≤ state.chunk.size ∧ state.chunk.size ≤ state.chunk.size := by
    rw [text, Array.size_append]
    omega
  have remaining : state.remaining = .ok rest := by
    rw [StreamState.remaining, Bytes.slice, if_pos within, text, ← size]
    simp
  have position : state.position = .ok front.size := by
    rw [StreamState.position, Scan.positionBehind_of_lt (passed.position ▸ fits), passed.position]
  rw [StreamState.append, remaining, position]
  rfl

/-- Behind a chunk the stream has reported matches that stay whatever follows, and has passed the text
up to the end of the last of them. -/
private theorem write_of_passed (firm : tokenizer.lexicon.Firm ctx) {state : StreamState}
    {front rest : Bytes} (passed : Passed state front rest) (chunk more : Bytes)
    (calm : tokenizer.lexicon.Calm (front ++ (rest ++ chunk ++ more)) ctx front.size state.stage)
    (fits : (front ++ (rest ++ chunk)).size < positionBound) :
    ∃ steps used held after, rest ++ chunk = used ++ held ∧ Passed after (front ++ used) held ∧
      tokenizer.lexicon.Trail (rest ++ chunk) ctx 0 state.stage steps used.size after.stage ∧
      (∀ step ∈ steps, tokenizer.lexicon.outcome (rest ++ chunk ++ more) ctx step.start
        step.stage = .matched step.rule step.stop) ∧
      (tokenizer.write chunk (some state) ctx).events =
        (steps.map (Scan.tokenOf tokenizer.lexicon front.size)).toArray ∧
      (tokenizer.write chunk (some state) ctx).result = .ok after := by
  have small : front.size < positionBound := by
    simp only [Array.size_append] at fits
    omega
  obtain ⟨steps, final, last, trail, halts, within⟩ := firm.halts_of_calm front more calm
  let held : StreamState :=
    { stage := state.stage, chunk := rest ++ chunk, chunkOffset := front.size }
  have written : tokenizer.write chunk (some state) ctx = tokenizer.lexicon.scan held ctx true := by
    simp only [write, Option.getD_some, append_of_passed passed small]
    rfl
  have bounded : held.chunkOffset + final < positionBound := by
    change front.size + final < positionBound
    simp only [Array.size_append] at fits within
    omega
  obtain ⟨events, result⟩ := Scan.scan_streaming held trail halts bounded
  rw [written, events, result]
  -- The last match is held back, so the text is cut at its start.
  cases pending : steps.getLast? with
  | none =>
    obtain rfl := List.getLast?_eq_none_iff.mp pending
    exact ⟨[], #[], rest ++ chunk, held, by simp, ⟨⟨#[], rfl, by simp [held]⟩, by simp [held]⟩,
      .nil 0 _, by simp, rfl, rfl⟩
  | some step =>
    have bound := trail.bounds step (List.mem_of_getLast? pending)
    have size : ((rest ++ chunk).extract 0 step.start).size = step.start := by
      rw [Array.size_extract]
      omega
    have cut : rest ++ chunk = (rest ++ chunk).extract 0 step.start ++
        (rest ++ chunk).extract step.start (rest ++ chunk).size := by
      rw [Array.extract_append_extract, Nat.min_eq_left (Nat.zero_le _), Nat.max_eq_right (by omega),
        Array.extract_size]
    refine ⟨steps.dropLast, _, _, { held with stage := step.stage, offset := step.start }, cut,
      ⟨⟨_, size, cut⟩, ?_⟩, ?_, trail.stays firm more, rfl, rfl⟩
    · rw [Array.size_append, size]
    · rw [size]
      exact trail.dropLast pending

/-- A stream that is continued with chunks reports what a scan of the text `whole` reports from
`start` on, and ends in the state that this scan ends in. -/
private structure Streamed (tokenizer : Tokenizer Ctx) (ctx : Ctx) (state : StreamState)
    (chunks : List Bytes) (whole : Bytes) (start : Nat) (steps : List Scan.Pending) (final : Nat)
    (last : Option String) (streamed : StreamState) : Prop where
  trail : tokenizer.lexicon.Trail whole ctx start state.stage steps final last
  halts : tokenizer.lexicon.Halts whole ctx final last
  within : final ≤ whole.size
  events : (tokenizer.stream ctx (some state) chunks).events =
    (steps.map (Scan.tokenOf tokenizer.lexicon 0) ++ Scan.leftover 0 whole final).toArray
  result : (tokenizer.stream ctx (some state) chunks).result = .ok streamed
  stage : streamed.stage = last
  position : streamed.position = .ok final

private theorem finish_of_calm (firm : tokenizer.lexicon.Firm ctx) {state : StreamState}
    {front rest : Bytes} (passed : Passed state front rest)
    (calm : tokenizer.lexicon.Calm (front ++ rest) ctx front.size state.stage)
    (fits : (front ++ rest).size < positionBound) :
    ∃ steps final last streamed,
      Streamed tokenizer ctx state [] (front ++ rest) front.size steps final last streamed := by
  obtain ⟨steps, final, last, trail, halts, within⟩ :=
    firm.halts_of_calm front #[] (by rwa [Array.append_empty])
  obtain ⟨used, size, text⟩ := passed.chunk
  have base := passed.position
  have here : tokenizer.lexicon.Trail state.chunk ctx state.offset state.stage
      (steps.map (·.shift used.size)) (used.size + final) last := by
    rw [text, ← size]
    exact trail.behind firm used
  have stops : tokenizer.lexicon.Halts state.chunk ctx (used.size + final) last := by
    rw [text]
    exact halts.behind firm used
  have bounded : state.chunkOffset + (used.size + final) = front.size + final := by omega
  rw [Array.size_append] at fits
  obtain ⟨events, result⟩ := Scan.scan_final state here stops (by omega)
  refine ⟨steps.map (·.shift front.size), front.size + final, last, _, ⟨trail.behind firm front,
    halts.behind firm front, ?_, ?_, result, rfl, ?_⟩⟩
  · rw [Array.size_append]
    omega
  · refine events.trans ?_
    have unread : Scan.leftover state.chunkOffset state.chunk (used.size + final) =
        Scan.leftover 0 (front ++ rest) (front.size + final) := by
      simp only [Scan.leftover, text, Array.size_append, bounded, Nat.zero_add,
        Nat.add_lt_add_iff_left]
    rw [Scan.map_tokenOf_shift, Scan.map_tokenOf_shift, unread, size, ← base, Nat.zero_add]
  · rw [StreamState.position, Scan.positionBehind_of_lt (by simp only; omega)]
    simp only [bounded]

private theorem stream_of_calm (firm : tokenizer.lexicon.Firm ctx) (chunks : List Bytes) :
    ∀ {state : StreamState} {front rest : Bytes}, Passed state front rest →
      tokenizer.lexicon.Calm (front ++ (rest ++ joined chunks)) ctx front.size state.stage →
      (front ++ (rest ++ joined chunks)).size < positionBound →
      ∃ steps final last streamed,
        Streamed tokenizer ctx state chunks (front ++ (rest ++ joined chunks)) front.size steps final
          last streamed := by
  -- A chunk moves text from `rest` to `front`; what it reports and what comes later make one trail.
  induction chunks with
  | nil =>
    intro state front rest passed calm fits
    have whole : rest ++ joined [] = rest := by simp [joined]
    rw [whole] at calm fits ⊢
    exact finish_of_calm firm passed calm fits
  | cons chunk chunks ih =>
    intro state front rest passed calm fits
    have whole : rest ++ joined (chunk :: chunks) = (rest ++ chunk) ++ joined chunks := by
      simp [joined]
    rw [whole] at calm fits ⊢
    have first : (front ++ (rest ++ chunk)).size < positionBound := by
      simp only [Array.size_append] at fits ⊢
      omega
    obtain ⟨made, used, held, after, cut, passed', trail, stays, events, result⟩ :=
      write_of_passed firm passed chunk (joined chunks) calm first
    have moved : front ++ ((rest ++ chunk) ++ joined chunks) =
        (front ++ used) ++ (held ++ joined chunks) := by simp [cut]
    have reported := trail.within firm front (joined chunks) stays
    rw [moved] at calm fits reported ⊢
    have position : front.size + used.size = (front ++ used).size := Array.size_append.symm
    rw [Nat.add_zero, position] at reported
    obtain ⟨steps, final, last, streamed, later⟩ := ih passed' (calm.behind reported) fits
    refine ⟨made.map (·.shift front.size) ++ steps, final, last, streamed,
      ⟨reported.append later.trail, later.halts, later.within, ?_, ?_, later.stage,
        later.position⟩⟩
    · simp only [stream, result, events, later.events]
      rw [List.map_append, Scan.map_tokenOf_shift, Nat.zero_add, List.append_assoc]
      simp
    · simp only [stream, result, later.result]

private theorem tokenize_of_trail {text : Bytes} {steps : List Scan.Pending} {final : Nat}
    {last : Option String}
    (trail : tokenizer.lexicon.Trail text ctx 0 tokenizer.initialStage steps final last)
    (halts : tokenizer.lexicon.Halts text ctx final last) (small : final < positionBound) :
    (tokenizer.tokenize text ctx).events =
        (steps.map (Scan.tokenOf tokenizer.lexicon 0) ++ Scan.leftover 0 text final).toArray ∧
      ∃ whole, (tokenizer.tokenize text ctx).result = .ok whole ∧ whole.stage = last ∧
        whole.position = .ok final := by
  have bounded : 0 + final < positionBound := by omega
  obtain ⟨events, result⟩ := Scan.scan_final
    { StreamState.fresh tokenizer.initialStage with chunk := text } trail halts bounded
  refine ⟨events, _, result, rfl, (Scan.positionBehind_of_lt bounded).trans ?_⟩
  rw [Nat.zero_add]

/-- Where a text leads to no application error, its events and the state behind it do not depend on
its chunks. -/
theorem stream_eq_of_calm (firm : tokenizer.lexicon.Firm ctx) {text : Bytes}
    (calm : tokenizer.lexicon.Calm text ctx 0 tokenizer.initialStage)
    (fits : text.size < positionBound) {chunks : List Bytes} (splits : joined chunks = text) :
    (tokenizer.stream ctx none chunks).events = (tokenizer.tokenize text ctx).events ∧
      ∃ streamed whole position,
        (tokenizer.stream ctx none chunks).result = .ok streamed ∧
        (tokenizer.tokenize text ctx).result = .ok whole ∧
        streamed.stage = whole.stage ∧
        streamed.position = .ok position ∧ whole.position = .ok position := by
  have fresh : tokenizer.stream ctx none chunks =
      tokenizer.stream ctx (some (.fresh tokenizer.initialStage)) chunks := by
    cases chunks <;> rfl
  have start : Passed (.fresh tokenizer.initialStage) #[] #[] := ⟨⟨#[], rfl, rfl⟩, rfl⟩
  have whole : #[] ++ (#[] ++ joined chunks) = text := by simp [splits]
  obtain ⟨steps, final, last, streamed, reports⟩ :=
    stream_of_calm firm chunks start (whole.symm ▸ calm) (whole.symm ▸ fits)
  rw [whole] at reports
  obtain ⟨events, scanned, result, atLast, atFinal⟩ :=
    tokenize_of_trail reports.trail reports.halts (Nat.lt_of_le_of_lt reports.within fits)
  rw [fresh]
  exact ⟨reports.events.trans events.symm, streamed, scanned, final, reports.result, result,
    reports.stage.trans atLast.symm, reports.position, atFinal⟩

/-- The events of a text and the state behind it do not depend on the chunks in which the text comes.
A text is shorter than the positions that a stream can have. -/
theorem stream_eq_tokenize (tokenizer : Tokenizer Ctx) (ctx : Ctx)
    (steady : tokenizer.lexicon.Steady ctx) (text : Bytes) (fits : text.size < positionBound)
    (chunks : List Bytes) (splits : joined chunks = text) :
    (tokenizer.stream ctx none chunks).events = (tokenizer.tokenize text ctx).events ∧
      ∃ streamed whole position,
        (tokenizer.stream ctx none chunks).result = .ok streamed ∧
        (tokenizer.tokenize text ctx).result = .ok whole ∧
        streamed.stage = whole.stage ∧
        streamed.position = .ok position ∧ whole.position = .ok position :=
  stream_eq_of_calm steady.firm (steady.calm (Nat.zero_le _)) fits splits

end Tokenizer

theorem Bytes.holdsAt_behind (front text : Bytes) (units : List UInt8) (pos : Nat) :
    holdsAt (front ++ text) (front.size + pos) units = holdsAt text pos units := by
  induction units generalizing pos with
  | nil => rfl
  | cons b rest ih =>
    have here : (front ++ text)[front.size + pos]? = text[pos]? := by
      rw [Array.getElem?_append_right (Nat.le_add_right _ _), Nat.add_sub_cancel_left]
    rw [holdsAt, holdsAt, here, Nat.add_assoc, ih (pos + 1)]

private theorem Bytes.holdsAt_append (text more : Bytes) (units : List UInt8) (pos : Nat)
    (holds : holdsAt text pos units = true) : holdsAt (text ++ more) pos units = true := by
  induction units generalizing pos with
  | nil => rfl
  | cons b rest ih =>
    simp only [holdsAt, Bool.and_eq_true, beq_iff_eq] at holds ⊢
    refine ⟨?_, ih (pos + 1) holds.2⟩
    rw [Array.getElem?_append_left (Array.getElem?_eq_some_iff.mp holds.1).1]
    exact holds.1

namespace Lexicon

def ofLiteral (Ctx : Type) (tokenType : String) (units : List UInt8) : Lexicon Ctx :=
  let rule : Rule Ctx := { tokenType, reader := .leaf 0 (.text units) }
  { rules := #[rule], forest := .ofRules [rule] none }

private theorem outcome_ofLiteral (tokenType : String) {units : List UInt8} (nonempty : units ≠ [])
    {text : Bytes} {ctx : Ctx} {pos : Nat} (small : pos ≤ text.size) (stage : Option String) :
    (ofLiteral Ctx tokenType units).outcome text ctx pos stage =
      if Bytes.holdsAt text pos units then .matched 0 (pos + units.length) else .noMatch := by
  have roots : (ofLiteral Ctx tokenType units).forest.roots stage =
      [.complete 0 [.leaf 0 (.text units)] 0] := by
    cases stage <;> rfl
  have further : 0 < units.length := List.length_pos_iff.mpr nonempty
  rw [outcome, roots]
  simp only [Branch.attemptAll, Branch.complete, Branch.attempt, Reader.readAll, Reader.read,
    if_neg (Nat.not_lt.mpr small), Leaf.read]
  by_cases holds : Bytes.holdsAt text pos units <;>
    simp [holds, Reading.andThen, Outcome.orElse, further]

private theorem nextStage_ofLiteral (tokenType : String) (units : List UInt8) (rule : Nat)
    (m : Match) (ctx : Ctx) : (ofLiteral Ctx tokenType units).nextStage rule m ctx = .ok none := by
  cases rule <;> rfl

/-- A literal that is not empty is found in the same places however the text is split. -/
theorem steady_ofLiteral (tokenType : String) {units : List UInt8} (nonempty : units ≠ [])
    (ctx : Ctx) :
    (ofLiteral Ctx tokenType units).Steady ctx := by
  -- A match is where the literal stands, and it ends behind the literal.
  have matched {text : Bytes} {pos rule stop : Nat} {stage : Option String} (small : pos ≤ text.size)
      (found : (ofLiteral Ctx tokenType units).outcome text ctx pos stage = .matched rule stop) :
      Bytes.holdsAt text pos units = true ∧ rule = 0 ∧ stop = pos + units.length := by
    rw [outcome_ofLiteral tokenType nonempty small] at found
    split at found
    · next holds =>
      cases found
      exact ⟨holds, rfl, rfl⟩
    · cases found
  refine ⟨fun text => ⟨?inside, ?noFailure, ?ending, ?answered⟩, ?committed, ?shifted, ?lexical⟩
  case inside =>
    intro pos stage rule stop small found
    obtain ⟨holds, -, rfl⟩ := matched small found
    exact Bytes.size_of_holdsAt small holds
  case noFailure =>
    intro pos stage owner code small found
    rw [outcome_ofLiteral tokenType nonempty small] at found
    split at found <;> cases found
  case ending =>
    intro pos stage small found
    rw [outcome_ofLiteral tokenType nonempty small] at found
    split at found <;> cases found
  case answered =>
    intro pos stage rule stop small found
    exact ⟨none, nextStage_ofLiteral tokenType units rule _ ctx⟩
  case committed =>
    intro text pos stage next rule stop rule' stop' more small found _ _
    obtain ⟨holds, rfl, rfl⟩ := matched small found
    have longer : pos ≤ (text ++ more).size := by
      rw [Array.size_append]
      omega
    rw [outcome_ofLiteral tokenType nonempty longer,
      if_pos (Bytes.holdsAt_append text more units pos holds)]
  case shifted =>
    intro front text pos stage small
    have longer : front.size + pos ≤ (front ++ text).size := by
      rw [Array.size_append]
      omega
    rw [outcome_ofLiteral tokenType nonempty longer, outcome_ofLiteral tokenType nonempty small,
      Bytes.holdsAt_behind]
    split <;> simp [Outcome.shift, Nat.add_assoc]
  case lexical =>
    intro rule m m' lexeme _ _ _
    rw [nextStage_ofLiteral, nextStage_ofLiteral]

end Lexicon

/-- A literal that is split in the middle, twice. -/
theorem Tokenizer.stream_of_split_literal :
    let lexicon := Lexicon.ofLiteral Unit "pair" [97, 98]
    let routine := Routine.ofLexicon lexicon
    let tokenizer : Tokenizer Unit := ⟨lexicon, none, routine, routine.body⟩
    let report := tokenizer.stream () none [#[97], #[98, 97], #[], #[98, 99]]
    report.events = #[.token "pair" ⟨0, 2⟩, .token "pair" ⟨2, 4⟩, .unrecognized 4] ∧
      ∃ streamed, report.result = .ok streamed ∧ streamed.stage = none ∧
        streamed.position = .ok 4 := by
  intro lexicon routine tokenizer report
  have steady : tokenizer.lexicon.Steady () := Lexicon.steady_ofLiteral "pair" (by simp) ()
  have fits : Array.size #[97, 98, 97, 98, 99] < positionBound := by decide
  obtain ⟨events, streamed, whole, position, result, ended, same, atPosition, wholePosition⟩ :=
    stream_eq_tokenize tokenizer () steady #[97, 98, 97, 98, 99] fits
      [#[97], #[98, 97], #[], #[98, 99]] rfl
  have scanned : (tokenizer.tokenize #[97, 98, 97, 98, 99] ()).events =
        #[.token "pair" ⟨0, 2⟩, .token "pair" ⟨2, 4⟩, .unrecognized 4] ∧
      (tokenizer.tokenize #[97, 98, 97, 98, 99] ()).result.toOption =
        some { chunk := #[97, 98, 97, 98, 99], offset := 4 } := by
    decide +kernel
  obtain rfl : whole = { chunk := #[97, 98, 97, 98, 99], offset := 4 } := by
    rw [ended] at scanned
    exact Option.some.inj scanned.2
  refine ⟨events.trans scanned.1, streamed, result, same, ?_⟩
  rw [atPosition, ← wholePosition]
  rfl

end StagedLexer
