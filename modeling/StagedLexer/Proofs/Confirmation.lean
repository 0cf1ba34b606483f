import StagedLexer.Proofs.Chunking
import StagedLexer.Proofs.PlainReaders

/-! What a stream has confirmed when more text comes. A match is confirmed by any match behind it,
which does not keep a longer match from becoming possible when text is added. The tokens confirmed
so far are those of the longer text exactly if the matches stand up to it one after the other. -/
namespace StagedLexer

variable {Ctx : Type}

/-- In `text`, starting in the given stage, the matches are found again one after the other, each up to
the same end by a rule of the same token type. -/
def Lexicon.Upholds (lexicon : Lexicon Ctx) (text : Bytes) (ctx : Ctx) :
    Option String → List Scan.Pending → Prop
  | _, [] => True
  | stage, step :: rest =>
    ∃ rule next, lexicon.outcome text ctx step.start stage = .matched rule step.stop ∧
      lexicon.tokenType rule = lexicon.tokenType step.rule ∧
      lexicon.nextStage rule ⟨text, step.start, step.stop - step.start, stage⟩ ctx = .ok next ∧
      Upholds lexicon text ctx (next.or stage) rest

namespace Lexicon

variable {lexicon : Lexicon Ctx} {text whole : Bytes} {ctx : Ctx} {pos final : Nat}
  {stage stage' last : Option String} {steps : List Scan.Pending}

theorem Trail.upholds (trail : lexicon.Trail text ctx pos stage steps final last) :
    lexicon.Upholds text ctx stage steps := by
  induction trail with
  | nil => trivial
  | cons left found follows rest ih => exact ⟨_, _, found, rfl, follows, ih⟩

private theorem Upholds.exists_trail (trail : lexicon.Trail text ctx pos stage steps final last)
    (longer : text.size ≤ whole.size) (upheld : lexicon.Upholds whole ctx stage' steps) :
    ∃ steps' last', lexicon.Trail whole ctx pos stage' steps' final last' ∧
      steps'.map (Scan.tokenOf lexicon 0) = steps.map (Scan.tokenOf lexicon 0) := by
  induction trail generalizing stage' with
  | nil => exact ⟨[], stage', .nil _ _, rfl⟩
  | cons left found follows rest ih =>
    obtain ⟨rule', next', found', same, follows', upheld⟩ := upheld
    obtain ⟨steps', last', trail', tokens⟩ := ih upheld
    refine ⟨_, last', .cons (Nat.lt_of_lt_of_le left longer) found' follows' trail', ?_⟩
    simp only [List.map_cons, tokens, Scan.tokenOf, same]

/-- Where the tokens of a trail are the first events of another text, its matches stand up to that
text. -/
private theorem upholds_of_isPrefix {steps' : List Scan.Pending} {final' : Nat}
    {last' : Option String} (trail : lexicon.Trail text ctx pos stage steps final last)
    (trail' : lexicon.Trail whole ctx pos stage' steps' final' last') (behind : Nat)
    (first : steps.map (Scan.tokenOf lexicon 0) <+:
      steps'.map (Scan.tokenOf lexicon 0) ++ Scan.leftover 0 whole behind) :
    lexicon.Upholds whole ctx stage' steps := by
  induction trail generalizing stage' steps' with
  | nil => trivial
  | cons left found follows rest ih =>
    cases trail' with
    | nil =>
      -- Behind the last match there is no token.
      simp only [List.map_cons, List.map_nil, List.nil_append, Scan.leftover] at first
      split at first
      · simp [Scan.tokenOf] at first
      · simp at first
    | cons left' found' follows' rest' =>
      simp only [List.map_cons, List.cons_append, List.cons_prefix_cons, Scan.tokenOf,
        Event.token.injEq, Span.mk.injEq, Nat.zero_add] at first
      obtain ⟨⟨same, -, rfl⟩, others⟩ := first
      exact ⟨_, _, found', same.symm, follows', ih rest' others⟩

end Lexicon

namespace Tokenizer

variable {tokenizer : Tokenizer Ctx} {ctx : Ctx}

theorem write_none (tokenizer : Tokenizer Ctx) (text : Bytes) (ctx : Ctx) :
    tokenizer.write text none ctx =
      tokenizer.lexicon.scan { StreamState.fresh tokenizer.initialStage with chunk := text }
        ctx true := by
  have appended : (StreamState.fresh tokenizer.initialStage).append text =
      .ok { StreamState.fresh tokenizer.initialStage with chunk := text } := by
    simp [StreamState.append, StreamState.remaining, StreamState.position, StreamState.fresh,
      Bytes.slice, positionBehind, positionBound, bind, Except.bind, pure, Except.pure]
  rw [write, Option.getD_none, appended]

/-- What a fresh stream confirms of a text comes first in a longer text exactly if the longer text
upholds it. -/
private theorem isPrefix_iff_upholds {text more : Bytes}
    (decided : tokenizer.lexicon.Decided (text ++ more) ctx)
    (fits : (text ++ more).size < positionBound) {steps : List Scan.Pending} {final : Nat}
    {last : Option String}
    (trail : tokenizer.lexicon.Trail text ctx 0 tokenizer.initialStage steps final last) :
    steps.map (Scan.tokenOf tokenizer.lexicon 0) <+:
        (tokenizer.tokenize (text ++ more) ctx).events.toList ↔
      tokenizer.lexicon.Upholds (text ++ more) ctx tokenizer.initialStage steps := by
  let state : StreamState := { StreamState.fresh tokenizer.initialStage with chunk := text ++ more }
  -- A single call reports exactly the matches of the trail up to where it halts.
  have events {steps' : List Scan.Pending} {final' : Nat} {last' : Option String}
      (trail' :
        tokenizer.lexicon.Trail (text ++ more) ctx 0 tokenizer.initialStage steps' final' last')
      (halts' : tokenizer.lexicon.Halts (text ++ more) ctx final' last')
      (within : final' ≤ (text ++ more).size) :
      (tokenizer.tokenize (text ++ more) ctx).events.toList =
        steps'.map (Scan.tokenOf tokenizer.lexicon 0) ++ Scan.leftover 0 (text ++ more) final' := by
    have bounded : 0 + final' < positionBound := by omega
    exact congrArg Array.toList (Scan.scan_final state trail' halts' bounded).1
  constructor
  · intro first
    obtain ⟨steps', final', last', trail', halts', within⟩ :=
      decided.exists_trail 0 (Nat.zero_le _) tokenizer.initialStage
    rw [events trail' halts' within] at first
    exact Lexicon.upholds_of_isPrefix trail trail' final' first
  · intro upheld
    obtain ⟨steps', last', trail', tokens⟩ := upheld.exists_trail trail (by simp)
    have within := trail'.le_size decided.contained (Nat.zero_le _)
    obtain ⟨steps₂, final₂, last₂, trail₂, halts₂, within₂⟩ :=
      decided.exists_trail final within last'
    rw [events (trail'.append trail₂) halts₂ within₂, ← tokens, List.map_append, List.append_assoc]
    exact List.prefix_append _ _

end Tokenizer

theorem Settings.of_build {settings : Settings Ctx} {tokenizer : Tokenizer Ctx}
    (built : settings.build = .ok tokenizer) :
    tokenizer.lexicon =
        ⟨settings.rules.toArray, .ofRules settings.rules settings.initialStage⟩ ∧
      tokenizer.initialStage = settings.initialStage := by
  unfold build buildNoted at built
  split at built
  · cases built
  · cases built
    exact ⟨rfl, rfl⟩

theorem Settings.exists_build_iff {settings : Settings Ctx} :
    (∃ tokenizer, settings.build = .ok tokenizer) ↔ settings.unknownStage? = none := by
  unfold build buildNoted
  cases settings.unknownStage? with
  | none => exact ⟨fun _ => rfl, fun _ => ⟨_, rfl⟩⟩
  | some stage =>
    refine ⟨fun ⟨_, made⟩ => ?_, fun known => ?_⟩
    · cases made
    · cases known

namespace Lexicon

/-- If the calls of the rules' readers stay within the text, the matches do. -/
theorem contained_of_calls {rules : List (Rule Ctx)} (initialStage : Option String) {ctx : Ctx}
    {text : Bytes} (calls : ∀ rule ∈ rules, rule.reader.CallsWithin text ctx)
    (answers : ∀ rule ∈ rules, ∀ m : Match, m.start + m.size ≤ m.text.size →
      ∃ next, rule.transition.next m ctx = .ok next) :
    Contained ⟨rules.toArray, .ofRules rules initialStage⟩ text ctx := by
  have each : (Forest.ofRules rules initialStage).EachReader (·.CallsWithin text ctx) :=
    Forest.eachReader_ofRules (fun rule member step among =>
      (calls rule member).of_mem_parts (Reader.parts_subset_of_mem_steps among)) initialStage
  have inside {pos : Nat} {stage : Option String} {rule stop : Nat} (small : pos ≤ text.size)
      (found : outcome ⟨rules.toArray, .ofRules rules initialStage⟩ text ctx pos stage =
        .matched rule stop) : stop ≤ text.size :=
    Branch.stop_le_of_attemptAll (each.roots stage) small found
  refine ⟨inside, fun {pos stage} small => ?_, fun {pos stage rule stop} small found => ?_⟩
  · exact Branch.attemptAll_ne_endless
      ((each.mono fun reader within => within.read_ne_endless).roots stage)
  · have behind := inside small found
    have further := lt_of_outcome found
    unfold nextStage
    split
    · next rule listed =>
      refine answers rule ?_ _ (by simp only; omega)
      rw [List.getElem?_toArray] at listed
      exact List.mem_of_getElem? listed
    · exact ⟨none, rfl⟩

/-- Rules whose readers have no custom parts find a match within the text or none. -/
theorem decided_of_plain {rules : List (Rule Ctx)} (initialStage : Option String) {ctx : Ctx}
    (plain : ∀ rule ∈ rules, rule.reader.Plain)
    (answers : ∀ rule ∈ rules, ∀ m, ∃ next, rule.transition.next m ctx = .ok next) (text : Bytes) :
    Decided ⟨rules.toArray, .ofRules rules initialStage⟩ text ctx := by
  have contained := contained_of_calls initialStage
    (fun rule member => (plain rule member).callsWithin text ctx)
    fun rule member m _ => answers rule member m
  have each : (Forest.ofRules rules initialStage).EachReader Reader.Plain :=
    Forest.eachReader_ofRules (fun rule member step among =>
      (plain rule member).of_parts_subset (Reader.parts_subset_of_mem_steps among)) initialStage
  refine ⟨contained.inside, fun {pos stage owner code} small found => ?_, contained.ending,
    contained.answered⟩
  have regular :
      (outcome ⟨rules.toArray, .ofRules rules initialStage⟩ text ctx pos stage).Regular :=
    Branch.regular_attemptAll (each.roots stage) small
  rw [found] at regular
  exact regular

end Lexicon

namespace Tokenizer

variable {tokenizer : Tokenizer Ctx} {ctx : Ctx}

/-- A fresh stream confirms the matches of the text that have another match behind them. -/
private theorem write_none_confirms {text : Bytes} (decided : tokenizer.lexicon.Decided text ctx)
    (fits : text.size < positionBound) :
    ∃ steps final last,
      tokenizer.lexicon.Trail text ctx 0 tokenizer.initialStage steps final last ∧
      tokenizer.lexicon.Halts text ctx final last ∧
      (tokenizer.write text none ctx).events =
        (steps.dropLast.map (Scan.tokenOf tokenizer.lexicon 0)).toArray ∧
      ∃ final' last',
        tokenizer.lexicon.Trail text ctx 0 tokenizer.initialStage steps.dropLast final' last' := by
  obtain ⟨steps, final, last, trail, halts, within⟩ :=
    decided.exists_trail 0 (Nat.zero_le _) tokenizer.initialStage
  have bounded : 0 + final < positionBound := by omega
  have events := (Scan.scan_streaming
    { StreamState.fresh tokenizer.initialStage with chunk := text } trail halts bounded).1
  rw [← write_none] at events
  refine ⟨steps, final, last, trail, halts, events, ?_⟩
  cases pending : steps.getLast? with
  | none =>
    obtain rfl := List.getLast?_eq_none_iff.mp pending
    exact ⟨0, _, .nil 0 _⟩
  | some step => exact ⟨_, _, trail.dropLast pending⟩

/-- The tokens that a fresh stream confirms of `text` come first among the events of a longer text
exactly if the matches that are confirmed, those with another match behind them, stand up to the
longer text. -/
theorem write_isPrefix_tokenize_iff (settings : Settings Ctx) {tokenizer : Tokenizer Ctx}
    (built : settings.build = .ok tokenizer) (plain : ∀ rule ∈ settings.rules, rule.reader.Plain)
    (ctx : Ctx)
    (answers : ∀ rule ∈ settings.rules, ∀ m, ∃ next, rule.transition.next m ctx = .ok next)
    (text more : Bytes) (fits : (text ++ more).size < positionBound) :
    ∃ steps final last,
      tokenizer.lexicon.Trail text ctx 0 tokenizer.initialStage steps final last ∧
      tokenizer.lexicon.Halts text ctx final last ∧
      (tokenizer.write text none ctx).events =
        (steps.dropLast.map (Scan.tokenOf tokenizer.lexicon 0)).toArray ∧
      ((tokenizer.write text none ctx).events.toList <+:
          (tokenizer.tokenize (text ++ more) ctx).events.toList ↔
        tokenizer.lexicon.Upholds (text ++ more) ctx tokenizer.initialStage steps.dropLast) := by
  have decided (text : Bytes) : tokenizer.lexicon.Decided text ctx := by
    rw [(Settings.of_build built).1]
    exact Lexicon.decided_of_plain settings.initialStage plain answers text
  have small : text.size < positionBound := by
    rw [Array.size_append] at fits
    omega
  obtain ⟨steps, final, last, trail, halts, events, final', last', confirmed⟩ :=
    write_none_confirms (decided text) small
  refine ⟨steps, final, last, trail, halts, events, ?_⟩
  rw [events]
  exact isPrefix_iff_upholds (decided _) fits confirmed

/-- Literals of which one starts with another: `abc`, `a` and `b`. -/
def overlapping : Settings Unit :=
  let literal (id : Nat) (units : List UInt8) : Rule Unit :=
    { tokenType := Text.Utf8.decode units.toArray, reader := .text id units }
  { rules := [literal 0 [97, 98, 99], literal 1 [97], literal 2 [98]] }

/-- The matches of `ab` do not stand up to `abc`. -/
theorem write_isPrefix_tokenize_iff_overlapping :
    ∃ tokenizer, overlapping.build = .ok tokenizer ∧ ∃ steps : List Scan.Pending,
      (tokenizer.write #[97, 98] none ()).events =
        (steps.dropLast.map (Scan.tokenOf tokenizer.lexicon 0)).toArray ∧
      ¬ tokenizer.lexicon.Upholds #[97, 98, 99] () none steps.dropLast := by
  refine ⟨_, rfl, ?_⟩
  have plain : ∀ rule ∈ overlapping.rules, rule.reader.Plain := by
    intro rule member
    simp only [overlapping, List.mem_cons, List.not_mem_nil, or_false] at member
    rcases member with rfl | rfl | rfl <;> simp [Reader.Plain, Reader.text, Reader.parts]
  have answers : ∀ rule ∈ overlapping.rules, ∀ m, ∃ next, rule.transition.next m () = .ok next := by
    intro rule member m
    simp only [overlapping, List.mem_cons, List.not_mem_nil, or_false] at member
    rcases member with rfl | rfl | rfl <;> exact ⟨none, rfl⟩
  obtain ⟨steps, -, -, -, -, events, upheld_iff⟩ :=
    write_isPrefix_tokenize_iff overlapping rfl plain () answers #[97, 98] #[99] (by decide)
  refine ⟨steps, events, fun upheld => ?_⟩
  have first := upheld_iff.mpr upheld
  revert first
  decide +kernel

/-- What a stream has confirmed need not be a token of the text: in `ab` the `b` confirms the `a` in
front of it, but `abc` is one token. -/
theorem write_not_isPrefix_tokenize :
    ∃ tokenizer, overlapping.build = .ok tokenizer ∧
      (tokenizer.write #[97, 98] none ()).events = #[.token "a" ⟨0, 1⟩] ∧
      (tokenizer.tokenize #[97, 98, 99] ()).events = #[.token "abc" ⟨0, 3⟩] ∧
      ¬ (tokenizer.write #[97, 98] none ()).events.toList <+:
        (tokenizer.tokenize #[97, 98, 99] ()).events.toList := by
  refine ⟨_, rfl, ?_⟩
  decide +kernel

/-- Where matches stay that have another match behind them, what is confirmed is final. -/
theorem write_isPrefix_tokenize_of_steady (steady : tokenizer.lexicon.Steady ctx) (text more : Bytes)
    (fits : (text ++ more).size < positionBound) :
    (tokenizer.write text none ctx).events.toList <+:
      (tokenizer.tokenize (text ++ more) ctx).events.toList := by
  have small : text.size < positionBound := by
    rw [Array.size_append] at fits
    omega
  obtain ⟨steps, final, last, trail, halts, events, final', last', confirmed⟩ :=
    write_none_confirms (steady.decided text) small
  rw [events]
  refine (isPrefix_iff_upholds (steady.decided _) fits confirmed).mpr ?_
  have upheld := (confirmed.within steady.firm #[] more (trail.stays steady.firm more)).upholds
  simpa [Scan.Pending.shift] using upheld

end Tokenizer

end StagedLexer
