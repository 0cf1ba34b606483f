import Mathlib.Data.List.Forall2
import StagedLexer.Proofs.Rescan

/-! Rules that the first code unit of a token tells apart. Where such rules read a text by what is
left of it, and a match that could become longer is followed by nothing that starts a token, the
tokens do not depend on the chunks in which the text comes. -/
namespace StagedLexer

variable {Ctx : Type}

namespace Reading

def shift (distance : Nat) : Reading → Reading
  | matched stop => matched (distance + stop)
  | reading => reading

def ofStop : Option Nat → Reading
  | some stop => matched stop
  | none => noMatch

def ofRule (rule : Nat) : Reading → Outcome
  | matched stop => .matched rule stop
  | noMatch => .noMatch
  | failed code => .failed rule code
  | endless => .endless

variable {reading : Reading} {rule rule' distance stop : Nat} {code : ErrorCode}

theorem ofRule_eq_matched : (reading.ofRule rule').shift distance = .matched rule stop ↔
    ∃ n, reading = .matched n ∧ rule = rule' ∧ stop = distance + n := by
  cases reading <;> simp [ofRule, Outcome.shift, eq_comm]

theorem ofRule_eq_failed : (reading.ofRule rule').shift distance = .failed rule code ↔
    reading = .failed code ∧ rule = rule' := by
  cases reading <;> simp [ofRule, Outcome.shift, and_comm, eq_comm]

theorem ofRule_eq_endless : (reading.ofRule rule).shift distance = .endless ↔
    reading = .endless := by
  cases reading <;> simp [ofRule, Outcome.shift]

end Reading

/-- How the tokens of a rule are read at the start of a text. -/
structure TokenShape where
  read : List UInt8 → Reading
  /-- The code units with which a token may start. -/
  opens : UInt8 → Bool
  /-- The code units behind a token with which it may become a longer one. -/
  joins : UInt8 → Bool
  within (rest : List UInt8) : (read rest).Within 1 rest.length
  opened {rest : List UInt8} : read rest ≠ .noMatch → ∃ b, rest.head? = some b ∧ opens b = true
  settled {rest : List UInt8} {stop : Nat} {b : UInt8} : read rest = .matched stop →
    rest[stop]? = some b → joins b = false → ∀ more, read (rest ++ more) = .matched stop
  failing {rest : List UInt8} {code : ErrorCode} : read rest = .failed code →
    ∀ more, read (rest ++ more) = .failed code

namespace TokenShape

/-- The outcome of trying numbered rules in order. -/
def firstOf (rest : List UInt8) : List (Nat × TokenShape) → Outcome
  | [] => .noMatch
  | (rule, shape) :: others => ((shape.read rest).ofRule rule).orElse fun _ => firstOf rest others

/-- No code unit starts tokens of two rules. -/
def Apart (rules : List (Nat × TokenShape)) : Prop :=
  rules.Pairwise fun first second => ∀ b, first.2.opens b = true → second.2.opens b = false

variable {rules : List (Nat × TokenShape)} {rest : List UInt8}

/-- It is enough to count the rules whose tokens may start with a code unit. -/
theorem apart_of_countP
    (counts : ∀ n < 256, rules.countP (·.2.opens (UInt8.ofNat n)) ≤ 1) : Apart rules := by
  induction rules with
  | nil => exact .nil
  | cons entry others ih =>
    refine List.pairwise_cons.mpr ⟨fun other among b opens => ?_, ih fun n small => ?_⟩
    · have one := counts b.toNat b.toNat_lt
      rw [UInt8.ofNat_toNat, List.countP_cons, if_pos opens] at one
      have none : others.countP (·.2.opens b) = 0 := by omega
      simpa using List.countP_eq_zero.mp none other among
    · exact Nat.le_trans (List.countP_cons ▸ Nat.le_add_right _ _) (counts n small)

theorem exists_of_firstOf (found : firstOf rest rules ≠ .noMatch) :
    ∃ entry ∈ rules, entry.2.read rest ≠ .noMatch := by
  induction rules with
  | nil => exact (found rfl).elim
  | cons entry others ih =>
    by_cases here : entry.2.read rest = .noMatch
    · have later : firstOf rest others ≠ .noMatch := by
        simpa [firstOf, here, Reading.ofRule, Outcome.orElse] using found
      obtain ⟨other, member, reads⟩ := ih later
      exact ⟨other, List.mem_cons_of_mem _ member, reads⟩
    · exact ⟨entry, List.mem_cons_self .., here⟩

/-- Of rules with different starts at most one reads anything. -/
theorem firstOf_eq (apart : Apart rules) {entry : Nat × TokenShape} (member : entry ∈ rules)
    (reads : entry.2.read rest ≠ .noMatch) :
    firstOf rest rules = (entry.2.read rest).ofRule entry.1 := by
  induction rules with
  | nil => cases member
  | cons head others ih =>
    obtain ⟨before, apart⟩ := List.pairwise_cons.mp apart
    rw [firstOf]
    rcases List.mem_cons.mp member with rfl | later
    · cases reading : entry.2.read rest with
      | noMatch => exact (reads reading).elim
      | matched | failed | endless => rfl
    · have silent : head.2.read rest = .noMatch := by
        by_contra here
        obtain ⟨b, first, opens⟩ := head.2.opened here
        obtain ⟨b', first', opens'⟩ := entry.2.opened reads
        obtain rfl : b = b' := Option.some.inj (first.symm.trans first')
        rw [before entry later b opens] at opens'
        cases opens'
      rw [silent]
      exact ih apart later

end TokenShape

/-- A branch of one rule, which reads its tokens in the given shape. -/
structure Branch.HasShape (ctx : Ctx) (branch : Branch Ctx) (entry : Nat × TokenShape) : Prop where
  alone : branch.children = []
  rule : branch.rule = some entry.1
  owner : branch.owner = entry.1
  reads (text : Bytes) (pos : Nat) : pos ≤ text.size →
    Reader.readAll text ctx branch.readers pos = (entry.2.read (text.toList.drop pos)).shift pos

namespace Branch

variable {ctx : Ctx} {text : Bytes} {pos : Nat}

theorem HasShape.attempt_eq {branch : Branch Ctx} {entry : Nat × TokenShape}
    (shaped : branch.HasShape ctx entry) (small : pos ≤ text.size) :
    attempt text ctx pos pos branch =
      ((entry.2.read (text.toList.drop pos)).ofRule entry.1).shift pos := by
  obtain ⟨id, readers, children, rule, owner⟩ := branch
  obtain ⟨rfl, rfl, rfl, reads⟩ := shaped
  have within := entry.2.within (text.toList.drop pos)
  rw [attempt, reads text pos small]
  cases reading : entry.2.read (text.toList.drop pos) with
  | matched stop =>
    have further : 0 < stop := by
      rw [reading] at within
      exact within.1
    simp [Reading.shift, Reading.ofRule, Outcome.shift, attemptAll, Outcome.orElse, further]
  | noMatch | failed | endless => rfl

theorem attemptAll_eq_firstOf {branches : List (Branch Ctx)} {rules : List (Nat × TokenShape)}
    (shaped : List.Forall₂ (HasShape ctx) branches rules) (small : pos ≤ text.size) :
    attemptAll text ctx pos pos branches =
      (TokenShape.firstOf (text.toList.drop pos) rules).shift pos := by
  induction shaped with
  | nil => rfl
  | @cons branch entry others rules first _ ih =>
    rw [attemptAll, first.attempt_eq small, ih, TokenShape.firstOf]
    cases entry.2.read (text.toList.drop pos) <;> rfl

end Branch

namespace Lexicon

/-- The rules of a stage are told apart by the first code unit, and what may make a token longer
starts no token behind it. -/
structure Shaped (lexicon : Lexicon Ctx) (ctx : Ctx)
    (rules : Option String → List (Nat × TokenShape)) (next : Nat → Option String) : Prop where
  branches (stage : Option String) :
    List.Forall₂ (Branch.HasShape ctx) (lexicon.forest.roots stage) (rules stage)
  follows (rule : Nat) (m : Match) : lexicon.nextStage rule m ctx = .ok (next rule)
  apart (stage : Option String) : TokenShape.Apart (rules stage)
  joins {stage : Option String} {entry other : Nat × TokenShape} {b : UInt8} :
    entry ∈ rules stage → entry.2.joins b = true → other ∈ rules ((next entry.1).or stage) →
    other.2.opens b = false

namespace Shaped

variable {lexicon : Lexicon Ctx} {ctx : Ctx} {rules : Option String → List (Nat × TokenShape)}
  {next : Nat → Option String} {text : Bytes} {pos : Nat}

theorem outcome_eq (shaped : lexicon.Shaped ctx rules next) (stage : Option String)
    (small : pos ≤ text.size) :
    lexicon.outcome text ctx pos stage =
      (TokenShape.firstOf (text.toList.drop pos) (rules stage)).shift pos :=
  Branch.attemptAll_eq_firstOf (shaped.branches stage) small

/-- What is found is what one of the rules reads. -/
theorem entry_of_outcome (shaped : lexicon.Shaped ctx rules next) (small : pos ≤ text.size)
    {stage : Option String} {outcome : Outcome}
    (found : lexicon.outcome text ctx pos stage = outcome) (any : outcome ≠ .noMatch) :
    ∃ entry ∈ rules stage, entry.2.read (text.toList.drop pos) ≠ .noMatch ∧
      ((entry.2.read (text.toList.drop pos)).ofRule entry.1).shift pos = outcome := by
  rw [shaped.outcome_eq stage small] at found
  have first : TokenShape.firstOf (text.toList.drop pos) (rules stage) ≠ .noMatch := by
    intro none
    rw [none] at found
    exact any found.symm
  obtain ⟨entry, member, reads⟩ := TokenShape.exists_of_firstOf first
  refine ⟨entry, member, reads, ?_⟩
  rw [← TokenShape.firstOf_eq (shaped.apart stage) member reads, found]

/-- A reading of a rule that stays when text is added is found there as well. -/
theorem outcome_append (shaped : lexicon.Shaped ctx rules next) {stage : Option String}
    {entry : Nat × TokenShape} (small : pos ≤ text.size) (member : entry ∈ rules stage)
    (reads : entry.2.read (text.toList.drop pos) ≠ .noMatch) (more : Bytes)
    (stays : entry.2.read (text.toList.drop pos ++ more.toList) =
      entry.2.read (text.toList.drop pos)) :
    lexicon.outcome (text ++ more) ctx pos stage = lexicon.outcome text ctx pos stage := by
  have longer : pos ≤ (text ++ more).size := by
    rw [Array.size_append]
    omega
  have left : (text ++ more).toList.drop pos = text.toList.drop pos ++ more.toList := by
    rw [Array.toList_append, List.drop_append_of_le_length (by simpa using small)]
  rw [shaped.outcome_eq stage longer, shaped.outcome_eq stage small, left,
    TokenShape.firstOf_eq (shaped.apart stage) member reads,
    TokenShape.firstOf_eq (shaped.apart stage) member (stays ▸ reads), stays]

theorem contained (shaped : lexicon.Shaped ctx rules next) (text : Bytes) :
    lexicon.Contained text ctx where
  inside {pos stage rule stop} small found := by
    obtain ⟨entry, -, -, same⟩ := shaped.entry_of_outcome small found nofun
    obtain ⟨n, reading, -, rfl⟩ := Reading.ofRule_eq_matched.mp same
    have within := entry.2.within (text.toList.drop pos)
    rw [reading, Reading.matched_within, List.length_drop, Array.length_toList] at within
    omega
  ending {pos stage} small found := by
    obtain ⟨entry, -, -, same⟩ := shaped.entry_of_outcome small found nofun
    have within := entry.2.within (text.toList.drop pos)
    rw [Reading.ofRule_eq_endless.mp same] at within
    exact within
  answered _ _ := ⟨_, shaped.follows _ _⟩

/-- The tokens of such rules do not depend on chunks. -/
theorem firm (shaped : lexicon.Shaped ctx rules next) : lexicon.Firm ctx where
  contained := shaped.contained
  committed {text pos stage next' rule stop} more small found follows behind := by
    obtain ⟨entry, member, reads, same⟩ := shaped.entry_of_outcome small found nofun
    obtain ⟨n, reading, rfl, rfl⟩ := Reading.ofRule_eq_matched.mp same
    obtain rfl : next entry.1 = next' := Except.ok.inj ((shaped.follows _ _).symm.trans follows)
    -- The code unit behind the match starts a token, so the match does not become longer with it.
    have inside := (shaped.contained text).inside small found
    obtain ⟨other, among, reads', -⟩ := shaped.entry_of_outcome inside rfl behind
    obtain ⟨b, first, opens⟩ := other.2.opened reads'
    have follower : (text.toList.drop pos)[n]? = some b := by
      rw [List.getElem?_drop, ← List.head?_drop, first]
    have apart : entry.2.joins b = false := by
      by_contra joins
      rw [shaped.joins member (by simpa using joins) among] at opens
      cases opens
    rw [shaped.outcome_append small member reads more
      ((entry.2.settled reading follower apart more.toList).trans reading.symm), found]
  failing {text pos stage owner code} more small found := by
    obtain ⟨entry, member, reads, same⟩ := shaped.entry_of_outcome small found nofun
    obtain ⟨reading, -⟩ := Reading.ofRule_eq_failed.mp same
    rw [shaped.outcome_append small member reads more
      ((entry.2.failing reading more.toList).trans reading.symm), found]
  shifted front {text pos} stage small := by
    have longer : front.size + pos ≤ (front ++ text).size := by
      rw [Array.size_append]
      omega
    have left : (front ++ text).toList.drop (front.size + pos) = text.toList.drop pos := by
      rw [Array.toList_append, ← Array.length_toList, List.drop_length_add_append]
    rw [shaped.outcome_eq stage longer, shaped.outcome_eq stage small, left]
    cases TokenShape.firstOf (text.toList.drop pos) (rules stage) <;>
      simp [Outcome.shift, Nat.add_assoc]
  lexical _ _ _ := (shaped.follows _ _).trans (shaped.follows _ _).symm

end Shaped

end Lexicon

namespace Tokenizer

variable {tokenizer : Tokenizer Ctx} {ctx : Ctx} {text : Bytes}

/-- A text that is scanned without an error event leads to no application error. -/
theorem calm_of_no_error (contained : tokenizer.lexicon.Contained text ctx)
    (fits : text.size < positionBound)
    (quiet : ∀ event ∈ (tokenizer.tokenize text ctx).events, event.isError = false) :
    tokenizer.lexicon.Calm text ctx 0 tokenizer.initialStage := by
  intro steps final last owner code trail ends
  have within := trail.le_size contained (Nat.zero_le _)
  have small : 0 + final < positionBound := by omega
  have makes := Scan.scan_makes
    { StreamState.fresh tokenizer.initialStage with chunk := text } false trail ends
  obtain ⟨events, -⟩ := makes.of_fits fun event member => by
    rcases List.mem_append.mp member with token | error
    · exact Scan.fits_of_trail trail small event token
    · obtain rfl := List.mem_singleton.mp error
      exact decide_eq_true small
  have reported : Event.error (tokenizer.lexicon.tokenType owner) (0 + final) code.value ∈
      (tokenizer.tokenize text ctx).events := by
    rw [tokenize, events, List.mem_toArray]
    exact List.mem_append_right _ (List.mem_singleton.mpr rfl)
  cases quiet _ reported

end Tokenizer

end StagedLexer
