import StagedLexer.Proofs.ReaderCode
import StagedLexer.Proofs.TrieReaders

/-! The statements of a trie do what trying its branches comes to: they accept the match of the
outcome, report its error, or go on. -/
namespace StagedLexer

open Machine Assembly

variable {Ctx : Type}

theorem Outcome.orElse_of_ne_noMatch {outcome : Outcome} {other : Unit → Outcome}
    (decided : outcome ≠ .noMatch) : outcome.orElse other = outcome := by
  cases outcome with
  | noMatch => exact absurd rfl decided
  | matched | failed | endless => rfl

namespace Branch

variable {pool : List (Reader Ctx)} {rules : Array (Rule Ctx)}

/-- The statement of a branch, with those of its readers and of its children. -/
abbrev trying (rules : Array (Rule Ctx)) (owner : Nat) (rule : Option Nat) (r : Nat) (body : Stmt)
    (below : List Stmt) : Stmt :=
  .block [.declare r, body, .onResult r (.block ([Stmt.declare (r + 1),
    Stmt.assign (r + 1) (.asPlace r) false, Stmt.block below] ++ completion rules (r + 1) rule))
    (.fail owner r)]

theorem stmt_eq (id owner place : Nat) (readers : List (Reader Ctx)) (children : List (Branch Ctx))
    (rule : Option Nat) (asm : Assembler Ctx) :
    stmt rules place ⟨id, readers, children, rule, owner⟩ asm =
      let below := stmts rules (asm.nextVar + 1) children ⟨asm.nextVar + 2, asm.bindings⟩
      let body := Stmt.ofSequence readers place asm.nextVar below.2
      (trying rules owner rule asm.nextVar body.1 below.1, body.2) := by
  simp only [stmt]
  rfl

private theorem stmts_sound_of {branches : List (Branch Ctx)} {place : Nat}
    (each : ∀ branch ∈ branches, Sound pool (stmt rules place branch)) :
    Sound pool (stmts rules place branches) := by
  induction branches with
  | nil => exact Sound.pure _
  | cons branch rest ih =>
    exact (each branch (by simp)).bind fun _ =>
      (ih fun b member => each b (by simp [member])).bind fun _ => Sound.pure _

theorem stmt_sound (rules : Array (Rule Ctx)) {branch : Branch Ctx}
    (known : branch.EachReader (·.parts ⊆ pool)) (place : Nat) :
    Sound pool (stmt rules place branch) := by
  induction branch generalizing place with
  | mk id readers children rule owner ih =>
    obtain ⟨here, below⟩ := eachReader_iff.mp known
    exact Sound.var.bind fun r => Sound.var.bind fun stop =>
      (stmts_sound_of fun child member => ih child member (below child member) stop).bind fun _ =>
        (Stmt.ofSequence_sound here place r).bind fun _ => Sound.pure _

theorem stmts_sound (rules : Array (Rule Ctx)) {branches : List (Branch Ctx)}
    (known : ∀ branch ∈ branches, branch.EachReader (·.parts ⊆ pool)) (place : Nat) :
    Sound pool (stmts rules place branches) :=
  stmts_sound_of fun branch member => stmt_sound rules (known branch member) place

end Branch

namespace Surroundings

variable {s : Surroundings Ctx} {keep : Nat → Prop}

/-- Two ends of a statement are the same up to the registers that are not kept. -/
structure Alike (keep : Nat → Prop) (a b : Flow × Machine) : Prop where
  flow : a.1 = b.1
  machine : a.2.Agrees keep b.2

theorem Alike.trans {a b c : Flow × Machine} (first : Alike keep a b) (second : Alike keep b c) :
    Alike keep a c :=
  ⟨first.flow.trans second.flow, first.machine.trans second.machine⟩

theorem Alike.mono {less : Nat → Prop} {a b : Flow × Machine} (alike : Alike keep a b)
    (fewer : ∀ v, less v → keep v) : Alike less a b :=
  ⟨alike.flow, alike.machine.mono fewer⟩

/-- What a routine does about the outcome of trying the rules. -/
def react (s : Surroundings Ctx) (m : Machine) : Outcome → Flow × Machine
  | .matched rule stop => s.accept m rule stop (.ofRule s.lexicon.rules rule)
  | .failed owner code => s.failed m owner code.value
  | .noMatch => (.next, m)
  | .endless => (.fault .endless, m)

private theorem confirm_congr {m m' : Machine} (agrees : m.Agrees keep m') :
    (∃ fault, s.confirm m = .error fault ∧ s.confirm m' = .error fault) ∨
      ∃ c c', s.confirm m = .ok c ∧ s.confirm m' = .ok c' ∧ c.Agrees keep c' ∧
        c.registers = m.registers ∧ c'.registers = m'.registers := by
  unfold confirm
  rw [agrees.pending]
  cases m.pending with
  | none => exact .inr ⟨m, m', rfl, rfl, agrees, rfl, rfl⟩
  | some p =>
    simp only
    cases Scan.tokenEvent s.lexicon s.base p.rule p.start p.stop with
    | error fault => exact .inl ⟨fault, rfl, rfl⟩
    | ok event =>
      refine .inr ⟨{ m with pending := none, events := m.events.push event },
        { m' with pending := none, events := m'.events.push event }, rfl, rfl, ?_, rfl, rfl⟩
      exact ⟨agrees.get, agrees.stage, rfl, by simp [agrees.events]⟩

theorem accept_congr {m m' : Machine} (agrees : m.Agrees keep m') (kept : keep s.frame.cursor)
    (rule stop : Nat) (move : StageMove) :
    Alike keep (s.accept m rule stop move) (s.accept m' rule stop move) := by
  unfold accept
  rw [agrees.get _ kept]
  by_cases moved : (m.get s.frame.cursor).toNat < stop
  · simp only [moved, if_true]
    rcases confirm_congr (s := s) agrees with ⟨fault, left, right⟩ |
      ⟨c, c', left, right, confirmed, same, same'⟩
    · rw [left, right]
      exact ⟨rfl, agrees⟩
    · rw [left, right]
      have stages : s.moveStage c' rule (m.get s.frame.cursor).toNat stop move =
          s.moveStage c rule (m.get s.frame.cursor).toNat stop move := by
        cases move <;> simp [moveStage, confirmed.stage]
      simp only [stages]
      cases s.moveStage c rule (m.get s.frame.cursor).toNat stop move with
      | error fault => exact ⟨rfl, confirmed⟩
      | ok next =>
        refine ⟨rfl, ⟨fun v kept' => ?_, ?_, ?_, confirmed.events⟩⟩
        · by_cases equal : s.frame.cursor = v
          · simp [Machine.get, equal]
          · have := agrees.get v kept'
            simpa [Machine.get, Std.HashMap.getD_insert, equal, same, same'] using this
        · simp [agrees.stage]
        · simp [agrees.stage]
  · simp only [moved, if_false]
    exact ⟨rfl, agrees⟩

theorem failed_congr {m m' : Machine} (agrees : m.Agrees keep m') (kept : keep s.frame.cursor)
    (owner : Nat) (code : Int) :
    Alike keep (s.failed m owner code) (s.failed m' owner code) := by
  unfold failed
  rw [agrees.get _ kept]
  rcases confirm_congr (s := s) agrees with ⟨fault, left, right⟩ |
    ⟨c, c', left, right, confirmed, -, -⟩
  · rw [left, right]
    exact ⟨rfl, agrees⟩
  · rw [left, right]
    cases positionBehind s.base (m.get s.frame.cursor).toNat with
    | error fault => exact ⟨rfl, confirmed⟩
    | ok position => exact ⟨rfl, ⟨confirmed.get, confirmed.stage, confirmed.pending,
        by simp [confirmed.events]⟩⟩

theorem react_congr {m m' : Machine} (agrees : m.Agrees keep m') (kept : keep s.frame.cursor)
    (outcome : Outcome) : Alike keep (s.react m outcome) (s.react m' outcome) := by
  cases outcome with
  | matched rule stop => exact accept_congr agrees kept _ _ _
  | failed owner code => exact failed_congr agrees kept _ _
  | noMatch => exact ⟨rfl, agrees⟩
  | endless => exact ⟨rfl, agrees⟩

private theorem react_flow_ne_next {m : Machine} {start : Nat} {outcome : Outcome}
    (cursor : m.get s.frame.cursor = start) (decided : outcome ≠ .noMatch)
    (moves : ∀ rule stop, outcome = .matched rule stop → start < stop) :
    (s.react m outcome).1 ≠ .next := by
  cases outcome with
  | matched rule stop =>
    have further := moves rule stop rfl
    simp only [react, accept, cursor, Int.toNat_natCast, further, if_true]
    cases s.confirm m with
    | error => simp
    | ok c =>
      simp only
      cases s.moveStage c rule start stop (.ofRule s.lexicon.rules rule) <;> simp
  | failed owner code =>
    simp only [react, failed]
    cases s.confirm m with
    | error => simp
    | ok c =>
      simp only
      cases positionBehind s.base (m.get s.frame.cursor).toNat <;> simp
  | noMatch => exact absurd rfl decided
  | endless => simp [react]

/-- Run with a position of the text in `place` and the start of the token in the cursor, the
statements do what the outcome asks for. -/
def Tries (s : Surroundings Ctx) (rounds : Nat) (pool : List (Reader Ctx))
    (stmt : (place : Nat) → Assembly Ctx Stmt) (outcome : (start pos : Nat) → Outcome) : Prop :=
  ∀ (asm : Assembler Ctx) (place : Nat) (m : Machine) (start pos : Nat), asm.Fits pool →
    s.Linked (stmt place asm).2 → place < asm.nextVar → s.frame.cursor < asm.nextVar →
    m.get place = pos → pos ≤ s.text.size → m.get s.frame.cursor = start →
    Alike (· < asm.nextVar) (s.react m (outcome start pos)) (s.exec rounds (stmt place asm).1 m)

/-- What the statements of a reader rely on. -/
structure Usable (s : Surroundings Ctx) (pool : List (Reader Ctx)) (reader : Reader Ctx) : Prop where
  known : reader.parts ⊆ pool
  ordered : reader.Ordered
  calls : reader.CallsWithin s.text s.ctx

variable {rounds : Nat} {pool : List (Reader Ctx)}

private theorem stmts_tries_of {branches : List (Branch Ctx)}
    (known : ∀ branch ∈ branches, branch.EachReader (·.parts ⊆ pool))
    (each : ∀ branch ∈ branches, s.Tries rounds pool
      (fun place => Branch.stmt s.lexicon.rules place branch)
      (fun start pos => Branch.attempt s.text s.ctx start pos branch)) :
    s.Tries rounds pool (fun place => .block <$> Branch.stmts s.lexicon.rules place branches)
      (fun start pos => Branch.attemptAll s.text s.ctx start pos branches) := by
  induction branches with
  | nil =>
    intro asm place m start pos _ _ _ _ _ _ _
    exact ⟨rfl, Agrees.refl m⟩
  | cons branch rest ih =>
    intro asm place m start pos fits linked below cursorBelow here inside cursor
    have knownRest : ∀ b ∈ rest, b.EachReader (·.parts ⊆ pool) :=
      fun b member => known b (by simp [member])
    have tail := ih knownRest (fun b member => each b (by simp [member]))
    obtain ⟨fits₁, grows₁⟩ :=
      Branch.stmt_sound s.lexicon.rules (known branch (by simp)) place asm fits
    obtain ⟨-, grows₂⟩ := Branch.stmts_sound s.lexicon.rules knownRest place _ fits₁
    have head := each branch (by simp) asm place m start pos fits (linked.of_grows grows₂) below
      cursorBelow here inside cursor
    change Alike _ (s.react m (Branch.attemptAll s.text s.ctx start pos (branch :: rest)))
      (s.exec rounds (.block ((Branch.stmt s.lexicon.rules place branch asm).1 ::
        (Branch.stmts s.lexicon.rules place rest
          (Branch.stmt s.lexicon.rules place branch asm).2).1)) m)
    rcases run : s.exec rounds (Branch.stmt s.lexicon.rules place branch asm).1 m with ⟨flow, m₁⟩
    simp only [run] at head
    rw [Branch.attemptAll]
    -- A branch that finds nothing has left the known variables alone, so the next one is tried from
    -- the same place.
    by_cases missing : Branch.attempt s.text s.ctx start pos branch = .noMatch
    · rw [missing] at head ⊢
      obtain rfl : flow = .next := head.flow.symm
      have same (v : Nat) (known : v < asm.nextVar) : m₁.get v = m.get v := head.machine.get v known
      rw [exec_block_next run]
      have rest := tail _ place m₁ start pos fits₁ linked (Nat.lt_of_lt_of_le below grows₁.vars)
        (Nat.lt_of_lt_of_le cursorBelow grows₁.vars) ((same place below).trans here) inside
        ((same _ cursorBelow).trans cursor)
      exact (react_congr head.machine cursorBelow _).trans
        (rest.mono fun v known => Nat.lt_of_lt_of_le known grows₁.vars)
    · have ends : flow ≠ .next := by
        rw [← show _ = flow from head.flow]
        exact react_flow_ne_next cursor missing
          fun _ _ found => Branch.lt_of_attempt_eq_matched pos branch found
      rw [Outcome.orElse_of_ne_noMatch missing, exec_block_end run ends]
      exact head

private theorem completion_tries {m : Machine} {stop : Nat} (start q : Nat) (rule : Option Nat)
    (here : m.get stop = q) (cursor : m.get s.frame.cursor = start) :
    s.exec rounds (.block (Branch.completion s.lexicon.rules stop rule)) m =
      s.react m (match rule with
        | some rule => if start < q then .matched rule q else .noMatch
        | none => .noMatch) := by
  cases rule with
  | none => exact exec_block_nil m
  | some rule =>
    have position : m.position (.var stop) = q := by simp [Machine.position, number, here]
    simp only [Branch.completion]
    rw [exec_block_last]
    by_cases moved : start < q
    · simp [exec, position, react, moved]
    · simp [exec, position, accept, cursor, react, moved]

private theorem exec_onResult {m : Machine} {r owner : Nat} {matched : Stmt} {reading : Reading} :
    reading.toInt? = some (m.get r) →
      s.exec rounds (.onResult r matched (.fail owner r)) m =
        match reading with
        | .matched _ => s.exec rounds matched m
        | .failed code => s.failed m owner code.value
        | _ => (.next, m) := by
  intro result
  cases reading with
  | matched q =>
    obtain equal : (q : Int) = m.get r := Option.some.inj result
    simp [exec, ← equal]
  | noMatch =>
    obtain equal : -1 = m.get r := Option.some.inj result
    simp [exec, ← equal]
  | failed code =>
    obtain equal : code.value = m.get r := Option.some.inj result
    have negative : ¬ 0 ≤ code.value := by have := code.isError; omega
    have other : code.value ≠ -1 := by have := code.isError; omega
    simp [exec, ← equal, negative, other]
  | endless => cases result

/-- Behind the readers of a branch, the children are tried before its rule. -/
private theorem exec_children {m : Machine} {stmts : List Stmt} {stop r q start limit : Nat}
    {outcome : Outcome} (rule : Option Nat) (here : m.get r = q)
    (cursor : m.get s.frame.cursor = start) (stopBelow : stop < limit)
    (cursorBelow : s.frame.cursor < limit) (apart : s.frame.cursor ≠ stop)
    (moves : ∀ rule stop, outcome = .matched rule stop → start < stop)
    (tried : Alike (· < limit) (s.react (m.set stop q) outcome)
      (s.exec rounds (.block stmts) (m.set stop q))) :
    Alike (fun v => v < limit ∧ v ≠ stop)
      (s.react m (outcome.orElse fun _ => match rule with
        | some rule => if start < q then .matched rule q else .noMatch
        | none => .noMatch))
      (s.exec rounds (.block ([Stmt.declare stop, Stmt.assign stop (.asPlace r) false,
        Stmt.block stmts] ++
        Branch.completion s.lexicon.rules stop rule)) m) := by
  simp only [List.cons_append, List.nil_append]
  rw [exec_block_next (exec_declare stop m),
    exec_block_next (exec_assign (x := q) (by simp [value, here]))]
  rcases run : s.exec rounds (.block stmts) (m.set stop q) with ⟨flow, m₁⟩
  rw [run] at tried
  have start₁ : (m.set stop q).get s.frame.cursor = start := by simp [Ne.symm apart, cursor]
  have unset : m.Agrees (fun v => v < limit ∧ v ≠ stop) (m.set stop q) :=
    (Agrees.refl m).set (by simp) _
  -- Only where no branch below finds anything does the completion of this one run.
  by_cases missing : outcome = .noMatch
  · rw [missing] at tried
    obtain rfl : flow = .next := tried.flow.symm
    have agrees : (m.set stop q).Agrees (· < limit) m₁ := tried.machine
    rw [exec_block_next run, completion_tries start q rule
      ((agrees.get stop stopBelow).trans (by simp)) ((agrees.get _ cursorBelow).trans start₁)]
    rw [missing]
    exact react_congr (unset.trans (agrees.mono fun v kept => kept.1)) ⟨cursorBelow, apart⟩ _
  · have ends : flow ≠ .next := by
      rw [← show _ = flow from tried.flow]
      exact react_flow_ne_next start₁ missing moves
    rw [exec_block_end run ends, Outcome.orElse_of_ne_noMatch missing]
    exact (react_congr unset ⟨cursorBelow, apart⟩ _).trans (tried.mono fun v kept => kept.1)

/-- The statements of a branch do what the outcome of trying it asks for. -/
theorem stmt_tries (enough : s.text.size < rounds)
    (identified : ∀ a ∈ pool, ∀ b ∈ pool, a.id = b.id → a = b) {branch : Branch Ctx}
    (usable : branch.EachReader (s.Usable pool)) :
    s.Tries rounds pool (fun place => Branch.stmt s.lexicon.rules place branch)
      (fun start pos => Branch.attempt s.text s.ctx start pos branch) := by
  induction branch with
  | mk id readers children rule owner ih =>
    obtain ⟨here, below⟩ := Branch.eachReader_iff.mp usable
    have knownBelow : ∀ child ∈ children, child.EachReader (·.parts ⊆ pool) :=
      fun child member b inside reader among => (below child member b inside reader among).known
    have descend :=
      stmts_tries_of knownBelow fun child member => ih child member (below child member)
    have read := Stmt.ofSequence_faithful enough identified
      (fun item member => (here item member).known) (fun item member => (here item member).ordered)
      (fun item member => (here item member).calls)
    intro asm place m start pos fits linked placeBelow cursorBelow atPlace inside cursor
    have fits₂ : Assembler.Fits pool ⟨asm.nextVar + 2, asm.bindings⟩ :=
      (Sound.var _ (Sound.var asm fits).1).1
    obtain ⟨fits₃, grows⟩ := Branch.stmts_sound s.lexicon.rules knownBelow (asm.nextVar + 1) _ fits₂
    obtain ⟨-, grows'⟩ := Stmt.ofSequence_sound (fun item member => (here item member).known)
      place asm.nextVar _ fits₃
    have above := grows.vars
    simp only [Branch.stmt_eq] at linked above ⊢
    obtain ⟨m₁, run, result, agrees⟩ := read _ place asm.nextVar fits₃ linked
      (Nat.lt_of_lt_of_le (by omega) above) (Nat.lt_of_lt_of_le (by omega) above)
      (Nat.ne_of_lt placeBelow) m pos atPlace inside
    have kept : m.Agrees (· < asm.nextVar) m₁ := agrees.mono fun v known =>
      ⟨Nat.lt_of_lt_of_le (by omega) above, Nat.ne_of_lt known⟩
    have cursor₁ : m₁.get s.frame.cursor = start := (kept.get _ cursorBelow).trans cursor
    rw [exec_block_next (exec_declare asm.nextVar m), exec_block_next run, exec_block_last,
      exec_onResult result, Branch.attempt]
    have within := Reader.readAll_within
      (fun item member => Reader.read_within (here item member).calls) pos inside
    -- Only readers that match go on to the branches below; none of them reads endlessly, since
    -- their calls stay within the text.
    rcases reading : Reader.readAll s.text s.ctx readers pos with q | _ | code | _
    · rw [reading] at result within
      have found : m₁.get asm.nextVar = q := (Option.some.inj result).symm
      have stays : (m₁.set (asm.nextVar + 1) q).get s.frame.cursor = start := by
        rw [get_set, if_neg (by omega), cursor₁]
      have tried := descend ⟨asm.nextVar + 2, asm.bindings⟩ (asm.nextVar + 1)
        (m₁.set (asm.nextVar + 1) q) start q fits₂ (linked.of_grows grows') (Nat.lt_succ_self _)
        (Nat.lt_succ_of_lt (Nat.lt_succ_of_lt cursorBelow)) (by simp) within.2 stays
      have done := exec_children rule found cursor₁ (Nat.lt_succ_self _)
        (Nat.lt_succ_of_lt (Nat.lt_succ_of_lt cursorBelow)) (by omega)
        (fun _ _ equal => Branch.lt_of_attemptAll_eq_matched _ _ equal) tried
      exact (react_congr kept cursorBelow _).trans (done.mono fun v known => by omega)
    · exact ⟨rfl, kept⟩
    · exact failed_congr kept cursorBelow _ _
    · rw [reading] at within
      cases within

/-- The statements of a list of branches do what the outcome of trying them asks for. -/
theorem stmts_tries (enough : s.text.size < rounds)
    (identified : ∀ a ∈ pool, ∀ b ∈ pool, a.id = b.id → a = b) {branches : List (Branch Ctx)}
    (usable : ∀ branch ∈ branches, branch.EachReader (s.Usable pool)) :
    s.Tries rounds pool (fun place => .block <$> Branch.stmts s.lexicon.rules place branches)
      (fun start pos => Branch.attemptAll s.text s.ctx start pos branches) :=
  stmts_tries_of
    (fun branch member b inside reader among =>
      (usable branch member b inside reader among).known)
    fun branch member => stmt_tries enough identified (usable branch member)

end Surroundings

end StagedLexer
