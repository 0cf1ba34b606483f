import StagedLexer.Proofs.GeneratedTypes
import StagedLexer.Proofs.RoutineProgram
import StagedLexer.Proofs.ScanLoop

/-! The scanning routine of a list of rules does what the scan does, optimized or not. The text of its
body is read as a program, and this is run on the state of a stream. -/
namespace StagedLexer

open Machine Assembly Source

variable {Ctx : Type}

def Lexicon.ofRules (rules : List (Rule Ctx)) (initialStage : Option String) : Lexicon Ctx :=
  { rules := rules.toArray, forest := .ofRules rules initialStage }

def Lexicon.relabel (lexicon : Lexicon Ctx) (label : Nat → String) : Lexicon Ctx :=
  { lexicon with rules := lexicon.rules.mapIdx fun i rule => { rule with tokenType := label i } }

def Lexicon.body (lexicon : Lexicon Ctx) (optimize : Bool) : Code :=
  if optimize then (Routine.ofLexicon lexicon).body.optimize else (Routine.ofLexicon lexicon).body

section Relabel

variable {rules rules' : Array (Rule Ctx)}

private theorem Branch.stmts_congr_of {branches : List (Branch Ctx)}
    (each : ∀ branch ∈ branches, ∀ place, stmt rules place branch = stmt rules' place branch)
    (place : Nat) : stmts rules place branches = stmts rules' place branches := by
  induction branches with
  | nil => rfl
  | cons branch rest ih =>
    rw [stmts, stmts, each branch (by simp), ih fun b member => each b (by simp [member])]

variable (same : ∀ rule, StageMove.ofRule rules rule = .ofRule rules' rule)

include same

private theorem Branch.completion_congr (stop : Nat) (rule : Option Nat) :
    completion rules stop rule = completion rules' stop rule := by
  cases rule with
  | none => rfl
  | some rule => rw [completion, completion, same]

private theorem Branch.stmt_congr (branch : Branch Ctx) (place : Nat) :
    stmt rules place branch = stmt rules' place branch := by
  induction branch generalizing place with
  | mk id readers children rule owner ih =>
    have below := stmts_congr_of ih
    funext asm
    rw [stmt_eq, stmt_eq, below]
    simp only [trying, completion_congr same]

private theorem Routine.arms_congr (cursor : Nat) (tries : List (String × List (Branch Ctx))) :
    arms rules cursor tries = arms rules' cursor tries := by
  induction tries with
  | nil => rfl
  | cons trie rest ih =>
    rw [arms, arms, Branch.stmts_congr_of (fun branch _ => Branch.stmt_congr same branch), ih]

end Relabel

/-- Token types do not matter for the routine. -/
theorem Routine.ofLexicon_relabel (lexicon : Lexicon Ctx) (label : Nat → String) :
    ofLexicon (lexicon.relabel label) = ofLexicon lexicon := by
  have same (rule : Nat) :
      StageMove.ofRule (lexicon.relabel label).rules rule = .ofRule lexicon.rules rule := by
    simp only [StageMove.ofRule, Lexicon.relabel, Array.getElem?_mapIdx]
    cases lexicon.rules[rule]? <;> rfl
  have statement (cursor : Nat) :
      dispatchStmt (lexicon.relabel label) cursor = dispatchStmt lexicon cursor := by
    unfold dispatchStmt
    rw [arms_congr same,
      Branch.stmts_congr_of (fun branch _ => Branch.stmt_congr same branch)]
    rfl
  unfold ofLexicon
  simp only [statement]

namespace Routine

variable {lexicon : Lexicon Ctx}

private abbrev shared : Assembler Ctx := { nextVar := 3 }

private theorem cursor_lt_shared : 1 < (shared : Assembler Ctx).nextVar :=
  Nat.lt_succ_of_lt Nat.one_lt_two

private theorem shared_fits (pool : List (Reader Ctx)) : shared.Fits pool :=
  ⟨by simp, by simp, by simp⟩

theorem dispatchStmt_sound {pool : List (Reader Ctx)} (cursor : Nat)
    (known : lexicon.forest.EachReader (·.parts ⊆ pool)) :
    Sound pool (dispatchStmt lexicon cursor) := by
  have stageless := Branch.stmts_sound lexicon.rules known.stageless cursor
  unfold dispatchStmt
  split
  · exact stageless.bind fun _ => Sound.pure _
  · exact (arms_sound lexicon.rules cursor known.tries).bind fun _ =>
      stageless.bind fun _ => Sound.pure _

/-- The binders of a routine are its temporaries: they are used as the optimizer expects. -/
theorem scoped_ofLexicon (lexicon : Lexicon Ctx) :
    (ofLexicon lexicon).frame.Clear (· ∈ (ofLexicon lexicon).dispatch.binders) ∧
      (ofLexicon lexicon).dispatch.Scoped (· ∈ (ofLexicon lexicon).dispatch.binders) [] ∧
      (ofLexicon lexicon).dispatch.binders.Nodup := by
  obtain ⟨inScope, distinct, above⟩ :=
    dispatchStmt_scoped lexicon cursor_lt_shared rfl
  have shares (v : Nat) (low : v < 3) : v ∉ (ofLexicon lexicon).dispatch.binders :=
    fun member => absurd (above v member) (Nat.not_le.mpr low)
  exact ⟨⟨shares 0 (by decide), shares 1 (by decide), shares 2 (by decide)⟩, inScope, distinct⟩

/-- The optimized body and the plain one are bodies of routines with statements that can stand in
place of that of the lexicon. -/
theorem exists_dispatch (lexicon : Lexicon Ctx) (optimize : Bool) :
    ∃ dispatch : Stmt, (lexicon.body optimize).flatten =
        ({ ofLexicon lexicon with dispatch } : Routine Ctx).body.flatten ∧
      Stmt.Becomes Ctx (· ∈ (ofLexicon lexicon).dispatch.binders) (ofLexicon lexicon).frame
        (ofLexicon lexicon).dispatch dispatch := by
  cases optimize with
  | false => exact ⟨(ofLexicon lexicon).dispatch, rfl, .refl _⟩
  | true =>
    obtain ⟨clear, inScope, distinct⟩ := scoped_ofLexicon lexicon
    exact exists_replacement clear inScope distinct

theorem assembler_fits {pool : List (Reader Ctx)}
    (known : lexicon.forest.EachReader (·.parts ⊆ pool)) :
    (ofLexicon lexicon).assembler.Fits pool :=
  (dispatchStmt_sound 1 known shared (shared_fits pool)).1

/-- The variables of the routine are typed. -/
theorem typed_ofLexicon (numbered : lexicon.forest.Numbered lexicon.rules.size)
    (filled : lexicon.forest.EachReader Reader.Filled) :
    ∃ kinds : Kinds, (ofLexicon lexicon).Kinded kinds ∧
      (ofLexicon lexicon).dispatch.Typed kinds (some lexicon.rules.size) := by
  let kinds : Kinds
    | 0 => some .chunk
    | 1 => some .position
    | 2 => some .pending
    | _ => none
  have start : kinds.Fits (shared : Assembler Ctx) := by
    refine ⟨fun v kind known => Nat.lt_of_not_le fun high => ?_, by simp⟩
    match v with
    | v + 3 => cases known
  have types : Stmt.TypesAll (some lexicon.rules.size) shared (dispatchStmt lexicon 1 shared).2 1
      [(dispatchStmt lexicon 1 shared).1] :=
    dispatchStmt_types numbered filled shared
  obtain ⟨more, extends', fits, typed, -⟩ := types kinds start rfl
  exact ⟨more, ⟨extends' _ _ rfl, extends' _ _ rfl, extends' _ _ rfl, fits.bound⟩, typed⟩

/-- A statement that can stand in place of that of the lexicon makes the steps of the scan. -/
theorem walk_eq_scan {pool : List (Reader Ctx)} {state : StreamState} {ctx : Ctx}
    (identified : ∀ a ∈ pool, ∀ b ∈ pool, a.id = b.id → a = b)
    (usable : lexicon.forest.EachReader fun reader =>
      reader.parts ⊆ pool ∧ reader.Ordered ∧ reader.CallsWithin state.chunk ctx)
    (inside : state.offset ≤ state.chunk.size) {dispatch : Stmt}
    (becomes : Stmt.Becomes Ctx (· ∈ (ofLexicon lexicon).dispatch.binders)
      (ofLexicon lexicon).frame (ofLexicon lexicon).dispatch dispatch)
    {rounds : Nat} (enough : state.chunk.size < rounds) (streaming : Bool) :
    ({ ofLexicon lexicon with dispatch } : Routine Ctx).walk lexicon rounds state ctx streaming =
      ((lexicon.scan state ctx streaming).events, (lexicon.scan state ctx streaming).result) := by
  let routine : Routine Ctx := { ofLexicon lexicon with dispatch }
  let s := routine.surroundings lexicon state ctx
  have linked : s.Linked (dispatchStmt lexicon 1 shared).2 :=
    fun binding member => (assembler_fits (usable.mono fun _ usable => usable.1)).lookup member
  have usable : lexicon.forest.EachReader (s.Usable pool) :=
    usable.mono fun _ ⟨known, ordered, calls⟩ => ⟨known, ordered, calls⟩
  have clear := (scoped_ofLexicon lexicon).1
  have dispatches : s.Dispatches rounds dispatch := by
    intro m start here fitsText
    have alike : Surroundings.Alike (· = s.frame.cursor)
        (s.exec rounds (ofLexicon lexicon).dispatch m) (s.exec rounds dispatch m) := by
      refine (becomes.runs s rounds m rfl).mono ?_
      rintro v rfl
      exact .inl clear.cursor
    exact (Surroundings.exec_dispatchStmt enough identified usable (shared_fits pool) linked
      cursor_lt_shared here fitsText).trans alike
  have holds : s.Holds { cursor := state.offset, stage := state.stage } (routine.start state) := by
    refine ⟨?_, rfl, rfl, rfl⟩
    simp [Machine.get, Routine.start, s, Routine.surroundings]
  have enough : state.chunk.size - state.offset < rounds := by omega
  exact Surroundings.result_scanLoop dispatches (usable.mono fun _ usable => usable.calls) rfl rfl
    enough inside holds

/-- The emitted body makes the reports of the scan and leaves its state. -/
theorem scan_body {pool : List (Reader Ctx)} {state : StreamState} {ctx : Ctx}
    (identified : ∀ a ∈ pool, ∀ b ∈ pool, a.id = b.id → a = b)
    (numbered : lexicon.forest.Numbered lexicon.rules.size)
    (usable : lexicon.forest.EachReader fun reader => reader.parts ⊆ pool ∧ reader.Ordered ∧
      reader.Filled ∧ reader.CallsWithin state.chunk ctx)
    (inside : state.offset ≤ state.chunk.size) {rounds : Nat} (enough : state.chunk.size < rounds)
    (optimize streaming : Bool) :
    Source.scan (lexicon.body optimize) (ofLexicon lexicon).assembler.bindings rounds lexicon.rules
        state ctx streaming =
      ((lexicon.scan state ctx streaming).events,
        (lexicon.scan state ctx streaming).result.mapError .fault) := by
  obtain ⟨dispatch, spelled, becomes⟩ := exists_dispatch lexicon optimize
  obtain ⟨kinds, kinded, typed⟩ :=
    typed_ofLexicon numbered (usable.mono fun _ usable => usable.2.2.1)
  obtain ⟨separate, orderly⟩ := orderly_ofLexicon lexicon
  let routine : Routine Ctx := { ofLexicon lexicon with dispatch }
  have runs : Source.scan routine.body routine.assembler.bindings rounds lexicon.rules state ctx
      streaming = ((routine.walk lexicon rounds state ctx streaming).1,
        (routine.walk lexicon rounds state ctx streaming).2.mapError .fault) :=
    scan_eq_walk ⟨separate.cursor, separate.pending, separate.different⟩
      ⟨kinded.chunk, kinded.cursor, kinded.pending, kinded.bound⟩
      (assembler_fits (usable.mono fun _ usable => usable.1)) (orderly.of_becomes becomes).fits
      (becomes.typed typed)
  have steps : routine.walk lexicon rounds state ctx streaming =
      ((lexicon.scan state ctx streaming).events, (lexicon.scan state ctx streaming).result) :=
    walk_eq_scan identified (usable.mono fun _ usable => ⟨usable.1, usable.2.1, usable.2.2.2⟩)
      inside becomes enough streaming
  rw [steps] at runs
  exact (scan_congr spelled _ _ _ _ _ _).trans runs

end Routine

/-- The body of the scanning routine of any rules, plain or optimized, makes on every state the same
reports as the scan and leaves the same state. It is run from its text: this is read as a program,
which never gets stuck. Reports tell rules apart since token types may be chosen for each rule at
will. -/
theorem Lexicon.body_runs_as_scan (rules : List (Rule Ctx)) (initialStage : Option String)
    (optimize : Bool) (built : ∀ rule ∈ rules, rule.reader.Built)
    (identified : Reader.Identified (rules.map (·.reader))) (state : StreamState) (ctx : Ctx)
    (streaming : Bool) (label : Nat → String) (inside : state.offset ≤ state.chunk.size)
    (calls : ∀ rule ∈ rules, rule.reader.CallsWithin state.chunk ctx) (rounds : Nat)
    (enough : state.chunk.size < rounds) :
    let lexicon := (ofRules rules initialStage).relabel label
    Source.scan ((ofRules rules initialStage).body optimize)
        (Routine.ofLexicon (ofRules rules initialStage)).assembler.bindings rounds lexicon.rules
        state ctx streaming =
      ((lexicon.scan state ctx streaming).events,
        (lexicon.scan state ctx streaming).result.mapError Halt.fault) := by
  intro lexicon
  have steps : ∀ rule ∈ rules, rule.reader.steps ≠ [] :=
    fun rule member => (built rule member).steps_ne_nil
  have usable : lexicon.forest.EachReader fun reader =>
      reader.parts ⊆ Reader.partsAll (rules.map (·.reader)) ∧ reader.Ordered ∧
        reader.Filled ∧ reader.CallsWithin state.chunk ctx := by
    refine Forest.eachReader_ofRules (fun rule member step among => ?_) initialStage
    have within := Reader.parts_subset_of_mem_steps among
    have known : rule.reader.parts ⊆ Reader.partsAll (rules.map (·.reader)) :=
      Reader.parts_subset_partsAll (List.mem_map_of_mem member)
    exact ⟨List.Subset.trans within known, (built rule member).ordered.of_parts_subset within,
      (built rule member).filled.of_parts_subset within, (calls rule member).of_mem_parts within⟩
  have numbered : lexicon.forest.Numbered lexicon.rules.size := by
    have size : lexicon.rules.size = rules.length := by simp [lexicon, relabel, ofRules]
    exact size ▸ Forest.numbered_ofRules initialStage steps
  have runs := Routine.scan_body identified numbered usable inside enough optimize streaming
  have same : lexicon.body optimize = (ofRules rules initialStage).body optimize := by
    rw [body, body, Routine.ofLexicon_relabel]
  rw [same, Routine.ofLexicon_relabel] at runs
  exact runs

/-- The optimized routine of one rule, run on a text with more than a match. -/
theorem Lexicon.optimized_body_runs_on_pair :
    let rules : List (Rule Unit) :=
      [{ tokenType := "pair", reader := .inOrder 3 [.text 1 [97], .text 2 [98]] }]
    let ran := Source.scan ((ofRules rules none).body true)
      (Routine.ofLexicon (ofRules rules none)).assembler.bindings 4
      ((ofRules rules none).relabel fun _ => "ab").rules { chunk := #[97, 98, 99] } () false
    ran.1 = #[.token "ab" ⟨0, 2⟩, .unrecognized 2] ∧
      ran.2.toOption = some { chunk := #[97, 98, 99], offset := 2 } := by
  intro rules
  have built : ∀ rule ∈ rules, rule.reader.Built := by
    intro rule member
    obtain rfl := List.mem_singleton.mp member
    refine .inOrder 3 [.text 1 [97], .text 2 [98]] fun item among => ?_
    rcases List.mem_cons.mp among with rfl | last
    · exact .text _ _
    · rw [List.mem_singleton.mp last]
      exact .text _ _
  have parts : Reader.partsAll (rules.map (·.reader)) =
      [.sequence 3 [.leaf 1 (.text [97]), .leaf 2 (.text [98])], .leaf 1 (.text [97]),
        .leaf 2 (.text [98])] := rfl
  have identified : Reader.Identified (rules.map (·.reader)) :=
    .of_nodup (List.Subset.refl _) (by decide)
  have calls : ∀ rule ∈ rules, rule.reader.CallsWithin #[97, 98, 99] () := by
    intro rule member id l inside called
    have among := Reader.parts_subset_partsAll (List.mem_map_of_mem member) inside
    rw [parts] at among
    simp only [List.mem_cons, List.not_mem_nil, or_false, reduceCtorEq, false_or,
      Reader.leaf.injEq] at among
    rcases among with ⟨-, rfl⟩ | ⟨-, rfl⟩ <;> cases called
  intro ran
  have runs : ran = _ := body_runs_as_scan rules none true built identified
    { chunk := #[97, 98, 99] } () false (fun _ => "ab") (by decide) calls 4 (by decide)
  rw [runs]
  decide +kernel

end StagedLexer
