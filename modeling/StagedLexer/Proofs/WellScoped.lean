import StagedLexer.Proofs.ProgramShape
import StagedLexer.Proofs.RoutineRefinement

/-! The body of a scanning routine is well scoped, optimized or not. The chunk and the bound readers
are only read; every other variable is declared once, is assigned and read behind its declaration in
the block of that, and has been assigned on every path that reads it. -/
namespace StagedLexer

open Code

variable {Ctx : Type}

/-- Every path reads a variable behind an assignment to it and behind its last declaration, unless
the variable comes with the source. -/
theorem Shape.Fits.assigned {given : Nat → Prop} {shape : Shape}
    (fits : shape.Fits given ⟨given, given⟩) {path : List Access} {goal : Shape.Goal}
    (taken : shape.Path path goal) (before : List Access) (v : Nat) (after : List Access)
    (reads : path = before ++ Access.read v :: after) :
    given v ∨ ∃ earlier middle, before = earlier ++ Access.assign v :: middle ∧ .declare v ∉ middle := by
  subst reads
  have assigned := (taken.sound fits fun _ => id).1
  rcases Access.exists_of_after assigned.of_read with ⟨known, -⟩ | found
  · exact .inl known
  · exact .inr found

theorem Routine.Kinded.unbound {routine : Routine Ctx} {kinds : Kinds}
    (kinded : routine.Kinded kinds) : ¬ routine.Bound routine.frame.chunk := by
  intro among
  obtain ⟨binding, member, here⟩ := List.mem_map.mp among
  have reader := kinded.bound binding member
  rw [here] at reader
  cases kinded.chunk.symm.trans reader

theorem Lexicon.typed_ofRules {rules : List (Rule Ctx)} (built : ∀ rule ∈ rules, rule.reader.Built)
    (initialStage : Option String) :
    let lexicon := ofRules rules initialStage
    ∃ kinds : Kinds, (Routine.ofLexicon lexicon).Kinded kinds ∧
      (Routine.ofLexicon lexicon).dispatch.Typed kinds (some lexicon.rules.size) := by
  have size : (ofRules rules initialStage).rules.size = rules.length := by simp [ofRules]
  have numbered := size ▸ Forest.numbered_ofRules initialStage fun rule member =>
    (built rule member).steps_ne_nil
  refine Routine.typed_ofLexicon numbered (Forest.eachReader_ofRules ?_ initialStage)
  exact fun rule member step among =>
    (built rule member).filled.of_parts_subset (Reader.parts_subset_of_mem_steps among)

/-- The body of the scanning routine of any rules, plain or optimized, is well scoped. The chunk and
the bound readers are never declared nor assigned, and every other variable that occurs is declared
once. In the control structure of the body every access stands behind the declaration of its
variable and in the block of that, and every path that reads a variable has assigned it behind its
last declaration. The same holds for the blocks, loops and exits of the program that is read from
the text of the body, where the chunk is a variable with a declaration too. -/
theorem Lexicon.body_is_well_scoped (rules : List (Rule Ctx)) (initialStage : Option String)
    (optimize : Bool) :
    let routine := Routine.ofLexicon (ofRules rules initialStage)
    let body := (ofRules rules initialStage).body optimize
    (∀ v, routine.Given v → .declare v ∉ body.accesses ∧ .assign v ∉ body.accesses) ∧
    (∀ v, ¬ routine.Given v →
      .declare v ∈ body.accesses ∨ .assign v ∈ body.accesses ∨ .read v ∈ body.accesses →
        body.accesses.count (.declare v) = 1) ∧
    (∃ dispatch : Stmt,
      let shape := ({ routine with dispatch } : Routine Ctx).shape
      body.flatten = ({ routine with dispatch } : Routine Ctx).body.flatten ∧
      shape.accesses = body.accesses ∧
      shape.Lexical routine.Given routine.Given ∧
      ∀ path goal, shape.Path path goal → ∀ before v after, path = before ++ Access.read v :: after →
        routine.Given v ∨ ∃ earlier middle, before = earlier ++ Access.assign v :: middle ∧
          .declare v ∉ middle) ∧
    ((∀ rule ∈ rules, rule.reader.Built) → ∃ program, Source.parse? body.tokens = some program ∧
      let shape := Source.Command.shapeAll program
      shape.declared.Nodup ∧ shape.Lexical routine.Bound routine.Bound ∧
      (∀ v, routine.Bound v → .declare v ∉ shape.accesses ∧ .assign v ∉ shape.accesses) ∧
      ∀ path goal, shape.Path path goal → ∀ before v after, path = before ++ Access.read v :: after →
        routine.Bound v ∨ ∃ earlier middle, before = earlier ++ Access.assign v :: middle ∧
          .declare v ∉ middle) := by
  intro routine body
  obtain ⟨dispatch, equal, becomes⟩ := Routine.exists_dispatch (ofRules rules initialStage) optimize
  obtain ⟨separate, orderly⟩ := Routine.orderly_ofLexicon (ofRules rules initialStage)
  have orderly := orderly.of_becomes becomes
  let shaped : Routine Ctx := { routine with dispatch }
  have fits : shaped.shape.Fits routine.Given ⟨routine.Given, routine.Given⟩ :=
    Routine.fits_shape separate orderly.fits
  have same : shaped.shape.accesses = body.accesses := by
    rw [Routine.accesses_shape, ← accessesAll_flatten, ← accessesAll_flatten, ← equal]
  have lexical := fits.lexical
  obtain ⟨apart, known⟩ := (lexical.accesses fun _ => id).visible_or_mem
  rw [same] at apart known
  refine ⟨apart, fun v own occurs => ?_, ⟨dispatch, equal, same, lexical, fun path goal taken =>
    fits.assigned taken⟩, fun built => ?_⟩
  · have once : shaped.shape.declared.Nodup := by
      rw [Routine.declared_shape]
      exact orderly.distinct
    have declared : .declare v ∈ body.accesses := by
      rcases occurs with here | assigned | read
      · exact here
      · exact (known v (.inr assigned)).resolve_left own
      · exact (known v (.inl read)).resolve_left own
    rw [← same] at declared ⊢
    rw [← Shape.count_declared, once.count, if_pos (Shape.mem_declared.mpr declared)]
  · obtain ⟨kinds, kinded, typed⟩ := typed_ofRules built initialStage
    have textFits : (Source.Command.shapeAll shaped.program).Fits routine.Bound
        ⟨routine.Bound, routine.Bound⟩ :=
      Routine.fits_program shaped ⟨separate.cursor, separate.pending, separate.different⟩
        kinded.unbound orderly.fits
    have parsed : Source.parse? body.tokens = some shaped.program := by
      rw [Code.tokens_congr equal]
      exact Routine.parse?_body shaped ((becomes.typed typed).filled _)
    have textLexical := textFits.lexical
    refine ⟨_, parsed, ?_, textLexical, ((textLexical.accesses fun _ => id).visible_or_mem).1,
      fun path goal taken => textFits.assigned taken⟩
    rw [Routine.declared_program]
    refine List.nodup_cons.mpr ⟨fun among => ?_, orderly.distinct⟩
    have listed : shaped.shape.declared = _ := Routine.declared_shape
    rw [← listed, Shape.mem_declared, same] at among
    exact (apart _ (.inl rfl)).1 among

/-- The text of the optimized routine of one rule on a stage is read as a program. -/
theorem Lexicon.optimized_body_is_well_scoped_on_stage :
    let rules : List (Rule Unit) :=
      [{ tokenType := "word", reader := .text 1 [97], activity := .inStages ["inside"] }]
    ∃ program, Source.parse? ((ofRules rules (some "inside")).body true).tokens = some program ∧
      (Source.Command.shapeAll program).declared.Nodup := by
  intro rules
  have built : ∀ rule ∈ rules, rule.reader.Built := by
    intro rule member
    obtain rfl := List.mem_singleton.mp member
    exact Reader.Built.text 1 [97]
  obtain ⟨-, -, -, text⟩ := body_is_well_scoped rules (some "inside") true
  obtain ⟨program, parsed, once, -⟩ := text built
  exact ⟨program, parsed, once⟩

end StagedLexer
