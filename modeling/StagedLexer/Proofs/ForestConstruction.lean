import StagedLexer.Trie.Forest

/-! How the tries of a forest are made. Rules are inserted into the trie of one known stage at a
time or into the one without a stage, so what these insertions keep holds of the whole forest. -/
namespace StagedLexer

variable {Ctx : Type}

theorem mem_distinct {name : String} {names : List String} :
    name ∈ distinct names ↔ name ∈ names := by
  induction names with
  | nil => rfl
  | cons first rest ih =>
    by_cases same : name = first <;> simp [distinct, ih, same]

theorem nodup_distinct (names : List String) : (distinct names).Nodup := by
  induction names with
  | nil => exact .nil
  | cons first rest ih =>
    refine List.nodup_cons.mpr ⟨by simp, ih.filter _⟩

namespace Forest

variable {forest : Forest Ctx} {steps : List (Reader Ctx)} {rule : Nat}

@[simp] theorem stages_insertIn (stage : String) :
    (forest.insertIn stage steps rule).1.stages = forest.stages := by
  simp only [insertIn, stages, List.map_map]
  apply List.map_congr_left
  intro trie _
  simp only [Function.comp]
  split <;> rfl

theorem stages_insertInAll (names : List String) :
    (insertInAll steps rule forest names).1.stages = forest.stages := by
  induction names generalizing forest with
  | nil => rfl
  | cons name rest ih => exact ih.trans (stages_insertIn name)

theorem stages_insert (rule : Rule Ctx) (index : Nat) :
    (forest.insert rule index).1.stages = forest.stages := by
  unfold Forest.insert
  cases rule.activity with
  | everywhere => exact stages_insertInAll forest.stages
  | inStages names => exact stages_insertInAll (distinct names)
  | nowhere => rfl

theorem mem_knownStages {rules : List (Rule Ctx)} (initialStage : Option String)
    {rule : Rule Ctx} (member : rule ∈ rules) {name : String} (named : name ∈ rule.stages) :
    name ∈ knownStages rules initialStage := by
  rw [knownStages, mem_distinct, List.mem_append, List.mem_flatMap]
  exact .inr ⟨rule, member, named⟩

section

variable {motive : Forest Ctx → Prop} {known : List String}

private theorem kept_insertInAll {names : List String} (inside : ∀ name ∈ names, name ∈ known)
    (staged : ∀ forest name, motive forest → forest.stages = known → name ∈ known →
      motive (forest.insertIn name steps rule).1)
    (holds : motive forest) (stages : forest.stages = known) :
    motive (insertInAll steps rule forest names).1 := by
  induction names generalizing forest with
  | nil => exact holds
  | cons name rest ih =>
    have first := staged forest name holds stages (inside name (List.mem_cons_self ..))
    refine ih (fun other member => inside other (List.mem_cons_of_mem _ member)) first ?_
    exact (stages_insertIn name).trans stages

private theorem kept_insert {rule : Rule Ctx} {index : Nat}
    (inside : ∀ name ∈ rule.stages, name ∈ known)
    (staged : ∀ forest name, motive forest → forest.stages = known → name ∈ known →
      motive (forest.insertIn name rule.reader.steps index).1)
    (stageless : ∀ forest, motive forest → forest.stages = known →
      motive (forest.insertStageless rule.reader.steps index).1)
    (holds : motive forest) (stages : forest.stages = known) :
    motive (forest.insert rule index).1 := by
  unfold Forest.insert
  cases activity : rule.activity with
  | everywhere =>
    have same : (insertInAll rule.reader.steps index forest forest.stages).1.stages = known :=
      (stages_insertInAll forest.stages).trans stages
    refine stageless _ ?_ same
    exact kept_insertInAll (fun name member => stages ▸ member) staged holds stages
  | inStages names =>
    refine kept_insertInAll (fun name member => inside name ?_) staged holds stages
    rw [Rule.stages, activity]
    exact List.mem_append_left _ (mem_distinct.mp member)
  | nowhere => exact holds

private theorem kept_insertRules {rules : List (Rule Ctx)}
    (inside : ∀ rule ∈ rules, ∀ name ∈ rule.stages, name ∈ known)
    (staged : ∀ forest name, ∀ rule ∈ rules, ∀ index, motive forest → forest.stages = known →
      name ∈ known → motive (forest.insertIn name rule.reader.steps index).1)
    (stageless : ∀ forest, ∀ rule ∈ rules, ∀ index, motive forest → forest.stages = known →
      motive (forest.insertStageless rule.reader.steps index).1)
    (holds : motive forest) (stages : forest.stages = known) (index : Nat) :
    motive (insertRules forest index rules).1 := by
  induction rules generalizing forest index with
  | nil => exact holds
  | cons rule rest ih =>
    have member : rule ∈ rule :: rest := List.mem_cons_self ..
    have holds' := kept_insert (inside rule member)
      (fun forest name => staged forest name rule member index)
      (fun forest => stageless forest rule member index) holds stages
    refine ih ?_ ?_ ?_ holds' ((stages_insert rule index).trans stages) (index + 1)
    · exact fun rule member => inside rule (List.mem_cons_of_mem _ member)
    · exact fun forest name rule member => staged forest name rule (List.mem_cons_of_mem _ member)
    · exact fun forest rule member => stageless forest rule (List.mem_cons_of_mem _ member)

end

/-- What every insertion into a known stage and every one without a stage keeps holds of the tries
of a list of rules. -/
theorem ofRules_induction {motive : Forest Ctx → Prop} (rules : List (Rule Ctx))
    (initialStage : Option String)
    (start : motive { tries := (knownStages rules initialStage).map fun stage => (stage, []) })
    (staged : ∀ forest name, ∀ rule ∈ rules, ∀ index, motive forest →
      forest.stages = knownStages rules initialStage → name ∈ knownStages rules initialStage →
      motive (forest.insertIn name rule.reader.steps index).1)
    (stageless : ∀ forest, ∀ rule ∈ rules, ∀ index, motive forest →
      forest.stages = knownStages rules initialStage →
      motive (forest.insertStageless rule.reader.steps index).1) :
    motive (ofRules rules initialStage) :=
  kept_insertRules (fun _ member _ named => mem_knownStages initialStage member named) staged
    stageless start (by simp [stages, Function.comp_def]) 0

theorem nodup_stages_ofRules (rules : List (Rule Ctx)) (initialStage : Option String) :
    (ofRules rules initialStage).stages.Nodup := by
  apply ofRules_induction (motive := fun forest => forest.stages.Nodup)
  · simpa [stages, Function.comp_def, knownStages] using nodup_distinct _
  · intro forest name rule _ index nodup _ _
    rwa [stages_insertIn]
  · intro forest rule _ index nodup _
    exact nodup

theorem holds_roots {motive : List (Branch Ctx) → Prop}
    (tries : ∀ trie ∈ forest.tries, motive trie.2) (stageless : motive forest.stageless)
    (stage : Option String) : motive (forest.roots stage) := by
  unfold Forest.roots
  cases found : stage.bind fun name => forest.tries.lookup name with
  | none => exact stageless
  | some branches =>
    obtain ⟨name, -, listed⟩ := Option.bind_eq_some_iff.mp found
    obtain ⟨before, behind, split, -⟩ := List.lookup_eq_some_iff.mp listed
    exact tries (name, branches) (by simp [split])

theorem exists_split (nodup : forest.stages.Nodup) {trie : String × List (Branch Ctx)}
    (member : trie ∈ forest.tries) :
    ∃ before behind, forest.tries = before ++ trie :: behind ∧
      (∀ other ∈ before, other.1 ≠ trie.1) ∧ ∀ other ∈ behind, other.1 ≠ trie.1 := by
  obtain ⟨before, behind, split⟩ := List.append_of_mem member
  rw [stages, split, List.map_append, List.map_cons, List.nodup_append, List.nodup_cons] at nodup
  obtain ⟨-, ⟨absent, -⟩, apart⟩ := nodup
  refine ⟨before, behind, split, fun other among => ?_, fun other among same => ?_⟩
  · exact apart _ (List.mem_map_of_mem among) _ (List.mem_cons_self ..)
  · exact absent (same ▸ List.mem_map_of_mem among)

theorem roots_of_mem (nodup : forest.stages.Nodup) {trie : String × List (Branch Ctx)}
    (member : trie ∈ forest.tries) : forest.roots (some trie.1) = trie.2 := by
  obtain ⟨before, behind, split, apart, -⟩ := exists_split nodup member
  have found : forest.tries.lookup trie.1 = some trie.2 :=
    List.lookup_eq_some_iff.mpr ⟨before, behind, split, fun other among =>
      bne_iff_ne.mpr (apart other among).symm⟩
  rw [roots, Option.bind_some, found, Option.getD_some]

/-- What inserting the rules into a trie keeps holds of every trie of the rules. -/
theorem each_ofRules {motive : List (Branch Ctx) → Prop} (rules : List (Rule Ctx))
    (initialStage : Option String) (empty : motive [])
    (kept : ∀ rule ∈ rules, ∀ index next branches, motive branches →
      motive (Branch.insertAll rule.reader.steps index next branches).result) :
    (∀ trie ∈ (ofRules rules initialStage).tries, motive trie.2) ∧
      motive (ofRules rules initialStage).stageless := by
  apply ofRules_induction (motive := fun forest =>
    (∀ trie ∈ forest.tries, motive trie.2) ∧ motive forest.stageless) rules initialStage
  · refine ⟨fun trie among => ?_, empty⟩
    obtain ⟨stage, -, rfl⟩ := List.mem_map.mp among
    exact empty
  · rintro forest name rule member index ⟨tries, stageless⟩ - -
    refine ⟨fun trie among => ?_, stageless⟩
    obtain ⟨⟨stage, branches⟩, listed, rfl⟩ := List.mem_map.mp among
    by_cases here : stage = name
    · simp only [here, if_true]
      exact kept rule member index forest.size _ (holds_roots tries stageless (some name))
    · simp only [here, if_false]
      exact tries (stage, branches) listed
  · rintro forest rule member index ⟨tries, stageless⟩ -
    exact ⟨tries, kept rule member index forest.size forest.stageless stageless⟩

end Forest

end StagedLexer
