import StagedLexer.Proofs.TrieInsertion

/-! What the trie of a stage holds. Its ways are those of the rules that are active in the stage,
less the rules whose steps an earlier one has already. -/
namespace StagedLexer

variable {Ctx : Type}

/-- The identities of the steps of a rule. -/
def Rule.path (rule : Rule Ctx) : List Nat := rule.reader.steps.map Reader.id

/-- The rules that are active in a stage, with their numbers. -/
def activeRules (rules : List (Rule Ctx)) (stage : Option String) : List (Rule Ctx × Nat) :=
  rules.zipIdx.filter (·.1.isActiveIn stage)

/-- Whether a rule shadows another one: it comes first and has the same steps. -/
def shadows (y x : Rule Ctx × Nat) : Bool := y.2 < x.2 && y.1.path == x.1.path

theorem shadows_iff {y x : Rule Ctx × Nat} :
    shadows y x ↔ y.2 < x.2 ∧ y.1.path = x.1.path := by
  simp [shadows]

/-- The rules that none of them shadows. -/
def unshadowed (active : List (Rule Ctx × Nat)) : List (Rule Ctx × Nat) :=
  active.filter fun x => !active.any (shadows · x)

/-- The entry of a rule in a trie. -/
def ruleEntry (x : Rule Ctx × Nat) : List Nat × Nat := (x.1.path, x.2)

/-- A trie is proper, and its ways are those of the active rules that are not shadowed. -/
structure Tracks (active : List (Rule Ctx × Nat)) (branches : List (Branch Ctx)) : Prop where
  proper : Branch.ProperAll branches
  entries : (Branch.entries branches).Perm ((unshadowed active).map ruleEntry)
  covered : ∀ x ∈ active, ∃ number ≤ x.2, (x.1.path, number) ∈ Branch.entries branches

theorem Tracks.mem_active {active : List (Rule Ctx × Nat)} {branches : List (Branch Ctx)}
    (tracks : Tracks active branches) {entry : List Nat × Nat}
    (among : entry ∈ Branch.entries branches) : ∃ x ∈ active, ruleEntry x = entry := by
  obtain ⟨x, member, equal⟩ := List.mem_map.mp (tracks.entries.mem_iff.mp among)
  exact ⟨x, (List.mem_filter.mp member).1, equal⟩

private theorem unshadowed_append {active : List (Rule Ctx × Nat)} {x : Rule Ctx × Nat}
    (later : ∀ y ∈ active, y.2 < x.2) :
    unshadowed (active ++ [x]) =
      unshadowed active ++ if active.any (·.1.path == x.1.path) then [] else [x] := by
  have old : active.filter (fun y => !(active ++ [x]).any (shadows · y)) = unshadowed active := by
    apply List.filter_congr
    intro y member
    have behind : ¬ x.2 < y.2 := Nat.not_lt.mpr (Nat.le_of_lt (later y member))
    simp [shadows, behind]
  have same : (active ++ [x]).any (shadows · x) = active.any (·.1.path == x.1.path) := by
    have none : shadows x x = false := by simp [shadows]
    rw [List.any_append, List.any_cons, List.any_nil, none, Bool.or_false, Bool.or_false,
      Bool.eq_iff_iff, List.any_eq_true, List.any_eq_true]
    constructor
    · rintro ⟨y, member, first⟩
      exact ⟨y, member, (Bool.and_eq_true_iff.mp first).2⟩
    · rintro ⟨y, member, equal⟩
      exact ⟨y, member, by simpa [shadows, later y member] using equal⟩
  rw [unshadowed, List.filter_append, old, List.filter_cons, List.filter_nil, same]
  cases active.any (·.1.path == x.1.path) <;> rfl

private theorem Tracks.insertAll {active : List (Rule Ctx × Nat)} {branches : List (Branch Ctx)}
    (tracks : Tracks active branches) {rule : Rule Ctx} {index : Nat}
    (steps : rule.reader.steps ≠ []) (later : ∀ y ∈ active, y.2 < index) (next : Nat) :
    Tracks (active ++ [(rule, index)])
      (Branch.insertAll rule.reader.steps index next branches).result := by
  -- The trie gains one entry, or none if an active rule has the same path: then the new rule is
  -- shadowed.
  have grows := Branch.grows_insertAll steps index next branches tracks.proper
  have grown := grows.extends tracks.proper
  have fresh : ∀ way ∈ Branch.waysAll branches, way.rule < index := by
    intro way among
    obtain ⟨x, member, equal⟩ := tracks.mem_active (List.mem_map_of_mem among)
    rw [← show x.2 = way.rule from (Prod.mk.inj equal).2]
    exact later x member
  refine ⟨grows.proper tracks.proper steps fresh, ?_, ?_⟩
  · rw [unshadowed_append later]
    rcases grown with ⟨⟨number, listed⟩, same⟩ | ⟨absent, perm⟩
    · obtain ⟨y, member, equal⟩ := tracks.mem_active listed
      have shadowed : active.any (fun y => y.1.path == rule.path) = true := by
        refine List.any_eq_true.mpr ⟨y, member, ?_⟩
        exact beq_iff_eq.mpr (Prod.mk.inj equal).1
      rw [same, if_pos shadowed, List.append_nil]
      exact tracks.entries
    · have alone : ¬ active.any (fun y => y.1.path == rule.path) = true := by
        intro shadowed
        obtain ⟨y, member, same⟩ := List.any_eq_true.mp shadowed
        obtain ⟨number, -, listed⟩ := tracks.covered y member
        rw [eq_of_beq same] at listed
        exact absent number listed
      rw [if_neg alone, List.map_append]
      refine perm.trans ((tracks.entries.cons _).trans ?_)
      exact (List.perm_append_singleton _ _).symm
  · intro x member
    rcases List.mem_append.mp member with old | new
    · obtain ⟨number, le, listed⟩ := tracks.covered x old
      exact ⟨number, le, grown.subset listed⟩
    · obtain rfl := List.mem_singleton.mp new
      rcases grown with ⟨⟨number, listed⟩, same⟩ | ⟨-, perm⟩
      · obtain ⟨y, inActive, equal⟩ := tracks.mem_active listed
        refine ⟨number, ?_, by rw [same]; exact listed⟩
        rw [← show y.2 = number from (Prod.mk.inj equal).2]
        exact Nat.le_of_lt (later y inActive)
      · exact ⟨index, Nat.le_refl _, perm.mem_iff.mpr (List.mem_cons_self ..)⟩

namespace Forest

variable {forest : Forest Ctx} {steps : List (Reader Ctx)} {rule : Nat}

private theorem lookup_replace (stage name : String) (branches : List (Branch Ctx))
    (tries : List (String × List (Branch Ctx))) :
    (tries.map fun (known, old) =>
      if known = stage then (known, branches) else (known, old)).lookup name =
      if name = stage then (tries.lookup name).map fun _ => branches else tries.lookup name := by
  induction tries with
  | nil => split <;> rfl
  | cons trie rest ih =>
    obtain ⟨known, old⟩ := trie
    have head : (if known = stage then (known, branches) else (known, old)) =
        (known, if known = stage then branches else old) := by split <;> rfl
    simp only [List.map_cons, head, List.lookup_cons]
    by_cases here : name = known
    · subst here
      by_cases chosen : name = stage <;> simp [chosen]
    · simp only [beq_false_of_ne here, ih]

theorem stageless_insertInAll (names : List String) :
    (insertInAll steps rule forest names).1.stageless = forest.stageless := by
  induction names generalizing forest with
  | nil => rfl
  | cons name rest ih => exact ih

private theorem lookup_of_mem_stages {name : String} (known : name ∈ forest.stages) :
    forest.tries.lookup name = some (forest.roots (some name)) := by
  have found : (forest.tries.lookup name).isSome := by
    obtain ⟨trie, member, rfl⟩ := List.mem_map.mp known
    exact List.lookup_isSome_iff.mpr ⟨trie, member, by simp⟩
  obtain ⟨branches, listed⟩ := Option.isSome_iff_exists.mp found
  simp [roots, listed]

private theorem roots_insertIn (steps : List (Reader Ctx)) (rule : Nat) {name : String}
    (known : name ∈ forest.stages) (stage : String) :
    (forest.insertIn stage steps rule).1.roots (some name) =
      if name = stage then
        (Branch.insertAll steps rule forest.size (forest.roots (some name))).result
      else forest.roots (some name) := by
  have listed := lookup_of_mem_stages known
  have updated := lookup_replace stage name
    (Branch.insertAll steps rule forest.size (forest.roots (some stage))).result forest.tries
  rw [roots, insertIn, Option.bind_some]
  simp only
  rw [updated, listed]
  by_cases here : name = stage
  · rw [if_pos here, if_pos here, ← here]
    rfl
  · rw [if_neg here, if_neg here]
    rfl

private theorem roots_insertInAll (steps : List (Reader Ctx)) (rule : Nat) {name : String}
    (known : name ∈ forest.stages) {names : List String} (distinct : names.Nodup) :
    (name ∈ names → ∃ next, (insertInAll steps rule forest names).1.roots (some name) =
        (Branch.insertAll steps rule next (forest.roots (some name))).result) ∧
      (name ∉ names →
        (insertInAll steps rule forest names).1.roots (some name) = forest.roots (some name)) := by
  induction names generalizing forest with
  | nil => exact ⟨fun member => absurd member List.not_mem_nil, fun _ => rfl⟩
  | cons stage rest ih =>
    obtain ⟨absent, others⟩ := List.nodup_cons.mp distinct
    have known' : name ∈ (forest.insertIn stage steps rule).1.stages := by simpa using known
    -- No name stands twice in the list, so a trie changes at its own name and never again.
    have here := roots_insertIn steps rule known stage
    obtain ⟨inside, outside⟩ := ih known' others
    rw [insertInAll]
    constructor
    · intro member
      rcases List.mem_cons.mp member with rfl | behind
      · rw [if_pos rfl] at here
        exact ⟨forest.size, (outside absent).trans here⟩
      · have other : name ≠ stage := fun same => absent (same ▸ behind)
        rw [if_neg other] at here
        rw [here] at inside
        exact inside behind
    · intro missing
      rw [List.mem_cons, not_or] at missing
      rw [if_neg missing.1] at here
      exact (outside missing.2).trans here

private theorem roots_insertStageless (steps : List (Reader Ctx)) (rule : Nat) {name : String}
    (known : name ∈ forest.stages) :
    (forest.insertStageless steps rule).1.roots (some name) = forest.roots (some name) := by
  have listed := lookup_of_mem_stages known
  simp only [insertStageless, roots, Option.bind_some] at listed ⊢
  rw [listed]
  rfl

/-- Every trie of the forest keeps track of the rules inserted so far. -/
structure TracksAll (names : List String) (forest : Forest Ctx) (done : List (Rule Ctx)) : Prop where
  stages : forest.stages = names
  staged : ∀ name ∈ names, Tracks (activeRules done (some name)) (forest.roots (some name))
  stageless : Tracks (activeRules done none) forest.stageless

private theorem activeRules_append (done : List (Rule Ctx)) (rule : Rule Ctx)
    (stage : Option String) :
    activeRules (done ++ [rule]) stage =
      activeRules done stage ++ if rule.isActiveIn stage then [(rule, done.length)] else [] := by
  cases active : rule.isActiveIn stage <;> simp [activeRules, List.zipIdx_append, active]

theorem lt_of_mem_activeRules {done : List (Rule Ctx)} {stage : Option String} :
    ∀ y ∈ activeRules done stage, y.2 < done.length := by
  intro y member
  have among := (List.mem_filter.mp member).1
  simpa using List.snd_lt_of_mem_zipIdx among

private theorem tracks_active {done : List (Rule Ctx)} {rule : Rule Ctx} {stage : Option String}
    {branches : List (Branch Ctx)} (tracks : Tracks (activeRules done stage) branches)
    (steps : rule.reader.steps ≠ []) (active : rule.isActiveIn stage = true) (next : Nat) :
    Tracks (activeRules (done ++ [rule]) stage)
      (Branch.insertAll rule.reader.steps done.length next branches).result := by
  rw [activeRules_append, if_pos active]
  exact tracks.insertAll steps lt_of_mem_activeRules next

private theorem activeRules_inactive {done : List (Rule Ctx)} {rule : Rule Ctx}
    {stage : Option String} (inactive : rule.isActiveIn stage = false) :
    activeRules (done ++ [rule]) stage = activeRules done stage := by
  simp [activeRules_append, inactive]

private theorem TracksAll.insert {names : List String} {done : List (Rule Ctx)}
    (tracks : TracksAll names forest done) (nodup : names.Nodup) {rule : Rule Ctx}
    (steps : rule.reader.steps ≠ []) :
    TracksAll names (forest.insert rule done.length).1 (done ++ [rule]) := by
  have known {name : String} (member : name ∈ names) : name ∈ forest.stages := tracks.stages ▸ member
  unfold Forest.insert
  cases activity : rule.activity with
  | everywhere =>
    -- The rule goes into the trie of every stage and into the one without a stage.
    have active (stage : Option String) : rule.isActiveIn stage = true := by
      simp [Rule.isActiveIn, activity]
    refine ⟨?_, fun name member => ?_, ?_⟩
    · exact (stages_insertInAll forest.stages).trans tracks.stages
    · have kept :
          name ∈ (insertInAll rule.reader.steps done.length forest forest.stages).1.stages := by
        rw [stages_insertInAll]
        exact known member
      obtain ⟨next, inserted⟩ := (roots_insertInAll rule.reader.steps done.length (known member)
        (tracks.stages ▸ nodup)).1 (known member)
      simp only
      rw [roots_insertStageless _ _ kept, inserted]
      exact tracks_active (tracks.staged name member) steps (active _) next
    · simp only [insertStageless, stageless_insertInAll]
      exact tracks_active tracks.stageless steps (active none) _
  | inStages stages =>
    have active (name : String) : rule.isActiveIn (some name) = stages.contains name := by
      simp [Rule.isActiveIn, activity]
    refine ⟨?_, fun name member => ?_, ?_⟩
    · exact (stages_insertInAll _).trans tracks.stages
    · have effect := roots_insertInAll rule.reader.steps done.length (known member)
        (nodup_distinct stages)
      -- Stages that are listed get the rule, and only those; the trie without a stage stays as it
      -- is.
      by_cases listed : name ∈ stages
      · obtain ⟨next, inserted⟩ := effect.1 (mem_distinct.mpr listed)
        simp only
        rw [inserted]
        exact tracks_active (tracks.staged name member) steps (by simpa [active] using listed) next
      · simp only
        rw [effect.2 (fun inside => listed (mem_distinct.mp inside)),
          activeRules_inactive (by simpa [active] using listed)]
        exact tracks.staged name member
    · simp only [stageless_insertInAll]
      rw [activeRules_inactive (by simp [Rule.isActiveIn, activity])]
      exact tracks.stageless
  | nowhere =>
    have inactive (stage : Option String) : rule.isActiveIn stage = false := by
      simp [Rule.isActiveIn, activity]
    refine ⟨tracks.stages, fun name member => ?_, ?_⟩
    · rw [activeRules_inactive (inactive _)]
      exact tracks.staged name member
    · rw [activeRules_inactive (inactive _)]
      exact tracks.stageless

private theorem TracksAll.insertRules {names : List String} {done : List (Rule Ctx)}
    (tracks : TracksAll names forest done) (nodup : names.Nodup) {rules : List (Rule Ctx)}
    (steps : ∀ rule ∈ rules, rule.reader.steps ≠ []) :
    TracksAll names (insertRules forest done.length rules).1 (done ++ rules) := by
  induction rules generalizing forest done with
  | nil => simpa [Forest.insertRules] using tracks
  | cons rule rest ih =>
    have next := tracks.insert nodup (steps rule (by simp))
    have others := ih next fun rule member => steps rule (by simp [member])
    simpa [Forest.insertRules] using others

private theorem tracks_nil : Tracks ([] : List (Rule Ctx × Nat)) [] :=
  ⟨trivial, by simp [Branch.entries, Branch.waysAll, unshadowed], by simp⟩

private theorem tracksAll_ofRules {rules : List (Rule Ctx)} (initialStage : Option String)
    (steps : ∀ rule ∈ rules, rule.reader.steps ≠ []) :
    TracksAll (knownStages rules initialStage) (ofRules rules initialStage) rules := by
  have start : TracksAll (knownStages rules initialStage)
      { tries := (knownStages rules initialStage).map fun stage => (stage, []) }
      ([] : List (Rule Ctx)) := by
    refine ⟨by simp [stages, Function.comp_def], fun name member => ?_, tracks_nil⟩
    have empty : roots { tries := (knownStages rules initialStage).map fun stage => (stage, []) }
        (some name) = ([] : List (Branch Ctx)) := by
      simp only [roots, Option.bind_some]
      cases found : ((knownStages rules initialStage).map fun stage => (stage, [])).lookup name with
      | none => rfl
      | some branches =>
        obtain ⟨before, behind, split, -⟩ := List.lookup_eq_some_iff.mp found
        have among :
            (name, branches) ∈ (knownStages rules initialStage).map fun stage => (stage, []) := by
          simp [split]
        obtain ⟨stage, -, equal⟩ := List.mem_map.mp among
        exact (Prod.mk.inj equal).2.symm
    rw [empty]
    exact tracks_nil
  exact start.insertRules (nodup_distinct _) steps

private theorem isActiveIn_unknown {rules : List (Rule Ctx)} (initialStage : Option String)
    {rule : Rule Ctx} (member : rule ∈ rules) {name : String}
    (unknown : name ∉ knownStages rules initialStage) :
    rule.isActiveIn (some name) = rule.isActiveIn none := by
  unfold Rule.isActiveIn
  cases activity : rule.activity with
  | everywhere | nowhere => rfl
  | inStages stages =>
    have absent : name ∉ stages := by
      intro listed
      exact unknown (mem_knownStages initialStage member (by simp [Rule.stages, activity, listed]))
    simpa using absent

/-- The trie of a stage holds the rules that are active in it, also in a stage that is not known. -/
theorem tracks_roots {rules : List (Rule Ctx)} (initialStage : Option String)
    (steps : ∀ rule ∈ rules, rule.reader.steps ≠ []) (stage : Option String) :
    Tracks (activeRules rules stage) ((ofRules rules initialStage).roots stage) := by
  have tracks := tracksAll_ofRules initialStage steps
  cases stage with
  | none => exact tracks.stageless
  | some name =>
    by_cases known : name ∈ knownStages rules initialStage
    · exact tracks.staged name known
    · have same : activeRules rules (some name) = activeRules rules none := by
        apply List.filter_congr
        intro x member
        exact isActiveIn_unknown initialStage (List.fst_mem_of_mem_zipIdx member) known
      have missing : (ofRules rules initialStage).tries.lookup name = none := by
        rw [List.lookup_eq_none_iff]
        intro trie among
        have listed : trie.1 ∈ (ofRules rules initialStage).stages := List.mem_map_of_mem among
        rw [tracks.stages] at listed
        exact bne_iff_ne.mpr fun equal => known (equal ▸ listed)
      rw [same, roots, Option.bind_some, missing]
      exact tracks.stageless

end Forest

end StagedLexer
