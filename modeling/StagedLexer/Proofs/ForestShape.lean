import StagedLexer.Proofs.RulePriority
import StagedLexer.Proofs.TrieNumbers

/-! The shape of a forest and what it holds. No branch is shared or lost, a branch ends where rules
part or end, and going down from the roots of a stage reads the steps of its rules. -/
namespace StagedLexer

variable {Ctx : Type}

namespace Branch

/-- Every branch that completes no rule leads on in at least two ways. -/
def Branching (branch : Branch Ctx) : Prop :=
  ∀ b ∈ branch.preorder, b.rule = none → 2 ≤ b.children.length

private theorem branching_iff {id owner : Nat} {readers : List (Reader Ctx)}
    {children : List (Branch Ctx)} {rule : Option Nat} :
    Branching ⟨id, readers, children, rule, owner⟩ ↔
      (rule = none → 2 ≤ children.length) ∧ ∀ child ∈ children, child.Branching :=
  forall_preorder_iff

private theorem branching_complete (id rule : Nat) (readers : List (Reader Ctx)) :
    (complete id readers rule).Branching :=
  branching_iff.mpr ⟨by simp, by simp⟩

private theorem length_le_insertAll (steps : List (Reader Ctx)) (rule next : Nat)
    (branches : List (Branch Ctx)) :
    branches.length ≤ (insertAll steps rule next branches).result.length := by
  induction branches with
  | nil => exact Nat.zero_le _
  | cons branch others ih =>
    unfold insertAll
    split
    · exact Nat.succ_le_succ ih
    · exact Nat.le_refl _
    · exact Nat.le_refl _

private theorem branching_split {branch : Branch Ctx} (known : branch.Branching)
    (shared rest remainder : List (Reader Ctx)) (rule next : Nat) :
    (branch.split shared rest remainder rule next).1.Branching := by
  obtain ⟨id, readers, children, completed, owner⟩ := branch
  have old : Branching ⟨id, rest, children, completed, owner⟩ :=
    branching_iff.mpr (branching_iff.mp known)
  unfold split
  split
  · exact branching_iff.mpr ⟨by simp, by simpa using old⟩
  · exact branching_iff.mpr ⟨by simp, by simpa using ⟨old, branching_complete _ _ _⟩⟩

mutual
private theorem branching_insertAll (steps : List (Reader Ctx)) (rule next : Nat) :
    (branches : List (Branch Ctx)) → (∀ branch ∈ branches, branch.Branching) →
      ∀ branch ∈ (insertAll steps rule next branches).result, branch.Branching
  | [], _ => by simpa [insertAll] using branching_complete next rule steps
  | branch :: others, known => by
    have first := known branch (List.mem_cons_self ..)
    have behind : ∀ b ∈ others, b.Branching := fun b member =>
      known b (List.mem_cons_of_mem _ member)
    unfold insertAll
    split
    · exact List.forall_mem_cons.mpr ⟨first, branching_insertAll steps rule next others behind⟩
    · exact List.forall_mem_cons.mpr ⟨branching_insertBelow _ rule next branch first, behind⟩
    · exact List.forall_mem_cons.mpr ⟨branching_split first _ _ _ rule next, behind⟩
private theorem branching_insertBelow (remainder : List (Reader Ctx)) (rule next : Nat) :
    (branch : Branch Ctx) → branch.Branching →
      (insertBelow remainder rule next branch).result.Branching
  | ⟨id, readers, children, completed, owner⟩, known => by
    obtain ⟨here, below⟩ := branching_iff.mp known
    unfold insertBelow
    split
    · cases completed with
      | none => exact branching_iff.mpr ⟨by simp, below⟩
      | some winner => exact known
    · have longer := length_le_insertAll remainder rule next children
      refine branching_iff.mpr ⟨fun none => Nat.le_trans (here none) longer, ?_⟩
      exact branching_insertAll remainder rule next children below
end

/-- Going down from `branches` over readers that are read in this order leads to a branch. -/
inductive At : List (Branch Ctx) → List (Reader Ctx) → Branch Ctx → Prop
  | here {branches : List (Branch Ctx)} {branch : Branch Ctx} (member : branch ∈ branches) :
      At branches branch.readers branch
  | under {branches : List (Branch Ctx)} {branch target : Branch Ctx}
      {readers : List (Reader Ctx)} (member : branch ∈ branches)
      (rest : At branch.children readers target) : At branches (branch.readers ++ readers) target

theorem exists_at {branches : List (Branch Ctx)} {target : Branch Ctx}
    (inside : target ∈ preorderAll branches) : ∃ readers, At branches readers target := by
  obtain ⟨branch, member, below⟩ := mem_preorderAll.mp inside
  clear inside
  induction branch generalizing branches with
  | mk id readers children rule owner ih =>
    rcases List.mem_cons.mp below with rfl | below
    · exact ⟨readers, .here member⟩
    · obtain ⟨child, inChildren, below⟩ := mem_preorderAll.mp below
      obtain ⟨more, rest⟩ := ih child inChildren inChildren below
      exact ⟨readers ++ more, .under member rest⟩

variable {branches : List (Branch Ctx)} {readers : List (Reader Ctx)} {target : Branch Ctx}

theorem Proper.children {branch : Branch Ctx} (proper : branch.Proper) :
    ProperAll branch.children := by
  obtain ⟨id, readers, children, rule, owner⟩ := branch
  exact proper.2.2.2

theorem At.proper (reached : At branches readers target) (proper : ProperAll branches) :
    target.Proper ∧ readers.map Reader.id ≠ [] := by
  induction reached with
  | here member =>
    have own := proper.of_mem member
    exact ⟨own, own.path_ne_nil⟩
  | under member rest ih =>
    have own := proper.of_mem member
    refine ⟨(ih own.children).1, fun none => own.path_ne_nil ?_⟩
    rw [List.map_append] at none
    exact (List.append_eq_nil_iff.mp none).1

/-- The owner of a branch is the first of the rules that lead through it. -/
theorem At.leads (reached : At branches readers target) (proper : ProperAll branches) :
    Leads (waysAll branches) (readers.map Reader.id) target.owner := by
  induction reached with
  | here member =>
    exact leads_here proper member (proper.of_mem member).path_ne_nil (List.prefix_refl _)
  | under member rest ih =>
    have inner := (proper.of_mem member).children
    rw [List.map_append]
    exact leads_below proper member (rest.proper inner).2 (ih inner)

/-- The branches that complete a rule are the ends of the ways. -/
theorem exists_at_iff {rule : Nat} :
    (∃ target, At branches readers target ∧ target.rule = some rule) ↔
      ∃ way ∈ waysAll branches, way.steps.map (·.1) = readers ∧ way.rule = rule := by
  constructor
  · rintro ⟨target, reached, completes⟩
    induction reached with
    | @here branches branch member =>
      refine ⟨.behind (branch.readers.map (·, branch.owner)) ⟨[], rule⟩, ?_, ?_, rfl⟩
      · exact mem_waysAll.mpr ⟨branch, member, mem_ways.mpr ⟨_, .inr ⟨rfl, completes⟩, rfl⟩⟩
      · simp
    | @under branches branch target readers member rest ih =>
      obtain ⟨way, among, steps, ends⟩ := ih completes
      refine ⟨way.behind (branch.readers.map (·, branch.owner)), ?_, ?_, ends⟩
      · exact mem_waysAll.mpr ⟨branch, member, mem_ways.mpr ⟨way, .inl among, rfl⟩⟩
      · rw [Way.behind_readers, steps]
  · rintro ⟨way, among, rfl, rfl⟩
    obtain ⟨branch, member, through⟩ := mem_waysAll.mp among
    clear among
    induction branch generalizing branches way with
    | mk id readers children completed owner ih =>
      obtain ⟨inner, origin, rfl⟩ := mem_ways.mp through
      rw [Way.behind_readers]
      rcases origin with below | ⟨none, completes⟩
      · obtain ⟨child, inChildren, further⟩ := mem_waysAll.mp below
        obtain ⟨target, rest, completes⟩ := ih child inChildren inner inChildren further
        exact ⟨target, .under member rest, completes⟩
      · refine ⟨_, ?_, completes⟩
        rw [none, List.map_nil, List.append_nil]
        exact .here member

/-- The numbers of the children. -/
def references (branch : Branch Ctx) : List Nat := branch.children.map Branch.id

private theorem perm_numbers_of {branches : List (Branch Ctx)}
    (each : ∀ branch ∈ branches,
      (branch.id :: branch.preorder.flatMap references).Perm (branch.preorder.map Branch.id)) :
    (branches.map Branch.id ++ (preorderAll branches).flatMap references).Perm
      (numbers branches) := by
  induction branches with
  | nil => exact .nil
  | cons branch rest ih =>
    have first := each branch (List.mem_cons_self ..)
    have others := ih fun b member => each b (List.mem_cons_of_mem _ member)
    refine List.perm_iff_count.mpr fun number => ?_
    have here := first.count_eq number
    have behind := others.count_eq number
    simp only [numbers, preorderAll, List.map_cons, List.map_append, List.flatMap_append,
      List.count_append, List.count_cons] at here behind ⊢
    omega

/-- Every branch below is a child of one branch. -/
theorem perm_numbers (branches : List (Branch Ctx)) :
    (branches.map Branch.id ++ (preorderAll branches).flatMap references).Perm
      (numbers branches) := by
  refine perm_numbers_of fun branch member => ?_
  clear member
  induction branch with
  | mk id readers children rule owner ih =>
    have below := perm_numbers_of fun child member => ih child member
    simp only [preorder, List.flatMap_cons, List.map_cons]
    exact below.cons id

end Branch

namespace Forest

/-- The numbers that the lists of roots and the lists of children refer to. -/
def references (forest : Forest Ctx) : List Nat :=
  forest.allRoots.map Branch.id ++ forest.branches.flatMap Branch.references

variable {forest : Forest Ctx}

theorem perm_branches (forest : Forest Ctx) :
    forest.branches.Perm (Branch.preorderAll forest.allRoots) := by
  refine (List.mergeSort_perm _ _).trans (.of_eq ?_)
  simp [allRoots, Branch.preorderAll_eq_flatMap, List.flatMap_assoc]

theorem perm_references (forest : Forest Ctx) :
    forest.references.Perm (Branch.numbers forest.allRoots) :=
  ((forest.perm_branches.flatMap_right _).append_left _).trans
    (Branch.perm_numbers forest.allRoots)

theorem map_id_branches (perm : (Branch.numbers forest.allRoots).Perm (List.range forest.size)) :
    forest.branches.map Branch.id = List.range forest.size := by
  have sorted : (forest.branches.map Branch.id).Pairwise (· ≤ ·) := by
    refine List.pairwise_map.mpr ((List.pairwise_mergeSort ?_ ?_ _).imp of_decide_eq_true)
    · intro a b c first second
      exact decide_eq_true (Nat.le_trans (of_decide_eq_true first) (of_decide_eq_true second))
    · intro a b
      simpa using Nat.le_total a.id b.id
  have same : (forest.branches.map Branch.id).Perm (List.range forest.size) :=
    (forest.perm_branches.map _).trans perm
  exact same.eq_of_pairwise (fun a b _ _ => Nat.le_antisymm) sorted
    (List.pairwise_lt_range.imp Nat.le_of_lt)

/-- A forest of the given rules. Identity of readers is by number, and so is that of branches. -/
structure WellFormed (rules : List (Rule Ctx)) (forest : Forest Ctx) : Prop where
  numbered : forest.branches.map Branch.id = List.range forest.size
  /-- Roots and children together refer to every branch once. -/
  referred : forest.references.Perm (List.range forest.size)
  reached : ∀ branch ∈ forest.branches, ∃ stage readers,
    (∀ name, stage = some name → name ∈ forest.stages) ∧
      Branch.At (forest.roots stage) readers branch
  reads : ∀ branch ∈ forest.branches, branch.readers ≠ []
  branching : ∀ branch ∈ forest.branches, branch.rule = none → 2 ≤ branch.children.length
  /-- Siblings start with different readers and have increasing owners. -/
  children : ∀ branch ∈ forest.branches, branch.children.Pairwise Branch.Apart
  roots : ∀ stage, (forest.roots stage).Pairwise Branch.Apart
  /-- A branch belongs to the first of the rules that lead through it. -/
  owned : ∀ stage readers branch, Branch.At (forest.roots stage) readers branch →
    leader? (activeRules rules stage) (readers.map Reader.id) = some branch.owner
  /-- The rules that end in the trie of a stage are those that are active in it, each behind its
  steps, without those whose steps an earlier one has. -/
  content : ∀ stage readers number,
    (∃ branch, Branch.At (forest.roots stage) readers branch ∧ branch.rule = some number) ↔
      ∃ x ∈ unshadowed (activeRules rules stage), x.1.reader.steps = readers ∧ x.2 = number

variable {rules : List (Rule Ctx)} {initialStage : Option String}

private theorem exists_root (nodup : forest.stages.Nodup) {branch : Branch Ctx}
    (member : branch ∈ forest.branches) :
    ∃ stage, (∀ name, stage = some name → name ∈ forest.stages) ∧
      branch ∈ Branch.preorderAll (forest.roots stage) := by
  obtain ⟨root, among, below⟩ :=
    Branch.mem_preorderAll.mp (forest.perm_branches.mem_iff.mp member)
  rcases List.mem_append.mp among with staged | stageless
  · obtain ⟨trie, listed, inside⟩ := List.mem_flatMap.mp staged
    refine ⟨some trie.1, ?_, Branch.mem_preorderAll.mpr ⟨root, ?_, below⟩⟩
    · rintro name ⟨⟩
      exact List.mem_map_of_mem listed
    · rwa [roots_of_mem nodup listed]
  · exact ⟨none, by simp, Branch.mem_preorderAll.mpr ⟨root, stageless, below⟩⟩

private theorem branching_roots (rules : List (Rule Ctx)) (initialStage stage : Option String) :
    ∀ root ∈ (ofRules rules initialStage).roots stage, root.Branching := by
  obtain ⟨tries, stageless⟩ := each_ofRules rules initialStage (by simp)
    fun rule _ index next branches =>
      Branch.branching_insertAll rule.reader.steps index next branches
  exact holds_roots (motive := fun branches => ∀ branch ∈ branches, branch.Branching) tries
    stageless stage

/-- Readers with the identities of the steps of a rule are the steps of the rule. -/
private theorem readers_eq_steps (identified : Reader.Identified (rules.map (·.reader)))
    {stage : Option String} {way : Way Ctx}
    (among : way ∈ Branch.waysAll ((ofRules rules initialStage).roots stage))
    {x : Rule Ctx × Nat} (listed : x ∈ unshadowed (activeRules rules stage))
    (same : x.1.path = way.path) : way.steps.map (·.1) = x.1.reader.steps := by
  have known : x.1 ∈ rules :=
    List.fst_mem_of_mem_zipIdx (List.mem_filter.mp (List.mem_filter.mp listed).1).1
  have inside : ∀ rule ∈ rules, ∀ step ∈ rule.reader.steps,
      step ∈ Reader.partsAll (rules.map (·.reader)) := fun rule member step among =>
    Reader.parts_subset_partsAll (List.mem_map_of_mem member)
      (Reader.parts_subset_of_mem_steps among (Reader.self_mem_parts step))
  refine Reader.eq_of_map_id identified (fun reader member => ?_) (inside x.1 known) ?_
  · obtain ⟨step, inSteps, rfl⟩ := List.mem_map.mp member
    obtain ⟨branch, inBranches, through⟩ := Branch.mem_waysAll.mp among
    have each := (eachReader_ofRules inside initialStage).roots stage branch inBranches
    exact Branch.holds_of_mem_ways each way through step inSteps
  · simpa [Way.path, Rule.path, Function.comp_def] using same.symm

private theorem exists_way_iff (identified : Reader.Identified (rules.map (·.reader)))
    {stage : Option String}
    (tracks : Tracks (activeRules rules stage) ((ofRules rules initialStage).roots stage))
    {readers : List (Reader Ctx)} {number : Nat} :
    (∃ way ∈ Branch.waysAll ((ofRules rules initialStage).roots stage),
        way.steps.map (·.1) = readers ∧ way.rule = number) ↔
      ∃ x ∈ unshadowed (activeRules rules stage), x.1.reader.steps = readers ∧ x.2 = number := by
  constructor
  · rintro ⟨way, among, rfl, rfl⟩
    have entry := tracks.entries.mem_iff.mp (List.mem_map_of_mem among)
    obtain ⟨x, listed, equal⟩ := List.mem_map.mp entry
    obtain ⟨path, rule⟩ := Prod.mk.inj equal
    exact ⟨x, listed, (readers_eq_steps identified among listed path).symm, rule⟩
  · rintro ⟨x, listed, rfl, rfl⟩
    have entry := tracks.entries.mem_iff.mpr (List.mem_map_of_mem listed)
    obtain ⟨way, among, equal⟩ := List.mem_map.mp entry
    obtain ⟨path, rule⟩ := Prod.mk.inj equal
    exact ⟨way, among, readers_eq_steps identified among listed path.symm, rule⟩

/-- The tries of a list of rules are a forest that holds the rules of every stage. -/
theorem ofRules_wellFormed (rules : List (Rule Ctx)) (initialStage : Option String)
    (built : ∀ rule ∈ rules, rule.reader.Built)
    (identified : Reader.Identified (rules.map (·.reader))) :
    (ofRules rules initialStage).WellFormed rules := by
  have steps : ∀ rule ∈ rules, rule.reader.steps ≠ [] := fun rule member =>
    (built rule member).steps_ne_nil
  have tracks (stage : Option String) := tracks_roots initialStage steps stage
  have numbers := counted_ofRules rules initialStage
  have nodup := nodup_stages_ofRules rules initialStage
  have proper {branch : Branch Ctx} (member : branch ∈ (ofRules rules initialStage).branches) :
      branch.Proper := by
    obtain ⟨stage, -, inside⟩ := exists_root nodup member
    obtain ⟨readers, reached⟩ := Branch.exists_at inside
    exact (reached.proper (tracks stage).proper).1
  refine ⟨map_id_branches numbers, (perm_references _).trans numbers, ?_, ?_, ?_, ?_, ?_, ?_, ?_⟩
  · intro branch member
    obtain ⟨stage, known, inside⟩ := exists_root nodup member
    obtain ⟨readers, reached⟩ := Branch.exists_at inside
    exact ⟨stage, readers, known, reached⟩
  · intro branch member none
    exact (proper member).path_ne_nil (by rw [Branch.path, none, List.map_nil])
  · intro branch member
    obtain ⟨stage, -, inside⟩ := exists_root nodup member
    obtain ⟨root, among, below⟩ := Branch.mem_preorderAll.mp inside
    exact branching_roots rules initialStage stage root among branch below
  · exact fun branch member => (proper member).children.pairwise
  · exact fun stage => (tracks stage).proper.pairwise
  · intro stage readers branch reached
    exact (tracks stage).leader?_of_leads (reached.leads (tracks stage).proper)
  · intro stage readers number
    rw [Branch.exists_at_iff]
    exact exists_way_iff identified (tracks stage)

/-- The word `let`, alone in one stage only and twice there, and with something behind it. -/
def letRules : List (Rule Unit) :=
  let word : Reader Unit := .text 1 [108, 101, 116]
  [{ tokenType := "LetWs", reader := .inOrder 4 [word, .text 2 [32]] },
    { tokenType := "Let", reader := word, activity := .inStages ["S"] },
    { tokenType := "LetX", reader := .inOrder 5 [word, .text 3 [120]] },
    { tokenType := "Again", reader := word, activity := .inStages ["S"] }]

/-- Without a stage the word only leads on; in stage `S` it completes a rule as well. -/
theorem ofRules_wellFormed_letRules :
    let shape (branch : Branch Unit) := (branch.id, branch.rule, branch.owner, branch.references)
    let forest := ofRules letRules none
    forest.WellFormed letRules ∧ forest.size = 6 ∧
      (Branch.preorderAll (forest.roots (some "S"))).map shape =
        [(2, some 1, 0, [0, 3]), (0, some 0, 0, []), (3, some 2, 2, [])] ∧
      (Branch.preorderAll (forest.roots none)).map shape =
        [(4, none, 0, [1, 5]), (1, some 0, 0, []), (5, some 2, 2, [])] := by
  intro shape forest
  have word : (Reader.text 1 [108, 101, 116] : Reader Unit).Built := .text 1 _
  have pair (id : Nat) {a b : Reader Unit} (first : a.Built) (second : b.Built) :
      (Reader.inOrder id [a, b]).Built :=
    .inOrder id [a, b] (by simpa using ⟨first, second⟩)
  have built : ∀ rule ∈ letRules, rule.reader.Built := by
    intro rule member
    simp only [letRules, List.mem_cons, List.not_mem_nil, or_false] at member
    rcases member with rfl | rfl | rfl | rfl
    · exact pair 4 word (.text 2 [32])
    · exact word
    · exact pair 5 word (.text 3 [120])
    · exact word
  have identified : Reader.Identified (letRules.map (·.reader)) := by
    let word : Reader Unit := .leaf 1 (.text [108, 101, 116])
    let blank : Reader Unit := .leaf 2 (.text [32])
    let letter : Reader Unit := .leaf 3 (.text [120])
    have parts : Reader.partsAll (letRules.map (·.reader)) =
        [.sequence 4 [word, blank], word, blank, word, .sequence 5 [word, letter], word, letter,
          word] := rfl
    have within : Reader.partsAll (letRules.map (·.reader)) ⊆
        [.sequence 4 [word, blank], word, blank, .sequence 5 [word, letter], letter] := by
      rw [parts]
      simp
    exact .of_nodup within (by decide)
  exact ⟨ofRules_wellFormed letRules none built identified, by decide +kernel⟩

end Forest

end StagedLexer
