import StagedLexer.Proofs.Renumbering
import StagedLexer.Proofs.RulePriority

/-! A rule behind one that has the same steps and is active wherever it is. Such a rule never wins,
and it leaves the order of the other rules as it is. It may make a stage known, which then has a
trie of its own instead of the trie without a stage; but both hold the same rules. So a tokenizer
with the rule and one without it report the same. -/
namespace StagedLexer

variable {Ctx : Type}

/-- The number of a rule when another rule is put in at `place`. -/
def numberAround (place number : Nat) : Nat := if number < place then number else number + 1

theorem numberAround_lt_iff (place a b : Nat) :
    numberAround place a < numberAround place b ↔ a < b := by
  unfold numberAround
  split <;> split <;> omega

theorem numberAround_le_iff (place a b : Nat) :
    numberAround place a ≤ numberAround place b ↔ a ≤ b := by
  rw [← Nat.not_lt, numberAround_lt_iff, Nat.not_lt]

section

private def around (place : Nat) (x : Rule Ctx × Nat) : Rule Ctx × Nat :=
  (x.1, numberAround place x.2)

/-- The rules with others put in between them. -/
private def amid (place : Nat) (first hidden second : List (Rule Ctx × Nat)) :
    List (Rule Ctx × Nat) :=
  first.map (around place) ++ hidden ++ second.map (around place)

variable {place : Nat} {first hidden second : List (Rule Ctx × Nat)}

private theorem around_mem_amid {x : Rule Ctx × Nat} (member : x ∈ first ++ second) :
    around place x ∈ amid place first hidden second := by
  rcases List.mem_append.mp member with front | behind
  · exact List.mem_append_left _ (List.mem_append_left _ (List.mem_map_of_mem front))
  · exact List.mem_append_right _ (List.mem_map_of_mem behind)

private theorem shadows_around (x y : Rule Ctx × Nat) :
    shadows (around place x) (around place y) = shadows x y := by
  simp [shadows, around, numberAround_lt_iff]

variable (hides : ∀ y ∈ hidden, ∃ x ∈ first ++ second, shadows (around place x) y)

include hides

/-- For every rule of the longer list there is one of the shorter list that has the same steps and
comes no later. -/
private theorem exists_around {y : Rule Ctx × Nat} (member : y ∈ amid place first hidden second) :
    ∃ x ∈ first ++ second, x.1.path = y.1.path ∧ numberAround place x.2 ≤ y.2 := by
  rcases List.mem_append.mp member with front | behind
  · rcases List.mem_append.mp front with old | new
    · obtain ⟨x, among, rfl⟩ := List.mem_map.mp old
      exact ⟨x, List.mem_append_left _ among, rfl, Nat.le_refl _⟩
    · obtain ⟨x, among, earlier⟩ := hides y new
      obtain ⟨lt, same⟩ := shadows_iff.mp earlier
      exact ⟨x, among, same, Nat.le_of_lt lt⟩
  · obtain ⟨x, among, rfl⟩ := List.mem_map.mp behind
    exact ⟨x, List.mem_append_right _ among, rfl, Nat.le_refl _⟩

private theorem leader?_amid (path : List Nat) :
    leader? (amid place first hidden second) path =
      (leader? (first ++ second) path).map (numberAround place) := by
  cases found : leader? (first ++ second) path with
  | none =>
    refine leader?_eq_none_iff.mpr fun y member begins => ?_
    obtain ⟨x, among, same, -⟩ := exists_around hides member
    exact leader?_eq_none_iff.mp found x among (same ▸ begins)
  | some rule =>
    obtain ⟨⟨x, among, begins, rfl⟩, least⟩ := leader?_eq_some_iff.mp found
    refine leader?_eq_some_iff.mpr ⟨⟨_, around_mem_amid among, begins, rfl⟩, ?_⟩
    intro y member begins
    obtain ⟨z, among, same, le⟩ := exists_around hides member
    have first := least z among (same ▸ begins)
    exact Nat.le_trans ((numberAround_le_iff ..).mpr first) le

private theorem shadowed_amid (x : Rule Ctx × Nat) :
    (amid place first hidden second).any (shadows · (around place x)) =
      (first ++ second).any (shadows · x) := by
  rw [Bool.eq_iff_iff, List.any_eq_true, List.any_eq_true]
  constructor
  · rintro ⟨y, member, earlier⟩
    obtain ⟨z, among, same, le⟩ := exists_around hides member
    obtain ⟨lt, path⟩ := shadows_iff.mp earlier
    have number := (numberAround_lt_iff place z.2 x.2).mp (Nat.lt_of_le_of_lt le lt)
    exact ⟨z, among, shadows_iff.mpr ⟨number, same.trans path⟩⟩
  · rintro ⟨y, member, earlier⟩
    exact ⟨around place y, around_mem_amid member, (shadows_around y x).trans earlier⟩

private theorem unshadowed_amid :
    unshadowed (amid place first hidden second) =
      (unshadowed (first ++ second)).map (around place) := by
  have none : hidden.filter
      (fun y => !(amid place first hidden second).any (shadows · y)) = [] := by
    refine List.filter_eq_nil_iff.mpr fun y member => ?_
    obtain ⟨x, among, earlier⟩ := hides y member
    have shadowed : (amid place first hidden second).any (shadows · y) :=
      List.any_eq_true.mpr ⟨_, around_mem_amid among, earlier⟩
    simp [shadowed]
  have same (xs : List (Rule Ctx × Nat)) : (xs.map (around place)).filter
      (fun y => !(amid place first hidden second).any (shadows · y)) =
        (xs.filter fun x => !(first ++ second).any (shadows · x)).map (around place) := by
    rw [List.filter_map]
    congr 2
    funext x
    rw [Function.comp_apply, shadowed_amid hides]
  rw [unshadowed]
  nth_rewrite 2 [amid]
  rw [List.filter_append, List.filter_append, none, same, same, unshadowed, List.append_nil,
    ← List.map_append, ← List.filter_append]

private theorem Precedes.amid {x y : Rule Ctx × Nat} (precedes : Precedes (first ++ second) x y) :
    Precedes (amid place first hidden second) (around place x) (around place y) := by
  rcases precedes with longer | ⟨shared, a, b, i, j, inX, inY, differ, leadsA, leadsB, lt⟩
  · exact .inl longer
  · refine .inr ⟨shared, a, b, numberAround place i, numberAround place j, inX, inY, differ, ?_, ?_,
      (numberAround_lt_iff ..).mpr lt⟩
    · rw [leader?_amid hides, leadsA, Option.map_some]
    · rw [leader?_amid hides, leadsB, Option.map_some]

private theorem verdict_amid (text : Bytes) (ctx : Ctx) (start : Nat) (x : Rule Ctx × Nat) :
    verdict (amid place first hidden second) text ctx start (around place x) =
      (verdict (first ++ second) text ctx start x).renumber (numberAround place) := by
  simp only [verdict, around]
  cases x.1.reader.read text ctx start with
  | matched stop =>
    simp only
    split <;> rfl
  | noMatch | endless => rfl
  | failed code =>
    simp only [leader?_amid hides, Outcome.renumber, Option.getD_map]

private theorem evaluate_amid (text : Bytes) (ctx : Ctx) (start : Nat)
    (order : List (Rule Ctx × Nat)) :
    evaluate (amid place first hidden second) text ctx start (order.map (around place)) =
      (evaluate (first ++ second) text ctx start order).renumber (numberAround place) := by
  induction order with
  | nil => rfl
  | cons x rest ih =>
    rw [List.map_cons, evaluate, evaluate, verdict_amid hides, ih, Outcome.renumber_orElse]

end

/-- The rules have the same steps, and the first one is active wherever the second one is. -/
structure Rule.Covers (first second : Rule Ctx) : Prop where
  path : first.path = second.path
  active : ∀ stage, second.isActiveIn stage → first.isActiveIn stage

private theorem activeRules_behind (before behind : List (Rule Ctx)) (stage : Option String) :
    activeRules (before ++ behind) stage =
      activeRules before stage ++ (behind.zipIdx before.length).filter (·.1.isActiveIn stage) := by
  rw [activeRules, List.zipIdx_append, List.filter_append, Nat.zero_add]
  rfl

private theorem activeRules_insert (before behind : List (Rule Ctx)) (rule : Rule Ctx)
    (stage : Option String) :
    activeRules (before ++ rule :: behind) stage =
      amid before.length (activeRules before stage)
        ([(rule, before.length)].filter (·.1.isActiveIn stage))
        ((behind.zipIdx before.length).filter (·.1.isActiveIn stage)) := by
  have front : (activeRules before stage).map (around before.length) =
      activeRules before stage := by
    refine (List.map_congr_left fun x member => ?_).trans (List.map_id _)
    have small := List.snd_lt_of_mem_zipIdx (List.mem_filter.mp member).1
    exact Prod.ext rfl (if_pos small)
  have back : (behind.zipIdx (before.length + 1)).filter (·.1.isActiveIn stage) =
      ((behind.zipIdx before.length).filter (·.1.isActiveIn stage)).map (around before.length) := by
    rw [List.zipIdx_succ, List.filter_map]
    refine List.map_congr_left fun x member => ?_
    have large := List.le_snd_of_mem_zipIdx (List.mem_filter.mp member).1
    exact Prod.ext rfl (if_neg (Nat.not_lt.mpr large)).symm
  rw [activeRules_behind, List.zipIdx_cons, amid, front, ← back, List.append_assoc,
    ← List.filter_append]
  rfl

/-- Putting a covered rule in changes the numbers of the rules only. -/
private theorem attemptAll_roots_insert {before behind : List (Rule Ctx)} {rule cover : Rule Ctx}
    (initialStage : Option String) (inFront : cover ∈ before) (covers : cover.Covers rule)
    (built : ∀ r ∈ before ++ rule :: behind, r.reader.Built)
    (identified : Reader.Identified ((before ++ rule :: behind).map (·.reader)))
    (stage : Option String) (text : Bytes) (ctx : Ctx) (start : Nat) :
    Branch.attemptAll text ctx start start
        ((Forest.ofRules (before ++ rule :: behind) initialStage).roots stage) =
      (Branch.attemptAll text ctx start start
        ((Forest.ofRules (before ++ behind) initialStage).roots stage)).renumber
          (numberAround before.length) := by
  let first := activeRules before stage
  let second := (behind.zipIdx before.length).filter (·.1.isActiveIn stage)
  have others : before ++ behind ⊆ before ++ rule :: behind :=
    ((List.sublist_cons_self rule behind).append_left before).subset
  have hides : ∀ y ∈ [(rule, before.length)].filter (·.1.isActiveIn stage),
      ∃ x ∈ first ++ second, shadows (around before.length x) y := by
    intro y member
    obtain ⟨only, active⟩ := List.mem_filter.mp member
    obtain rfl := List.mem_singleton.mp only
    obtain ⟨number, inside, at_number⟩ := List.mem_iff_getElem.mp inFront
    have listed : (cover, number) ∈ before.zipIdx :=
      List.mem_zipIdx_iff_getElem?.mpr (at_number ▸ List.getElem?_eq_getElem inside)
    have among : (cover, number) ∈ first :=
      List.mem_filter.mpr ⟨listed, covers.active stage active⟩
    refine ⟨_, List.mem_append_left _ among, shadows_iff.mpr ⟨?_, covers.path⟩⟩
    rw [around, numberAround, if_pos inside]
    exact inside
  obtain ⟨order, perm, ordered, evaluated⟩ :=
    Forest.exists_order initialStage (fun r member => built r (others member))
      (identified.subset (List.map_subset _ others)) stage
  obtain ⟨order', perm', ordered', evaluated'⟩ :=
    Forest.exists_order initialStage built identified stage
  rw [activeRules_insert] at perm' ordered' evaluated'
  rw [activeRules_behind] at perm ordered evaluated
  -- The order of the shorter list, renumbered, respects the precedence of the longer one.
  obtain rfl : order' = order.map (around before.length) := by
    refine Precedes.order_unique ordered' ?_ (perm'.trans ?_)
    · exact List.pairwise_map.mpr (ordered.imp fun precedes => precedes.amid hides)
    · rw [unshadowed_amid hides]
      exact (perm.map _).symm
  rw [evaluated, evaluated', evaluate_amid hides]

private theorem renumbers_insert {before behind : List (Rule Ctx)} {rule cover : Rule Ctx}
    (initialStage : Option String) (inFront : cover ∈ before) (covers : cover.Covers rule)
    (built : ∀ r ∈ before ++ rule :: behind, r.reader.Built)
    (identified : Reader.Identified ((before ++ rule :: behind).map (·.reader))) :
    Lexicon.Renumbers (numberAround before.length)
      ⟨(before ++ behind).toArray, .ofRules (before ++ behind) initialStage⟩
      ⟨(before ++ rule :: behind).toArray, .ofRules (before ++ rule :: behind) initialStage⟩ := by
  refine ⟨fun text ctx pos stage => ?_, fun number => ?_⟩
  · exact attemptAll_roots_insert initialStage inFront covers built identified stage text ctx pos
  · simp only [List.getElem?_toArray, numberAround]
    split
    · next small => rw [List.getElem?_append_left small, List.getElem?_append_left small]
    · next large =>
      have large := Nat.not_lt.mp large
      rw [List.getElem?_append_right large, List.getElem?_append_right (by omega),
        Nat.succ_sub large, List.getElem?_cons_succ]

/-- Where more rules refer to stages, the initial stage is still known. -/
theorem Settings.unknownStage?_of_subset {settings other : Settings Ctx}
    (start : other.initialStage = settings.initialStage) (more : settings.rules ⊆ other.rules)
    (known : settings.unknownStage? = none) : other.unknownStage? = none := by
  simp only [unknownStage?, Option.filter_eq_none_iff, start] at known ⊢
  intro stage initial
  obtain ⟨rule, among, refers⟩ : ∃ rule ∈ settings.rules, stage ∈ rule.stages := by
    simpa using known stage initial
  simpa using ⟨rule, more among, refers⟩

/-- With a rule more, behind one that covers it, a tokenizer reports the same and leaves the same
states behind, in every run of calls from any state. -/
theorem Tokenizer.covered_rule_changes_nothing (settings other : Settings Ctx)
    (before behind : List (Rule Ctx)) (rule cover : Rule Ctx)
    (rules : settings.rules = before ++ behind)
    (otherRules : other.rules = before ++ rule :: behind)
    (start : other.initialStage = settings.initialStage)
    (inFront : cover ∈ before) (covers : cover.Covers rule)
    (built : ∀ r ∈ other.rules, r.reader.Built)
    (identified : Reader.Identified (other.rules.map (·.reader)))
    {tokenizer : Tokenizer Ctx} (made : settings.build = .ok tokenizer) :
    ∃ longer, other.build = .ok longer ∧
      ∀ (ctx : Ctx) (state : Option StreamState) (calls : List StreamCall),
        (longer.callAllFrom ctx state calls).events =
            (tokenizer.callAllFrom ctx state calls).events ∧
          (longer.callAllFrom ctx state calls).result =
            (tokenizer.callAllFrom ctx state calls).result := by
  have more : settings.rules ⊆ other.rules := by
    rw [rules, otherRules]
    exact (List.sublist_cons_self rule behind).append_left before |>.subset
  have known := Settings.exists_build_iff.mp ⟨tokenizer, made⟩
  obtain ⟨longer, made'⟩ :=
    Settings.exists_build_iff.mpr (Settings.unknownStage?_of_subset start more known)
  obtain ⟨lexicon, stage⟩ := Settings.of_build made
  obtain ⟨lexicon', stage'⟩ := Settings.of_build made'
  have renumbers : tokenizer.lexicon.Renumbers (numberAround before.length) longer.lexicon := by
    rw [lexicon, lexicon', rules, otherRules, start]
    rw [otherRules] at built identified
    exact renumbers_insert settings.initialStage inFront covers built identified
  refine ⟨longer, made', fun ctx state calls => ?_⟩
  have alike := callAllFrom_alike renumbers (by rw [stage, stage', start]) ctx state calls
  exact ⟨alike.events, alike.result⟩

/-- The rule that is put in is the only one to name the stage in which the stream starts. -/
theorem Tokenizer.covered_rule_names_stage :
    let letter : Rule Unit := { tokenType := "a", reader := .text 1 [97] }
    let other : Rule Unit := { tokenType := "b", reader := .text 2 [98] }
    let covered : Rule Unit := (letter.on ["inner"]).goingTo "inner"
    let calls : List StreamCall := [.write #[97, 98], .finish, .write #[97], .finish]
    ∃ tokenizer longer, ({ rules := [letter, other] } : Settings Unit).build = .ok tokenizer ∧
      ({ rules := [letter, covered, other] } : Settings Unit).build = .ok longer ∧
      tokenizer.stages = [] ∧ longer.stages = ["inner"] ∧
      (longer.callAllFrom () (some { stage := some "inner" }) calls).events =
        #[.token "a" ⟨0, 1⟩, .token "b" ⟨1, 2⟩, .token "a" ⟨2, 3⟩] := by
  intro letter other covered calls
  have built : ∀ r ∈ [letter, covered, other], r.reader.Built := by
    intro r member
    simp only [List.mem_cons, List.not_mem_nil, or_false] at member
    rcases member with rfl | rfl | rfl
    · exact .text 1 [97]
    · exact .text 1 [97]
    · exact .text 2 [98]
  have identified : Reader.Identified ([letter, covered, other].map (·.reader)) := by
    have parts : Reader.partsAll ([letter, covered, other].map (·.reader)) =
        [.leaf 1 (.text [97]), .leaf 1 (.text [97]), .leaf 2 (.text [98])] := rfl
    have within : Reader.partsAll ([letter, covered, other].map (·.reader)) ⊆
        [.leaf 1 (.text [97]), .leaf 2 (.text [98])] := by
      rw [parts]
      simp
    exact .of_nodup within (by decide)
  have covers : letter.Covers covered := ⟨rfl, fun _ _ => rfl⟩
  obtain ⟨longer, made, alike⟩ :=
    covered_rule_changes_nothing { rules := [letter, other] }
      { rules := [letter, covered, other] } [letter] [other] covered letter rfl rfl rfl
      (List.mem_singleton_self _) covers built identified rfl
  refine ⟨_, longer, rfl, made, by decide +kernel, ?_, ?_⟩
  · cases made
    decide +kernel
  · rw [(alike () (some { stage := some "inner" }) calls).1]
    decide +kernel

end StagedLexer
