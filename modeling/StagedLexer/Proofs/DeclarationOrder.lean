import StagedLexer.Proofs.RulePriority

/-! Which of several matching rules wins. The trie of a stage tries the rules in the order of their
precedence, which follows the order of declaration except where rules share steps: a later rule
comes in front of an earlier one if it goes on behind its steps, and also if it shares a step with a
rule that is declared even earlier. -/
namespace StagedLexer

variable {Ctx : Type}

/-- The rule matches at position `start` up to `stop` and moves on. -/
def Rule.Accepts (rule : Rule Ctx) (text : Bytes) (ctx : Ctx) (start stop : Nat) : Prop :=
  rule.reader.read text ctx start = .matched stop ∧ start < stop

/-- The reading ends with a match or without one. -/
def Reading.Regular (reading : Reading) : Prop :=
  reading = .noMatch ∨ ∃ stop, reading = .matched stop

section

variable {active order : List (Rule Ctx × Nat)} {text : Bytes} {ctx : Ctx} {start : Nat}

private theorem verdict_of_accepts {x : Rule Ctx × Nat} {stop : Nat}
    (accepts : x.1.Accepts text ctx start stop) :
    verdict active text ctx start x = .matched x.2 stop := by
  rw [verdict, accepts.1]
  exact if_pos accepts.2

variable (active) in
private theorem verdict_regular {x : Rule Ctx × Nat}
    (regular : (x.1.reader.read text ctx start).Regular) :
    verdict active text ctx start x = .noMatch ∨ ∃ stop, x.1.Accepts text ctx start stop := by
  rcases regular with none | ⟨stop, found⟩
  · left
    rw [verdict, none]
  · by_cases moves : start < stop
    · exact .inr ⟨stop, found, moves⟩
    · left
      rw [verdict, found]
      exact if_neg moves

variable (active) in
/-- Of rules that are tried in order the first one that matches wins, and the other ones that match
come behind it. -/
private theorem evaluate_first {before : Rule Ctx × Nat → Rule Ctx × Nat → Prop}
    (ordered : order.Pairwise before)
    (regular : ∀ x ∈ order, (x.1.reader.read text ctx start).Regular)
    {x : Rule Ctx × Nat} (member : x ∈ order) {stop : Nat}
    (accepts : x.1.Accepts text ctx start stop) :
    ∃ y ∈ order, ∃ stop', y.1.Accepts text ctx start stop' ∧
      evaluate active text ctx start order = .matched y.2 stop' ∧
      ∀ w ∈ order, ∀ stop', w.1.Accepts text ctx start stop' → w = y ∨ before y w := by
  induction order with
  | nil => cases member
  | cons first rest ih =>
    obtain ⟨ahead, others⟩ := List.pairwise_cons.mp ordered
    -- If the first rule gives no match it does not accept, and the answer is among the others.
    rcases verdict_regular active (regular first (by simp)) with none | ⟨stop', chosen⟩
    · have apart (w : Rule Ctx × Nat) (stop' : Nat) (found : w.1.Accepts text ctx start stop')
          (among : w ∈ first :: rest) : w ∈ rest := by
        rcases List.mem_cons.mp among with rfl | behind
        · rw [verdict_of_accepts found] at none
          cases none
        · exact behind
      obtain ⟨y, inRest, stop', chosen, result, behind⟩ :=
        ih others (fun x among => regular x (List.mem_cons_of_mem _ among))
          (apart x stop accepts member)
      refine ⟨y, List.mem_cons_of_mem _ inRest, stop', chosen, ?_, fun w among stop' found => ?_⟩
      · rw [evaluate, none]
        exact result
      · exact behind w (apart w stop' found among) stop' found
    · refine ⟨first, by simp, stop', chosen, ?_, fun w among _ _ => ?_⟩
      · rw [evaluate, verdict_of_accepts chosen]
        rfl
      · exact (List.mem_cons.mp among).imp_right (ahead w)

/-- A rule that precedes another one goes on behind its steps, or takes a step that the other one
does not take with a rule that is declared before the other one. -/
private theorem Precedes.through_earlier {x y : Rule Ctx × Nat} (precedes : Precedes active y x)
    (member : x ∈ active) :
    (x.1.path <+: y.1.path ∧ x.1.path ≠ y.1.path) ∨
      ∃ z ∈ active, z.2 < x.2 ∧ ∃ shared step, shared ++ [step] <+: z.1.path ∧
        shared ++ [step] <+: y.1.path ∧ shared <+: x.1.path ∧ ¬ shared ++ [step] <+: x.1.path := by
  rcases precedes with longer | ⟨shared, a, b, i, j, inY, inX, differ, leadsA, leadsB, lt⟩
  · exact .inl longer
  · right
    obtain ⟨⟨z, inActive, through, rfl⟩, -⟩ := leader?_eq_some_iff.mp leadsA
    have bound : j ≤ x.2 := (leader?_eq_some_iff.mp leadsB).2 x member inX
    refine ⟨z, inActive, Nat.lt_of_lt_of_le lt bound, shared, a, through, inY,
      (List.prefix_append _ _).trans inX, fun inX' => differ ?_⟩
    have same := (List.prefix_of_prefix_length_le inX' inX (by simp)).eq_of_length (by simp)
    simpa using same

end

/-- The first of the active rules with the steps of a rule. -/
private theorem exists_unshadowed {active : List (Rule Ctx × Nat)} {x : Rule Ctx × Nat}
    (member : x ∈ active) : ∃ y ∈ unshadowed active, y.2 ≤ x.2 ∧ y.1.path = x.1.path := by
  by_cases shadowed : active.any (shadows · x)
  · obtain ⟨y, among, first⟩ := List.any_eq_true.mp shadowed
    obtain ⟨lt, same⟩ := shadows_iff.mp first
    obtain ⟨z, inside, le, equal⟩ := exists_unshadowed among
    exact ⟨z, inside, Nat.le_trans le (Nat.le_of_lt lt), equal.trans same⟩
  · exact ⟨x, List.mem_filter.mpr ⟨member, by simpa using shadowed⟩, Nat.le_refl _, rfl⟩
termination_by x.2

theorem Reader.read_eq_of_path {rules : List (Rule Ctx)}
    (built : ∀ rule ∈ rules, rule.reader.Built)
    (identified : Identified (rules.map (·.reader))) {x y : Rule Ctx} (inX : x ∈ rules)
    (inY : y ∈ rules) (same : x.path = y.path) (text : Bytes) (ctx : Ctx) (pos : Nat) :
    read text ctx x.reader pos = read text ctx y.reader pos := by
  have steps : x.reader.steps = y.reader.steps :=
    eq_of_map_id identified (fun _ among => steps_subset_partsAll inX among)
      (fun _ among => steps_subset_partsAll inY among) same
  rw [read_eq_readAll_steps (built x inX).steps_ne_nil,
    read_eq_readAll_steps (built y inY).steps_ne_nil, steps]

theorem mem_of_mem_activeRules {rules : List (Rule Ctx)} {stage : Option String}
    {x : Rule Ctx × Nat} (member : x ∈ activeRules rules stage) : x.1 ∈ rules :=
  List.fst_mem_of_mem_zipIdx (List.mem_filter.mp member).1

/-- Where a rule matches and no reading fails, a rule wins that precedes all others that match. It is
declared no later, or it goes on behind the steps of the rule, or it takes a step that the rule does
not take together with a rule that is declared earlier. -/
theorem Forest.earlier_rule_wins_unless_grouped (rules : List (Rule Ctx))
    (initialStage : Option String) (built : ∀ rule ∈ rules, rule.reader.Built)
    (identified : Reader.Identified (rules.map (·.reader))) (stage : Option String)
    (text : Bytes) (ctx : Ctx) (start : Nat)
    (regular : ∀ x ∈ activeRules rules stage, (x.1.reader.read text ctx start).Regular)
    (x : Rule Ctx × Nat) (active : x ∈ activeRules rules stage) (stop : Nat)
    (accepts : x.1.Accepts text ctx start stop) :
    ∃ y ∈ unshadowed (activeRules rules stage), ∃ stop', y.1.Accepts text ctx start stop' ∧
      Branch.attemptAll text ctx start start ((ofRules rules initialStage).roots stage) =
        .matched y.2 stop' ∧
      (∀ w ∈ unshadowed (activeRules rules stage), ∀ stop', w.1.Accepts text ctx start stop' →
        w = y ∨ Precedes (activeRules rules stage) y w) ∧
      (y.2 ≤ x.2 ∨ (x.1.path <+: y.1.path ∧ x.1.path ≠ y.1.path) ∨
        ∃ z ∈ activeRules rules stage, z.2 < x.2 ∧ ∃ shared step,
          shared ++ [step] <+: z.1.path ∧ shared ++ [step] <+: y.1.path ∧
          shared <+: x.1.path ∧ ¬ shared ++ [step] <+: x.1.path) := by
  obtain ⟨order, perm, ordered, evaluated⟩ := exists_order initialStage built identified stage
  have inActive {w : Rule Ctx × Nat} (among : w ∈ order) : w ∈ activeRules rules stage :=
    (List.mem_filter.mp (perm.mem_iff.mp among)).1
  obtain ⟨first, inside, le, same⟩ := exists_unshadowed active
  have among : first ∈ order := perm.mem_iff.mpr inside
  have found : first.1.Accepts text ctx start stop := by
    refine ⟨?_, accepts.2⟩
    rw [Reader.read_eq_of_path built identified (mem_of_mem_activeRules (inActive among))
      (mem_of_mem_activeRules active) same]
    exact accepts.1
  obtain ⟨y, listed, stop', chosen, result, behind⟩ :=
    evaluate_first (activeRules rules stage) ordered
      (fun w member => regular w (inActive member)) among found
  refine ⟨y, perm.mem_iff.mp listed, stop', chosen, (evaluated text ctx start).trans result,
    fun w member => behind w (perm.mem_iff.mpr member), ?_⟩
  rcases behind first among stop found with rfl | precedes
  · exact .inl le
  · rw [← same]
    rcases precedes.through_earlier (inActive among) with longer | ⟨z, inZ, lt, through⟩
    · exact .inr (.inl longer)
    · exact .inr (.inr ⟨z, inZ, Nat.lt_of_lt_of_le lt le, through⟩)

/-- Three words. The first and the last one share the reader of their first letter; the second one
has a reader of its own. -/
def groupedWords : List (Rule Unit) :=
  let a : Reader Unit := .text 1 [97]
  [{ tokenType := "ab", reader := .inOrder 4 [a, .text 2 [98]] },
    { tokenType := "acd", reader := .text 5 [97, 99, 100] },
    { tokenType := "ac", reader := .inOrder 6 [a, .text 3 [99]] }]

private theorem regular_groupedWords : ∀ x ∈ activeRules groupedWords none,
    (x.1.reader.read #[97, 99, 100] () 0).Regular := by
  intro x member
  have known := mem_of_mem_activeRules member
  simp only [groupedWords, List.mem_cons, List.not_mem_nil, or_false] at known
  rcases known with equal | equal | equal <;> rw [equal]
  · exact .inl rfl
  · exact .inr ⟨3, rfl⟩
  · exact .inr ⟨2, rfl⟩

private theorem attemptAll_groupedWords :
    Branch.attemptAll #[97, 99, 100] () 0 0 ((Forest.ofRules groupedWords none).roots none) =
      .matched 2 2 := by
  rfl

private theorem path_of_last : ∀ y ∈ activeRules groupedWords none, y.2 = 2 → y.1.path = [1, 3] := by
  decide

/-- The last rule wins over the second one, whose steps it does not go on with. -/
theorem Forest.last_word_wins_over_second :
    (∀ x ∈ activeRules groupedWords none, (x.1.reader.read #[97, 99, 100] () 0).Regular) ∧
    ∃ second, (second, 1) ∈ activeRules groupedWords none ∧
      second.Accepts #[97, 99, 100] () 0 3 ∧
      ¬ ∃ y ∈ activeRules groupedWords none, ∃ stop,
        Branch.attemptAll #[97, 99, 100] () 0 0 ((ofRules groupedWords none).roots none) =
          .matched y.2 stop ∧
        (y.2 ≤ 1 ∨ (second.path <+: y.1.path ∧ second.path ≠ y.1.path)) := by
  refine ⟨regular_groupedWords, groupedWords[1], .tail _ (.head _), ⟨rfl, by decide⟩, ?_⟩
  rintro ⟨y, member, stop, found, order⟩
  obtain ⟨number, -⟩ := Outcome.matched.inj (attemptAll_groupedWords.symm.trans found)
  rw [← number, path_of_last y member number.symm] at order
  revert order
  decide

/-- The last rule wins since its first step is that of the first rule. -/
theorem Forest.last_word_wins_with_first :
    ∃ y ∈ unshadowed (activeRules groupedWords none), y.1.Accepts #[97, 99, 100] () 0 2 ∧ y.2 = 2 ∧
      Branch.attemptAll #[97, 99, 100] () 0 0 ((ofRules groupedWords none).roots none) =
        .matched y.2 2 ∧
      ∃ z ∈ activeRules groupedWords none, z.2 = 0 ∧ ∃ shared step,
        shared ++ [step] <+: z.1.path ∧ shared ++ [step] <+: y.1.path ∧
        ¬ shared ++ [step] <+: [5] := by
  have built : ∀ rule ∈ groupedWords, rule.reader.Built := by
    intro rule member
    have pair (id : Nat) (units : List UInt8) :
        (Reader.inOrder id [.text 1 [97], .text (id / 2) units] : Reader Unit).Built := by
      refine .inOrder id _ fun item among => ?_
      simp only [List.mem_cons, List.not_mem_nil, or_false] at among
      rcases among with rfl | rfl <;> exact .text _ _
    simp only [groupedWords, List.mem_cons, List.not_mem_nil, or_false] at member
    rcases member with rfl | rfl | rfl
    · exact pair 4 [98]
    · exact .text 5 [97, 99, 100]
    · exact pair 6 [99]
  have identified : Reader.Identified (groupedWords.map (·.reader)) := by
    have parts : Reader.partsAll (groupedWords.map (·.reader)) =
        [.sequence 4 [.leaf 1 (.text [97]), .leaf 2 (.text [98])], .leaf 1 (.text [97]),
          .leaf 2 (.text [98]), .leaf 5 (.text [97, 99, 100]),
          .sequence 6 [.leaf 1 (.text [97]), .leaf 3 (.text [99])], .leaf 1 (.text [97]),
          .leaf 3 (.text [99])] := rfl
    have within : Reader.partsAll (groupedWords.map (·.reader)) ⊆
        [.sequence 4 [.leaf 1 (.text [97]), .leaf 2 (.text [98])], .leaf 1 (.text [97]),
          .leaf 2 (.text [98]), .leaf 5 (.text [97, 99, 100]),
          .sequence 6 [.leaf 1 (.text [97]), .leaf 3 (.text [99])], .leaf 3 (.text [99])] := by
      rw [parts]
      simp
    exact .of_nodup within (by decide)
  obtain ⟨y, inside, stop, accepts, found, -, order⟩ :=
    earlier_rule_wins_unless_grouped groupedWords none built identified none #[97, 99, 100] () 0
      regular_groupedWords (groupedWords[1], 1) (.tail _ (.head _)) 3 ⟨rfl, by decide⟩
  obtain ⟨number, rfl⟩ := Outcome.matched.inj (attemptAll_groupedWords.symm.trans found)
  have path := path_of_last y (List.mem_filter.mp inside).1 number.symm
  refine ⟨y, inside, accepts, number.symm, found, ?_⟩
  rcases order with early | ⟨longer, -⟩ | ⟨z, inZ, lt, shared, step, through, within, -, apart⟩
  · rw [← number] at early
    exact absurd early (by decide)
  · rw [path] at longer
    exact absurd longer (by decide)
  · exact ⟨z, inZ, Nat.lt_one_iff.mp lt, shared, step, through, within, apart⟩

end StagedLexer
