import StagedLexer.Proofs.NormalForm
import StagedLexer.Proofs.ForestContent
import StagedLexer.Proofs.ReadBounds
import StagedLexer.Proofs.TrieOrder

/-! The tries of a forest as lists of rules. Trying the trie of a stage is trying the rules that are
active in the stage and not shadowed one by one, each with its whole reader, in an order that the
steps and the numbers of the rules determine. -/
namespace StagedLexer

variable {Ctx : Type}

/-- The first of the rules whose steps start with the path. -/
def leader? (active : List (Rule Ctx × Nat)) (path : List Nat) : Option Nat :=
  ((active.filter fun x => path.isPrefixOf x.1.path).map (·.2)).min?

/-- Rule `x` is tried before rule `y`: its steps go on behind those of `y`, or at the first step in
which the two differ it follows the earlier leader. -/
def Precedes (active : List (Rule Ctx × Nat)) (x y : Rule Ctx × Nat) : Prop :=
  (y.1.path <+: x.1.path ∧ y.1.path ≠ x.1.path) ∨
    ∃ shared a b i j, shared ++ [a] <+: x.1.path ∧ shared ++ [b] <+: y.1.path ∧ a ≠ b ∧
      leader? active (shared ++ [a]) = some i ∧ leader? active (shared ++ [b]) = some j ∧ i < j

theorem leader?_eq_some_iff {active : List (Rule Ctx × Nat)} {path : List Nat} {rule : Nat} :
    leader? active path = some rule ↔
      (∃ x ∈ active, path <+: x.1.path ∧ x.2 = rule) ∧
        ∀ x ∈ active, path <+: x.1.path → rule ≤ x.2 := by
  simp only [leader?, List.min?_eq_some_iff, List.mem_map, List.mem_filter,
    List.isPrefixOf_iff_prefix, and_assoc]
  refine and_congr_right fun _ => ⟨fun least x member begins => ?_, ?_⟩
  · exact least x.2 ⟨x, member, begins, rfl⟩
  · rintro least number ⟨x, member, begins, rfl⟩
    exact least x member begins

theorem leader?_eq_none_iff {active : List (Rule Ctx × Nat)} {path : List Nat} :
    leader? active path = none ↔ ∀ x ∈ active, ¬ path <+: x.1.path := by
  simp [leader?, List.min?_eq_none_iff, List.filter_eq_nil_iff, List.isPrefixOf_iff_prefix]

/-- The readers up to the first one, including it, that does not match where it is read. -/
def Reader.readUpTo (text : Bytes) (ctx : Ctx) :
    List (Reader Ctx) → (offset : Nat) → List (Reader Ctx)
  | [], _ => []
  | reader :: rest, offset =>
    reader :: match read text ctx reader offset with
      | .matched stop => readUpTo text ctx rest stop
      | _ => []

/-- The outcome of one rule, read as a whole. An application error is that of the first rule with the
same steps up to the failing one. -/
def verdict (active : List (Rule Ctx × Nat)) (text : Bytes) (ctx : Ctx) (start : Nat)
    (x : Rule Ctx × Nat) : Outcome :=
  match x.1.reader.read text ctx start with
  | .matched stop => if start < stop then .matched x.2 stop else .noMatch
  | .noMatch => .noMatch
  | .failed code =>
    let failing := Reader.readUpTo text ctx x.1.reader.steps start
    .failed ((leader? active (failing.map Reader.id)).getD x.2) code
  | .endless => .endless

/-- The outcome of the first rule that decides. -/
def evaluate (active : List (Rule Ctx × Nat)) (text : Bytes) (ctx : Ctx) (start : Nat) :
    List (Rule Ctx × Nat) → Outcome
  | [] => .noMatch
  | x :: rest =>
    (verdict active text ctx start x).orElse fun _ => evaluate active text ctx start rest

private theorem step_eq {path shared : List Nat} {a b : Nat} (first : shared ++ [a] <+: path)
    (second : shared ++ [b] <+: path) : a = b := by
  have within := List.prefix_of_prefix_length_le first second (by simp)
  have equal := within.eq_of_length (by simp)
  simpa using equal

private theorem not_shorter {p q shared shared' : List Nat} {a b a' b' : Nat}
    (inP : shared ++ [a] <+: p) (inQ : shared ++ [b] <+: q) (differ : a ≠ b)
    (inP' : shared' ++ [a'] <+: p) (inQ' : shared' ++ [b'] <+: q) :
    ¬ shared.length < shared'.length := by
  intro shorter
  have length : (shared ++ [a]).length ≤ shared'.length := by
    rw [List.length_append, List.length_singleton]
    exact shorter
  have within : shared ++ [a] <+: shared' :=
    List.prefix_of_prefix_length_le inP ((List.prefix_append _ _).trans inP') length
  exact differ (step_eq (within.trans ((List.prefix_append _ _).trans inQ')) inQ)

private theorem parting_unique {p q shared shared' : List Nat} {a b a' b' : Nat}
    (inP : shared ++ [a] <+: p) (inQ : shared ++ [b] <+: q) (differ : a ≠ b)
    (inP' : shared' ++ [a'] <+: p) (inQ' : shared' ++ [b'] <+: q) (differ' : a' ≠ b') :
    shared = shared' ∧ a = a' ∧ b = b' := by
  have length : shared.length = shared'.length :=
    Nat.le_antisymm (Nat.not_lt.mp (not_shorter inP' inQ' differ' inP inQ))
      (Nat.not_lt.mp (not_shorter inP inQ differ inP' inQ'))
  have within : shared <+: shared' :=
    List.prefix_of_prefix_length_le ((List.prefix_append _ _).trans inP)
      ((List.prefix_append _ _).trans inP') (Nat.le_of_eq length)
  obtain rfl := within.eq_of_length length
  exact ⟨rfl, step_eq inP inP', step_eq inQ inQ'⟩

theorem Precedes.asymm {active : List (Rule Ctx × Nat)} {x y : Rule Ctx × Nat}
    (first : Precedes active x y) (second : Precedes active y x) : False := by
  rcases first with ⟨within, differ⟩ | ⟨shared, a, b, i, j, inX, inY, differ, leadsA, leadsB, lt⟩ <;>
    rcases second with
      ⟨within', -⟩ | ⟨shared', a', b', i', j', inY', inX', differ', leadsA', leadsB', lt'⟩
  · exact differ (within.eq_of_length (Nat.le_antisymm within.length_le within'.length_le))
  · exact differ' (step_eq (inY'.trans within) inX')
  · exact differ (step_eq (inX.trans within') inY)
  · obtain ⟨rfl, rfl, rfl⟩ := parting_unique inX inY differ inX' inY' (Ne.symm differ')
    obtain rfl := Option.some.inj (leadsA.symm.trans leadsB')
    obtain rfl := Option.some.inj (leadsB.symm.trans leadsA')
    exact Nat.lt_asymm lt lt'

private theorem exists_perm_map {α β : Type} {f : α → β} {xs : List α} {l : List β}
    (perm : l.Perm (xs.map f)) : ∃ ys : List α, ys.Perm xs ∧ ys.map f = l := by
  induction xs generalizing l with
  | nil => exact ⟨[], .nil, (List.perm_nil.mp perm).symm⟩
  | cons x rest ih =>
    have member : f x ∈ l := perm.mem_iff.mpr (by simp)
    obtain ⟨before, behind, rfl⟩ := List.append_of_mem member
    have others : (before ++ behind).Perm (rest.map f) :=
      List.Perm.cons_inv (List.perm_middle.symm.trans perm)
    obtain ⟨ys, same, equal⟩ := ih others
    obtain ⟨first, second, rfl, rfl, rfl⟩ := List.map_eq_append_iff.mp equal
    refine ⟨first ++ x :: second, List.perm_middle.trans (same.cons x), by simp⟩

theorem Reader.read_eq_readAll_steps {reader : Reader Ctx} (nonempty : reader.steps ≠ [])
    (text : Bytes) (ctx : Ctx) (pos : Nat) :
    read text ctx reader pos = readAll text ctx reader.steps pos := by
  have single (reader : Reader Ctx) : readAll text ctx [reader] pos = read text ctx reader pos := by
    simp only [readAll]
    cases read text ctx reader pos <;> rfl
  cases reader with
  | sequence id items =>
    cases items with
    | nil => exact (nonempty rfl).elim
    | cons first rest =>
      rw [read, steps]
      split
      · next outside =>
        -- Behind the end of the text the first item does not match either.
        have none : read text ctx first pos = .noMatch := by
          cases first <;> exact if_pos outside
        rw [readAll, none]
        rfl
      · rfl
  | leaf | alternation | repetition | optional | lookahead | seek => exact (single _).symm

section

variable {active : List (Rule Ctx × Nat)} {branches : List (Branch Ctx)}

theorem Tracks.leader?_of_leads (tracks : Tracks active branches) {path : List Nat} {rule : Nat}
    (leads : Leads (Branch.waysAll branches) path rule) : leader? active path = some rule := by
  obtain ⟨⟨way, among, through, rfl⟩, least⟩ := leads
  refine leader?_eq_some_iff.mpr ⟨?_, fun x inActive begins => ?_⟩
  · obtain ⟨x, member, equal⟩ := tracks.mem_active (List.mem_map_of_mem among)
    obtain ⟨samePath, sameRule⟩ := Prod.mk.inj equal
    exact ⟨x, member, samePath ▸ through, sameRule⟩
  · obtain ⟨first, le, entry⟩ := tracks.covered x inActive
    obtain ⟨other, inside, equal⟩ := List.mem_map.mp entry
    obtain ⟨samePath, sameRule⟩ := Prod.mk.inj equal
    have bound := least other inside (samePath ▸ begins)
    omega

private theorem Tracks.precedes_of_before (tracks : Tracks active branches) {x y : Rule Ctx × Nat}
    (before : Before (Branch.waysAll branches) x.1.path y.1.path) : Precedes active x y := by
  rcases before with longer | ⟨shared, a, b, i, j, inX, inY, differ, leadsA, leadsB, lt⟩
  · exact .inl longer
  · exact .inr ⟨shared, a, b, i, j, inX, inY, differ, tracks.leader?_of_leads leadsA,
      tracks.leader?_of_leads leadsB, lt⟩

/-- Following a way is reading its readers; a failure belongs to the leader of the path up to it. -/
private theorem Tracks.follow_eq (tracks : Tracks active branches) {text : Bytes} {ctx : Ctx}
    (start rule : Nat) {steps : List (Reader Ctx × Nat)} {before : List Nat}
    (owned : Owned (Branch.waysAll branches) before steps) (pos : Nat) :
    Way.follow text ctx start rule steps pos =
      match Reader.readAll text ctx (steps.map (·.1)) pos with
      | .matched stop => if start < stop then .matched rule stop else .noMatch
      | .noMatch => .noMatch
      | .failed code =>
        let failing := Reader.readUpTo text ctx (steps.map (·.1)) pos
        .failed ((leader? active (before ++ failing.map Reader.id)).getD rule) code
      | .endless => .endless := by
  induction steps generalizing before pos with
  | nil => rfl
  | cons step rest ih =>
    obtain ⟨reader, owner⟩ := step
    obtain ⟨leads, others⟩ := owned
    simp only [Way.follow, List.map_cons, Reader.readAll, Reader.readUpTo]
    cases Reader.read text ctx reader pos with
    | matched stop => simpa [Reading.andThen] using ih others stop
    | noMatch | endless => rfl
    | failed code => simp [Reading.andThen, tracks.leader?_of_leads leads]

private theorem Tracks.follow_eq_verdict (tracks : Tracks active branches) {way : Way Ctx}
    (among : way ∈ Branch.waysAll branches) {x : Rule Ctx × Nat} (rule : x.2 = way.rule)
    (readers : way.steps.map (·.1) = x.1.reader.steps) (nonempty : x.1.reader.steps ≠ [])
    (text : Bytes) (ctx : Ctx) (start : Nat) :
    Way.follow text ctx start way.rule way.steps start = verdict active text ctx start x := by
  have owned := Branch.owned_waysAll tracks.proper way among
  rw [tracks.follow_eq start way.rule owned start, readers, ← rule, verdict,
    Reader.read_eq_readAll_steps nonempty]
  rfl

end

theorem Branch.holds_of_mem_ways {holds : Reader Ctx → Prop} {branch : Branch Ctx}
    (each : branch.EachReader holds) :
    ∀ way ∈ branch.ways, ∀ step ∈ way.steps, holds step.1 := by
  induction branch with
  | mk id readers children rule owner ih =>
    obtain ⟨here, below⟩ := eachReader_iff.mp each
    intro way inside step member
    obtain ⟨inner, origin, rfl⟩ := mem_ways.mp inside
    rcases List.mem_append.mp member with first | behind
    · obtain ⟨reader, among, rfl⟩ := List.mem_map.mp first
      exact here reader among
    · rcases origin with among | ⟨none, -⟩
      · obtain ⟨child, inChildren, through⟩ := mem_waysAll.mp among
        exact ih child inChildren (below child inChildren) inner through step behind
      · rw [none] at behind
        cases behind

theorem Reader.eq_of_map_id {readers : List (Reader Ctx)} (identified : Identified readers)
    {as bs : List (Reader Ctx)} (inA : ∀ a ∈ as, a ∈ partsAll readers)
    (inB : ∀ b ∈ bs, b ∈ partsAll readers) (same : as.map Reader.id = bs.map Reader.id) :
    as = bs := by
  induction as generalizing bs with
  | nil => exact (List.map_eq_nil_iff.mp same.symm).symm
  | cons a as ih =>
    cases bs with
    | nil => cases same
    | cons b bs =>
      obtain ⟨first, behind⟩ := List.cons.inj same
      have head := identified a (inA a (by simp)) b (inB b (by simp)) first
      have tail := ih (fun x member => inA x (by simp [member]))
        (fun x member => inB x (by simp [member])) behind
      rw [head, tail]

private theorem attemptAll_eq_evaluate {active : List (Rule Ctx × Nat)} {text : Bytes} {ctx : Ctx}
    {start : Nat} {ways : List (Way Ctx)} {order : List (Rule Ctx × Nat)}
    (same : order.map ruleEntry = ways.map Way.entry)
    (each : ∀ way ∈ ways, ∀ x ∈ order, ruleEntry x = way.entry →
      Way.follow text ctx start way.rule way.steps start = verdict active text ctx start x) :
    Way.attemptAll text ctx start start ways = evaluate active text ctx start order := by
  induction ways generalizing order with
  | nil =>
    obtain rfl := List.map_eq_nil_iff.mp same
    rfl
  | cons way rest ih =>
    cases order with
    | nil => cases same
    | cons x others =>
      obtain ⟨first, behind⟩ := List.cons.inj same
      have tail := ih behind fun way member x listed =>
        each way (List.mem_cons_of_mem _ member) x (List.mem_cons_of_mem _ listed)
      rw [Way.attemptAll, evaluate, each way (List.mem_cons_self ..) x (List.mem_cons_self ..) first,
        tail]

/-- The steps of rules are parts of their readers. -/
theorem Reader.steps_subset_partsAll {rules : List (Rule Ctx)} {rule : Rule Ctx}
    (member : rule ∈ rules) {step : Reader Ctx} (among : step ∈ rule.reader.steps) :
    step ∈ partsAll (rules.map (·.reader)) :=
  parts_subset_partsAll (List.mem_map_of_mem member)
    (parts_subset_of_mem_steps among (self_mem_parts step))

/-- Trying the trie of a stage is trying the active rules that are not shadowed one by one, in an
order that respects their precedence. -/
theorem Forest.exists_order {rules : List (Rule Ctx)} (initialStage : Option String)
    (built : ∀ rule ∈ rules, rule.reader.Built)
    (identified : Reader.Identified (rules.map (·.reader))) (stage : Option String) :
    ∃ order : List (Rule Ctx × Nat), order.Perm (unshadowed (activeRules rules stage)) ∧
      order.Pairwise (Precedes (activeRules rules stage)) ∧
      ∀ (text : Bytes) (ctx : Ctx) (start : Nat),
        Branch.attemptAll text ctx start start ((ofRules rules initialStage).roots stage) =
          evaluate (activeRules rules stage) text ctx start order := by
  have steps : ∀ rule ∈ rules, rule.reader.steps ≠ [] := fun rule member =>
    (built rule member).steps_ne_nil
  have inside : ∀ rule ∈ rules, ∀ step ∈ rule.reader.steps,
      step ∈ Reader.partsAll (rules.map (·.reader)) := fun _ member _ among =>
    Reader.steps_subset_partsAll member among
  have each := eachReader_ofRules inside initialStage
  have tracks := tracks_roots initialStage steps stage
  obtain ⟨order, perm, same⟩ := exists_perm_map tracks.entries
  -- The order is that of the ways of the trie, which are tried one after the other.
  have paths : order.map (·.1.path) =
      (Branch.waysAll ((ofRules rules initialStage).roots stage)).map Way.path := by
    simpa [Function.comp_def, ruleEntry, Branch.entries, Way.entry] using
      congrArg (List.map Prod.fst) same
  have ordered : order.Pairwise (Precedes (activeRules rules stage)) := by
    have before := List.pairwise_map.mpr (Branch.pairwise_waysAll tracks.proper)
    rw [← paths, List.pairwise_map] at before
    exact before.imp fun first => tracks.precedes_of_before first
  refine ⟨order, perm, ordered, fun text ctx start => ?_⟩
  rw [Way.attemptAll_eq_ways tracks.proper]
  refine attemptAll_eq_evaluate same fun way among x listed equal => ?_
  obtain ⟨samePath, sameRule⟩ := Prod.mk.inj equal
  have known : x.1 ∈ rules := by
    have inActive := (List.mem_filter.mp (perm.mem_iff.mp listed)).1
    exact List.fst_mem_of_mem_zipIdx (List.mem_filter.mp inActive).1
  have readers : way.steps.map (·.1) = x.1.reader.steps := by
    refine Reader.eq_of_map_id identified (fun reader member => ?_) (inside x.1 known) ?_
    · obtain ⟨step, inSteps, rfl⟩ := List.mem_map.mp member
      obtain ⟨branch, inBranches, through⟩ := Branch.mem_waysAll.mp among
      exact Branch.holds_of_mem_ways (each.roots stage branch inBranches) way through step inSteps
    · simpa [Way.path, Rule.path, Function.comp_def] using samePath.symm
  exact tracks.follow_eq_verdict among sameRule readers (steps x.1 known) text ctx start

/-- There is one order only that respects the precedence. -/
theorem Precedes.order_unique {active : List (Rule Ctx × Nat)} {xs ys : List (Rule Ctx × Nat)}
    (first : xs.Pairwise (Precedes active)) (second : ys.Pairwise (Precedes active))
    (perm : xs.Perm ys) : xs = ys :=
  List.Perm.eq_of_pairwise (fun _ _ _ _ before behind => (before.asymm behind).elim) first second
    perm

/-- Trying the trie of a stage is trying the active rules that are not shadowed one by one, in the
only order that respects their precedence. -/
theorem Forest.attemptAll_roots_eq_evaluate (rules : List (Rule Ctx)) (initialStage : Option String)
    (built : ∀ rule ∈ rules, rule.reader.Built)
    (identified : Reader.Identified (rules.map (·.reader))) (stage : Option String) :
    ∃ order : List (Rule Ctx × Nat),
      (∀ other, other.Perm (unshadowed (activeRules rules stage)) ∧
        other.Pairwise (Precedes (activeRules rules stage)) ↔ other = order) ∧
      ∀ (text : Bytes) (ctx : Ctx) (start : Nat),
        Branch.attemptAll text ctx start start ((ofRules rules initialStage).roots stage) =
          evaluate (activeRules rules stage) text ctx start order := by
  obtain ⟨order, perm, ordered, evaluated⟩ := exists_order initialStage built identified stage
  refine ⟨order, fun other => ⟨?_, ?_⟩, evaluated⟩
  · rintro ⟨otherPerm, otherOrdered⟩
    exact Precedes.order_unique otherOrdered ordered (otherPerm.trans perm.symm)
  · rintro rfl
    exact ⟨perm, ordered⟩

/-- A rule that goes on behind the reader of an earlier one is tried first. -/
theorem Forest.attemptAll_roots_of_extended :
    let a : Reader Unit := .text 1 [97]
    let rules : List (Rule Unit) := [{ tokenType := "a", reader := a },
      { tokenType := "ab", reader := .inOrder 3 [a, .text 2 [98]] }]
    ∃ order, order.map (·.2) = [1, 0] ∧
      Branch.attemptAll #[97, 98] () 0 0 ((ofRules rules none).roots none) =
        evaluate (activeRules rules none) #[97, 98] () 0 order ∧
      Branch.attemptAll #[97, 98] () 0 0 ((ofRules rules none).roots none) = .matched 1 2 := by
  intro a rules
  have built : ∀ rule ∈ rules, rule.reader.Built := by
    intro rule member
    simp only [rules, List.mem_cons, List.not_mem_nil, or_false] at member
    rcases member with rfl | rfl
    · exact .text 1 [97]
    · refine .inOrder 3 [a, .text 2 [98]] fun item among => ?_
      simp only [List.mem_cons, List.not_mem_nil, or_false] at among
      rcases among with rfl | rfl <;> exact .text _ _
  have parts : Reader.partsAll (rules.map (·.reader)) =
      [.leaf 1 (.text [97]), .sequence 3 [.leaf 1 (.text [97]), .leaf 2 (.text [98])],
        .leaf 1 (.text [97]), .leaf 2 (.text [98])] := rfl
  have within : Reader.partsAll (rules.map (·.reader)) ⊆
      [.leaf 1 (.text [97]), .sequence 3 [.leaf 1 (.text [97]), .leaf 2 (.text [98])],
        .leaf 2 (.text [98])] := by
    rw [parts]
    simp
  have identified : Reader.Identified (rules.map (·.reader)) := .of_nodup within (by decide)
  obtain ⟨order, unique, evaluated⟩ :=
    attemptAll_roots_eq_evaluate rules none built identified none
  have longer : Precedes (activeRules rules none) (rules[1], 1) (rules[0], 0) := by
    left
    decide
  have first : [(rules[1], 1), (rules[0], 0)] = order := by
    refine (unique _).mp ⟨.swap _ _ _, ?_⟩
    simpa using longer
  exact ⟨order, by rw [← first]; rfl, evaluated _ _ _, by decide +kernel⟩

end StagedLexer
