import StagedLexer.Proofs.TrieReaders

/-! The numbers of the branches. Every branch that an insertion makes gets the next number, and no
branch is lost or copied, so the branches of a forest have the numbers below its size, each once. -/
namespace StagedLexer

variable {Ctx : Type}

namespace Branch

/-- The numbers of the branches and of those below them. -/
def numbers (branches : List (Branch Ctx)) : List Nat := (preorderAll branches).map Branch.id

@[simp] theorem numbers_nil : numbers ([] : List (Branch Ctx)) = [] := rfl

@[simp] theorem numbers_append (branches more : List (Branch Ctx)) :
    numbers (branches ++ more) = numbers branches ++ numbers more := by
  simp [numbers, preorderAll_eq_flatMap]

@[simp] theorem numbers_cons (id owner : Nat) (readers : List (Reader Ctx))
    (children rest : List (Branch Ctx)) (rule : Option Nat) :
    numbers (⟨id, readers, children, rule, owner⟩ :: rest) =
      id :: (numbers children ++ numbers rest) := by
  simp [numbers, preorderAll, preorder]

/-- Cutting a branch makes one branch for the shared readers and, if the new rule goes on behind
them, one for the rule. -/
private theorem numbers_split (branch : Branch Ctx) (shared rest remainder : List (Reader Ctx))
    (rule next : Nat) (others : List (Branch Ctx)) :
    ∃ made, (branch.split shared rest remainder rule next).2 = next + made ∧
      (numbers ((branch.split shared rest remainder rule next).1 :: others)).Perm
        (numbers (branch :: others) ++ List.range' next made) := by
  obtain ⟨id, readers, children, completed, owner⟩ := branch
  unfold split
  split
  · refine ⟨1, rfl, List.perm_iff_count.mpr fun number => ?_⟩
    simp only [numbers_cons, numbers_nil, List.append_nil, List.count_append, List.count_cons,
      List.range'_one, List.count_nil]
    omega
  · refine ⟨2, rfl, List.perm_iff_count.mpr fun number => ?_⟩
    simp only [complete, numbers_cons, numbers_nil, List.append_nil, List.count_append,
      List.count_cons, List.range'_succ, List.range'_zero, List.count_nil]
    omega

mutual
theorem numbers_insertAll (steps : List (Reader Ctx)) (rule next : Nat) :
    (branches : List (Branch Ctx)) →
      ∃ made, (insertAll steps rule next branches).next = next + made ∧
        (numbers (insertAll steps rule next branches).result).Perm
          (numbers branches ++ List.range' next made)
  | [] => ⟨1, rfl, by simp [insertAll, complete]⟩
  | branch :: others => by
    unfold insertAll
    split
    · obtain ⟨made, count, perm⟩ := numbers_insertAll steps rule next others
      refine ⟨made, count, ?_⟩
      obtain ⟨id, readers, children, completed, owner⟩ := branch
      rw [numbers_cons, numbers_cons, List.cons_append, List.append_assoc]
      exact (perm.append_left _).cons id
    · next remainder _ _ =>
      exact numbers_insertBelow remainder rule next branch others
    · next shared rest remainder _ _ _ =>
      exact numbers_split branch shared rest remainder rule next others
theorem numbers_insertBelow (remainder : List (Reader Ctx)) (rule next : Nat) :
    (branch : Branch Ctx) → (others : List (Branch Ctx)) →
      ∃ made, (insertBelow remainder rule next branch).next = next + made ∧
        (numbers ((insertBelow remainder rule next branch).result :: others)).Perm
          (numbers (branch :: others) ++ List.range' next made)
  | ⟨id, readers, children, completed, owner⟩, others => by
    unfold insertBelow
    split
    · cases completed with
      | none => exact ⟨0, rfl, by simp⟩
      | some winner => exact ⟨0, rfl, by simp⟩
    · obtain ⟨made, count, perm⟩ := numbers_insertAll remainder rule next children
      refine ⟨made, count, List.perm_iff_count.mpr fun number => ?_⟩
      have same := perm.count_eq number
      simp only [numbers_cons, List.count_append, List.count_cons] at same ⊢
      omega
end

end Branch

namespace Forest

def allRoots (forest : Forest Ctx) : List (Branch Ctx) :=
  forest.tries.flatMap (·.2) ++ forest.stageless

variable {forest : Forest Ctx}

private theorem map_replace_of_not_mem {stage : String} {tries : List (String × List (Branch Ctx))}
    (apart : stage ∉ tries.map (·.1)) (branches : List (Branch Ctx)) :
    (tries.map fun (name, old) => if name = stage then (name, branches) else (name, old)) =
      tries := by
  refine (List.map_congr_left fun trie member => ?_).trans (List.map_id tries)
  exact if_neg fun (same : trie.1 = stage) => apart (same ▸ List.mem_map_of_mem member)

/-- Inserting a rule into a stage replaces one trie. -/
theorem insertIn_eq (nodup : forest.stages.Nodup) {name : String} {branches : List (Branch Ctx)}
    {before behind : List (String × List (Branch Ctx))}
    (split : forest.tries = before ++ (name, branches) :: behind) (steps : List (Reader Ctx))
    (rule : Nat) :
    let inserted := Branch.insertAll steps rule forest.size branches
    forest.insertIn name steps rule =
      ({ forest with
          tries := before ++ (name, inserted.result) :: behind
          size := inserted.next }, inserted.notes) := by
  have member : (name, branches) ∈ forest.tries := by simp [split]
  have found := roots_of_mem nodup member
  rw [stages, split, List.map_append, List.map_cons, List.nodup_append, List.nodup_cons] at nodup
  obtain ⟨-, ⟨last, -⟩, first⟩ := nodup
  have before' : name ∉ before.map (·.1) :=
    fun among => first name among name (List.mem_cons_self ..) rfl
  rw [insertIn, found, split, List.map_append, List.map_cons, map_replace_of_not_mem before',
    map_replace_of_not_mem last]
  simp

private theorem numbers_insertIn (nodup : forest.stages.Nodup) {name : String}
    (known : name ∈ forest.stages) (steps : List (Reader Ctx)) (rule : Nat) :
    ∃ made, (forest.insertIn name steps rule).1.size = forest.size + made ∧
      (Branch.numbers (forest.insertIn name steps rule).1.allRoots).Perm
        (Branch.numbers forest.allRoots ++ List.range' forest.size made) := by
  obtain ⟨⟨name, branches⟩, member, rfl⟩ := List.mem_map.mp known
  obtain ⟨before, behind, split, -⟩ := exists_split nodup member
  obtain ⟨made, count, perm⟩ := Branch.numbers_insertAll steps rule forest.size branches
  rw [insertIn_eq nodup split]
  refine ⟨made, count, List.perm_iff_count.mpr fun number => ?_⟩
  have same := perm.count_eq number
  rw [allRoots, allRoots, split]
  simp only [List.flatMap_append, List.flatMap_cons, Branch.numbers_append,
    List.count_append] at same ⊢
  omega

private theorem perm_range {before after : List Nat} {size made : Nat}
    (old : before.Perm (List.range size))
    (perm : after.Perm (before ++ List.range' size made)) :
    after.Perm (List.range (size + made)) := by
  have joined : List.range size ++ List.range' size made = List.range (size + made) := by
    have halves := List.range'_append_1 (s := 0) (m := size) (n := made)
    rwa [Nat.zero_add, ← List.range_eq_range', ← List.range_eq_range'] at halves
  rw [← joined]
  exact perm.trans (old.append_right _)

/-- The branches of the forest have the numbers below its size, each once. -/
def Counted (forest : Forest Ctx) : Prop :=
  (Branch.numbers forest.allRoots).Perm (List.range forest.size)

theorem Counted.insertIn (counted : forest.Counted) (nodup : forest.stages.Nodup) {name : String}
    (known : name ∈ forest.stages) (steps : List (Reader Ctx)) (rule : Nat) :
    (forest.insertIn name steps rule).1.Counted := by
  obtain ⟨made, count, grown⟩ := numbers_insertIn nodup known steps rule
  rw [Counted, count]
  exact perm_range counted grown

theorem Counted.insertStageless (counted : forest.Counted) (steps : List (Reader Ctx))
    (rule : Nat) : (forest.insertStageless steps rule).1.Counted := by
  obtain ⟨made, count, grown⟩ :=
    Branch.numbers_insertAll steps rule forest.size forest.stageless
  simp only [Counted, Forest.insertStageless, count]
  refine perm_range counted ?_
  rw [allRoots, allRoots, Branch.numbers_append, Branch.numbers_append, List.append_assoc]
  exact grown.append_left _

theorem allRoots_empty (stages : List String) :
    allRoots ({ tries := stages.map fun stage => (stage, []) } : Forest Ctx) = [] := by
  simp [allRoots, List.flatMap_map]

theorem counted_empty (stages : List String) :
    Counted ({ tries := stages.map fun stage => (stage, []) } : Forest Ctx) := by
  rw [Counted, allRoots_empty]
  exact .nil

theorem counted_ofRules (rules : List (Rule Ctx)) (initialStage : Option String) :
    (ofRules rules initialStage).Counted := by
  apply ofRules_induction (motive := Counted)
  · exact counted_empty _
  · intro forest name rule _ index counted stages known
    exact counted.insertIn (stages ▸ nodup_distinct _) (stages ▸ known) rule.reader.steps index
  · intro forest rule _ index counted _
    exact counted.insertStageless rule.reader.steps index

end Forest

end StagedLexer
