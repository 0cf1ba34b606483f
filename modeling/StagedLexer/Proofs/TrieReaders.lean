import StagedLexer.Proofs.ForestConstruction
import StagedLexer.Proofs.Induction

/-! The readers in the tries are steps of the rules: inserting a rule cuts and shares its steps but
makes no other readers. -/
namespace StagedLexer

variable {Ctx : Type} {holds : Reader Ctx → Prop}

namespace Branch

/-- Every reader of the branch and of the branches below it has the property. -/
def EachReader (holds : Reader Ctx → Prop) (branch : Branch Ctx) : Prop :=
  ∀ b ∈ branch.preorder, ∀ reader ∈ b.readers, holds reader

theorem preorderAll_eq_flatMap (branches : List (Branch Ctx)) :
    preorderAll branches = branches.flatMap preorder := by
  induction branches with
  | nil => rfl
  | cons branch rest ih => simp [preorderAll, ih]

theorem mem_preorderAll {b : Branch Ctx} {branches : List (Branch Ctx)} :
    b ∈ preorderAll branches ↔ ∃ branch ∈ branches, b ∈ branch.preorder := by
  simp [preorderAll_eq_flatMap]

theorem forall_preorder_iff {p : Branch Ctx → Prop} {id owner : Nat} {readers : List (Reader Ctx)}
    {children : List (Branch Ctx)} {rule : Option Nat} :
    (∀ b ∈ preorder ⟨id, readers, children, rule, owner⟩, p b) ↔
      p ⟨id, readers, children, rule, owner⟩ ∧ ∀ child ∈ children, ∀ b ∈ child.preorder, p b := by
  simp only [preorder, List.mem_cons, mem_preorderAll]
  constructor
  · intro each
    exact ⟨each _ (.inl rfl), fun child member b below => each b (.inr ⟨child, member, below⟩)⟩
  · rintro ⟨here, below⟩ b (rfl | ⟨child, member, inside⟩)
    · exact here
    · exact below child member b inside

theorem eachReader_iff {holds : Reader Ctx → Prop} {id owner : Nat} {readers : List (Reader Ctx)}
    {children : List (Branch Ctx)} {rule : Option Nat} :
    EachReader holds ⟨id, readers, children, rule, owner⟩ ↔
      (∀ reader ∈ readers, holds reader) ∧ ∀ child ∈ children, child.EachReader holds :=
  forall_preorder_iff

private theorem eachReader_complete {id rule : Nat} {steps : List (Reader Ctx)}
    (each : ∀ step ∈ steps, holds step) : (complete id steps rule).EachReader holds :=
  eachReader_iff.mpr ⟨each, by simp⟩

theorem commonStart_append (as bs : List (Reader Ctx)) :
    as = (commonStart as bs).1 ++ (commonStart as bs).2.1 := by
  fun_induction commonStart as bs with
  | case1 a as b bs same shared left right equal ih =>
    simp only [equal] at ih
    exact congrArg (a :: ·) ih
  | case2 | case3 => rfl

theorem commonStart_suffix (as bs : List (Reader Ctx)) : (commonStart as bs).2.2 <:+ bs := by
  fun_induction commonStart as bs with
  | case1 a as b bs same shared left right equal ih =>
    simp only [equal] at ih
    exact ih.trans (List.suffix_cons b bs)
  | case2 | case3 => exact List.suffix_refl _

private theorem eachReader_split {branch : Branch Ctx} {shared rest remainder : List (Reader Ctx)}
    {rule next : Nat} (parts : branch.readers = shared ++ rest) (each : branch.EachReader holds)
    (steps : ∀ step ∈ remainder, holds step) :
    (branch.split shared rest remainder rule next).1.EachReader holds := by
  obtain ⟨id, readers, children, completed, owner⟩ := branch
  obtain ⟨here, below⟩ := eachReader_iff.mp each
  simp only at parts
  subst parts
  have old : EachReader holds ⟨id, rest, children, completed, owner⟩ :=
    eachReader_iff.mpr ⟨fun reader member => here reader (by simp [member]), below⟩
  have cut : ∀ reader ∈ shared, holds reader := fun reader member => here reader (by simp [member])
  unfold split
  split
  · exact eachReader_iff.mpr ⟨cut, by simpa using old⟩
  · exact eachReader_iff.mpr ⟨cut, by simpa using ⟨old, eachReader_complete steps⟩⟩

mutual
theorem eachReader_insertAll {steps : List (Reader Ctx)} (each : ∀ step ∈ steps, holds step)
    (rule next : Nat) : (branches : List (Branch Ctx)) →
    (∀ branch ∈ branches, branch.EachReader holds) →
      ∀ branch ∈ (insertAll steps rule next branches).result, branch.EachReader holds
  | [], _ => by simpa [insertAll] using eachReader_complete each
  | branch :: others, known => by
    have first := known branch (by simp)
    have others' : ∀ b ∈ others, b.EachReader holds := fun b member => known b (by simp [member])
    have parts := commonStart_append branch.readers steps
    have remainder : ∀ step ∈ (commonStart branch.readers steps).2.2, holds step :=
      fun step member => each step ((commonStart_suffix branch.readers steps).subset member)
    unfold insertAll
    split
    · intro b member
      rcases List.mem_cons.mp member with rfl | behind
      · exact first
      · exact eachReader_insertAll each rule next others others' b behind
    · next equal =>
      simp only [equal] at remainder
      intro b member
      rcases List.mem_cons.mp member with rfl | behind
      · exact eachReader_insertBelow remainder rule next branch first
      · exact others' b behind
    · next equal =>
      simp only [equal] at remainder parts
      intro b member
      rcases List.mem_cons.mp member with rfl | behind
      · exact eachReader_split parts first remainder
      · exact others' b behind
theorem eachReader_insertBelow {remainder : List (Reader Ctx)}
    (each : ∀ step ∈ remainder, holds step) (rule next : Nat) : (branch : Branch Ctx) →
    branch.EachReader holds → (insertBelow remainder rule next branch).result.EachReader holds
  | ⟨id, readers, children, completed, owner⟩, known => by
    obtain ⟨here, below⟩ := eachReader_iff.mp known
    unfold insertBelow
    split
    · cases completed with
      | none => exact eachReader_iff.mpr ⟨here, below⟩
      | some winner => exact known
    · exact eachReader_iff.mpr ⟨here, eachReader_insertAll each rule next children below⟩
end

end Branch

namespace Forest

/-- Every reader of every trie has the property. -/
structure EachReader (holds : Reader Ctx → Prop) (forest : Forest Ctx) : Prop where
  tries : ∀ trie ∈ forest.tries, ∀ branch ∈ trie.2, branch.EachReader holds
  stageless : ∀ branch ∈ forest.stageless, branch.EachReader holds

theorem EachReader.mono {weaker : Reader Ctx → Prop} {forest : Forest Ctx}
    (each : forest.EachReader holds) (implies : ∀ reader, holds reader → weaker reader) :
    forest.EachReader weaker :=
  ⟨fun trie among branch member b below reader inside =>
      implies reader (each.tries trie among branch member b below reader inside),
    fun branch member b below reader inside =>
      implies reader (each.stageless branch member b below reader inside)⟩

variable {forest : Forest Ctx}

theorem EachReader.roots (each : forest.EachReader holds) (stage : Option String) :
    ∀ branch ∈ forest.roots stage, branch.EachReader holds :=
  holds_roots (motive := fun branches => ∀ branch ∈ branches, branch.EachReader holds) each.tries
    each.stageless stage

/-- What holds of all steps of the rules holds of all readers of the tries. -/
theorem eachReader_ofRules {rules : List (Rule Ctx)}
    (known : ∀ rule ∈ rules, ∀ step ∈ rule.reader.steps, holds step)
    (initialStage : Option String) : (ofRules rules initialStage).EachReader holds := by
  obtain ⟨tries, stageless⟩ := each_ofRules rules initialStage (by simp)
    fun rule member index next branches =>
      Branch.eachReader_insertAll (known rule member) index next branches
  exact ⟨tries, stageless⟩

end Forest

end StagedLexer
