import StagedLexer.Routine.Basic

/-! Induction on the nested data of the project: readers, branches, fragments of emitted source and
statements. In each principle the hypothesis for a list holds for all of its members. -/
namespace StagedLexer

private theorem forall_mem_of_cons {α : Type} {motive : α → Prop} (head : α) (tail : List α)
    (first : motive head) (others : ∀ item ∈ tail, motive item) :
    ∀ item ∈ head :: tail, motive item := by
  intro item member
  rcases List.mem_cons.mp member with rfl | behind
  · exact first
  · exact others item behind

variable {Ctx : Type}

@[elab_as_elim, induction_eliminator]
theorem Reader.inductOn {motive : Reader Ctx → Prop}
    (leaf : ∀ id l, motive (.leaf id l))
    (sequence : ∀ id items, (∀ item ∈ items, motive item) → motive (.sequence id items))
    (alternation : ∀ id items, (∀ item ∈ items, motive item) → motive (.alternation id items))
    (repetition : ∀ id inner min max, motive inner → motive (.repetition id inner min max))
    (optional : ∀ id inner, motive inner → motive (.optional id inner))
    (lookahead : ∀ id inner, motive inner → motive (.lookahead id inner))
    (seek : ∀ id inner inclusive openEnd, motive inner →
      motive (.seek id inner inclusive openEnd))
    (reader : Reader Ctx) : motive reader :=
  @Reader.rec Ctx motive (fun items => ∀ item ∈ items, motive item) leaf sequence alternation
    repetition optional lookahead seek (by simp) forall_mem_of_cons reader

@[elab_as_elim, induction_eliminator]
theorem Branch.inductOn {motive : Branch Ctx → Prop}
    (mk : ∀ id readers children rule owner, (∀ child ∈ children, motive child) →
      motive ⟨id, readers, children, rule, owner⟩)
    (branch : Branch Ctx) : motive branch :=
  @Branch.rec Ctx motive (fun branches => ∀ branch ∈ branches, motive branch) mk (by simp)
    forall_mem_of_cons branch

@[elab_as_elim, induction_eliminator]
theorem Code.inductOn {motive : Code → Prop}
    (literal : ∀ text, motive (.literal text))
    (var : ∀ v, motive (.var v))
    (block : ∀ items, (∀ item ∈ items, motive item) → motive (.block items))
    (declare : ∀ v, motive (.declare v))
    (define : ∀ v init, motive init → motive (.define v init))
    (assign : ∀ v value retained, motive value → motive (.assign v value retained))
    (code : Code) : motive code :=
  @Code.rec motive (fun items => ∀ item ∈ items, motive item) literal var block declare
    define assign (by simp) forall_mem_of_cons code

@[elab_as_elim, induction_eliminator]
theorem Stmt.inductOn {motive : Stmt → Prop}
    (declare : ∀ v, motive (.declare v))
    (assign : ∀ v value retained, motive (.assign v value retained))
    (block : ∀ items, (∀ item ∈ items, motive item) → motive (.block items))
    (guarded : ∀ cond body, motive body → motive (.guarded cond body))
    (onResult : ∀ r matched failed, motive matched → motive failed →
      motive (.onResult r matched failed))
    (loop : ∀ body, motive body → motive (.loop body))
    (leave : motive .leave)
    (accept : ∀ rule stop move, motive (.accept rule stop move))
    (fail : ∀ owner r, motive (.fail owner r))
    (dispatch : ∀ stages arms otherwise, (∀ arm ∈ arms, motive arm) → motive otherwise →
      motive (.dispatch stages arms otherwise))
    (stmt : Stmt) : motive stmt :=
  @Stmt.rec motive (fun items => ∀ item ∈ items, motive item) declare assign block guarded
    onResult loop leave accept fail dispatch (by simp) forall_mem_of_cons stmt

end StagedLexer
