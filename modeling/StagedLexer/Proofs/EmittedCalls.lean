import Mathlib.Data.List.Forall2
import StagedLexer.Proofs.BranchCode
import StagedLexer.Proofs.CallSites
import StagedLexer.Proofs.TrieNumbers

/-! The calls in the statements of readers and tries. The readers that are called are those without
a form of their own, in the order of the source, and each call is of the variable that is bound to
the reader. Children of a branch are made before its readers but stand behind them. -/
namespace StagedLexer

variable {Ctx : Type}

def Reader.isCall : Reader Ctx → Bool
  | leaf _ l => l.isCalled
  | _ => false

/-- The readers that are called to read a reader, in order. -/
def Reader.called (reader : Reader Ctx) : List (Reader Ctx) := reader.parts.filter isCall

/-- The readers that are called to try a branch and the branches below it, in order. -/
def Branch.called (branch : Branch Ctx) : List (Reader Ctx) :=
  branch.preorder.flatMap fun b => b.readers.flatMap Reader.called

/-- The readers that are called to try the branches of all tries, in order. -/
def Forest.called (forest : Forest Ctx) : List (Reader Ctx) := forest.allRoots.flatMap Branch.called

namespace Assembler

/-- Between the two assemblers source is made that calls the variables of these readers. -/
structure Emits (a b : Assembler Ctx) (calls : List Nat) (called : List (Reader Ctx)) : Prop where
  grows : a.bindings ⊆ b.bindings
  added : ∀ binding ∈ b.bindings,
    binding ∈ a.bindings ∨ binding.1 ∈ calls ∧ binding.2 ∈ called
  distinct : (a.values.map Reader.id).Nodup → (b.values.map Reader.id).Nodup
  refers : List.Forall₂ (fun v reader => ∃ binding ∈ b.bindings,
    binding.1 = v ∧ binding.2.id = reader.id) calls called

namespace Emits

variable {a b c : Assembler Ctx} {calls calls' : List Nat} {called called' : List (Reader Ctx)}

/-- Variables do not matter for the calls. -/
theorem of_bindings (same : b.bindings = a.bindings) : a.Emits b [] [] := by
  refine ⟨fun _ member => same ▸ member, fun _ member => .inl (same ▸ member), ?_, .nil⟩
  rw [values, values, same]
  exact id

theorem bind (asm : Assembler Ctx) (reader : Reader Ctx) :
    asm.Emits (asm.bind reader).2 [(asm.bind reader).1] [reader] := by
  unfold Assembler.bind
  split
  · next binding found =>
    have known : binding.2.id = reader.id := by simpa using List.find?_some found
    exact ⟨fun _ member => member, fun _ member => .inl member, id,
      .cons ⟨binding, List.mem_of_find?_eq_some found, rfl, known⟩ .nil⟩
  · next missing =>
    refine ⟨List.subset_append_left _ _, fun binding member => ?_, fun distinct => ?_,
      .cons ⟨_, List.mem_append_right _ (List.mem_singleton_self _), rfl, rfl⟩ .nil⟩
    · refine (List.mem_append.mp member).imp_right fun new => ?_
      rw [List.mem_singleton.mp new]
      exact ⟨List.mem_singleton_self _, List.mem_singleton_self _⟩
    · rw [values, List.map_map, List.map_append, List.nodup_append]
      refine ⟨by rwa [values, List.map_map] at distinct, List.nodup_singleton _, ?_⟩
      intro id old new last
      obtain ⟨binding, inside, rfl⟩ := List.mem_map.mp old
      rw [List.mem_singleton.mp last]
      have other := List.find?_eq_none.mp missing binding inside
      simpa using other

theorem refers_mono (emits : a.Emits b calls called) (kept : b.bindings ⊆ c.bindings) :
    List.Forall₂ (fun v reader => ∃ binding ∈ c.bindings,
      binding.1 = v ∧ binding.2.id = reader.id) calls called :=
  emits.refers.imp fun _ _ ⟨binding, member, equal⟩ => ⟨binding, kept member, equal⟩

theorem append (first : a.Emits b calls called) (second : b.Emits c calls' called') :
    a.Emits c (calls ++ calls') (called ++ called') := by
  refine ⟨List.Subset.trans first.grows second.grows, fun binding member => ?_,
    second.distinct ∘ first.distinct,
    List.rel_append (first.refers_mono second.grows) second.refers⟩
  rcases second.added binding member with old | ⟨call, reader⟩
  · refine (first.added binding old).imp_right fun ⟨call, reader⟩ => ?_
    exact ⟨List.mem_append_left _ call, List.mem_append_left _ reader⟩
  · exact .inr ⟨List.mem_append_right _ call, List.mem_append_right _ reader⟩

/-- What is made first may stand behind what is made later. -/
theorem prepend (first : a.Emits b calls called) (second : b.Emits c calls' called') :
    a.Emits c (calls' ++ calls) (called' ++ called) := by
  obtain ⟨grows, added, distinct, -⟩ := first.append second
  refine ⟨grows, fun binding member => ?_, distinct,
    List.rel_append second.refers (first.refers_mono second.grows)⟩
  simpa only [List.mem_append, or_comm] using added binding member

end Emits

end Assembler

open Assembler

namespace Stmt

variable {a b c : Assembler Ctx} {called called' : List (Reader Ctx)}

private theorem calls_repetition (place r pos inner : Nat) (counter : Option Nat) (min : Nat)
    (max : Option Nat) (body : Stmt) :
    (repetition place r pos inner counter min max body).calls = body.calls := by
  cases counter <;> cases max <;> by_cases positive : 0 < min <;>
  simp [repetition, round, limit, countFromZero, countUp, settled, positive, assignAndLeave, calls,
    callsAll, Value.calls]

private theorem calls_seek (place r pos inner : Nat) (inclusive openEnd : Bool) (body : Stmt) :
    (seek place r pos inner inclusive openEnd body).calls = body.calls := by
  cases inclusive <;> cases openEnd <;>
  simp [seek, probeNext, assignAndLeave, calls, callsAll, Value.calls]

private theorem emits_leaf (asm : Assembler Ctx) (id : Nat) (l : Leaf Ctx) (place r : Nat) :
    asm.Emits (ofReader (.leaf id l) place r asm).2 (ofReader (.leaf id l) place r asm).1.calls
      (Reader.called (.leaf id l)) := by
  cases l with
  | regex | custom => exact .bind asm _
  | _ => exact .of_bindings rfl

private theorem emits_guarded {head tail : Stmt} (cond : Cond)
    (first : a.Emits b head.calls called) (second : b.Emits c tail.calls called') :
    a.Emits c (block [head, .guarded cond tail]).calls (called ++ called') := by
  have names : (block [head, .guarded cond tail]).calls = head.calls ++ tail.calls := by
    simp [calls, callsAll]
  exact names ▸ first.append second

private theorem emits_position {head : Stmt} (cond : Cond) (place r : Nat)
    (first : a.Emits b head.calls called) :
    a.Emits b (block [head, .guarded cond (.assign r (.position (.var place)) true)]).calls
      called := by
  have last : b.Emits b (assign r (.position (.var place)) true).calls [] := .of_bindings rfl
  have whole := emits_guarded cond first last
  rwa [List.append_nil] at whole

private theorem emits_andThen {head tail : Stmt} {r next : Nat}
    (first : a.Emits b head.calls called) (second : b.var.2.Emits c tail.calls called') :
    a.Emits c (block [head, .guarded (.isMatch r) (.block [.declare next,
      .assign next (.asPlace r) false, tail])]).calls (called ++ called') := by
  apply emits_guarded _ first
  have names : (block [.declare next, .assign next (.asPlace r) false, tail]).calls =
      tail.calls := by
    simp [calls, callsAll, Value.calls]
  rw [names]
  exact (Emits.of_bindings rfl : b.Emits b.var.2 [] []).append second

private theorem emits_varIf (needed : Bool) (asm : Assembler Ctx) :
    asm.Emits (Assembly.varIf needed asm).2 [] [] := by
  cases needed <;> exact .of_bindings rfl

private theorem emits_ofSequence_of {items : List (Reader Ctx)}
    (each : ∀ item ∈ items, ∀ asm place r,
      Emits asm (ofReader item place r asm).2 (ofReader item place r asm).1.calls item.called)
    (asm : Assembler Ctx) (place r : Nat) :
    Emits asm (ofSequence items place r asm).2 (ofSequence items place r asm).1.calls
      (items.flatMap Reader.called) := by
  induction items generalizing asm place with
  | nil => exact .of_bindings rfl
  | cons item rest ih =>
    have head := each item (by simp) asm place r
    cases rest with
    | nil =>
      rw [List.flatMap_singleton]
      exact head
    | cons second rest =>
      exact emits_andThen head (ih (fun i member => each i (List.mem_cons_of_mem _ member)) _ _)

private theorem emits_ofAlternation_of {items : List (Reader Ctx)}
    (each : ∀ item ∈ items, ∀ asm place r,
      Emits asm (ofReader item place r asm).2 (ofReader item place r asm).1.calls item.called)
    (asm : Assembler Ctx) (place r : Nat) :
    Emits asm (ofAlternation items place r asm).2 (ofAlternation items place r asm).1.calls
      (items.flatMap Reader.called) := by
  induction items generalizing asm with
  | nil => exact .of_bindings rfl
  | cons item rest ih =>
    have head := each item (by simp) asm place r
    cases rest with
    | nil =>
      rw [List.flatMap_singleton]
      exact head
    | cons second rest =>
      exact emits_guarded _ head (ih (fun i member => each i (List.mem_cons_of_mem _ member)) _)

private theorem called_partsAll (items : List (Reader Ctx)) :
    (Reader.partsAll items).filter Reader.isCall = items.flatMap Reader.called := by
  induction items with
  | nil => rfl
  | cons item rest ih =>
    rw [Reader.partsAll, List.filter_append, ih, List.flatMap_cons, Reader.called]

/-- The statements that read a reader call the bound readers inside of it. -/
theorem emits_ofReader (reader : Reader Ctx) (asm : Assembler Ctx) (place r : Nat) :
    Emits asm (ofReader reader place r asm).2 (ofReader reader place r asm).1.calls
      reader.called := by
  induction reader generalizing asm place r with
  | leaf id l => exact emits_leaf asm id l place r
  | sequence id items ih =>
    rw [show Reader.called (.sequence id items) = items.flatMap Reader.called from
      called_partsAll items]
    exact emits_ofSequence_of ih asm place r
  | alternation id items ih =>
    rw [show Reader.called (.alternation id items) = items.flatMap Reader.called from
      called_partsAll items]
    exact emits_ofAlternation_of ih asm place r
  | optional id inner ih => exact emits_position _ place r (ih asm place r)
  | lookahead id inner ih => exact emits_position _ place r (ih asm place r)
  | repetition id inner min max ih =>
    have body := ih (Assembly.varIf (0 < min || max.isSome) asm.var.2.var.2).2 asm.nextVar
      (asm.nextVar + 1)
    have front := (Emits.of_bindings rfl : asm.Emits asm.var.2.var.2 [] []).append
      (emits_varIf (0 < min || max.isSome) asm.var.2.var.2)
    have names := calls_repetition place r asm.nextVar (asm.nextVar + 1)
      (Assembly.varIf (0 < min || max.isSome) asm.var.2.var.2).1 min max
    have whole := front.append body
    rw [List.append_nil, List.nil_append, ← names] at whole
    exact whole
  | seek id inner inclusive openEnd ih =>
    have body := ih asm.var.2.var.2 asm.nextVar (asm.nextVar + 1)
    have front : asm.Emits asm.var.2.var.2 [] [] := .of_bindings rfl
    have names := calls_seek place r asm.nextVar (asm.nextVar + 1) inclusive openEnd
    have whole := front.append body
    rw [List.nil_append, ← names] at whole
    exact whole

theorem emits_ofSequence (items : List (Reader Ctx)) (asm : Assembler Ctx) (place r : Nat) :
    Emits asm (ofSequence items place r asm).2 (ofSequence items place r asm).1.calls
      (items.flatMap Reader.called) :=
  emits_ofSequence_of (fun item _ => emits_ofReader item) asm place r

end Stmt

namespace Branch

open Stmt

private theorem called_eq (id owner : Nat) (readers : List (Reader Ctx))
    (children : List (Branch Ctx)) (rule : Option Nat) :
    called ⟨id, readers, children, rule, owner⟩ =
      readers.flatMap Reader.called ++ children.flatMap called := by
  simp only [called, preorder, List.flatMap_cons, preorderAll_eq_flatMap, List.flatMap_assoc]
  rfl

private theorem calls_completion (rules : Array (Rule Ctx)) (stop : Nat) (rule : Option Nat) :
    callsAll (completion rules stop rule) = [] := by
  cases rule <;> rfl

private theorem emits_stmts_of {rules : Array (Rule Ctx)} {branches : List (Branch Ctx)}
    (each : ∀ branch ∈ branches, ∀ asm place,
      Emits asm (stmt rules place branch asm).2 (stmt rules place branch asm).1.calls branch.called)
    (asm : Assembler Ctx) (place : Nat) :
    Emits asm (stmts rules place branches asm).2 (callsAll (stmts rules place branches asm).1)
      (branches.flatMap called) := by
  induction branches generalizing asm with
  | nil => exact .of_bindings rfl
  | cons branch rest ih =>
    exact (each branch (by simp) asm place).append
      (ih (fun b member => each b (List.mem_cons_of_mem _ member)) _)

theorem emits_stmt (rules : Array (Rule Ctx)) (branch : Branch Ctx) (asm : Assembler Ctx)
    (place : Nat) :
    Emits asm (stmt rules place branch asm).2 (stmt rules place branch asm).1.calls
      branch.called := by
  induction branch generalizing asm place with
  | mk id readers children rule owner ih =>
    let inside : Assembler Ctx := ⟨asm.nextVar + 2, asm.bindings⟩
    have front : asm.Emits inside [] [] := .of_bindings rfl
    have below := emits_stmts_of ih inside (asm.nextVar + 1)
    have body := emits_ofSequence readers
      (stmts rules (asm.nextVar + 1) children inside).2 place asm.nextVar
    -- The children are made first but stand behind the readers.
    have whole := front.append (below.prepend body)
    rw [stmt_eq, called_eq]
    simpa [calls, callsAll, callsAll_append, Value.calls, calls_completion] using whole

theorem emits_stmts (rules : Array (Rule Ctx)) (branches : List (Branch Ctx))
    (asm : Assembler Ctx) (place : Nat) :
    Emits asm (stmts rules place branches asm).2 (callsAll (stmts rules place branches asm).1)
      (branches.flatMap called) :=
  emits_stmts_of (fun branch _ => emits_stmt rules branch) asm place

end Branch

namespace Routine

open Stmt

private theorem length_arms (rules : Array (Rule Ctx)) (cursor : Nat)
    (tries : List (String × List (Branch Ctx))) (asm : Assembler Ctx) :
    (arms rules cursor tries asm).1.length = tries.length := by
  induction tries generalizing asm with
  | nil => rfl
  | cons trie rest ih => exact congrArg Nat.succ (ih _)

private theorem emits_arms (rules : Array (Rule Ctx)) (cursor : Nat)
    (tries : List (String × List (Branch Ctx))) (asm : Assembler Ctx) :
    Emits asm (arms rules cursor tries asm).2 (callsAll (arms rules cursor tries asm).1)
      (tries.flatMap fun trie => trie.2.flatMap Branch.called) := by
  induction tries generalizing asm with
  | nil => exact .of_bindings rfl
  | cons trie rest ih => exact (Branch.emits_stmts rules trie.2 asm cursor).append (ih _)

theorem emits_dispatchStmt (lexicon : Lexicon Ctx) (cursor : Nat) (asm : Assembler Ctx) :
    Emits asm (dispatchStmt lexicon cursor asm).2 (dispatchStmt lexicon cursor asm).1.calls
      lexicon.forest.called := by
  have stageless (asm : Assembler Ctx) :=
    Branch.emits_stmts lexicon.rules lexicon.forest.stageless asm cursor
  have listed := emits_arms lexicon.rules cursor lexicon.forest.tries asm
  have parts : lexicon.forest.called =
      (lexicon.forest.tries.flatMap fun trie => trie.2.flatMap Branch.called) ++
        lexicon.forest.stageless.flatMap Branch.called := by
    rw [Forest.called, Forest.allRoots, List.flatMap_append, List.flatMap_assoc]
  rw [parts]
  unfold dispatchStmt
  by_cases empty : lexicon.forest.tries.isEmpty
  · simp only [empty, if_true]
    rw [List.isEmpty_iff.mp empty]
    exact stageless asm
  · simp only [empty]
    have enough : (arms lexicon.rules cursor lexicon.forest.tries asm).1.length =
        lexicon.forest.stages.length := by
      rw [length_arms, Forest.stages, List.length_map]
    have whole := listed.append (stageless _)
    rw [← armCalls_of_length enough] at whole
    exact whole

end Routine

end StagedLexer
