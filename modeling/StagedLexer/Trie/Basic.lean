import StagedLexer.Note
import StagedLexer.Rule

/-! Decision tries. The rules that are active in a stage are merged into a list of branches: rules
that start with the same readers, by identity, share the branch that reads them. Branches are
numbered in the order in which they are made. -/
namespace StagedLexer

structure Branch (Ctx : Type) where
  id : Nat
  readers : List (Reader Ctx)
  children : List (Branch Ctx)
  rule : Option Nat
  /-- The first rule that leads through the branch. -/
  owner : Nat

def commonStart {Ctx : Type} :
    List (Reader Ctx) → List (Reader Ctx) →
      List (Reader Ctx) × List (Reader Ctx) × List (Reader Ctx)
  | a :: as, b :: bs =>
    if a.id = b.id then
      let (shared, left, right) := commonStart as bs
      (a :: shared, left, right)
    else ([], a :: as, b :: bs)
  | as, bs => ([], as, bs)

namespace Branch

variable {Ctx : Type}

def complete (id : Nat) (readers : List (Reader Ctx)) (rule : Nat) : Branch Ctx :=
  { id, readers, children := [], rule := some rule, owner := rule }

structure Inserted (α : Type) where
  result : α
  next : Nat
  notes : List Note := []

/-- Cuts a branch behind `shared`, the part of its readers that a new rule shares with it. The rest
of the branch becomes a child; the new rule is complete at the cut or gets a second child. -/
def split (branch : Branch Ctx) (shared rest remainder : List (Reader Ctx)) (rule next : Nat) :
    Branch Ctx × Nat :=
  let old := { branch with readers := rest }
  let cut (children : List (Branch Ctx)) (rule : Option Nat) : Branch Ctx :=
    { id := next, readers := shared, children, rule, owner := branch.owner }
  -- The upper part of the branch gets the new number, the rest keeps the old one.
  if remainder.isEmpty then (cut [old] (some rule), next + 1)
  else (cut [old, complete (next + 1) remainder rule] none, next + 2)

mutual
/-- Inserts a rule with the given steps into a list of branches, of which at most one starts with
the same reader. -/
def insertAll (steps : List (Reader Ctx)) (rule next : Nat) :
    List (Branch Ctx) → Inserted (List (Branch Ctx))
  | [] => { result := [complete next steps rule], next := next + 1 }
  | branch :: others =>
    match commonStart branch.readers steps with
    | ([], _, _) =>
      let inserted := insertAll steps rule next others
      { inserted with result := branch :: inserted.result }
    | (_, [], remainder) =>
      let inserted := insertBelow remainder rule next branch
      { inserted with result := inserted.result :: others }
    | (shared, rest, remainder) =>
      let (cut, next) := branch.split shared rest remainder rule next
      { result := cut :: others, next }
def insertBelow (remainder : List (Reader Ctx)) (rule next : Nat) :
    Branch Ctx → Inserted (Branch Ctx)
  | ⟨id, readers, children, completed, owner⟩ =>
    if remainder.isEmpty then
      match completed with
      | none => { result := ⟨id, readers, children, some rule, owner⟩, next }
      | some winner =>
        { result := ⟨id, readers, children, completed, owner⟩, next
          notes := [.shadowed rule winner] }
    else
      let inserted := insertAll remainder rule next children
      { inserted with result := ⟨id, readers, inserted.result, completed, owner⟩ }
end

mutual
def preorder : Branch Ctx → List (Branch Ctx)
  | ⟨id, readers, children, rule, owner⟩ =>
    ⟨id, readers, children, rule, owner⟩ :: preorderAll children
def preorderAll : List (Branch Ctx) → List (Branch Ctx)
  | [] => []
  | branch :: rest => preorder branch ++ preorderAll rest
end

theorem preorderAll_append (first second : List (Branch Ctx)) :
    preorderAll (first ++ second) = preorderAll first ++ preorderAll second := by
  induction first with
  | nil => rfl
  | cons branch rest ih => rw [List.cons_append, preorderAll, preorderAll, ih, List.append_assoc]

end Branch

end StagedLexer
