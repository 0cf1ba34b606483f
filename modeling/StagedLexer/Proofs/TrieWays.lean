import StagedLexer.Outcome
import StagedLexer.Proofs.TrieReaders

/-! The ways through a trie. Trying the branches of a trie is trying the ways through it one by one,
each from the start. -/
namespace StagedLexer

variable {Ctx : Type}

/-- A way through a trie to a complete rule: its readers, each with the owner of the branch. -/
structure Way (Ctx : Type) where
  steps : List (Reader Ctx × Nat)
  rule : Nat

namespace Way

def path (way : Way Ctx) : List Nat := way.steps.map (·.1.id)

/-- The way with more steps in front. -/
def behind (front : List (Reader Ctx × Nat)) (way : Way Ctx) : Way Ctx :=
  { way with steps := front ++ way.steps }

@[simp] theorem behind_rule (front : List (Reader Ctx × Nat)) (way : Way Ctx) :
    (way.behind front).rule = way.rule := rfl

@[simp] theorem behind_path (readers : List (Reader Ctx)) (owner : Nat) (way : Way Ctx) :
    (way.behind (readers.map (·, owner))).path = readers.map Reader.id ++ way.path := by
  simp [behind, path]

@[simp] theorem behind_readers (readers : List (Reader Ctx)) (owner : Nat) (way : Way Ctx) :
    (way.behind (readers.map (·, owner))).steps.map (·.1) = readers ++ way.steps.map (·.1) := by
  simp [behind, Function.comp_def]

/-- Reads the steps of a way to a rule. -/
def follow (text : Bytes) (ctx : Ctx) (start rule : Nat) : List (Reader Ctx × Nat) → Nat → Outcome
  | [], pos => if start < pos then .matched rule pos else .noMatch
  | (reader, owner) :: rest, pos =>
    match Reader.read text ctx reader pos with
    | .matched stop => follow text ctx start rule rest stop
    | .noMatch => .noMatch
    | .failed code => .failed owner code
    | .endless => .endless

/-- Tries ways in order. -/
def attemptAll (text : Bytes) (ctx : Ctx) (start pos : Nat) : List (Way Ctx) → Outcome
  | [] => .noMatch
  | way :: rest =>
    (follow text ctx start way.rule way.steps pos).orElse fun _ =>
      attemptAll text ctx start pos rest

end Way

theorem head?_of_isPrefix {start whole : List Nat} (nonempty : start ≠ [])
    (begins : start <+: whole) : whole.head? = start.head? := by
  obtain ⟨rest, rfl⟩ := begins
  cases start with
  | nil => exact (nonempty rfl).elim
  | cons => rfl

namespace Branch

mutual
/-- The ways through a branch, in the order in which they are tried. -/
def ways : Branch Ctx → List (Way Ctx)
  | ⟨_, readers, children, rule, owner⟩ =>
    (waysAll children ++ rule.toList.map (Way.mk [])).map (.behind (readers.map (·, owner)))
def waysAll : List (Branch Ctx) → List (Way Ctx)
  | [] => []
  | branch :: rest => ways branch ++ waysAll rest
end

theorem waysAll_eq_flatMap (branches : List (Branch Ctx)) :
    waysAll branches = branches.flatMap ways := by
  induction branches with
  | nil => rfl
  | cons branch rest ih => simp [waysAll, ih]

def first? (branch : Branch Ctx) : Option Nat := branch.readers.head?.map Reader.id

/-- Two siblings start with different readers, and the earlier one has the earlier owner. -/
def Apart (earlier later : Branch Ctx) : Prop :=
  earlier.owner < later.owner ∧ earlier.first? ≠ later.first?

mutual
/-- Every branch has readers and is owned by the first of the rules that lead through it, and its
children stand apart. -/
def Proper : Branch Ctx → Prop
  | ⟨id, readers, children, rule, owner⟩ =>
    readers ≠ [] ∧ (∃ way ∈ ways ⟨id, readers, children, rule, owner⟩, way.rule = owner) ∧
      (∀ way ∈ ways ⟨id, readers, children, rule, owner⟩, owner ≤ way.rule) ∧ ProperAll children
def ProperAll : List (Branch Ctx) → Prop
  | [] => True
  | branch :: rest => Proper branch ∧ (∀ other ∈ rest, Apart branch other) ∧ ProperAll rest
end

theorem ProperAll.of_mem {branches : List (Branch Ctx)} (proper : ProperAll branches)
    {branch : Branch Ctx} (member : branch ∈ branches) : branch.Proper := by
  induction branches with
  | nil => cases member
  | cons first rest ih =>
    obtain ⟨here, -, others⟩ := proper
    rcases List.mem_cons.mp member with rfl | behind
    · exact here
    · exact ih others behind

theorem ProperAll.pairwise {branches : List (Branch Ctx)} (proper : ProperAll branches) :
    branches.Pairwise Apart := by
  induction branches with
  | nil => exact .nil
  | cons branch rest ih => exact .cons proper.2.1 (ih proper.2.2)

theorem ProperAll.eq_of_first {branches : List (Branch Ctx)} (proper : ProperAll branches)
    {a b : Branch Ctx} (inA : a ∈ branches) (inB : b ∈ branches) (same : a.first? = b.first?) :
    a = b := by
  induction branches with
  | nil => cases inA
  | cons branch rest ih =>
    obtain ⟨-, apart, others⟩ := proper
    rcases List.mem_cons.mp inA with rfl | behindA <;> rcases List.mem_cons.mp inB with rfl | behindB
    · rfl
    · exact ((apart b behindB).2 same).elim
    · exact ((apart a behindA).2 same.symm).elim
    · exact ih others behindA behindB

def path (branch : Branch Ctx) : List Nat := branch.readers.map Reader.id

theorem mem_ways {branch : Branch Ctx} {way : Way Ctx} :
    way ∈ branch.ways ↔
      ∃ inner, (inner ∈ waysAll branch.children ∨ inner.steps = [] ∧ branch.rule = some inner.rule) ∧
        way = inner.behind (branch.readers.map (·, branch.owner)) := by
  obtain ⟨id, readers, children, rule, owner⟩ := branch
  simp only [ways, List.mem_map, List.mem_append, Option.mem_toList]
  constructor
  · rintro ⟨inner, below | ⟨completed, here, rfl⟩, rfl⟩
    · exact ⟨inner, .inl below, rfl⟩
    · exact ⟨⟨[], completed⟩, .inr ⟨rfl, here⟩, rfl⟩
  · rintro ⟨inner, below | ⟨none, here⟩, rfl⟩
    · exact ⟨inner, .inl below, rfl⟩
    · obtain ⟨steps, completed⟩ := inner
      obtain rfl : steps = [] := none
      exact ⟨_, .inr ⟨completed, here, rfl⟩, rfl⟩

theorem path_of_mem_ways {branch : Branch Ctx} {way : Way Ctx} (member : way ∈ branch.ways) :
    branch.path <+: way.path := by
  obtain ⟨inner, -, rfl⟩ := mem_ways.mp member
  exact ⟨inner.path, by simp [path]⟩

theorem Proper.path_ne_nil {branch : Branch Ctx} (proper : branch.Proper) : branch.path ≠ [] := by
  obtain ⟨id, readers, children, rule, owner⟩ := branch
  simpa [path] using proper.1

theorem first?_eq_head? (branch : Branch Ctx) : branch.first? = branch.path.head? := by
  simp [first?, path, List.head?_map]

theorem Proper.head?_path {branch : Branch Ctx} (proper : branch.Proper) {way : Way Ctx}
    (member : way ∈ branch.ways) : way.path.head? = branch.first? := by
  rw [first?_eq_head?]
  exact head?_of_isPrefix proper.path_ne_nil (path_of_mem_ways member)

theorem mem_waysAll {branches : List (Branch Ctx)} {way : Way Ctx} :
    way ∈ waysAll branches ↔ ∃ branch ∈ branches, way ∈ branch.ways := by
  simp [waysAll_eq_flatMap]

end Branch

namespace Way

variable {text : Bytes} {ctx : Ctx} {start pos : Nat}

private theorem attemptAll_append (first second : List (Way Ctx)) :
    attemptAll text ctx start pos (first ++ second) =
      (attemptAll text ctx start pos first).orElse fun _ =>
        attemptAll text ctx start pos second := by
  induction first with
  | nil => rfl
  | cons way rest ih =>
    rw [List.cons_append, attemptAll, attemptAll, ih]
    cases follow text ctx start way.rule way.steps pos <;> rfl

private theorem follow_append (rule owner : Nat) (readers : List (Reader Ctx))
    (rest : List (Reader Ctx × Nat)) (pos : Nat) :
    follow text ctx start rule (readers.map (·, owner) ++ rest) pos =
      match Reader.readAll text ctx readers pos with
      | .matched stop => follow text ctx start rule rest stop
      | .noMatch => .noMatch
      | .failed code => .failed owner code
      | .endless => .endless := by
  induction readers generalizing pos with
  | nil => rfl
  | cons reader readers ih =>
    simp only [List.map_cons, List.cons_append, follow, Reader.readAll]
    cases Reader.read text ctx reader pos with
    | matched stop => exact ih stop
    | noMatch | failed | endless => rfl

private theorem attemptAll_behind (owner : Nat) (readers : List (Reader Ctx))
    {ways : List (Way Ctx)} (leading : ways ≠ []) :
    attemptAll text ctx start pos (ways.map (.behind (readers.map (·, owner)))) =
      match Reader.readAll text ctx readers pos with
      | .matched stop => attemptAll text ctx start stop ways
      | .noMatch => .noMatch
      | .failed code => .failed owner code
      | .endless => .endless := by
  induction ways with
  | nil => exact (leading rfl).elim
  | cons way rest ih =>
    simp only [List.map_cons, attemptAll, behind, follow_append]
    cases rest with
    | nil => cases Reader.readAll text ctx readers pos <;> rfl
    | cons second more =>
      have others := ih (by simp)
      cases read : Reader.readAll text ctx readers pos with
      | matched stop =>
        rw [read] at others
        simp only [others]
      | noMatch =>
        rw [read] at others
        simp only [others, Outcome.orElse]
      | failed | endless => rfl

private theorem attemptAll_waysAll_of {branches : List (Branch Ctx)}
    (each : ∀ branch ∈ branches,
      Branch.attempt text ctx start pos branch = attemptAll text ctx start pos branch.ways) :
    Branch.attemptAll text ctx start pos branches =
      attemptAll text ctx start pos (Branch.waysAll branches) := by
  induction branches with
  | nil => rfl
  | cons branch rest ih =>
    have others := ih fun b member => each b (List.mem_cons_of_mem _ member)
    rw [Branch.attemptAll, Branch.waysAll, attemptAll_append, each branch (List.mem_cons_self ..),
      others]

private theorem attempt_eq_ways {branch : Branch Ctx} (proper : branch.Proper) (pos : Nat) :
    Branch.attempt text ctx start pos branch = attemptAll text ctx start pos branch.ways := by
  induction branch generalizing pos with
  | mk id readers children completed owner ih =>
    obtain ⟨-, ⟨way, here, -⟩, -, below⟩ := proper
    have inner : Branch.waysAll children ++ completed.toList.map (Way.mk []) ≠ [] := by
      intro none
      rw [Branch.ways, none] at here
      cases here
    rw [Branch.attempt, Branch.ways, attemptAll_behind owner readers inner]
    cases Reader.readAll text ctx readers pos with
    | noMatch | failed | endless => rfl
    | matched stop =>
      have children_eq : Branch.attemptAll text ctx start stop children =
          attemptAll text ctx start stop (Branch.waysAll children) :=
        attemptAll_waysAll_of fun child member => ih child member (below.of_mem member) stop
      simp only [children_eq, attemptAll_append]
      cases completed with
      | none => rfl
      | some rule =>
        simp only [Option.toList_some, List.map_cons, List.map_nil, attemptAll, follow]
        split <;> rfl

/-- Trying branches is trying the ways through them. -/
theorem attemptAll_eq_ways {branches : List (Branch Ctx)}
    (proper : Branch.ProperAll branches) (text : Bytes) (ctx : Ctx) (start pos : Nat) :
    Branch.attemptAll text ctx start pos branches =
      attemptAll text ctx start pos (Branch.waysAll branches) :=
  attemptAll_waysAll_of fun _ member => attempt_eq_ways (proper.of_mem member) pos

end Way

end StagedLexer
