import Mathlib.Data.List.Forall2
import Mathlib.Data.List.Nodup
import StagedLexer.Graph
import StagedLexer.Proofs.ForestShape

/-! The calls that draw a trie. They show its branches in the order in which these are tried, each
once below the one it hangs from. -/
namespace StagedLexer

variable {Ctx : Type}

namespace Branch

mutual
/-- A branch below the node `parent` and all branches below it, each with the node it hangs from. -/
def hanging (parent : String) : Branch Ctx → List (String × Branch Ctx)
  | ⟨id, readers, children, rule, owner⟩ =>
    (parent, ⟨id, readers, children, rule, owner⟩) :: hangingAll (nodeName id) children
def hangingAll (parent : String) : List (Branch Ctx) → List (String × Branch Ctx)
  | [] => []
  | branch :: rest => hanging parent branch ++ hangingAll parent rest
end

def callsOf (drawn : String × Branch Ctx) : List Dot.Call :=
  [nodeCall drawn.2.id drawn.2.rule, edgeCall drawn.1 drawn.2.id drawn.2.readers]

theorem statements_callsOf (drawn : String × Branch Ctx) :
    (callsOf drawn).map Dot.Call.statement =
      [.node (nodeName drawn.2.id), .edge drawn.1 (nodeName drawn.2.id)] := by
  obtain ⟨parent, id, readers, children, rule, owner⟩ := drawn
  cases rule <;> rfl

theorem hangingAll_eq_flatMap (parent : String) (branches : List (Branch Ctx)) :
    hangingAll parent branches = branches.flatMap (hanging parent) := by
  induction branches with
  | nil => rfl
  | cons branch rest ih => rw [hangingAll, ih, List.flatMap_cons]

def hangingStack (stack : List (String × Branch Ctx)) : List (String × Branch Ctx) :=
  stack.flatMap fun waiting => hanging waiting.1 waiting.2

theorem hangingStack_under (parent : String) (branches : List (Branch Ctx)) :
    hangingStack (under parent branches) = hangingAll parent branches := by
  rw [hangingStack, under, List.flatMap_map, hangingAll_eq_flatMap]

/-- What waits on the stack is drawn one branch after the other, each with all below it. -/
theorem draw_eq (stack : List (String × Branch Ctx)) :
    draw stack = (hangingStack stack).flatMap callsOf := by
  fun_induction draw stack with
  | case1 => rfl
  | case2 parent id readers children rule owner waiting ih =>
    have first : hangingStack ((parent, ⟨id, readers, children, rule, owner⟩) :: waiting) =
        (parent, ⟨id, readers, children, rule, owner⟩) ::
          hangingStack (under (nodeName id) children ++ waiting) := by
      have all : hangingStack (under (nodeName id) children ++ waiting) =
          hangingAll (nodeName id) children ++ hangingStack waiting := by
        rw [← hangingStack_under]
        exact List.flatMap_append
      rw [all, hangingStack, List.flatMap_cons, hanging]
      rfl
    rw [ih, first, List.flatMap_cons]
    rfl

private theorem map_snd_hangingAll_of {branches : List (Branch Ctx)}
    (each : ∀ branch ∈ branches, ∀ parent, (hanging parent branch).map (·.2) = branch.preorder)
    (parent : String) : (hangingAll parent branches).map (·.2) = preorderAll branches := by
  rw [hangingAll_eq_flatMap, preorderAll_eq_flatMap, List.map_flatMap]
  exact List.flatMap_congr fun branch member => each branch member parent

/-- Every branch is drawn once, in front of those below it. -/
theorem map_snd_hangingAll (parent : String) (branches : List (Branch Ctx)) :
    (hangingAll parent branches).map (·.2) = preorderAll branches := by
  refine map_snd_hangingAll_of (fun branch member => ?_) parent
  clear member
  induction branch with
  | mk id readers children rule owner ih =>
    intro parent
    rw [hanging, preorder, List.map_cons, map_snd_hangingAll_of ih]

/-- A branch hangs from the given node or from that of its parent. -/
theorem parent_of_mem_hangingAll {parent : String} {branches : List (Branch Ctx)}
    {drawn : String × Branch Ctx} (member : drawn ∈ hangingAll parent branches) :
    (drawn.1 = parent ∧ drawn.2 ∈ branches) ∨
      ∃ above ∈ preorderAll branches, drawn.1 = nodeName above.id ∧ drawn.2 ∈ above.children := by
  rw [hangingAll_eq_flatMap] at member
  obtain ⟨branch, among, below⟩ := List.mem_flatMap.mp member
  -- The children become the roots, and the parent found among them stays below the branch.
  clear member
  induction branch generalizing parent branches with
  | mk id readers children rule owner ih =>
    rw [hanging, hangingAll_eq_flatMap] at below
    rcases List.mem_cons.mp below with rfl | below
    · exact .inl ⟨rfl, among⟩
    · obtain ⟨child, inChildren, inside⟩ := List.mem_flatMap.mp below
      have self : ⟨id, readers, children, rule, owner⟩ ∈ preorderAll branches :=
        mem_preorderAll.mpr ⟨_, among, List.mem_cons_self ..⟩
      right
      rcases ih child inChildren inChildren inside with ⟨name, here⟩ | ⟨above, further, rest⟩
      · exact ⟨_, self, name, here⟩
      · refine ⟨above, mem_preorderAll.mpr ⟨_, among, ?_⟩, rest⟩
        exact List.mem_cons_of_mem _ further

mutual
/-- The outcome of trying a branch, with the branches that are considered on the way, in order. -/
def track (text : Bytes) (ctx : Ctx) (start pos : Nat) : Branch Ctx → List (Branch Ctx) × Outcome
  | ⟨id, readers, children, rule, owner⟩ =>
    let self : Branch Ctx := ⟨id, readers, children, rule, owner⟩
    match Reader.readAll text ctx readers pos with
    | .noMatch => ([self], .noMatch)
    | .failed code => ([self], .failed owner code)
    | .endless => ([self], .endless)
    | .matched stop =>
      let below := trackAll text ctx start stop children
      (self :: below.1, below.2.orElse fun _ =>
        match rule with
        | some rule => if start < stop then .matched rule stop else .noMatch
        | none => .noMatch)
def trackAll (text : Bytes) (ctx : Ctx) (start pos : Nat) :
    List (Branch Ctx) → List (Branch Ctx) × Outcome
  | [] => ([], .noMatch)
  | branch :: rest =>
    let first := track text ctx start pos branch
    match first.2 with
    | .noMatch =>
      let others := trackAll text ctx start pos rest
      (first.1 ++ others.1, others.2)
    | outcome => (first.1, outcome)
end

section Order

variable {text : Bytes} {ctx : Ctx} {start pos : Nat}

private theorem trackAll_of {branches : List (Branch Ctx)}
    (each : ∀ branch ∈ branches, (track text ctx start pos branch).2 =
        attempt text ctx start pos branch ∧
      (track text ctx start pos branch).1.Sublist branch.preorder) :
    (trackAll text ctx start pos branches).2 = attemptAll text ctx start pos branches ∧
      (trackAll text ctx start pos branches).1.Sublist (preorderAll branches) := by
  induction branches with
  | nil => exact ⟨rfl, .slnil⟩
  | cons branch rest ih =>
    obtain ⟨⟨outcome, order⟩, others⟩ := List.forall_mem_cons.mp each
    obtain ⟨sameRest, orderRest⟩ := ih others
    rw [trackAll, attemptAll, preorderAll, ← outcome]
    cases decided : (track text ctx start pos branch).2 with
    | noMatch => exact ⟨sameRest, order.append orderRest⟩
    | matched | failed | endless =>
      exact ⟨rfl, order.trans (List.sublist_append_left _ _)⟩

/-- Branches are considered in the order in which they are drawn. -/
theorem trackAll_spec (branches : List (Branch Ctx)) :
    (trackAll text ctx start pos branches).2 = attemptAll text ctx start pos branches ∧
      (trackAll text ctx start pos branches).1.Sublist (preorderAll branches) := by
  refine trackAll_of fun branch member => ?_
  clear member
  induction branch generalizing pos with
  | mk id readers children rule owner ih =>
    have below (stop : Nat) := trackAll_of fun child member => @ih child member stop
    rw [track, attempt, preorder]
    cases Reader.readAll text ctx readers pos with
    | noMatch | failed | endless => exact ⟨rfl, by simp⟩
    | matched stop =>
      obtain ⟨outcome, order⟩ := below stop
      refine ⟨?_, order.cons_cons _⟩
      cases rule with
      | none | some => simp only [outcome]

end Order

end Branch

namespace Dot

def nodes (statements : List Statement) : List String :=
  statements.filterMap fun
    | .node name => some name
    | _ => none

def edges (statements : List Statement) : List (String × String) :=
  statements.filterMap fun
    | .edge source target => some (source, target)
    | _ => none

/-- The branch hangs from a node of a trie: from the root, or from the branch that it is a child
of. -/
def HangsFrom (roots : List (Branch Ctx)) (source : String) (branch : Branch Ctx) : Prop :=
  (source = "root" ∧ branch ∈ roots) ∨
    ∃ above ∈ Branch.preorderAll roots, source = Branch.nodeName above.id ∧ branch ∈ above.children

/-- A graph shows a trie: besides the root it has one node for every branch, all of different names,
in the order of the branches, and as many edges, in the same order, to each branch from the node it
hangs from. -/
structure Shows (roots : List (Branch Ctx)) (statements : List Statement) : Prop where
  nodes : nodes statements = "root" :: (Branch.preorderAll roots).map (Branch.nodeName ·.id)
  nodup : (Dot.nodes statements).Nodup
  edges : List.Forall₂ (fun edge branch => edge.2 = Branch.nodeName branch.id ∧
    HangsFrom roots edge.1 branch) (edges statements) (Branch.preorderAll roots)

private theorem nodes_callsOf (drawn : List (String × Branch Ctx)) :
    nodes ((drawn.flatMap Branch.callsOf).map Call.statement) =
      drawn.map (Branch.nodeName ·.2.id) := by
  induction drawn with
  | nil => rfl
  | cons b rest ih =>
    rw [List.flatMap_cons, List.map_append, Branch.statements_callsOf, List.map_cons, ← ih]
    rfl

private theorem edges_callsOf (drawn : List (String × Branch Ctx)) :
    edges ((drawn.flatMap Branch.callsOf).map Call.statement) =
      drawn.map fun b => (b.1, Branch.nodeName b.2.id) := by
  induction drawn with
  | nil => rfl
  | cons b rest ih =>
    rw [List.flatMap_cons, List.map_append, Branch.statements_callsOf, List.map_cons, ← ih]
    rfl

theorem nodeName_injective : Function.Injective Branch.nodeName := by
  intro a b same
  rw [Branch.nodeName, Branch.nodeName, String.append_right_inj, Nat.toString_eq_repr,
    Nat.toString_eq_repr] at same
  have read := congrArg (fun s => Nat.ofDigitChars 10 s.toList 0) same
  simpa [Nat.toList_repr, Nat.ofDigitChars_ten_toDigits] using read

theorem root_ne_nodeName (id : Nat) : "root" ≠ Branch.nodeName id := by
  intro same
  have first := congrArg (·.toList.head?) same
  simp [Branch.nodeName] at first

/-- The calls for a trie whose branches have different numbers show the trie, whatever its title. -/
theorem shows_calls (label : String) {roots : List (Branch Ctx)}
    (nodup : (Branch.numbers roots).Nodup) :
    Shows roots ((Branch.calls label roots).map Call.statement) := by
  have drawn := Branch.map_snd_hangingAll "root" roots
  have calls : (Branch.calls label roots).map Call.statement = .setting "label" ::
      .setting "rankdir" :: .node "root" ::
        ((Branch.hangingAll "root" roots).flatMap Branch.callsOf).map Call.statement := by
    rw [Branch.calls, Branch.draw_eq, Branch.hangingStack_under]
    rfl
  have nodes : nodes ((Branch.calls label roots).map Call.statement) =
      "root" :: (Branch.preorderAll roots).map (Branch.nodeName ·.id) := by
    rw [calls, ← drawn, List.map_map]
    exact congrArg _ (nodes_callsOf _)
  refine ⟨nodes, ?_, ?_⟩
  · rw [nodes, List.nodup_cons]
    constructor
    · intro member
      obtain ⟨branch, -, same⟩ := List.mem_map.mp member
      exact root_ne_nodeName branch.id same.symm
    · have different := List.Nodup.map nodeName_injective nodup
      rwa [Branch.numbers, List.map_map] at different
  · have edges : edges ((Branch.calls label roots).map Call.statement) =
        (Branch.hangingAll "root" roots).map fun b => (b.1, Branch.nodeName b.2.id) := by
      rw [calls]
      exact edges_callsOf _
    rw [edges, ← drawn, List.forall₂_map_left_iff, List.forall₂_map_right_iff, List.forall₂_same]
    exact fun b member => ⟨rfl, Branch.parent_of_mem_hangingAll member⟩

end Dot

end StagedLexer
