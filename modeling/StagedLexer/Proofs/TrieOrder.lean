import StagedLexer.Proofs.TrieWays

/-! The order of the ways through a proper trie, told from the rules alone: a way comes before those
that end on it, and otherwise the earlier owner at the first difference decides. -/
namespace StagedLexer

variable {Ctx : Type}

/-- The rule is the first of those whose ways start with the path. -/
def Leads (ways : List (Way Ctx)) (path : List Nat) (rule : Nat) : Prop :=
  (∃ way ∈ ways, path <+: way.path ∧ way.rule = rule) ∧
    ∀ way ∈ ways, path <+: way.path → rule ≤ way.rule

/-- Among the paths of `ways`, `x` goes on behind the end of `y`, or where the two first differ it
takes the step with the earlier owner. -/
def Before (ways : List (Way Ctx)) (x y : List Nat) : Prop :=
  (y <+: x ∧ y ≠ x) ∨
    ∃ shared a b i j, shared ++ [a] <+: x ∧ shared ++ [b] <+: y ∧ a ≠ b ∧
      Leads ways (shared ++ [a]) i ∧ Leads ways (shared ++ [b]) j ∧ i < j

/-- Every step behind `before` is owned by the first of the rules that take it. -/
def Owned (ways : List (Way Ctx)) : List Nat → List (Reader Ctx × Nat) → Prop
  | _, [] => True
  | before, (reader, owner) :: rest =>
    Leads ways (before ++ [reader.id]) owner ∧ Owned ways (before ++ [reader.id]) rest

namespace Branch

variable {branches : List (Branch Ctx)} {branch : Branch Ctx}

private theorem ProperAll.of_children {motive : List (Branch Ctx) → Prop}
    (step : ∀ branches, ProperAll branches → (∀ branch ∈ branches, motive branch.children) →
      motive branches) (proper : ProperAll branches) : motive branches := by
  have children (branch : Branch Ctx) : branch.Proper → motive branch.children := by
    induction branch with
    | mk id readers children rule owner ih =>
      intro proper
      have below := proper.2.2.2
      exact step children below fun child member => ih child member (below.of_mem member)
  exact step branches proper fun branch member => children branch (proper.of_mem member)

private theorem mem_ways_of_isPrefix (proper : ProperAll branches) (member : branch ∈ branches)
    {start : List Nat} (nonempty : start ≠ []) (within : start <+: branch.path) {way : Way Ctx}
    (among : way ∈ waysAll branches) (through : start <+: way.path) : way ∈ branch.ways := by
  obtain ⟨other, inOther, here⟩ := mem_waysAll.mp among
  have same : other.first? = branch.first? := by
    rw [← (proper.of_mem inOther).head?_path here, head?_of_isPrefix nonempty through,
      first?_eq_head?, head?_of_isPrefix nonempty within]
  rw [proper.eq_of_first inOther member same] at here
  exact here

theorem leads_here (proper : ProperAll branches) (member : branch ∈ branches)
    {start : List Nat} (nonempty : start ≠ []) (within : start <+: branch.path) :
    Leads (waysAll branches) start branch.owner := by
  have own := proper.of_mem member
  obtain ⟨id, readers, children, rule, owner⟩ := branch
  obtain ⟨-, ⟨way, inside, owns⟩, least, -⟩ := own
  constructor
  · exact ⟨way, mem_waysAll.mpr ⟨_, member, inside⟩, within.trans (path_of_mem_ways inside), owns⟩
  · intro other among through
    exact least other (mem_ways_of_isPrefix proper member nonempty within among through)

theorem leads_below (proper : ProperAll branches) (member : branch ∈ branches)
    {path : List Nat} (nonempty : path ≠ []) {rule : Nat}
    (leads : Leads (waysAll branch.children) path rule) :
    Leads (waysAll branches) (branch.path ++ path) rule := by
  obtain ⟨⟨inner, below, through, rfl⟩, least⟩ := leads
  constructor
  · refine ⟨_, mem_waysAll.mpr ⟨branch, member, mem_ways.mpr ⟨inner, .inl below, rfl⟩⟩, ?_, rfl⟩
    rw [Way.behind_path]
    exact (List.prefix_append_right_inj _).mpr through
  · intro way among through
    have here := mem_ways_of_isPrefix proper member (proper.of_mem member).path_ne_nil
      (List.prefix_refl _) among ((List.prefix_append _ _).trans through)
    obtain ⟨other, origin, rfl⟩ := mem_ways.mp here
    rw [Way.behind_path] at through
    have further := (List.prefix_append_right_inj _).mp through
    rcases origin with below' | ⟨none, -⟩
    · exact least other below' further
    · rw [Way.path, none] at further
      exact (nonempty (List.prefix_nil.mp further)).elim

private theorem owned_below (proper : ProperAll branches) (member : branch ∈ branches)
    {steps : List (Reader Ctx × Nat)} {before : List Nat}
    (owned : Owned (waysAll branch.children) before steps) :
    Owned (waysAll branches) (branch.path ++ before) steps := by
  induction steps generalizing before with
  | nil => trivial
  | cons step rest ih =>
    obtain ⟨leads, others⟩ := owned
    have here := leads_below proper member (by simp) leads
    have behind := ih others
    rw [← List.append_assoc] at here behind
    exact ⟨here, behind⟩

private theorem owned_readers (proper : ProperAll branches) (member : branch ∈ branches)
    {rest : List (Reader Ctx × Nat)} (owned : Owned (waysAll branches) branch.path rest)
    {readers : List (Reader Ctx)} {before : List Nat}
    (parts : branch.path = before ++ readers.map Reader.id) :
    Owned (waysAll branches) before (readers.map (·, branch.owner) ++ rest) := by
  induction readers generalizing before with
  | nil => simpa [parts] using owned
  | cons reader readers ih =>
    have split : branch.path = (before ++ [reader.id]) ++ readers.map Reader.id := by simp [parts]
    exact ⟨leads_here proper member (by simp) ⟨_, split.symm⟩, ih split⟩

/-- Every step of a way through a proper trie is owned by the first of the rules that take it. -/
theorem owned_waysAll (proper : ProperAll branches) :
    ∀ way ∈ waysAll branches, Owned (waysAll branches) [] way.steps := by
  apply ProperAll.of_children _ proper
  intro branches proper ih way among
  obtain ⟨branch, member, inside⟩ := mem_waysAll.mp among
  obtain ⟨inner, origin, rfl⟩ := mem_ways.mp inside
  refine owned_readers proper member ?_ (by simp [path])
  rcases origin with below | ⟨none, -⟩
  · simpa using owned_below proper member (ih branch member inner below)
  · rw [none]
    trivial

private theorem before_below (proper : ProperAll branches) (member : branch ∈ branches)
    {x y : List Nat} (before : Before (waysAll branch.children) x y) :
    Before (waysAll branches) (branch.path ++ x) (branch.path ++ y) := by
  rcases before with
    ⟨within, different⟩ | ⟨shared, a, b, i, j, inX, inY, different, leadsA, leadsB, lt⟩
  · left
    exact ⟨(List.prefix_append_right_inj _).mpr within, by simpa using different⟩
  · right
    refine ⟨branch.path ++ shared, a, b, i, j, ?_, ?_, different, ?_, ?_, lt⟩
    · rw [List.append_assoc]
      exact (List.prefix_append_right_inj _).mpr inX
    · rw [List.append_assoc]
      exact (List.prefix_append_right_inj _).mpr inY
    · rw [List.append_assoc]
      exact leads_below proper member (by simp) leadsA
    · rw [List.append_assoc]
      exact leads_below proper member (by simp) leadsB

private theorem before_of_apart (proper : ProperAll branches) {earlier later : Branch Ctx}
    (inEarlier : earlier ∈ branches) (inLater : later ∈ branches) (apart : Apart earlier later)
    {x y : Way Ctx} (inX : x ∈ earlier.ways) (inY : y ∈ later.ways) :
    Before (waysAll branches) x.path y.path := by
  have start (branch : Branch Ctx) (member : branch ∈ branches) :
      ∃ first, branch.first? = some first ∧ [] ++ [first] <+: branch.path := by
    rw [first?_eq_head?]
    cases path : branch.path with
    | nil => exact ((proper.of_mem member).path_ne_nil path).elim
    | cons first rest => exact ⟨first, rfl, rest, rfl⟩
  obtain ⟨a, firstA, startA⟩ := start earlier inEarlier
  obtain ⟨b, firstB, startB⟩ := start later inLater
  right
  refine ⟨[], a, b, earlier.owner, later.owner, startA.trans (path_of_mem_ways inX),
    startB.trans (path_of_mem_ways inY), ?_, leads_here proper inEarlier (by simp) startA,
    leads_here proper inLater (by simp) startB, apart.1⟩
  rintro rfl
  exact apart.2 (firstA.trans firstB.symm)

private theorem path_ne_nil_of_mem (proper : ProperAll branches) {way : Way Ctx}
    (among : way ∈ waysAll branches) : way.path ≠ [] := by
  obtain ⟨branch, member, inside⟩ := mem_waysAll.mp among
  intro none
  have begins := path_of_mem_ways inside
  rw [none, List.prefix_nil] at begins
  exact (proper.of_mem member).path_ne_nil begins

private theorem pairwise_ways (proper : ProperAll branches) (member : branch ∈ branches)
    (children : (waysAll branch.children).Pairwise fun x y =>
      Before (waysAll branch.children) x.path y.path) :
    branch.ways.Pairwise fun x y => Before (waysAll branches) x.path y.path := by
  have own := proper.of_mem member
  obtain ⟨id, readers, below, rule, owner⟩ := branch
  rw [ways, List.pairwise_map, List.pairwise_append]
  simp only [Way.behind_path]
  refine ⟨children.imp fun before => before_below proper member before, ?_, ?_⟩
  · cases rule <;> simp
  · intro x inX y inY
    obtain ⟨completed, -, rfl⟩ := List.mem_map.mp inY
    have longer := path_ne_nil_of_mem own.2.2.2 inX
    left
    exact ⟨(List.prefix_append_right_inj _).mpr (List.nil_prefix ..),
      by simpa [Way.path] using longer⟩

/-- The ways through a proper trie are in order. -/
theorem pairwise_waysAll (proper : ProperAll branches) :
    (waysAll branches).Pairwise fun x y => Before (waysAll branches) x.path y.path := by
  apply ProperAll.of_children _ proper
  intro branches proper ih
  rw [waysAll_eq_flatMap, List.pairwise_flatMap, ← waysAll_eq_flatMap]
  refine ⟨fun branch member => pairwise_ways proper member (ih branch member), ?_⟩
  refine proper.pairwise.imp_of_mem fun inEarlier inLater apart x inX y inY => ?_
  exact before_of_apart proper inEarlier inLater apart inX inY

end Branch

end StagedLexer
