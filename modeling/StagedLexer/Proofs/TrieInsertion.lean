import StagedLexer.Proofs.TrieWays

/-! Inserting a rule into a proper trie. The ways stay as they are, and there is one more for the rule
unless another rule has the same steps already. -/
namespace StagedLexer

variable {Ctx : Type}

/-- What identifies a way among the rules: its path and its rule. -/
def Way.entry (way : Way Ctx) : List Nat × Nat := (way.path, way.rule)

/-- The entry with more steps in front. -/
def entryBehind (front : List Nat) (entry : List Nat × Nat) : List Nat × Nat :=
  (front ++ entry.1, entry.2)

theorem map_id_commonStart (as bs : List (Reader Ctx)) :
    bs.map Reader.id =
      (commonStart as bs).1.map Reader.id ++ (commonStart as bs).2.2.map Reader.id := by
  fun_induction commonStart as bs with
  | case1 a as b bs same shared left right equal ih =>
    simp only [equal] at ih
    simp [ih, same]
  | case2 | case3 => rfl

theorem commonStart_differs (as bs : List (Reader Ctx)) (left : (commonStart as bs).2.1 ≠ [])
    (right : (commonStart as bs).2.2 ≠ []) :
    (commonStart as bs).2.1.head?.map Reader.id ≠ (commonStart as bs).2.2.head?.map Reader.id := by
  fun_induction commonStart as bs with
  | case1 a as b bs same shared left right equal ih =>
    simp only [equal] at ih
    exact ih ‹_› ‹_›
  | case2 a as b bs differs => simpa using differs
  | case3 as bs other =>
    cases as with
    | nil => exact (left rfl).elim
    | cons a as =>
      cases bs with
      | nil => exact (right rfl).elim
      | cons b bs => exact (other a as b bs rfl rfl).elim

namespace Branch

/-- The results of inserting a rule with the given steps into siblings, case by case. -/
inductive Grows (rule : Nat) :
    List (Reader Ctx) → List (Branch Ctx) → List (Branch Ctx) → Prop
  | added {steps : List (Reader Ctx)} (id : Nat) : Grows rule steps [] [complete id steps rule]
  | later {steps : List (Reader Ctx)} {branch : Branch Ctx} {rest rest' : List (Branch Ctx)}
      (differs : branch.first? ≠ (steps.map Reader.id).head?) (grows : Grows rule steps rest rest') :
      Grows rule steps (branch :: rest) (branch :: rest')
  | completed {steps readers : List (Reader Ctx)} {id owner : Nat}
      {children rest : List (Branch Ctx)}
      (same : steps.map Reader.id = readers.map Reader.id) :
      Grows rule steps (⟨id, readers, children, none, owner⟩ :: rest)
        (⟨id, readers, children, some rule, owner⟩ :: rest)
  | shadowed {steps readers : List (Reader Ctx)} {id owner winner : Nat}
      {children rest : List (Branch Ctx)} (same : steps.map Reader.id = readers.map Reader.id) :
      Grows rule steps (⟨id, readers, children, some winner, owner⟩ :: rest)
        (⟨id, readers, children, some winner, owner⟩ :: rest)
  | deeper {steps readers remainder : List (Reader Ctx)} {id owner : Nat} {completed : Option Nat}
      {children children' rest : List (Branch Ctx)}
      (same : steps.map Reader.id = readers.map Reader.id ++ remainder.map Reader.id)
      (more : remainder ≠ []) (grows : Grows rule remainder children children') :
      Grows rule steps (⟨id, readers, children, completed, owner⟩ :: rest)
        (⟨id, readers, children', completed, owner⟩ :: rest)
  | cut {steps shared unread : List (Reader Ctx)} {id next owner : Nat} {completed : Option Nat}
      {children rest : List (Branch Ctx)} (same : steps.map Reader.id = shared.map Reader.id)
      (shares : shared ≠ []) (left : unread ≠ []) :
      Grows rule steps (⟨id, shared ++ unread, children, completed, owner⟩ :: rest)
        (⟨next, shared, [⟨id, unread, children, completed, owner⟩], some rule, owner⟩ :: rest)
  | forked {steps shared unread remainder : List (Reader Ctx)} {id next next' owner : Nat}
      {completed : Option Nat} {children rest : List (Branch Ctx)}
      (same : steps.map Reader.id = shared.map Reader.id ++ remainder.map Reader.id)
      (shares : shared ≠ []) (left : unread ≠ []) (more : remainder ≠ [])
      (differs : (unread.map Reader.id).head? ≠ (remainder.map Reader.id).head?) :
      Grows rule steps (⟨id, shared ++ unread, children, completed, owner⟩ :: rest)
        (⟨next, shared, [⟨id, unread, children, completed, owner⟩, complete next' remainder rule],
          none, owner⟩ :: rest)

theorem grows_insertAll {steps : List (Reader Ctx)} (nonempty : steps ≠ []) (rule next : Nat) :
    (branches : List (Branch Ctx)) → ProperAll branches →
      Grows rule steps branches (insertAll steps rule next branches).result
  | [], _ => .added next
  | ⟨id, readers, children, completed, owner⟩ :: others, proper => by
    -- The cases are what the branch and the new way have in common: nothing, all readers of the
    -- branch, or some of them.
    have parts := commonStart_append readers steps
    have same := map_id_commonStart readers steps
    have differs := commonStart_differs readers steps
    unfold insertAll
    split
    · next left remainder equal =>
      simp only [equal, List.nil_append] at parts differs
      subst parts
      simp only [equal, List.map_nil, List.nil_append] at same
      have more : remainder ≠ [] := by
        rintro rfl
        simp at same
        exact nonempty same
      refine .later ?_ (grows_insertAll nonempty rule next others proper.2.2)
      have here := differs proper.1.1 more
      rw [← List.head?_map, ← List.head?_map, ← same] at here
      simpa [first?] using here
    · next shared remainder shares equal =>
      simp only [equal, List.append_nil] at parts same
      subst parts
      unfold insertBelow
      split
      · next none =>
        simp only [List.isEmpty_iff.mp none, List.map_nil, List.append_nil] at same
        cases completed with
        | none => exact .completed same
        | some winner => exact .shadowed same
      · next more =>
        have more : remainder ≠ [] := by simpa using more
        exact .deeper same more (grows_insertAll more rule next children proper.1.2.2.2)
    · next shared left remainder shares unread equal =>
      simp only [equal] at parts same differs
      subst parts
      simp only [split]
      split
      · next none =>
        simp only [List.isEmpty_iff.mp none, List.map_nil, List.append_nil] at same
        exact .cut same shares unread
      · next more =>
        have more : remainder ≠ [] := by simpa using more
        have heads := differs unread more
        rw [← List.head?_map, ← List.head?_map] at heads
        exact .forked same shares unread more heads

variable {branches branches' : List (Branch Ctx)} {steps : List (Reader Ctx)} {rule : Nat}

def entries (branches : List (Branch Ctx)) : List (List Nat × Nat) :=
  (waysAll branches).map Way.entry

private theorem entries_cons (branch : Branch Ctx) (rest : List (Branch Ctx)) :
    entries (branch :: rest) = branch.ways.map Way.entry ++ entries rest := by
  simp [entries, waysAll]

private theorem map_entry_ways (id owner : Nat) (readers : List (Reader Ctx))
    (children : List (Branch Ctx)) (completed : Option Nat) :
    (ways ⟨id, readers, children, completed, owner⟩).map Way.entry =
      (entries children ++ completed.toList.map (Prod.mk [])).map
        (entryBehind (readers.map Reader.id)) := by
  simp only [ways, entries, List.map_map, List.map_append]
  congr 1
  · apply List.map_congr_left
    intro way _
    simp [Way.entry, entryBehind]
  · cases completed <;> simp [Way.entry, entryBehind, Way.path, Way.behind]

private theorem ProperAll.head?_of_mem (proper : ProperAll branches) {entry : List Nat × Nat}
    (among : entry ∈ entries branches) : ∃ branch ∈ branches, entry.1.head? = branch.first? := by
  obtain ⟨way, listed, rfl⟩ := List.mem_map.mp among
  obtain ⟨branch, member, inside⟩ := mem_waysAll.mp listed
  exact ⟨branch, member, (proper.of_mem member).head?_path inside⟩

private theorem ProperAll.ne_nil_of_mem (proper : ProperAll branches) {entry : List Nat × Nat}
    (among : entry ∈ entries branches) : entry.1 ≠ [] := by
  obtain ⟨branch, member, head⟩ := proper.head?_of_mem among
  intro none
  rw [none, first?_eq_head?] at head
  exact (proper.of_mem member).path_ne_nil (List.head?_eq_none_iff.mp head.symm)

private theorem not_mem_rest {branch : Branch Ctx} {rest : List (Branch Ctx)}
    (proper : ProperAll (branch :: rest)) {path : List Nat} (head : path.head? = branch.first?)
    (number : Nat) : (path, number) ∉ entries rest := by
  intro among
  obtain ⟨other, member, same⟩ := proper.2.2.head?_of_mem among
  exact (proper.2.1 other member).2 (head.symm.trans same)

/-- How the entries change: they stay if one has the path already, and else there is one more. -/
def Extends (old new : List (List Nat × Nat)) (path : List Nat) (rule : Nat) : Prop :=
  ((∃ number, (path, number) ∈ old) ∧ new = old) ∨
    ((∀ number, (path, number) ∉ old) ∧ new.Perm ((path, rule) :: old))

private theorem Extends.cons {old new first : List (List Nat × Nat)} {path : List Nat}
    (grown : Extends old new path rule) (absent : ∀ number, (path, number) ∉ first) :
    Extends (first ++ old) (first ++ new) path rule := by
  rcases grown with ⟨⟨number, listed⟩, same⟩ | ⟨new_path, perm⟩
  · exact .inl ⟨⟨number, List.mem_append_right _ listed⟩, by rw [same]⟩
  · refine .inr ⟨fun number among => ?_, ?_⟩
    · rcases List.mem_append.mp among with inFirst | inOld
      · exact absent number inFirst
      · exact new_path number inOld
    · exact (perm.append_left first).trans List.perm_middle

private theorem Extends.append {old new last : List (List Nat × Nat)} {path : List Nat}
    (grown : Extends old new path rule) (absent : ∀ number, (path, number) ∉ last) :
    Extends (old ++ last) (new ++ last) path rule := by
  rcases grown with ⟨⟨number, listed⟩, same⟩ | ⟨new_path, perm⟩
  · exact .inl ⟨⟨number, List.mem_append_left _ listed⟩, by rw [same]⟩
  · refine .inr ⟨fun number among => ?_, perm.append_right last⟩
    rcases List.mem_append.mp among with inOld | inLast
    · exact new_path number inOld
    · exact absent number inLast

private theorem Extends.under {old new : List (List Nat × Nat)} {path : List Nat} (front : List Nat)
    (grown : Extends old new path rule) :
    Extends (old.map (entryBehind front)) (new.map (entryBehind front)) (front ++ path) rule := by
  rcases grown with ⟨⟨number, listed⟩, same⟩ | ⟨new_path, perm⟩
  · exact .inl ⟨⟨number, List.mem_map.mpr ⟨_, listed, rfl⟩⟩, by rw [same]⟩
  · refine .inr ⟨fun number among => ?_, perm.map _⟩
    obtain ⟨⟨rest, number'⟩, listed, equal⟩ := List.mem_map.mp among
    obtain ⟨paths, rfl⟩ := Prod.mk.inj equal
    obtain rfl := List.append_cancel_left paths
    exact new_path number' listed

private theorem extends_first {branch branch' : Branch Ctx} {rest : List (Branch Ctx)}
    {path : List Nat} (proper : ProperAll (branch :: rest)) (head : path.head? = branch.first?)
    (grown : Extends (branch.ways.map Way.entry) (branch'.ways.map Way.entry) path rule) :
    Extends (entries (branch :: rest)) (entries (branch' :: rest)) path rule := by
  rw [entries_cons, entries_cons]
  exact grown.append fun number => not_mem_rest proper head number

private theorem head?_map_append {readers : List (Reader Ctx)} (nonempty : readers ≠ [])
    (rest : List Nat) : (readers.map Reader.id ++ rest).head? = readers.head?.map Reader.id := by
  cases readers with
  | nil => exact (nonempty rfl).elim
  | cons => rfl

private theorem head?_map_shared {shared : List (Reader Ctx)} (shares : shared ≠ [])
    (unread : List (Reader Ctx)) (rest : List Nat) :
    (shared.map Reader.id ++ rest).head? = (shared ++ unread).head?.map Reader.id := by
  cases shared with
  | nil => exact (shares rfl).elim
  | cons => rfl

private theorem not_mem_cut {shared unread remainder : List (Reader Ctx)}
    {inner : List (List Nat × Nat)} (left : unread ≠ [])
    (differs : (unread.map Reader.id).head? ≠ (remainder.map Reader.id).head?) (number : Nat) :
    (shared.map Reader.id ++ remainder.map Reader.id, number) ∉
      inner.map (entryBehind ((shared ++ unread).map Reader.id)) := by
  intro among
  obtain ⟨⟨rest, number'⟩, -, equal⟩ := List.mem_map.mp among
  have paths := (Prod.mk.inj equal).1
  rw [List.map_append, List.append_assoc] at paths
  have behind := List.append_cancel_left paths
  apply differs
  rw [← behind]
  cases unread with
  | nil => exact (left rfl).elim
  | cons => rfl

private theorem map_entry_ways_append (id owner : Nat) (shared unread : List (Reader Ctx))
    (children : List (Branch Ctx)) (completed : Option Nat) :
    (ways ⟨id, shared ++ unread, children, completed, owner⟩).map Way.entry =
      (entries [⟨id, unread, children, completed, owner⟩]).map
        (entryBehind (shared.map Reader.id)) := by
  rw [entries_cons, map_entry_ways, map_entry_ways]
  simp [entries, waysAll, entryBehind, Function.comp_def]

private theorem entries_complete (id : Nat) (readers : List (Reader Ctx)) :
    entries [complete id readers rule] = [(readers.map Reader.id, rule)] := by
  simp [entries, waysAll, ways, complete, Way.entry, Way.path, Way.behind, Function.comp_def]

/-- The entries of the ways are those before and, if its steps are new, that of the rule. -/
theorem Grows.extends (grows : Grows rule steps branches branches') (proper : ProperAll branches) :
    Extends (entries branches) (entries branches') (steps.map Reader.id) rule := by
  induction grows with
  | @added steps id =>
    right
    rw [entries_complete]
    exact ⟨fun number => List.not_mem_nil, List.Perm.refl _⟩
  | @later steps branch rest rest' differs grows ih =>
    rw [entries_cons, entries_cons]
    refine (ih proper.2.2).cons fun number among => ?_
    obtain ⟨way, inside, equal⟩ := List.mem_map.mp among
    have head := proper.1.head?_path inside
    rw [← (Prod.mk.inj equal).1] at differs
    exact differs head.symm
  | @completed steps readers id owner children rest same =>
    have path : steps.map Reader.id = readers.map Reader.id ++ [] := by rw [same, List.append_nil]
    rw [path]
    refine extends_first proper (head?_map_append proper.1.1 []) ?_
    rw [map_entry_ways, map_entry_ways]
    refine Extends.under _ (.inr ⟨fun number among => ?_, ?_⟩)
    · rcases List.mem_append.mp among with below | none
      · exact proper.1.2.2.2.ne_nil_of_mem below rfl
      · cases none
    · simp only [Option.toList_some, Option.toList_none, List.map_cons, List.map_nil,
        List.append_nil]
      exact List.perm_append_singleton _ _
  | @shadowed steps readers id owner winner children rest same =>
    left
    refine ⟨⟨winner, ?_⟩, rfl⟩
    rw [entries_cons, map_entry_ways, same]
    simp [entryBehind]
  | @deeper steps readers remainder id owner completed children children' rest same more grows ih =>
    rw [same]
    refine extends_first proper (head?_map_append proper.1.1 _) ?_
    rw [map_entry_ways, map_entry_ways]
    refine ((ih proper.1.2.2.2).append fun number among => ?_).under _
    obtain ⟨other, -, equal⟩ := List.mem_map.mp among
    exact more (by simpa using (Prod.mk.inj equal).1.symm)
  | @cut steps shared unread id next owner completed children rest same shares left =>
    have path : steps.map Reader.id =
        shared.map Reader.id ++ ([] : List (Reader Ctx)).map Reader.id := by
      simpa using same
    rw [path]
    refine extends_first proper (head?_map_shared shares unread _) (.inr ⟨fun number => ?_, ?_⟩)
    · rw [map_entry_ways]
      exact not_mem_cut left (by simpa using left) number
    · rw [map_entry_ways, map_entry_ways_append, List.map_append]
      simp [entryBehind]
  | @forked steps shared unread remainder id next next' owner completed children rest same shares left
      more differs =>
    rw [same]
    refine extends_first proper (head?_map_shared shares unread _) (.inr ⟨fun number => ?_, ?_⟩)
    · rw [map_entry_ways]
      exact not_mem_cut left differs number
    · have fork : entries [⟨id, unread, children, completed, owner⟩, complete next' remainder rule] =
          entries [⟨id, unread, children, completed, owner⟩] ++
            [(remainder.map Reader.id, rule)] := by
        rw [entries_cons, entries_complete, entries_cons]
        simp [entries, waysAll]
      rw [map_entry_ways, map_entry_ways_append, fork, List.map_append]
      simp [entryBehind]

private theorem Grows.first_owner (grows : Grows rule steps branches branches') :
    ∀ branch' ∈ branches', (∃ branch ∈ branches,
        branch'.first? = branch.first? ∧ branch'.owner = branch.owner) ∨
      branch'.first? = (steps.map Reader.id).head? ∧ branch'.owner = rule := by
  induction grows with
  | added id =>
    intro branch' member
    obtain rfl := List.mem_singleton.mp member
    right
    simp [first?, complete]
  | later differs grows ih =>
    intro branch' member
    rcases List.mem_cons.mp member with rfl | behind
    · exact .inl ⟨branch', by simp, rfl, rfl⟩
    · rcases ih branch' behind with ⟨branch, among, same⟩ | new
      · exact .inl ⟨branch, by simp [among], same⟩
      · exact .inr new
  | completed | shadowed | deeper =>
    intro branch' member
    left
    rcases List.mem_cons.mp member with rfl | behind
    · exact ⟨_, List.mem_cons_self .., rfl, rfl⟩
    · exact ⟨branch', by simp [behind], rfl, rfl⟩
  | @cut _ shared unread _ _ _ _ _ _ _ shares _
  | @forked _ shared unread _ _ _ _ _ _ _ _ _ shares _ _ _ =>
    intro branch' member
    left
    rcases List.mem_cons.mp member with rfl | behind
    · refine ⟨_, List.mem_cons_self .., ?_, rfl⟩
      have := head?_map_shared shares unread []
      simpa [first?] using this
    · exact ⟨branch', by simp [behind], rfl, rfl⟩

private theorem proper_complete (id : Nat) (nonempty : steps ≠ []) :
    (complete id steps rule).Proper := by
  refine ⟨nonempty, ?_, ?_, trivial⟩ <;> simp [ways, waysAll]

private theorem ProperAll.replace {branch branch' : Branch Ctx} {rest : List (Branch Ctx)}
    (proper : ProperAll (branch :: rest)) (first : branch'.first? = branch.first?)
    (owner : branch'.owner = branch.owner) (proper' : branch'.Proper) :
    ProperAll (branch' :: rest) := by
  refine ⟨proper', fun other member => ?_, proper.2.2⟩
  obtain ⟨lt, differs⟩ := proper.2.1 other member
  exact ⟨owner ▸ lt, first ▸ differs⟩

theorem Extends.subset {old new : List (List Nat × Nat)} {path : List Nat}
    (grown : Extends old new path rule) : old ⊆ new := by
  rcases grown with ⟨-, rfl⟩ | ⟨-, perm⟩
  · exact List.Subset.refl _
  · exact fun entry among => perm.mem_iff.mpr (List.mem_cons_of_mem _ among)

theorem Extends.mem {old new : List (List Nat × Nat)} {path : List Nat}
    (grown : Extends old new path rule) {entry : List Nat × Nat} (among : entry ∈ new) :
    entry ∈ old ∨ entry = (path, rule) := by
  rcases grown with ⟨-, rfl⟩ | ⟨-, perm⟩
  · exact .inl among
  · rcases List.mem_cons.mp (perm.mem_iff.mp among) with new | old
    · exact .inr new
    · exact .inl old

private theorem entries_singleton (branch : Branch Ctx) :
    entries [branch] = branch.ways.map Way.entry := by
  rw [entries_cons]
  simp [entries, waysAll]

private theorem proper_of_grows {branch branch' : Branch Ctx}
    (grows : Grows rule steps [branch] [branch'])
    (proper : branch.Proper) (fresh : ∀ way ∈ branch.ways, way.rule < rule)
    (reads : branch'.readers ≠ []) (owner : branch'.owner = branch.owner)
    (children : ProperAll branch'.children) : branch'.Proper := by
  have grown := grows.extends ⟨proper, by simp, trivial⟩
  rw [entries_singleton, entries_singleton] at grown
  obtain ⟨id, readers, below, completed, own⟩ := branch
  obtain ⟨id', readers', below', completed', own'⟩ := branch'
  obtain rfl : own' = own := owner
  obtain ⟨-, ⟨way, inside, owns⟩, least, -⟩ := proper
  refine ⟨reads, ?_, fun way' inside' => ?_, children⟩
  · obtain ⟨way', inside', equal⟩ := List.mem_map.mp (grown.subset (List.mem_map_of_mem inside))
    exact ⟨way', inside', (Prod.mk.inj equal).2.trans owns⟩
  · rcases grown.mem (List.mem_map_of_mem inside') with old | new
    · obtain ⟨other, among, equal⟩ := List.mem_map.mp old
      rw [← (Prod.mk.inj equal).2]
      exact least other among
    · rw [(Prod.mk.inj new).2, ← owns]
      exact Nat.le_of_lt (fresh way inside)

private theorem proper_unread {id owner : Nat} {shared unread : List (Reader Ctx)}
    {children : List (Branch Ctx)} {completed : Option Nat}
    (proper : Proper ⟨id, shared ++ unread, children, completed, owner⟩) (left : unread ≠ []) :
    Proper ⟨id, unread, children, completed, owner⟩ := by
  obtain ⟨-, ⟨way, inside, owns⟩, least, below⟩ := proper
  refine ⟨left, ?_, fun way' inside' => ?_, below⟩
  · obtain ⟨inner, origin, rfl⟩ := mem_ways.mp inside
    exact ⟨_, mem_ways.mpr ⟨inner, origin, rfl⟩, owns⟩
  · obtain ⟨inner, origin, rfl⟩ := mem_ways.mp inside'
    have longer : inner.behind ((shared ++ unread).map (·, owner)) ∈
        ways ⟨id, shared ++ unread, children, completed, owner⟩ := mem_ways.mpr ⟨inner, origin, rfl⟩
    have bound := least _ longer
    exact bound

private theorem Proper.owner_lt {branch : Branch Ctx} (proper : branch.Proper)
    (fresh : ∀ way ∈ branch.ways, way.rule < rule) : branch.owner < rule := by
  obtain ⟨id, readers, children, completed, owner⟩ := branch
  obtain ⟨-, ⟨way, inside, owns⟩, -, -⟩ := proper
  exact owns ▸ fresh way inside

/-- Inserting a later rule keeps a trie proper. -/
theorem Grows.proper (grows : Grows rule steps branches branches') (proper : ProperAll branches)
    (nonempty : steps ≠ []) (fresh : ∀ way ∈ waysAll branches, way.rule < rule) :
    ProperAll branches' := by
  have freshFirst {branch : Branch Ctx} {rest : List (Branch Ctx)}
      (fresh : ∀ way ∈ waysAll (branch :: rest), way.rule < rule) :
      ∀ way ∈ branch.ways, way.rule < rule :=
    fun way inside => fresh way (List.mem_append_left _ inside)
  induction grows with
  | added id => exact ⟨proper_complete id nonempty, by simp, trivial⟩
  | later differs grows ih =>
    have freshRest := fun way among => fresh way (List.mem_append_right _ among)
    refine ⟨proper.1, fun other member => ?_, ih proper.2.2 nonempty freshRest⟩
    rcases grows.first_owner other member with ⟨old, among, first, owner⟩ | ⟨first, owner⟩
    · obtain ⟨lt, apart⟩ := proper.2.1 old among
      exact ⟨owner ▸ lt, first ▸ apart⟩
    · exact ⟨owner ▸ proper.1.owner_lt (freshFirst fresh), first ▸ differs⟩
  | completed same =>
    refine proper.replace rfl rfl ?_
    exact proper_of_grows (.completed same) proper.1 (freshFirst fresh) proper.1.1 rfl proper.1.2.2.2
  | shadowed same => exact proper
  | deeper same more grows ih =>
    have freshBelow := fun inner below =>
      freshFirst fresh _ (mem_ways.mpr ⟨inner, .inl below, rfl⟩)
    have children := ih proper.1.2.2.2 more freshBelow
    refine proper.replace rfl rfl ?_
    exact proper_of_grows (.deeper same more grows) proper.1 (freshFirst fresh) proper.1.1 rfl
      children
  | @cut steps shared unread _ _ _ _ _ _ same shares left =>
    have old := proper_unread proper.1 left
    have first := head?_map_shared shares unread []
    refine proper.replace (by simpa [first?] using first) rfl ?_
    exact proper_of_grows (.cut same shares left) proper.1 (freshFirst fresh) shares rfl
      ⟨old, by simp, trivial⟩
  | @forked steps shared unread remainder _ _ next' _ _ _ _ same shares left more differs =>
    have old := proper_unread proper.1 left
    have first := head?_map_shared shares unread []
    refine proper.replace (by simpa [first?] using first) rfl ?_
    refine proper_of_grows (.forked same shares left more differs) proper.1 (freshFirst fresh) shares
      rfl ⟨old, fun other member => ?_, proper_complete next' more, by simp, trivial⟩
    obtain rfl := List.mem_singleton.mp member
    refine ⟨proper.1.owner_lt (freshFirst fresh), ?_⟩
    simpa [first?, complete] using differs

end Branch

end StagedLexer
