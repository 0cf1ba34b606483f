import StagedLexer.Proofs.TrieNumbers
import StagedLexer.Trie.Arena

/-! The arena stands for the forest. Each branch of a trie has a cell at its number, with the numbers
of its children; an insertion into the arena does to the cells what the insertion into the trie does
to the branches, and no place is out of bounds. -/
namespace StagedLexer

open Arena (commonCount Parent)

variable {Ctx : Type}

theorem commonStart_eq (as bs : List (Reader Ctx)) :
    commonStart as bs = (as.take (commonCount as bs), as.drop (commonCount as bs),
      bs.drop (commonCount as bs)) := by
  fun_induction commonStart as bs with
  | case1 a as b bs same shared left right equal ih =>
    obtain ⟨rfl, rfl, rfl⟩ : shared = _ ∧ left = _ ∧ right = _ := by simpa [equal] using ih
    simp [commonCount, same]
  | case2 a as b bs other => simp [commonCount, other]
  | case3 as bs other =>
    have none : commonCount as bs = 0 := by
      cases as with
      | nil => rfl
      | cons a as =>
        cases bs with
        | nil => rfl
        | cons b bs => exact (other a as b bs rfl rfl).elim
    simp [none]

theorem Arena.commonCount_le (as bs : List (Reader Ctx)) : commonCount as bs ≤ as.length := by
  refine Nat.le_trans (List.takeWhile_prefix _).length_le ?_
  rw [List.length_zip]
  exact Nat.min_le_left ..

namespace Branch

open Arena (commonCount_le)

variable {branch : Branch Ctx} {before others : List (Branch Ctx)} {steps : List (Reader Ctx)}
  {rule next : Nat}

theorem insertAll_append (apart : ∀ b ∈ before, commonCount b.readers steps = 0) :
    insertAll steps rule next (before ++ others) =
      { insertAll steps rule next others with
        result := before ++ (insertAll steps rule next others).result } := by
  induction before with
  | nil => rfl
  | cons b rest ih =>
    have here : commonCount b.readers steps = 0 := apart b (List.mem_cons_self ..)
    rw [List.cons_append, insertAll, commonStart_eq, here, List.take_zero,
      ih fun b among => apart b (List.mem_cons_of_mem _ among)]
    rfl

theorem insertAll_of_apart (apart : ∀ b ∈ before, commonCount b.readers steps = 0) :
    insertAll steps rule next before =
      { result := before ++ [complete next steps rule], next := next + 1 } := by
  rw [← List.append_nil before, insertAll_append apart, List.append_nil]
  rfl

theorem insertAll_cons (shares : 0 < commonCount branch.readers steps) :
    insertAll steps rule next (branch :: others) =
      if commonCount branch.readers steps = branch.readers.length then
        let inserted := insertBelow (steps.drop (commonCount branch.readers steps)) rule next branch
        { inserted with result := inserted.result :: others }
      else
        let (cut, next) := branch.split (branch.readers.take (commonCount branch.readers steps))
          (branch.readers.drop (commonCount branch.readers steps))
          (steps.drop (commonCount branch.readers steps)) rule next
        { result := cut :: others, next } := by
  rw [insertAll, commonStart_eq]
  have within : commonCount branch.readers steps ≤ branch.readers.length := commonCount_le _ _
  obtain ⟨reader, readers, shared⟩ : ∃ reader readers,
      branch.readers.take (commonCount branch.readers steps) = reader :: readers := by
    apply List.exists_cons_of_length_pos
    rw [List.length_take]
    omega
  rw [shared]
  by_cases whole : commonCount branch.readers steps = branch.readers.length
  · simp [whole]
  · obtain ⟨left, rest, left'⟩ : ∃ left rest,
        branch.readers.drop (commonCount branch.readers steps) = left :: rest := by
      apply List.exists_cons_of_length_pos
      rw [List.length_drop]
      omega
    simp [whole, left']

end Branch

namespace Arena

variable {arena arena' : Arena Ctx} {parent : Parent} {branches more : List (Branch Ctx)}
  {ids : List Nat} {id : Nat} {steps : List (Reader Ctx)} {rule : Nat}

/-- The branches and those below them have their cells at their numbers. -/
def Holds (arena : Arena Ctx) (branches : List (Branch Ctx)) : Prop :=
  ∀ branch ∈ Branch.preorderAll branches, arena.cells[branch.id]? =
    some ⟨branch.readers, branch.children.map Branch.id, branch.rule, branch.owner⟩

@[simp] theorem holds_nil : arena.Holds [] := fun _ => nofun

@[simp] theorem holds_append : arena.Holds (branches ++ more) ↔
    arena.Holds branches ∧ arena.Holds more := by
  simp [Holds, Branch.preorderAll_append, or_imp, forall_and]

@[simp] theorem holds_cons {readers : List (Reader Ctx)} {children : List (Branch Ctx)}
    {completed : Option Nat} {owner : Nat} :
    arena.Holds (⟨id, readers, children, completed, owner⟩ :: more) ↔
      arena.cells[id]? = some ⟨readers, children.map Branch.id, completed, owner⟩ ∧
        arena.Holds children ∧ arena.Holds more := by
  simp [Holds, Branch.preorderAll, Branch.preorder, or_imp, forall_and]

theorem Holds.congr (holds : arena.Holds branches)
    (same : ∀ id ∈ Branch.numbers branches, arena'.cells[id]? = arena.cells[id]?) :
    arena'.Holds branches := fun branch member =>
  (same branch.id (List.mem_map_of_mem member)).trans (holds branch member)

theorem Holds.lt (holds : arena.Holds branches) (member : id ∈ Branch.numbers branches) :
    id < arena.cells.size := by
  obtain ⟨branch, among, rfl⟩ := List.mem_map.mp member
  exact (Array.getElem?_eq_some_iff.mp (holds branch among)).1

theorem getElem?_add (cell : Cell Ctx) :
    (arena.add cell).cells[id]? = if id = arena.cells.size then some cell else arena.cells[id]? :=
  Array.getElem?_push

theorem getElem?_modify (place : Nat) (change : Cell Ctx → Cell Ctx) :
    (arena.modify place change).cells[id]? =
      if place = id then arena.cells[id]?.map change else arena.cells[id]? :=
  Array.getElem?_modify

theorem getElem?_setSiblings : (arena.setSiblings ids parent).cells[id]? =
    if parent = .branch id then arena.cells[id]?.map fun cell => { cell with children := ids }
    else arena.cells[id]? := by
  cases parent <;> simp [setSiblings, getElem?_modify]

theorem size_setSiblings : (arena.setSiblings ids parent).cells.size = arena.cells.size := by
  cases parent <;> simp [setSiblings, modify]

theorem setSiblings_self (found : arena.siblings? parent = some ids) :
    arena.setSiblings ids parent = arena := by
  cases parent with
  | stage index =>
    obtain ⟨inside, rfl⟩ := List.getElem?_eq_some_iff.mp found
    simp [setSiblings]
  | stageless =>
    obtain rfl : arena.stageless = ids := Option.some.inj found
    rfl
  | branch id =>
    obtain ⟨cell, here, rfl⟩ := Option.map_eq_some_iff.mp found
    have same : (arena.modify id fun other => { other with children := cell.children }).cells =
        arena.cells := by
      refine Array.ext_getElem? fun place => ?_
      rw [getElem?_modify]
      split
      · next here' => rw [← here', here, Option.map_some]
      · rfl
    exact congrArg (fun cells => { arena with cells }) same

/-- Where the branches of a trie have cells, the first one that shares readers with the steps is
found, if there is one. -/
theorem overlap?_cases (holds : arena.Holds branches) (steps : List (Reader Ctx))
    (position : Nat) :
    ((∀ b ∈ branches, commonCount b.readers steps = 0) ∧
      arena.overlap? steps position (branches.map Branch.id) = some none) ∨
    ∃ before branch behind, branches = before ++ branch :: behind ∧
      (∀ b ∈ before, commonCount b.readers steps = 0) ∧
      ∃ shares : 0 < commonCount branch.readers steps,
        arena.overlap? steps position (branches.map Branch.id) =
          some (some ⟨position + before.length, branch.id, _, shares⟩) := by
  induction branches generalizing position with
  | nil => exact .inl ⟨nofun, rfl⟩
  | cons branch rest ih =>
    obtain ⟨id, readers, children, completed, owner⟩ := branch
    obtain ⟨here, -, others⟩ := holds_cons.mp holds
    by_cases shares : 0 < commonCount readers steps
    · exact .inr ⟨[], _, rest, rfl, nofun, shares, by simp [overlap?, here, shares]⟩
    · have none : commonCount readers steps = 0 := Nat.eq_zero_of_not_pos shares
      obtain ⟨apart, found⟩ | ⟨before, branch, behind, rfl, apart, shares, found⟩ :=
        ih others (position + 1)
      · refine .inl ⟨by simpa using ⟨none, apart⟩, ?_⟩
        simp [overlap?, here, none, found]
      · refine .inr ⟨⟨id, readers, children, completed, owner⟩ :: before, branch, behind, rfl,
          by simpa using ⟨none, apart⟩, shares, ?_⟩
        simpa [overlap?, here, none, Nat.add_assoc, Nat.add_comm 1] using found

theorem siblings?_modify (found : arena.siblings? parent = some ids) (other : parent ≠ .branch id)
    (change : Cell Ctx → Cell Ctx) : (arena.modify id change).siblings? parent = some ids := by
  cases parent with
  | stage | stageless => exact found
  | branch place =>
    have apart : id ≠ place := fun same => other (congrArg Parent.branch same.symm)
    rw [siblings?, getElem?_modify, if_neg apart]
    exact found

/-- What inserting a rule into the branches of a parent makes of an arena. Beside these branches and
the new ones only the list of the parent changes. -/
structure Inserts (arena : Arena Ctx) (parent : Parent) (branches : List (Branch Ctx))
    (inserted : Branch.Inserted (List (Branch Ctx))) (arena' : Arena Ctx) : Prop where
  size : arena'.cells.size = inserted.next
  holds : arena'.Holds inserted.result
  stages : arena'.stages = arena.stages
  roots : arena'.roots = (arena.setSiblings (inserted.result.map Branch.id) parent).roots
  stageless :
    arena'.stageless = (arena.setSiblings (inserted.result.map Branch.id) parent).stageless
  cells : ∀ id < arena.cells.size, id ∉ Branch.numbers branches →
    arena'.cells[id]? = (arena.setSiblings (inserted.result.map Branch.id) parent).cells[id]?

/-- A parent that has the branches as its children. -/
structure Has (arena : Arena Ctx) (parent : Parent) (branches : List (Branch Ctx)) : Prop where
  siblings : arena.siblings? parent = some (branches.map Branch.id)
  holds : arena.Holds branches
  once : (Branch.numbers branches).Nodup
  above : ∀ id ∈ Branch.numbers branches, parent ≠ .branch id

theorem changeSiblings?_eq (found : arena.siblings? parent = some ids)
    (change : List Nat → List Nat) :
    arena.changeSiblings? parent change = some (arena.setSiblings (change ids) parent) := by
  simp [changeSiblings?, found]

theorem lt_of_siblings? (found : arena.siblings? (.branch id) = some ids) :
    id < arena.cells.size := by
  obtain ⟨cell, here, -⟩ := Option.map_eq_some_iff.mp found
  exact (Array.getElem?_eq_some_iff.mp here).1

theorem siblings?_add (found : arena.siblings? parent = some ids) (cell : Cell Ctx) :
    (arena.add cell).siblings? parent = some ids := by
  cases parent with
  | stage | stageless => exact found
  | branch id =>
    have old : id ≠ arena.cells.size := Nat.ne_of_lt (lt_of_siblings? found)
    rw [siblings?, getElem?_add, if_neg old]
    exact found

private theorem insert_apart (has : arena.Has parent branches) (steps : List (Reader Ctx))
    (rule : Nat) :
    ∃ arena', (arena.add { readers := steps, rule := some rule, owner := rule }).changeSiblings?
        parent (· ++ [arena.cells.size]) = some arena' ∧
      arena.Inserts parent branches
        ⟨branches ++ [.complete arena.cells.size steps rule], arena.cells.size + 1, []⟩ arena' := by
  refine ⟨_, changeSiblings?_eq (siblings?_add has.siblings _) _, ?_⟩
  have above : parent ≠ .branch arena.cells.size := by
    rintro rfl
    exact Nat.lt_irrefl _ (lt_of_siblings? has.siblings)
  have old (id : Nat) (inside : id < arena.cells.size) (cell : Cell Ctx) :
      (arena.add cell).cells[id]? = arena.cells[id]? := by
    rw [getElem?_add, if_neg (Nat.ne_of_lt inside)]
  constructor
  · simp [size_setSiblings, add]
  · rw [holds_append, Branch.complete, holds_cons]
    refine ⟨has.holds.congr fun id member => ?_, ?_, holds_nil, holds_nil⟩
    · rw [getElem?_setSiblings, if_neg (has.above id member), old id (has.holds.lt member)]
    · rw [getElem?_setSiblings, if_neg above, getElem?_add, if_pos rfl]
      rfl
  · cases parent <;> rfl
  · cases parent <;> simp [setSiblings, add, modify, Branch.complete]
  · cases parent <;> simp [setSiblings, add, modify, Branch.complete]
  · intro id inside _
    simp [getElem?_setSiblings, old id inside, Branch.complete]

section Split

variable {before behind : List (Branch Ctx)} {readers remainder : List (Reader Ctx)}
  {children : List (Branch Ctx)} {completed : Option Nat} {owner count : Nat}

/-- The arena in which a branch is cut behind some readers. The part in front of the cut has a new
cell, which takes the position of the branch. -/
private def cutAt (arena : Arena Ctx) (parent : Parent) (ids : List Nat) (id count : Nat)
    (readers : List (Reader Ctx)) (owner : Nat) : Arena Ctx :=
  ((arena.modify id fun cell => { cell with readers := cell.readers.drop count }).add
    { readers := readers.take count, children := [id], rule := none, owner }).setSiblings ids parent

variable (has : arena.Has parent (before ++ ⟨id, readers, children, completed, owner⟩ :: behind))

include has

private theorem cell_eq : arena.cells[id]? =
    some ⟨readers, children.map Branch.id, completed, owner⟩ :=
  (holds_cons.mp (holds_append.mp has.holds).2).1

private theorem lt_size : id < arena.cells.size :=
  (Array.getElem?_eq_some_iff.mp (cell_eq has)).1

private theorem not_mem_children : id ∉ Branch.numbers children := by
  have once := has.once
  simp only [Branch.numbers_append, Branch.numbers_cons, List.nodup_append, List.nodup_cons,
    List.mem_append, not_or] at once
  exact once.2.1.1.1

private theorem apart_of_mem {place : Nat}
    (member : place ∈ Branch.numbers before ∨ place ∈ Branch.numbers behind) :
    place ≠ id ∧ place ∉ Branch.numbers children := by
  have once := has.once
  simp only [Branch.numbers_append, Branch.numbers_cons, List.nodup_append, List.nodup_cons,
    List.mem_append, List.mem_cons, not_or] at once
  obtain ⟨-, ⟨here, -, -, disjoint⟩, first⟩ := once
  rcases member with member | member
  · exact ⟨first place member id (.inl rfl),
    fun below => first place member place (.inr (.inl below)) rfl⟩
  · exact ⟨fun same => here.2 (same ▸ member), fun below => disjoint place below place member rfl⟩

private theorem has_children : arena.Has (.branch id) children where
  siblings := by rw [siblings?, cell_eq has]; rfl
  holds := (holds_cons.mp (holds_append.mp has.holds).2).2.1
  once := by
    have once := has.once
    simp only [Branch.numbers_append, Branch.numbers_cons, List.nodup_append,
      List.nodup_cons] at once
    exact once.2.1.2.1
  above place member same := not_mem_children has (Parent.branch.inj same ▸ member)

private theorem getElem?_cutAt_id (ids : List Nat) :
    (cutAt arena parent ids id count readers owner).cells[id]? =
      some ⟨readers.drop count, children.map Branch.id, completed, owner⟩ := by
  have below : parent ≠ .branch id := has.above id (by simp)
  rw [cutAt, getElem?_setSiblings, if_neg below, getElem?_add, modify, Array.size_modify,
    if_neg (Nat.ne_of_lt (lt_size has)), Array.getElem?_modify, if_pos rfl, cell_eq has]
  rfl

private theorem getElem?_cutAt_new (ids : List Nat) :
    (cutAt arena parent ids id count readers owner).cells[arena.cells.size]? =
      some ⟨readers.take count, [id], none, owner⟩ := by
  have above : parent ≠ .branch arena.cells.size := by
    rintro rfl
    exact Nat.lt_irrefl _ (lt_of_siblings? has.siblings)
  rw [cutAt, getElem?_setSiblings, if_neg above, getElem?_add, modify, Array.size_modify,
    if_pos rfl]

omit has in
private theorem getElem?_cutAt_of_ne (ids : List Nat) {place : Nat} (inside : place < arena.cells.size)
    (other : place ≠ id) : (cutAt arena parent ids id count readers owner).cells[place]? =
      (arena.setSiblings ids parent).cells[place]? := by
  rw [cutAt, getElem?_setSiblings, getElem?_setSiblings, getElem?_add, modify, Array.size_modify,
    if_neg (Nat.ne_of_lt inside), Array.getElem?_modify, if_neg (Ne.symm other)]

private theorem inserts_cut {added : List (Branch Ctx)} {done : Option Nat} {next : Nat}
    {others : List Nat} (places : others = before.map Branch.id ++ arena.cells.size ::
      behind.map Branch.id)
    (size : arena'.cells.size = next)
    (kept : ∀ place < arena.cells.size, arena'.cells[place]? =
      (cutAt arena parent others id count readers owner).cells[place]?)
    (upper : arena'.cells[arena.cells.size]? =
      some ⟨readers.take count, id :: added.map Branch.id, done, owner⟩)
    (new : arena'.Holds added) (stages : arena'.stages = arena.stages)
    (roots : arena'.roots = (cutAt arena parent others id count readers owner).roots)
    (stageless : arena'.stageless =
      (cutAt arena parent others id count readers owner).stageless) :
    arena.Inserts parent (before ++ ⟨id, readers, children, completed, owner⟩ :: behind)
      ⟨before ++ ⟨arena.cells.size, readers.take count,
        ⟨id, readers.drop count, children, completed, owner⟩ :: added, done, owner⟩ :: behind,
        next, []⟩ arena' := by
  have holds := has.holds
  rw [holds_append, holds_cons] at holds
  have same (place : Nat) (member : place ∈ Branch.numbers
      (before ++ ⟨id, readers, children, completed, owner⟩ :: behind)) (other : place ≠ id) :
      arena'.cells[place]? = arena.cells[place]? := by
    have inside := has.holds.lt member
    rw [kept place inside, getElem?_cutAt_of_ne others inside other, getElem?_setSiblings,
      if_neg (has.above place member)]
  have ids : (before ++ (⟨arena.cells.size, readers.take count,
      ⟨id, readers.drop count, children, completed, owner⟩ :: added, done, owner⟩ : Branch Ctx) ::
        behind).map Branch.id = others := by simp [places]
  constructor
  · exact size
  · rw [holds_append, holds_cons, holds_cons]
    refine ⟨holds.1.congr fun place member => same place (by simp [member]) ?_, upper,
      ⟨(kept id (lt_size has)).trans (getElem?_cutAt_id has others),
        holds.2.2.1.congr fun place member => same place (by simp [member]) ?_, new⟩,
      holds.2.2.2.congr fun place member => same place (by simp [member]) ?_⟩
    · exact (apart_of_mem has (.inl member)).1
    · rintro rfl
      exact not_mem_children has member
    · exact (apart_of_mem has (.inr member)).1
  · exact stages
  · rw [roots, ids]
    cases parent <;> rfl
  · rw [stageless, ids]
    cases parent <;> rfl
  · intro place old apart
    rw [kept place old, ids]
    exact getElem?_cutAt_of_ne others old (by rintro rfl; simp at apart)

private theorem split_inserts (overlap : Overlap) (position : overlap.position = before.length)
    (place : overlap.id = id) (remainder : List (Reader Ctx)) (rule : Nat) :
    let cut := Branch.split ⟨id, readers, children, completed, owner⟩
      (readers.take overlap.count) (readers.drop overlap.count) remainder rule arena.cells.size
    ∃ arena', arena.split parent overlap ⟨readers, children.map Branch.id, completed, owner⟩
        remainder rule = some arena' ∧
      arena.Inserts parent (before ++ ⟨id, readers, children, completed, owner⟩ :: behind)
        ⟨before ++ cut.1 :: behind, cut.2, []⟩ arena' := by
  subst place
  let others := before.map Branch.id ++ arena.cells.size :: behind.map Branch.id
  let base := cutAt arena parent others overlap.id overlap.count readers owner
  have below : parent ≠ .branch overlap.id := has.above overlap.id (by simp)
  have found : ((arena.modify overlap.id fun cell =>
      { cell with readers := cell.readers.drop overlap.count }).add
        { readers := readers.take overlap.count, children := [overlap.id], rule := none
          owner }).changeSiblings? parent (·.set overlap.position arena.cells.size) =
      some base := by
    rw [changeSiblings?_eq (siblings?_add (siblings?_modify has.siblings below _) _)]
    simp [base, others, cutAt, position]
  have upper : base.cells[arena.cells.size]? = some ⟨readers.take overlap.count, [overlap.id], none,
      owner⟩ := getElem?_cutAt_new has others
  have size : base.cells.size = arena.cells.size + 1 := by
    simp [base, cutAt, size_setSiblings, add, modify]
  have stages : base.stages = arena.stages := by
    cases parent <;> rfl
  have lower : (arena.modify overlap.id fun cell =>
      { cell with readers := cell.readers.drop overlap.count }).cells.size = arena.cells.size :=
    Array.size_modify
  unfold split Branch.split
  simp only [lower, found]
  by_cases ended : remainder.isEmpty
  · simp only [ended, if_true]
    refine ⟨_, rfl, inserts_cut has rfl ?_ ?_ ?_ holds_nil stages rfl rfl⟩
    · rw [modify, Array.size_modify, size]
    · intro place inside
      rw [getElem?_modify, if_neg (Nat.ne_of_gt inside)]
    · rw [getElem?_modify, if_pos rfl, upper]
      rfl
  · simp only [ended]
    refine ⟨_, rfl, inserts_cut has rfl ?_ ?_ ?_ ?_ stages rfl rfl⟩
    · simp [modify, add, size]
    · intro place inside
      rw [getElem?_modify, if_neg (Nat.ne_of_gt inside), getElem?_add, if_neg (by omega)]
    · rw [getElem?_modify, if_pos rfl, getElem?_add, if_neg (by omega), upper]
      simp [size, Branch.complete]
    · rw [Branch.complete, holds_cons, getElem?_modify, if_neg (by omega), getElem?_add,
        if_pos size.symm]
      exact ⟨rfl, holds_nil, holds_nil⟩

/-- A change at a branch or below it, behind which the branch has its place as before. -/
private theorem inserts_below {children' : List (Branch Ctx)} {completed' : Option Nat} {next : Nat}
    {notes : List Note} (size : arena'.cells.size = next)
    (here : arena'.cells[id]? = some ⟨readers, children'.map Branch.id, completed', owner⟩)
    (below : arena'.Holds children')
    (kept : ∀ place < arena.cells.size, place ∉ Branch.numbers children → place ≠ id →
      arena'.cells[place]? = arena.cells[place]?)
    (stages : arena'.stages = arena.stages) (roots : arena'.roots = arena.roots)
    (stageless : arena'.stageless = arena.stageless) :
    arena.Inserts parent (before ++ ⟨id, readers, children, completed, owner⟩ :: behind)
      ⟨before ++ ⟨id, readers, children', completed', owner⟩ :: behind, next, notes⟩ arena' := by
  have holds := has.holds
  rw [holds_append, holds_cons] at holds
  have ids : (before ++ (⟨id, readers, children', completed', owner⟩ : Branch Ctx) :: behind).map
      Branch.id = (before ++ (⟨id, readers, children, completed, owner⟩ : Branch Ctx) ::
        behind).map Branch.id := by simp
  have same := setSiblings_self has.siblings
  constructor
  · exact size
  · rw [holds_append, holds_cons]
    refine ⟨holds.1.congr fun place member => ?_, here, below,
      holds.2.2.2.congr fun place member => ?_⟩
    · obtain ⟨other, apart⟩ := apart_of_mem has (.inl member)
      exact kept place (holds.1.lt member) apart other
    · obtain ⟨other, apart⟩ := apart_of_mem has (.inr member)
      exact kept place (holds.2.2.2.lt member) apart other
  · exact stages
  · rw [roots, ids, same]
  · rw [stageless, ids, same]
  · intro place old apart
    rw [ids, same]
    exact kept place old (fun inside => apart (by simp [inside])) (by rintro rfl; simp at apart)

private theorem inserts_completed (rule : Nat) :
    arena.Inserts parent (before ++ ⟨id, readers, children, completed, owner⟩ :: behind)
      ⟨before ++ ⟨id, readers, children, some rule, owner⟩ :: behind, arena.cells.size, []⟩
      (arena.modify id fun cell => { cell with rule := some rule }) := by
  have kept (place : Nat) (other : place ≠ id) :
      (arena.modify id fun cell => { cell with rule := some rule }).cells[place]? =
        arena.cells[place]? := by
    rw [getElem?_modify, if_neg other.symm]
  refine inserts_below has ?_ ?_ ?_ (fun place _ _ other => kept place other) rfl rfl rfl
  · exact Array.size_modify
  · rw [getElem?_modify, if_pos rfl, cell_eq has]
    rfl
  · refine (has_children has).holds.congr fun place member => kept place ?_
    rintro rfl
    exact not_mem_children has member

end Split

theorem insert_spec (arena : Arena Ctx) (parent : Parent) (branches : List (Branch Ctx))
    (has : arena.Has parent branches) (steps : List (Reader Ctx)) (rule : Nat) :
    ∃ arena', arena.insert parent steps rule =
        some (arena', (Branch.insertAll steps rule arena.cells.size branches).notes) ∧
      arena.Inserts parent branches (Branch.insertAll steps rule arena.cells.size branches)
        arena' := by
  rw [insert, has.siblings, Option.bind_eq_bind, Option.bind_some]
  obtain ⟨apart, found⟩ | ⟨before, branch, behind, rfl, apart, shares, found⟩ :=
    overlap?_cases has.holds steps 0
  · obtain ⟨arena', added, inserts⟩ := insert_apart has steps rule
    rw [found, Branch.insertAll_of_apart apart]
    exact ⟨arena', by simp [added], inserts⟩
  · obtain ⟨id, readers, children, completed, owner⟩ := branch
    have below := has_children has
    rw [found, Branch.insertAll_append apart, Branch.insertAll_cons shares]
    simp only [Option.bind_eq_bind, Option.bind_some, cell_eq has]
    by_cases whole : commonCount readers steps = readers.length
    · simp only [whole, if_true, Branch.insertBelow]
      by_cases ended : (steps.drop readers.length).isEmpty
      · simp only [ended, if_true]
        cases completed with
        | none => exact ⟨_, rfl, inserts_completed has rule⟩
        | some winner =>
          exact ⟨_, rfl,
            inserts_below has rfl (cell_eq has) below.holds (fun _ _ _ _ => rfl) rfl rfl
            rfl⟩
      · simp only [ended]
        obtain ⟨arena', inserted, inserts⟩ := insert_spec arena (.branch id) children below
          (steps.drop readers.length) rule
        refine ⟨arena', inserted, inserts_below has inserts.size ?_ inserts.holds ?_ inserts.stages
          inserts.roots inserts.stageless⟩
        · rw [inserts.cells id (lt_size has) (not_mem_children has), getElem?_setSiblings,
            if_pos rfl, cell_eq has]
          rfl
        · intro place old apart other
          rw [inserts.cells place old apart, getElem?_setSiblings,
            if_neg (by simpa using other.symm)]
    · simp only [whole, if_false]
      let overlap : Overlap := ⟨0 + before.length, id, commonCount readers steps, shares⟩
      obtain ⟨arena', cut, inserts⟩ :=
        split_inserts has overlap (Nat.zero_add _) rfl (steps.drop overlap.count) rule
      exact ⟨arena', by rw [cut]; rfl, inserts⟩
termination_by steps.length
decreasing_by
  have longer : readers.length < steps.length := by simpa using ended
  have shares : 0 < readers.length := whole ▸ shares
  rw [List.length_drop]
  omega

end Arena

end StagedLexer
