import Mathlib.Data.List.Basic
import StagedLexer.Proofs.ForestShape
import StagedLexer.Proofs.TrieArena

/-! The arena that is made of a list of rules stands for their forest. -/
namespace StagedLexer

variable {Ctx : Type}

namespace Arena

variable {arena arena' : Arena Ctx} {forest : Forest Ctx} {steps : List (Reader Ctx)} {rule : Nat}

/-- The arena stands for the forest: it has the branches of each trie, by their numbers, and a cell
for each branch at its number. -/
structure Represents (arena : Arena Ctx) (forest : Forest Ctx) : Prop where
  size : arena.cells.size = forest.size
  stages : arena.stages = forest.stages
  roots : arena.roots = forest.tries.map fun trie => trie.2.map Branch.id
  stageless : arena.stageless = forest.stageless.map Branch.id
  holds : arena.Holds forest.allRoots

/-- What stays so while a forest is made. -/
structure Stands (arena : Arena Ctx) (forest : Forest Ctx) : Prop extends
    arena.Represents forest where
  nodup : forest.stages.Nodup
  counted : forest.Counted

section Roots

variable {parent : Parent} {front branches rest : List (Branch Ctx)}
  (root : ∀ id, parent ≠ .branch id) (holds : arena.Holds (front ++ (branches ++ rest)))
  (once : (Branch.numbers (front ++ (branches ++ rest))).Nodup)

include root holds once

private theorem has_roots (found : arena.siblings? parent = some (branches.map Branch.id)) :
    arena.Has parent branches := by
  simp only [Branch.numbers_append, List.nodup_append] at once
  simp only [holds_append] at holds
  exact ⟨found, holds.2.1, once.2.1.1, fun id _ => root id⟩

private theorem holds_replaced {inserted : Branch.Inserted (List (Branch Ctx))}
    (inserts : arena.Inserts parent branches inserted arena') :
    arena'.Holds (front ++ (inserted.result ++ rest)) := by
  simp only [Branch.numbers_append, List.nodup_append, List.mem_append] at once
  simp only [holds_append] at holds ⊢
  have keeps {more : List (Branch Ctx)} (holds : arena.Holds more)
      (apart : ∀ id ∈ Branch.numbers more, id ∉ Branch.numbers branches) : arena'.Holds more :=
    holds.congr fun id member => by
      rw [inserts.cells id (holds.lt member) (apart id member), getElem?_setSiblings,
        if_neg (root id)]
  exact ⟨keeps holds.1 fun id among inside => once.2.2 id among id (.inl inside) rfl, inserts.holds,
    keeps holds.2.2 fun id among inside => once.2.1.2.2 id inside id among rfl⟩

end Roots

theorem stands_insertIn (stands : arena.Stands forest) {index : Nat} {name : String}
    (known : forest.stages[index]? = some name) (steps : List (Reader Ctx)) (rule : Nat) :
    ∃ arena', arena.insert (.stage index) steps rule =
        some (arena', (forest.insertIn name steps rule).2) ∧
      arena'.Stands (forest.insertIn name steps rule).1 := by
  obtain ⟨⟨name, branches⟩, member, rfl⟩ := List.mem_map.mp (List.mem_of_getElem? known)
  obtain ⟨before, behind, split, -⟩ := Forest.exists_split stands.nodup member
  obtain rfl : index = before.length := by
    have here : forest.stages[before.length]? = some name := by simp [Forest.stages, split]
    have inside := (List.getElem?_eq_some_iff.mp known).1
    exact (List.getElem?_inj inside stands.nodup).mp (known.trans here.symm)
  have all : forest.allRoots =
      before.flatMap (·.2) ++ (branches ++ (behind.flatMap (·.2) ++ forest.stageless)) := by
    simp [Forest.allRoots, split]
  have root (id : Nat) : Parent.stage before.length ≠ .branch id := by simp
  have holds := all ▸ stands.holds
  have once := all ▸ stands.counted.nodup_iff.mpr List.nodup_range
  have roots := stands.roots
  rw [split, List.map_append, List.map_cons] at roots
  have has := has_roots root holds once (by simp [siblings?, roots])
  obtain ⟨arena', inserted, inserts⟩ :=
    insert_spec arena (.stage before.length) branches has steps rule
  have counted := stands.counted.insertIn stands.nodup (List.mem_of_getElem? known) steps rule
  have nodup : (forest.insertIn name steps rule).1.stages.Nodup := by
    rw [Forest.stages_insertIn]
    exact stands.nodup
  rw [stands.size] at inserted inserts
  rw [Forest.insertIn_eq stands.nodup split] at nodup counted ⊢
  refine ⟨arena', inserted, ⟨inserts.size, ?_, ?_, inserts.stageless.trans stands.stageless, ?_⟩,
    nodup, counted⟩
  · rw [inserts.stages, stands.stages]
    simp [Forest.stages, split]
  · rw [inserts.roots]
    simp [setSiblings, roots]
  · simpa [Forest.allRoots] using holds_replaced root holds once inserts

theorem stands_insertStageless (stands : arena.Stands forest) (steps : List (Reader Ctx))
    (rule : Nat) :
    ∃ arena', arena.insert .stageless steps rule =
        some (arena', (forest.insertStageless steps rule).2) ∧
      arena'.Stands (forest.insertStageless steps rule).1 := by
  have all : forest.allRoots = forest.tries.flatMap (·.2) ++ (forest.stageless ++ []) := by
    simp [Forest.allRoots]
  have root (id : Nat) : Parent.stageless ≠ .branch id := by simp
  have holds := all ▸ stands.holds
  have once := all ▸ stands.counted.nodup_iff.mpr List.nodup_range
  have has := has_roots root holds once (congrArg some stands.stageless)
  obtain ⟨arena', inserted, inserts⟩ := insert_spec arena .stageless forest.stageless has steps rule
  rw [stands.size] at inserted inserts
  refine ⟨arena', inserted, ⟨inserts.size, inserts.stages.trans stands.stages,
    inserts.roots.trans stands.roots, inserts.stageless, ?_⟩, stands.nodup,
    stands.counted.insertStageless steps rule⟩
  simpa [Forest.allRoots, Forest.insertStageless] using holds_replaced root holds once inserts

theorem insertEach_append {first second : List Parent} {notes : List Note}
    (inserted : insertEach steps rule arena first = some (arena', notes)) :
    insertEach steps rule arena (first ++ second) =
      (insertEach steps rule arena' second).map (Prod.map id (notes ++ ·)) := by
  induction first generalizing arena notes with
  | nil =>
    obtain ⟨rfl, rfl⟩ := Prod.mk.inj (Option.some.inj inserted)
    exact Option.map_id'.symm
  | cons parent rest ih =>
    rw [insertEach, Option.bind_eq_bind, Option.bind_eq_some_iff] at inserted
    obtain ⟨⟨arena₁, notes₁⟩, here, inserted⟩ := inserted
    simp only [Option.bind_eq_some_iff] at inserted
    obtain ⟨⟨arena₂, notes₂⟩, others, same⟩ := inserted
    obtain ⟨rfl, rfl⟩ := Prod.mk.inj (Option.some.inj same)
    simp only [List.cons_append, insertEach, here, Option.bind_eq_bind, Option.bind_some, ih others]
    cases insertEach steps rule arena₂ second <;> simp [Prod.map]

theorem stands_insertInAll (stands : arena.Stands forest) (steps : List (Reader Ctx)) (rule : Nat)
    {names : List String} (known : ∀ name ∈ names, name ∈ forest.stages) :
    ∃ arena', insertEach steps rule arena
          (names.map fun name => .stage (forest.stages.idxOf name)) =
        some (arena', (Forest.insertInAll steps rule forest names).2) ∧
      arena'.Stands (Forest.insertInAll steps rule forest names).1 := by
  induction names generalizing arena forest with
  | nil => exact ⟨arena, rfl, stands⟩
  | cons name names ih =>
    have here : forest.stages[forest.stages.idxOf name]? = some name :=
      List.getElem?_idxOf (known name (List.mem_cons_self ..))
    obtain ⟨arena₁, inserted, stands₁⟩ := stands_insertIn stands here steps rule
    have same : (forest.insertIn name steps rule).1.stages = forest.stages :=
      Forest.stages_insertIn name
    obtain ⟨arena₂, more, stands₂⟩ :=
      ih stands₁ fun other among => same ▸ known other (List.mem_cons_of_mem _ among)
    rw [same] at more
    exact ⟨arena₂, by simp [insertEach, inserted, more, Forest.insertInAll], stands₂⟩

private theorem idxOf?_of_mem {name : String} {names : List String} (known : name ∈ names) :
    names.idxOf? name = some (names.idxOf name) := by
  obtain ⟨index, found⟩ := Option.isSome_iff_exists.mp (List.isSome_idxOf?.mpr known)
  rw [List.idxOf_eq_getD_idxOf?, found, Option.getD_some]

/-- The indices of known stages, without those that were seen. -/
theorem stageIds?_eq (arena : Arena Ctx) {names : List String}
    (known : ∀ name ∈ names, name ∈ arena.stages) (seen : List Nat) :
    arena.stageIds? seen names =
      some (((distinct names).map arena.stages.idxOf).filter (· ∉ seen)) := by
  induction names generalizing seen with
  | nil => rfl
  | cons name rest ih =>
    have here := idxOf?_of_mem (known name (List.mem_cons_self ..))
    have others : ∀ name ∈ rest, name ∈ arena.stages :=
      fun other among => known other (List.mem_cons_of_mem _ among)
    have apart (other : String) (among : other ∈ distinct rest) :
        arena.stages.idxOf other = arena.stages.idxOf name ↔ other = name :=
      List.idxOf_inj (others other (mem_distinct.mp among))
    rw [stageIds?, here, distinct]
    simp only [Option.bind_eq_bind, Option.bind_some, ih others, List.map_cons, List.filter_map]
    by_cases visited : arena.stages.idxOf name ∈ seen
    · rw [if_pos visited, List.filter_cons_of_neg (by simpa using visited), List.filter_map,
        List.filter_filter]
      refine congrArg (some ∘ List.map _) (List.filter_congr fun other among => ?_)
      by_cases same : other = name
      · simp [same, visited]
      · simp [same]
    · rw [if_neg visited, List.filter_cons_of_pos (by simpa using visited), List.filter_map,
        List.filter_filter]
      refine congrArg (fun names => some (arena.stages.idxOf name :: List.map _ names))
        (List.filter_congr fun other among => ?_)
      simp [apart other among, Bool.and_comm]

theorem stands_insertRule (stands : arena.Stands forest) (rule : Rule Ctx)
    (known : ∀ name ∈ rule.stages, name ∈ forest.stages) (index : Nat) :
    ∃ arena', arena.insertRule rule index = some (arena', (forest.insert rule index).2) ∧
      arena'.Stands (forest.insert rule index).1 := by
  unfold insertRule Forest.insert
  cases activity : rule.activity with
  | everywhere =>
    have all : (List.range arena.stages.length).map Parent.stage =
        forest.stages.map fun name => .stage (forest.stages.idxOf name) := by
      refine List.ext_getElem (by simp [stands.stages]) fun i _ inside => ?_
      rw [List.length_map] at inside
      simp [stands.nodup.idxOf_getElem i inside]
    obtain ⟨arena₁, inserted, stands₁⟩ :=
      stands_insertInAll stands rule.reader.steps index fun name => id
    obtain ⟨arena₂, more, stands₂⟩ := stands_insertStageless stands₁ rule.reader.steps index
    refine ⟨arena₂, ?_, stands₂⟩
    simp [all, insertEach_append inserted, insertEach, more]
  | inStages names =>
    have inside : ∀ name ∈ names, name ∈ forest.stages := fun name among =>
      known name (by rw [Rule.stages, activity]; exact List.mem_append_left _ among)
    have each : ∀ name ∈ distinct names, name ∈ forest.stages :=
      fun name among => inside name (mem_distinct.mp among)
    obtain ⟨arena', inserted, stands'⟩ :=
      stands_insertInAll stands rule.reader.steps index each
    refine ⟨arena', ?_, stands'⟩
    rw [← stands.stages] at inside inserted
    simp [stageIds?_eq arena inside, ← inserted, Function.comp_def]
  | nowhere => exact ⟨arena, rfl, stands⟩

theorem stands_insertRules (stands : arena.Stands forest) {rules : List (Rule Ctx)}
    (known : ∀ rule ∈ rules, ∀ name ∈ rule.stages, name ∈ forest.stages) (index : Nat) :
    ∃ arena', insertRules arena index rules =
        some (arena', (Forest.insertRules forest index rules).2) ∧
      arena'.Stands (Forest.insertRules forest index rules).1 := by
  induction rules generalizing arena forest index with
  | nil => exact ⟨arena, rfl, stands⟩
  | cons rule rest ih =>
    obtain ⟨arena₁, inserted, stands₁⟩ :=
      stands_insertRule stands rule (known rule (List.mem_cons_self ..)) index
    have same : (forest.insert rule index).1.stages = forest.stages := Forest.stages_insert rule index
    obtain ⟨arena₂, more, stands₂⟩ := ih stands₁ (fun other among name named =>
      same ▸ known other (List.mem_cons_of_mem _ among) name named) (index + 1)
    exact ⟨arena₂, by simp [insertRules, inserted, more, Forest.insertRules], stands₂⟩

/-- Adding stages one after the other keeps each of them once. -/
theorem foldl_addStage (names : List String) (arena : Arena Ctx) :
    names.foldl addStage arena =
      { arena with
        stages := arena.stages ++ (distinct names).filter (· ∉ arena.stages)
        roots := arena.roots ++ ((distinct names).filter (· ∉ arena.stages)).map fun _ => [] } := by
  induction names generalizing arena with
  | nil => simp [distinct]
  | cons name rest ih =>
    rw [List.foldl_cons, ih, addStage, distinct]
    by_cases known : name ∈ arena.stages
    · have same : (distinct rest).filter (· ∉ arena.stages) =
          (distinct rest).filter fun other => other ∉ arena.stages && other ≠ name := by
        refine List.filter_congr fun other _ => ?_
        by_cases same : other = name <;> simp [same, known]
      rw [if_pos known, List.filter_cons_of_neg (by simpa using known), List.filter_filter, same]
    · have same : (distinct rest).filter (· ∉ arena.stages ++ [name]) =
          (distinct rest).filter fun other => other ∉ arena.stages && other ≠ name := by
        simp
      rw [if_neg known, List.filter_cons_of_pos (by simpa using known), List.filter_filter, same]
      simp

/-- The arena of a list of rules is made without a place out of bounds and with the notes of the
forest, and stands for it. -/
theorem build_represents (rules : List (Rule Ctx)) (initialStage : Option String) :
    ∃ arena, build rules initialStage = some (arena, (Forest.build rules initialStage).2) ∧
      arena.Represents (Forest.ofRules rules initialStage) := by
  have stages : ({ tries := (Forest.knownStages rules initialStage).map fun stage =>
      (stage, []) } : Forest Ctx).stages = Forest.knownStages rules initialStage := by
    simp [Forest.stages, Function.comp_def]
  have start : Stands { stages := Forest.knownStages rules initialStage
                        roots := (Forest.knownStages rules initialStage).map fun _ => [] }
      ({ tries := (Forest.knownStages rules initialStage).map fun stage => (stage, []) } :
        Forest Ctx) := by
    refine ⟨⟨rfl, stages.symm, by simp [Function.comp_def], rfl, ?_⟩, ?_, Forest.counted_empty _⟩
    · rw [Forest.allRoots_empty]
      exact holds_nil
    · rw [stages]
      exact nodup_distinct _
  have named : ∀ rule ∈ rules, ∀ name ∈ rule.stages, name ∈ _ := fun rule among name named =>
    stages.symm ▸ Forest.mem_knownStages initialStage among named
  obtain ⟨arena, built, stands⟩ := stands_insertRules start named 0
  refine ⟨arena, ?_, stands.toRepresents⟩
  rw [build, foldl_addStage]
  simpa [Forest.knownStages, Forest.build] using built

/-- In every stage the arena has the branches of the forest. -/
theorem Represents.rootsFor?_eq (represents : arena.Represents forest) (nodup : forest.stages.Nodup)
    (stage : Option String) :
    arena.rootsFor? stage = some ((forest.roots stage).map Branch.id) := by
  have stageless := congrArg some represents.stageless
  cases stage with
  | none => exact stageless
  | some name =>
    by_cases known : name ∈ forest.stages
    · have here : forest.stages[forest.stages.idxOf name]? = some name := List.getElem?_idxOf known
      rw [Forest.stages, List.getElem?_map, Option.map_eq_some_iff] at here
      obtain ⟨trie, found, rfl⟩ := here
      rw [Forest.roots_of_mem nodup (List.mem_of_getElem? found), rootsFor?, represents.stages,
        Option.bind_some, idxOf?_of_mem known]
      simp only [siblings?, represents.roots, List.getElem?_map, Forest.stages, found,
        Option.map_some]
    · have missing : forest.tries.lookup name = none :=
        List.lookup_eq_none_iff.mpr fun trie among =>
          bne_iff_ne.mpr fun same => known (same ▸ List.mem_map_of_mem among)
      rw [Forest.roots, Option.bind_some, missing, rootsFor?, represents.stages, Option.bind_some,
        List.idxOf?_eq_none_iff.mpr known]
      exact stageless

/-- The cells are the branches in the order of their numbers. -/
theorem Represents.cells_eq (represents : arena.Represents forest) (counted : forest.Counted) :
    arena.cells.toList = forest.branches.map fun branch =>
      ⟨branch.readers, branch.children.map Branch.id, branch.rule, branch.owner⟩ := by
  have ids := Forest.map_id_branches counted
  have size : forest.branches.length = arena.cells.size := by
    rw [← List.length_map Branch.id, ids, List.length_range, represents.size]
  refine List.ext_getElem (by simp [size]) fun i inside _ => ?_
  have within : i < forest.branches.length := by simpa [size] using inside
  have number : forest.branches[i].id = i := by
    have same : (forest.branches.map Branch.id)[i]? = (List.range forest.size)[i]? := by rw [ids]
    rw [List.getElem?_map, List.getElem?_eq_getElem within, List.getElem?_range] at same
    · exact Option.some.inj same
    · rw [← represents.size, ← size]
      exact within
  have cell := represents.holds _
    (forest.perm_branches.mem_iff.mp (List.getElem_mem within))
  rw [number] at cell
  rw [List.getElem_map, Array.getElem_toList]
  exact (Array.getElem?_eq_some_iff.mp cell).2

/-- The arena of a list of rules is made without a place out of bounds and with the notes of the
forest. It has the branches of the forest, in the order of their numbers, and in every stage its
roots. -/
theorem build_spec (rules : List (Rule Ctx)) (initialStage : Option String) :
    let forest := Forest.ofRules rules initialStage
    ∃ arena, build rules initialStage = some (arena, (Forest.build rules initialStage).2) ∧
      (arena.cells.toList = forest.branches.map fun branch =>
        ⟨branch.readers, branch.children.map Branch.id, branch.rule, branch.owner⟩) ∧
      arena.stages = forest.stages ∧
      ∀ stage, arena.rootsFor? stage = some ((forest.roots stage).map Branch.id) := by
  obtain ⟨arena, built, represents⟩ := build_represents rules initialStage
  exact ⟨arena, built, represents.cells_eq (Forest.counted_ofRules rules initialStage),
    represents.stages,
    represents.rootsFor?_eq (Forest.nodup_stages_ofRules rules initialStage)⟩

end Arena

end StagedLexer
