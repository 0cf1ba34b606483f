import Mathlib.Logic.Relation
import StagedLexer.Proofs.OptimizedRoutine

/-! Code whose values are plain: what is assigned or declared with holds no declaration and no
assignment itself. The optimizer removes or moves one assignment after the other, and every such
rewriting keeps values plain. -/
namespace StagedLexer.Code

mutual
/-- Whether the fragment holds no declaration and no assignment. -/
def isValue : Code → Bool
  | literal _ | var _ => true
  | block items => areValues items
  | declare _ | define _ _ | assign _ _ _ => false
def areValues : List Code → Bool
  | [] => true
  | item :: rest => isValue item && areValues rest
end

mutual
/-- Whether the fragment assigns and declares with values only. -/
def isStraight : Code → Bool
  | literal _ | var _ | declare _ => true
  | block items => areStraight items
  | define _ value | assign _ value _ => isValue value
def areStraight : List Code → Bool
  | [] => true
  | item :: rest => isStraight item && areStraight rest
end

/-- Whether a member of a stream is a value, or declares or assigns with one. -/
def isItem : Code → Bool
  | declare _ => true
  | define _ value | assign _ value _ => isValue value
  | item => isValue item

theorem areValues_iff {items : List Code} :
    areValues items = true ↔ ∀ item ∈ items, item.isValue = true := by
  induction items with
  | nil => simp [areValues]
  | cons item rest ih => simp [areValues, ih]

theorem areStraight_iff {items : List Code} :
    areStraight items = true ↔ ∀ item ∈ items, item.isStraight = true := by
  induction items with
  | nil => simp [areStraight]
  | cons item rest ih => simp [areStraight, ih]

theorem flattenAll_eq_flatMap (items : List Code) : flattenAll items = items.flatMap flatten := by
  induction items with
  | nil => rfl
  | cons item rest ih => rw [flattenAll, ih, List.flatMap_cons]

theorem isItem_of_mem_flatten {code : Code} (straight : code.isStraight = true) {item : Code}
    (member : item ∈ flatten code) : item.isItem = true := by
  induction code with
  | literal | var | declare | define | assign =>
    obtain rfl := List.mem_singleton.mp (by simpa [flatten] using member)
    first | rfl | exact straight
  | block items ih =>
    rw [flatten_block, flattenAll_eq_flatMap] at member
    obtain ⟨part, among, inside⟩ := List.mem_flatMap.mp member
    exact ih part among (areStraight_iff.mp straight part among) inside

theorem isValue_of_mem_flatten {code : Code} (plain : code.isValue = true) {item : Code}
    (member : item ∈ flatten code) : item.isValue = true := by
  induction code with
  | literal | var | declare | define | assign =>
    obtain rfl := List.mem_singleton.mp (by simpa [flatten] using member)
    exact plain
  | block items ih =>
    rw [flatten_block, flattenAll_eq_flatMap] at member
    obtain ⟨part, among, inside⟩ := List.mem_flatMap.mp member
    exact ih part among (areValues_iff.mp plain part among) inside

theorem isItem_of_isValue {code : Code} (plain : code.isValue = true) : code.isItem = true := by
  cases code with
  | literal | var => rfl
  | block items => exact plain
  | declare | define | assign => cases plain

theorem isValue_inParens {value : Code} (plain : value.isValue = true) :
    (inParens value).isValue = true := by
  cases value with
  | literal | var => rfl
  | block items => simpa [inParens, isValue, areValues] using plain
  | declare | define | assign => cases plain

mutual
theorem isValue_substitute {v : Nat} {value : Code} (plain : value.isValue = true) :
    (code : Code) → code.isValue = true → (substitute v value code).isValue = true
  | literal _, _ => rfl
  | var w, _ => by
    rw [substitute]
    split
    · exact plain
    · rfl
  | block items, whole => by
    rw [substitute]
    exact areValues_substituteAll plain items whole
  | declare _, whole | define _ _, whole | assign _ _ _, whole => by cases whole
theorem areValues_substituteAll {v : Nat} {value : Code} (plain : value.isValue = true) :
    (items : List Code) → areValues items = true →
      areValues (substituteAll v value items) = true
  | [], _ => rfl
  | item :: rest, whole => by
    rw [areValues, Bool.and_eq_true] at whole
    rw [substituteAll, areValues, isValue_substitute plain item whole.1,
      areValues_substituteAll plain rest whole.2, Bool.and_self]
end

theorem isItem_substitute {v : Nat} {value item : Code} (plain : value.isValue = true)
    (whole : item.isItem = true) : (substitute v value item).isItem = true := by
  cases item with
  | declare w => rfl
  | define w init => exact isValue_substitute plain init whole
  | assign w old retained => exact isValue_substitute plain old whole
  | literal | var | block => exact isItem_of_isValue (isValue_substitute plain _ whole)

theorem usesAhead_cons (v : Nat) (item : Code) (rest : List Code) :
    usesAhead v (item :: rest) =
      references v item + if assigns [v] item then 0 else usesAhead v rest := by
  cases item with
  | assign w value retained =>
    by_cases same : w = v
    · simp [usesAhead, assigns, references, same]
    · simp [usesAhead, assigns, same]
  | literal | var | block | declare | define => rw [usesAhead] <;> simp [assigns]

/-- One rewriting of a stream: an assignment is removed, or its value takes the place of the only
reference. -/
inductive Rewrites : List Code → List Code → Prop
  | dead {v : Nat} {value : Code} {rest : List Code} (unused : usesAhead v rest = 0) :
      Rewrites (assign v value false :: rest) rest
  | moved {v : Nat} {value : Code} {rest out : List Code} (once : usesAhead v rest = 1)
      (done : substituteFirst? v (inParens value) (reads value) rest = some out) :
      Rewrites (assign v value false :: rest) out
  | behind {item : Code} {rest rest' : List Code} (step : Rewrites rest rest') :
      Rewrites (item :: rest) (item :: rest')

open Relation (ReflTransGen)

theorem rewrites_cons {items items' : List Code} (steps : ReflTransGen Rewrites items items')
    (item : Code) : ReflTransGen Rewrites (item :: items) (item :: items') :=
  steps.lift (item :: ·) fun _ _ step => .behind step

theorem rewrites_passed (items : List Code) : ReflTransGen Rewrites items (passed items) := by
  induction items with
  | nil => exact .refl
  | cons item rest ih =>
    have kept := rewrites_cons ih item
    cases plain : item.isPassing with
    | false => rwa [passed_cons plain]
    | true =>
      obtain ⟨v, value, rfl⟩ := eq_assign_of_isPassing plain
      rw [passed_assign]
      split
      · next unused => exact kept.tail (.dead unused)
      · next once =>
        cases done : substituteFirst? v (inParens value) (reads value) (passed rest) with
        | none => exact kept
        | some out => exact kept.tail (.moved once done)
      · exact kept

theorem rewrites_settle (items : List Code) (passes : Nat) :
    ReflTransGen Rewrites items (settle items passes).1 := by
  apply settle_induction (ReflTransGen Rewrites items)
  · intro other steps
    exact steps.trans (rewrites_passed other)
  · exact .refl

private theorem isItem_substituteFirst? {v : Nat} {value : Code} {vars : List Nat}
    {items out : List Code} (plain : value.isValue = true)
    (whole : ∀ item ∈ items, item.isItem = true)
    (done : substituteFirst? v value vars items = some out) : ∀ item ∈ out, item.isItem = true := by
  induction items generalizing out with
  | nil => cases done
  | cons item rest ih =>
    rw [List.forall_mem_cons] at whole
    rw [substituteFirst?] at done
    split at done
    · rw [← Option.some.inj done, List.forall_mem_cons]
      exact ⟨isItem_substitute plain whole.1, whole.2⟩
    split at done
    · cases done
    · obtain ⟨rest', more, rfl⟩ := Option.map_eq_some_iff.mp done
      rw [List.forall_mem_cons]
      exact ⟨whole.1, ih whole.2 more⟩

theorem Rewrites.isItem {items items' : List Code} (step : Rewrites items items')
    (whole : ∀ item ∈ items, item.isItem = true) : ∀ item ∈ items', item.isItem = true := by
  induction step with
  | dead => exact (List.forall_mem_cons.mp whole).2
  | moved _ done =>
    rw [List.forall_mem_cons] at whole
    exact isItem_substituteFirst? (isValue_inParens whole.1) whole.2 done
  | behind _ ih =>
    rw [List.forall_mem_cons] at whole ⊢
    exact ⟨whole.1, ih whole.2⟩

theorem isItem_of_rewrites {items items' : List Code}
    (steps : ReflTransGen Rewrites items items')
    (whole : ∀ item ∈ items, item.isItem = true) : ∀ item ∈ items', item.isItem = true := by
  induction steps with
  | refl => exact whole
  | tail _ step ih => exact step.isItem ih

theorem isItem_settle {code : Code} (straight : code.isStraight = true) (passes : Nat) :
    ∀ item ∈ (settle (flatten code) passes).1, item.isItem = true :=
  isItem_of_rewrites (rewrites_settle _ passes) fun _ => isItem_of_mem_flatten straight

/-- What a statement comes to behind the last pass: nothing if it declares a variable that is not
used, otherwise what it is made of. -/
def strip (vars : List Nat) (item : Code) : List Code :=
  if item.isNeeded vars then flatten item else []

theorem flattenAll_dropUnused (items : List Code) :
    flattenAll (dropUnused items) = items.flatMap (strip (used items)) := by
  rw [dropUnused_eq, flattenAll_eq_flatMap]
  generalize used items = vars
  induction items with
  | nil => rfl
  | cons item rest ih =>
    rw [List.filter_cons, List.flatMap_cons, ← ih, strip]
    split
    · rw [List.flatMap_cons]
    · rfl

theorem optimize_eq (code : Code) :
    optimize code = block ((settle (flatten code) 0).1.flatMap
      (strip (used (settle (flatten code) 0).1))) := by
  rw [← flattenAll_dropUnused]
  rfl

end StagedLexer.Code
