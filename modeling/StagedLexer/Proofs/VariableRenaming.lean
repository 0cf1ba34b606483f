import Mathlib.Logic.Equiv.Basic
import StagedLexer.Proofs.OptimizerFixedPoint

/-! Variables under other numbers. Names are given out in the order in which variables are met, and
the optimizer only compares variables with each other, so neither depends on the numbers. -/
namespace StagedLexer.Code

mutual
def rename (f : Nat → Nat) : Code → Code
  | literal text => literal text
  | var v => var (f v)
  | block items => block (renameAll f items)
  | declare v => declare (f v)
  | define v init => define (f v) (rename f init)
  | assign v value retained => assign (f v) (rename f value) retained
def renameAll (f : Nat → Nat) : List Code → List Code
  | [] => []
  | item :: rest => rename f item :: renameAll f rest
end

variable {f : Nat → Nat} {v : Nat} {vars : List Nat} {value : Code} {items : List Code}

theorem renameAll_eq_map (f : Nat → Nat) (items : List Code) :
    renameAll f items = items.map (rename f) := by
  induction items with
  | nil => rfl
  | cons item rest ih => rw [renameAll, ih, List.map_cons]

section Names

/-- The same names under other numbers, given out up to the same point. -/
structure Names.Renamed (f : Nat → Nat) (names names' : Names) : Prop where
  counter : names'.counter = names.counter
  names : ∀ v, names'.names[f v]? = names.names[v]?

variable {names names' : Names}

theorem Names.Renamed.name (injective : Function.Injective f) (renamed : Renamed f names names')
    (v : Nat) : (names'.name (f v)).1 = (names.name v).1 ∧
      Renamed f (names.name v).2 (names'.name (f v)).2 := by
  have same := renamed.names v
  unfold Names.name
  cases known : names.names[v]? with
  | some name =>
    rw [known] at same
    rw [same]
    exact ⟨rfl, renamed⟩
  | none =>
    rw [known] at same
    rw [same, renamed.counter]
    refine ⟨rfl, rfl, fun w => ?_⟩
    simp only [Std.HashMap.getElem?_insert, beq_iff_eq, injective.eq_iff, renamed.names]

mutual
theorem render_rename (injective : Function.Injective f) : (code : Code) →
    {names names' : Names} → names.Renamed f names' →
      ((rename f code).render names').1 = (code.render names).1 ∧
        (code.render names).2.Renamed f ((rename f code).render names').2
  | literal _, _, _, renamed => ⟨rfl, renamed⟩
  | var v, _, _, renamed => renamed.name injective v
  | block items, _, _, renamed => renderAll_renameAll injective items renamed
  | declare v, _, _, renamed => by
    obtain ⟨name, after⟩ := renamed.name injective v
    simp only [rename, render]
    exact ⟨by rw [name], after⟩
  | define v init, _, _, renamed => by
    obtain ⟨name, after⟩ := renamed.name injective v
    obtain ⟨text, last⟩ := render_rename injective init after
    simp only [rename, render]
    exact ⟨by rw [name, text], last⟩
  | assign v value _, _, _, renamed => by
    obtain ⟨name, after⟩ := renamed.name injective v
    obtain ⟨text, last⟩ := render_rename injective value after
    simp only [rename, render]
    exact ⟨by rw [name, text], last⟩
theorem renderAll_renameAll (injective : Function.Injective f) : (items : List Code) →
    {names names' : Names} → names.Renamed f names' →
      (renderAll (renameAll f items) names').1 = (renderAll items names).1 ∧
        (renderAll items names).2.Renamed f (renderAll (renameAll f items) names').2
  | [], _, _, renamed => ⟨rfl, renamed⟩
  | item :: rest, _, _, renamed => by
    obtain ⟨text, after⟩ := render_rename injective item renamed
    obtain ⟨more, last⟩ := renderAll_renameAll injective rest after
    simp only [renameAll, renderAll]
    exact ⟨by rw [text, more], last⟩
end

end Names

section Stream

mutual
theorem flatten_rename : (code : Code) → flatten (rename f code) = (flatten code).map (rename f)
  | literal _ | var _ | declare _ | define _ _ | assign _ _ _ => rfl
  | block items => flattenAll_renameAll items
theorem flattenAll_renameAll : (items : List Code) →
    flattenAll (renameAll f items) = (flattenAll items).map (rename f)
  | [] => rfl
  | item :: rest => by
    rw [renameAll, flattenAll, flattenAll, flatten_rename item, flattenAll_renameAll rest,
      List.map_append]
end

mutual
theorem reads_rename : (code : Code) → reads (rename f code) = (reads code).map f
  | literal _ | var _ | declare _ => rfl
  | block items => readsAll_renameAll items
  | define _ init => reads_rename init
  | assign _ value _ => reads_rename value
theorem readsAll_renameAll : (items : List Code) →
    readsAll (renameAll f items) = (readsAll items).map f
  | [] => rfl
  | item :: rest => by
    rw [renameAll, readsAll, readsAll, reads_rename item, readsAll_renameAll rest, List.map_append]
end

theorem inParens_rename (value : Code) : inParens (rename f value) = rename f (inParens value) := by
  cases value <;> rfl

private theorem used_map (items : List Code) :
    used (items.map (rename f)) = (used items).map f := by
  unfold used
  rw [List.flatMap_map, List.map_flatMap]
  congr 1
  funext item
  cases item with
  | assign v value retained => simp only [rename, reads_rename, List.map_cons]
  | declare => rfl
  | literal | var | block | define => exact reads_rename _

mutual
theorem references_rename (injective : Function.Injective f) (v : Nat) : (code : Code) →
    references (f v) (rename f code) = references v code
  | literal _ | declare _ => rfl
  | var w => by simp only [rename, references, injective.eq_iff]
  | block items => referencesAll_renameAll injective v items
  | define _ init => references_rename injective v init
  | assign _ value _ => references_rename injective v value
theorem referencesAll_renameAll (injective : Function.Injective f) (v : Nat) :
    (items : List Code) → referencesAll (f v) (renameAll f items) = referencesAll v items
  | [] => rfl
  | item :: rest => by
    rw [renameAll, referencesAll, referencesAll, references_rename injective v item,
      referencesAll_renameAll injective v rest]
end

mutual
theorem substitute_rename (injective : Function.Injective f) (v : Nat) (value : Code) :
    (code : Code) →
      substitute (f v) (rename f value) (rename f code) = rename f (substitute v value code)
  | literal _ | declare _ => rfl
  | var w => by
    simp only [rename, substitute, injective.eq_iff]
    split <;> rfl
  | block items => congrArg block (substituteAll_renameAll injective v value items)
  | define w init => congrArg (define (f w)) (substitute_rename injective v value init)
  | assign w old retained =>
    congrArg (assign (f w) · retained) (substitute_rename injective v value old)
theorem substituteAll_renameAll (injective : Function.Injective f) (v : Nat) (value : Code) :
    (items : List Code) → substituteAll (f v) (rename f value) (renameAll f items) =
      renameAll f (substituteAll v value items)
  | [] => rfl
  | item :: rest => by
    rw [renameAll, substituteAll, substituteAll, renameAll,
      substitute_rename injective v value item, substituteAll_renameAll injective v value rest]
end

variable (injective : Function.Injective f)

include injective

private theorem contains_map (vars : List Nat) (v : Nat) :
    (vars.map f).contains (f v) = vars.contains v := by
  rw [Bool.eq_iff_iff, List.contains_iff_mem, List.contains_iff_mem, List.mem_map]
  constructor
  · rintro ⟨w, member, same⟩
    rwa [← injective same]
  · exact fun member => ⟨v, member, rfl⟩

theorem assigns_rename (vars : List Nat) (item : Code) :
    assigns (vars.map f) (rename f item) = assigns vars item := by
  cases item with
  | assign w value retained => exact contains_map injective vars w
  | literal | var | block | declare | define => rfl

theorem usesAhead_map (v : Nat) (items : List Code) :
    usesAhead (f v) (items.map (rename f)) = usesAhead v items := by
  induction items with
  | nil => rfl
  | cons item rest ih =>
    rw [List.map_cons, usesAhead_cons, usesAhead_cons, references_rename injective, ih]
    rw [← assigns_rename injective [v] item, List.map_singleton]

theorem substituteFirst?_map (v : Nat) (value : Code) (vars : List Nat) (items : List Code) :
    substituteFirst? (f v) (rename f value) (vars.map f) (items.map (rename f)) =
      (substituteFirst? v value vars items).map (·.map (rename f)) := by
  induction items with
  | nil => rfl
  | cons item rest ih =>
    rw [List.map_cons, substituteFirst?, substituteFirst?, references_rename injective,
      assigns_rename injective, substitute_rename injective, ih]
    split
    · rfl
    split
    · rfl
    · simp only [Option.map_map]
      rfl

theorem passed_map (items : List Code) :
    passed (items.map (rename f)) = (passed items).map (rename f) := by
  induction items with
  | nil => rfl
  | cons item rest ih =>
    cases plain : item.isPassing with
    | false =>
      have plain' : (rename f item).isPassing = false := by
        cases item with
        | assign v value retained =>
          cases retained with
          | false => cases plain
          | true => rfl
        | literal | var | block | declare | define => rfl
      rw [List.map_cons, passed_cons plain', passed_cons plain, ih, List.map_cons]
    | true =>
      obtain ⟨v, value, rfl⟩ := eq_assign_of_isPassing plain
      rw [List.map_cons, rename, passed_assign, passed_assign, ih, usesAhead_map injective,
        inParens_rename, reads_rename, substituteFirst?_map injective]
      split
      · rfl
      · cases substituteFirst? v (inParens value) (reads value) (passed rest) <;> rfl
      · rfl

/-- A pass makes as many notes as it removes statements. -/
private theorem notes_map (items : List Code) :
    (pass (items.map (rename f))).2 = [] ↔ (pass items).2 = [] := by
  have lengths := length_pass items
  have lengths' := length_pass (items.map (rename f))
  have same : (pass (items.map (rename f))).1.length = (pass items).1.length := by
    have renamed := congrArg List.length (passed_map injective items)
    rwa [List.length_map] at renamed
  rw [List.length_map] at lengths'
  rw [← List.length_eq_zero_iff, ← List.length_eq_zero_iff]
  omega

theorem settle_map (items : List Code) (passes : Nat) :
    (settle (items.map (rename f)) passes).1 = (settle items passes).1.map (rename f) := by
  induction size : items.length using Nat.strongRecOn generalizing items passes with
  | ind size ih =>
    subst size
    by_cases quiet : (pass items).2 = []
    · rw [settle_of_quiet quiet, settle_of_quiet ((notes_map injective items).mpr quiet)]
    · have noted := mt (notes_map injective items).mp quiet
      have shorter : (passed items).length < items.length := by
        have lengths := length_pass items
        have some := List.length_pos_iff.mpr quiet
        unfold passed
        omega
      rw [settle_of_notes quiet, settle_of_notes noted, passed_map injective]
      exact ih _ shorter (passed items) (passes + 1) rfl

theorem dropUnused_map (items : List Code) :
    dropUnused (items.map (rename f)) = (dropUnused items).map (rename f) := by
  rw [dropUnused_eq, dropUnused_eq, used_map, List.filter_map]
  congr 2
  funext item
  cases item with
  | declare v => exact contains_map injective _ v
  | literal | var | block | define | assign => rfl

theorem optimize_rename (code : Code) : (rename f code).optimize = rename f code.optimize := by
  have settled := settle_map injective (flatten code) 0
  rw [← flatten_rename] at settled
  simp only [optimize, optimizeNoted, settled, dropUnused_map injective, rename,
    ← flattenAll_renameAll, renameAll_eq_map]

end Stream

def renderEach (items : List Code) (names : Names) : String × Names :=
  items.foldl (fun (text, names) item =>
    let (more, names) := item.render names
    (text ++ more, names)) ("", names)

theorem renderEach_eq (items : List Code) (names : Names) :
    renderEach items names = (block items).render names := by
  have behind (text : String) (names : Names) :
      items.foldl (fun (done : String × Names) item =>
        (done.1 ++ (item.render done.2).1, (item.render done.2).2)) (text, names) =
          (text ++ (renderAll items names).1, (renderAll items names).2) := by
    induction items generalizing text names with
    | nil => simp [renderAll]
    | cons item rest ih =>
      rw [List.foldl_cons, ih]
      simp [renderAll, String.append_assoc]
  have whole := behind "" names
  rwa [String.empty_append] at whole

/-- Neither the text of a fragment nor what the optimizer makes of it depends on the numbers of its
variables, and fragments rendered one after the other make the text of their block. -/
theorem text_independent_of_numbers :
    (∀ (code : Code) (f : Nat → Nat), Function.Injective f →
      ((rename f code).render {}).1 = (code.render {}).1 ∧
        (rename f code).optimize = rename f code.optimize) ∧
    ∀ (items : List Code) (names : Names),
      renderEach items names = (block items).render names := by
  refine ⟨fun code f injective => ⟨?_, optimize_rename injective code⟩, renderEach_eq⟩
  have fresh : Names.Renamed f {} {} := ⟨rfl, fun v => by simp⟩
  exact (render_rename injective code fresh).1

/-- Two variables under swapped numbers, one of which is met in the value of the other. -/
theorem text_of_swapped_numbers :
    let code : Code := block [define 7 (literal "0"), assign 3 (block [var 7, literal " + 1"]) false,
      block [literal "f(", var 3, literal ", ", var 7, literal ");"]]
    let swap := Equiv.swap 3 7
    Function.Injective swap ∧ ((rename swap code).render {}).1 = (code.render {}).1 ∧
      ((rename swap code)).optimize = rename swap code.optimize ∧
      (code.render {}).1 = "let mut a = 0;\nb = a + 1;\nf(b, a);" := by
  intro code swap
  obtain ⟨text, optimized⟩ := text_independent_of_numbers.1 code swap swap.injective
  have first : nextFree reserved.length 0 = ("a", 1) := by
    simp [nextFree, reserved, alphabeticName, nameLetters]
  have second : nextFree reserved.length 1 = ("b", 2) := by
    simp [nextFree, reserved, alphabeticName, nameLetters]
  let one : Names := { names := Std.HashMap.insert {} 7 "a", counter := 1 }
  let two : Names := { names := one.names.insert 3 "b", counter := 2 }
  have newA : Names.name {} 7 = ("a", one) := by simp [Names.name, first, one]
  have newB : one.name 3 = ("b", two) := by
    simp [Names.name, second, one, two]
  have knownA : two.name 7 = ("a", two) := by
    simp [Names.name, one, two, Std.HashMap.getElem_insert]
  have knownB : two.name 3 = ("b", two) := by simp [Names.name, two]
  have defined : (define 7 (literal "0")).render {} = ("let mut a = 0;\n", one) := by
    simp [render, newA]
  have assigned : (assign 3 (block [var 7, literal " + 1"]) false).render one =
      ("b = a + 1;\n", two) := by
    simp [render, renderAll, newB, knownA]
  have called : (block [literal "f(", var 3, literal ", ", var 7, literal ");"]).render two =
      ("f(b, a);", two) := by
    simp [render, renderAll, knownA, knownB]
  refine ⟨swap.injective, text, optimized, ?_⟩
  rw [show code.render {} = renderAll _ {} from rfl]
  simp only [renderAll, defined, assigned, called]
  decide

end StagedLexer.Code
