import Mathlib.Logic.Function.Basic
import StagedLexer.Proofs.StraightCode

/-! Reading straight-line code from front to back, with what every variable stands for. An
assignment that may be removed only says what its variable stands for; everything else is emitted,
with variables replaced by what they stand for. Two emissions may differ in parentheses around
values. -/
namespace StagedLexer.Code

/-- A piece of what is emitted. A statement goes from its variable up to `done`, and a name is that
of a variable that stands for nothing else. -/
inductive Symbol where
  | text (text : String)
  | name (var : Nat)
  | define (var : Nat)
  | assign (var : Nat)
  | done
  deriving DecidableEq

/-- What the variables stand for. -/
abbrev Env := Nat → List Symbol

mutual
/-- A value with what its variables stand for. -/
def expand (env : Env) : Code → List Symbol
  | literal text => [.text text]
  | var v => env v
  | block items => expandAll env items
  | declare _ | define _ _ | assign _ _ _ => []
def expandAll (env : Env) : List Code → List Symbol
  | [] => []
  | item :: rest => expand env item ++ expandAll env rest
end

/-- What a statement emits. -/
def emitted (env : Env) : Code → List Symbol
  | declare _ | assign _ _ false => []
  | define v value => .define v :: (expand env value ++ [Symbol.done])
  | assign v value true => .assign v :: (expand env value ++ [Symbol.done])
  | item => expand env item

/-- The value that a statement gives to a variable without emitting it. -/
def bound (env : Env) : Code → List (List Symbol)
  | assign _ value false => [expand env value]
  | _ => []

/-- What the variables stand for behind a statement. -/
def next (env : Env) : Code → Env
  | define v value | assign v value _ => Function.update env v (expand env value)
  | _ => env

def emission (env : Env) : List Code → List Symbol
  | [] => []
  | item :: rest => emitted env item ++ emission (next env item) rest

/-- The values that a stream gives to variables without emitting them. -/
def values (env : Env) : List Code → List (List Symbol)
  | [] => []
  | item :: rest => bound env item ++ values (next env item) rest

/-- The second emission is the first one with parentheses around values. -/
inductive Wraps (known : List Symbol → Prop) : List Symbol → List Symbol → Prop
  | refl (symbols : List Symbol) : Wraps known symbols symbols
  | wrap {symbols front value inner behind : List Symbol}
      (before : Wraps known symbols (front ++ (inner ++ behind))) (isKnown : known value)
      (around : Wraps known value inner) :
      Wraps known symbols (front ++ (Symbol.text "(" :: (inner ++ Symbol.text ")" :: behind)))

namespace Wraps

variable {known : List Symbol → Prop} {a b c d : List Symbol}

theorem trans (first : Wraps known a b) (second : Wraps known b c) : Wraps known a c := by
  induction second with
  | refl => exact first
  | wrap _ isKnown around ih _ => exact .wrap (ih first) isKnown around

theorem append_left (x : List Symbol) (wraps : Wraps known a b) :
    Wraps known (x ++ a) (x ++ b) := by
  induction wraps with
  | refl => exact .refl _
  | @wrap symbols front value inner behind _ isKnown around ih _ =>
    rw [← List.append_assoc] at ih ⊢
    exact .wrap ih isKnown around

theorem append_right (y : List Symbol) (wraps : Wraps known a b) :
    Wraps known (a ++ y) (b ++ y) := by
  induction wraps with
  | refl => exact .refl _
  | @wrap symbols front value inner behind _ isKnown around ih _ =>
    simp only [List.append_assoc, List.cons_append] at ih ⊢
    exact .wrap ih isKnown around

theorem append (first : Wraps known a b) (second : Wraps known c d) :
    Wraps known (a ++ c) (b ++ d) :=
  (first.append_right c).trans (second.append_left b)

theorem parens (isKnown : known a) (wraps : Wraps known a b) :
    Wraps known a (.text "(" :: (b ++ [Symbol.text ")"])) := by
  have alone : Wraps known a ([] ++ (b ++ [])) := by simpa using wraps
  exact .wrap alone isKnown wraps

/-- Values that are known values with parentheses allow for nothing more. -/
theorem bind {known' : List Symbol → Prop} (wraps : Wraps known' a b)
    (given : ∀ value', known' value' → ∃ value, known value ∧ Wraps known value value') :
    Wraps known a b := by
  induction wraps with
  | refl => exact .refl _
  | wrap _ isKnown _ ih inner =>
    obtain ⟨value, isKnown, around⟩ := given _ isKnown
    exact .wrap ih isKnown (around.trans inner)

theorem mono {known' : List Symbol → Prop} (wraps : Wraps known' a b)
    (given : ∀ value, known' value → known value) : Wraps known a b :=
  wraps.bind fun value isKnown => ⟨value, given value isKnown, .refl value⟩

end Wraps

section Expand

variable {known : List Symbol → Prop} {env env' : Env} {v : Nat}

mutual
theorem references_eq_zero_iff (v : Nat) : (code : Code) → references v code = 0 ↔ v ∉ reads code
  | literal _ | declare _ => by simp [references, reads]
  | var w => by simp [references, reads, eq_comm]
  | block items => by
    rw [references, reads]
    exact referencesAll_eq_zero_iff v items
  | define _ value | assign _ value _ => by
    rw [references, reads]
    exact references_eq_zero_iff v value
theorem referencesAll_eq_zero_iff (v : Nat) : (items : List Code) →
    referencesAll v items = 0 ↔ v ∉ readsAll items
  | [] => by simp [referencesAll, readsAll]
  | item :: rest => by
    rw [referencesAll, readsAll, Nat.add_eq_zero_iff, List.mem_append, not_or,
      references_eq_zero_iff v item, referencesAll_eq_zero_iff v rest]
end

mutual
theorem wraps_expand : (code : Code) → (∀ w ∈ reads code, Wraps known (env w) (env' w)) →
    Wraps known (expand env code) (expand env' code)
  | literal _, _ | declare _, _ | define _ _, _ | assign _ _ _, _ => .refl _
  | var w, each => each w List.mem_cons_self
  | block items, each => wraps_expandAll items each
theorem wraps_expandAll : (items : List Code) →
    (∀ w ∈ readsAll items, Wraps known (env w) (env' w)) →
      Wraps known (expandAll env items) (expandAll env' items)
  | [], _ => .refl _
  | item :: rest, each => by
    rw [readsAll, List.forall_mem_append] at each
    exact (wraps_expand item each.1).append (wraps_expandAll rest each.2)
end

mutual
/-- Putting a value in the place of a variable that stands for it. -/
theorem wraps_substitute {value : Code} (here : Wraps known (env v) (expand env' value))
    (others : ∀ w, w ≠ v → Wraps known (env w) (env' w)) : (code : Code) →
      Wraps known (expand env code) (expand env' (substitute v value code))
  | literal _ | declare _ | define _ _ | assign _ _ _ => .refl _
  | var w => by
    rw [expand, substitute]
    by_cases same : w = v
    · rw [if_pos same, same]
      exact here
    · rw [if_neg same]
      exact others w same
  | block items => wraps_substituteAll here others items
theorem wraps_substituteAll {value : Code} (here : Wraps known (env v) (expand env' value))
    (others : ∀ w, w ≠ v → Wraps known (env w) (env' w)) : (items : List Code) →
      Wraps known (expandAll env items) (expandAll env' (substituteAll v value items))
  | [] => .refl _
  | item :: rest =>
    (wraps_substitute here others item).append (wraps_substituteAll here others rest)
end

theorem wraps_inParens (value : Code) (isKnown : known (expand env value)) :
    Wraps known (expand env value) (expand env (inParens value)) := by
  have parens : Wraps known (expand env value) (.text "(" :: (expand env value ++ [Symbol.text ")"])) :=
    .parens isKnown (.refl _)
  cases value with
  | var w => exact .refl _
  | literal | block | declare | define | assign => simpa [inParens, expand, expandAll] using parens

end Expand

end StagedLexer.Code
