import StagedLexer.Code.Basic
import StagedLexer.Note

/-! Removing assignments. On the flat list of the statements of a fragment, an assignment that is
not retained is dropped if its variable is not used up to its next assignment, and its value takes
the place of the only use if there is one and no variable of the value is assigned in between. -/
namespace StagedLexer.Code

/-- The references to a variable in a list of statements up to its next assignment, the value of
which still counts. -/
def usesAhead (v : Nat) : List Code → Nat
  | [] => 0
  | assign w value retained :: rest =>
    -- The value is computed before it is assigned, so it still reads the old one.
    if w = v then references v value
    else references v (assign w value retained) + usesAhead v rest
  | item :: rest => references v item + usesAhead v rest

def assigns (vars : List Nat) : Code → Bool
  | assign w _ _ => vars.contains w
  | _ => false

/-- Puts a value into the first statement that refers to the variable, unless a statement in front
of it assigns one of the variables that the value reads. -/
def substituteFirst? (v : Nat) (value : Code) (vars : List Nat) : List Code → Option (List Code)
  | [] => none
  | item :: rest =>
    if 0 < references v item then some (substitute v value item :: rest)
    else if assigns vars item then none
    else (substituteFirst? v value vars rest).map (item :: ·)

def inParens : Code → Code
  | var v => var v
  | value => block [literal "(", value, literal ")"]

def pass : List Code → List Code × List Note
  | [] => ([], [])
  | assign v value false :: rest =>
    let (rest, notes) := pass rest
    -- What follows has been passed already: a use that goes there no longer counts.
    match usesAhead v rest with
    | 0 => (rest, notes ++ [Note.deadAssignment v])
    | 1 =>
      match substituteFirst? v (inParens value) (reads value) rest with
      | some rest => (rest, notes ++ [Note.singleUse v])
      | none => (assign v value false :: rest, notes)
    | _ => (assign v value false :: rest, notes)
  | item :: rest =>
    let (rest, notes) := pass rest
    (item :: rest, notes)

theorem length_substituteFirst? {v : Nat} {value : Code} {vars : List Nat} {items out : List Code}
    (h : substituteFirst? v value vars items = some out) : out.length = items.length := by
  induction items generalizing out with
  | nil => simp [substituteFirst?] at h
  | cons item rest ih =>
    unfold substituteFirst? at h
    split at h
    · cases h; simp
    · split at h
      · cases h
      · obtain ⟨tail, ht, rfl⟩ := Option.map_eq_some_iff.1 h
        simp [ih ht]

theorem length_pass (items : List Code) :
    (pass items).1.length + (pass items).2.length = items.length := by
  fun_induction pass items with
  | case1 => rfl
  | case2 v value rest rest' notes eq hu ih => simp_all; omega
  | case3 v value rest rest' notes eq hu out hs ih =>
    have := length_substituteFirst? hs
    simp_all; omega
  | case4 v value rest rest' notes eq hu hs ih => simp_all; omega
  | case5 v value rest rest' notes eq _ _ ih => simp_all; omega
  | case6 item rest _ rest' notes eq ih => simp_all; omega

def settle (items : List Code) (passes : Nat) : List Code × List Note × Nat :=
  match h : pass items with
  | (items', notes) =>
    if none : notes.isEmpty then (items', [], passes + 1)
    else
      have : items'.length < items.length := by
        have lengths := length_pass items
        have some : notes.length ≠ 0 := by simpa using none
        simp only [h] at lengths
        omega
      let (items', more, passes) := settle items' (passes + 1)
      (items', notes ++ more, passes)
termination_by items.length

def used (items : List Code) : List Nat :=
  items.flatMap fun
    | declare _ => []
    | assign v value _ => v :: reads value
    | item => reads item

def dropUnused (items : List Code) : List Code :=
  let vars := used items
  items.filter fun
    | declare v => vars.contains v
    | _ => true

def optimizeNoted (code : Code) : Code × List Note :=
  let (items, notes, passes) := settle (flatten code) 0
  (block (flattenAll (dropUnused items)), notes ++ [Note.fixedPoint passes])

def optimize (code : Code) : Code := (optimizeNoted code).1

end StagedLexer.Code
