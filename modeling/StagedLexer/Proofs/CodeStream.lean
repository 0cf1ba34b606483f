import StagedLexer.Proofs.Induction

/-! The optimizer on streams of statements: what flattening keeps, and how references are counted
and values moved when a stream goes on behind the part that matters. -/
namespace StagedLexer.Code

theorem flattenAll_append (as bs : List Code) :
    flattenAll (as ++ bs) = flattenAll as ++ flattenAll bs := by
  induction as with
  | nil => rfl
  | cons a rest ih => simp [flattenAll, ih]

@[simp] theorem flatten_block (items : List Code) : flatten (block items) = flattenAll items := by
  simp [flatten]

theorem flattenAll_flatten (code : Code) : flattenAll (flatten code) = flatten code := by
  induction code with
  | literal | var | declare | define | assign => simp [flatten, flattenAll]
  | block items ih =>
    rw [flatten_block]
    induction items with
    | nil => rfl
    | cons item rest again =>
      rw [flattenAll, flattenAll_append, ih item (by simp),
        again fun item member => ih item (by simp [member])]

theorem flattenAll_flattenAll (items : List Code) :
    flattenAll (flattenAll items) = flattenAll items := by
  simpa using flattenAll_flatten (.block items)

section References

variable {v : Nat}

theorem referencesAll_append (v : Nat) (as bs : List Code) :
    referencesAll v (as ++ bs) = referencesAll v as + referencesAll v bs := by
  induction as with
  | nil => simp [referencesAll]
  | cons a rest ih => simp [referencesAll, ih, Nat.add_assoc]

theorem referencesAll_flatten (v : Nat) (code : Code) :
    referencesAll v (flatten code) = references v code := by
  induction code with
  | literal | var | declare | define | assign => simp [flatten, referencesAll]
  | block items ih =>
    rw [flatten_block, references]
    induction items with
    | nil => rfl
    | cons item rest again =>
      rw [flattenAll, referencesAll_append, ih item (by simp), referencesAll,
        again fun item member => ih item (by simp [member])]

theorem referencesAll_flattenAll (v : Nat) (items : List Code) :
    referencesAll v (flattenAll items) = referencesAll v items := by
  simpa [references] using referencesAll_flatten v (.block items)

/-- Without an assignment of the variable, all references lie ahead. -/
theorem usesAhead_eq_referencesAll {items : List Code}
    (unassigned : items.any (assigns [v]) = false) :
    usesAhead v items = referencesAll v items := by
  fun_induction usesAhead v items with
  | case1 => rfl
  | case2 value retained rest => simp [assigns] at unassigned
  | case3 w value retained rest other ih =>
    rw [List.any_cons, Bool.or_eq_false_iff] at unassigned
    rw [referencesAll, ih unassigned.2]
  | case4 item rest _ ih =>
    rw [List.any_cons, Bool.or_eq_false_iff] at unassigned
    rw [referencesAll, ih unassigned.2]

theorem usesAhead_eq_zero {items : List Code} (unreferenced : referencesAll v items = 0) :
    usesAhead v items = 0 := by
  fun_induction usesAhead v items with
  | case1 => rfl
  | case2 value retained rest =>
    rw [referencesAll, Nat.add_eq_zero_iff] at unreferenced
    exact unreferenced.1
  | case3 w value retained rest other ih =>
    rw [referencesAll, Nat.add_eq_zero_iff] at unreferenced
    rw [unreferenced.1, ih unreferenced.2]
  | case4 item rest _ ih =>
    rw [referencesAll, Nat.add_eq_zero_iff] at unreferenced
    rw [unreferenced.1, ih unreferenced.2]

/-- What does not refer to the variable does not count. -/
theorem usesAhead_append {items behind : List Code} (unreferenced : referencesAll v behind = 0) :
    usesAhead v (items ++ behind) = usesAhead v items := by
  fun_induction usesAhead v items with
  | case1 => exact usesAhead_eq_zero unreferenced
  | case2 value retained rest => simp [usesAhead]
  | case3 w value retained rest other ih => simp [usesAhead, other, ih]
  | case4 item rest plain ih =>
    rw [List.cons_append, usesAhead, ih]
    exact plain

end References

section Substitution

variable {v : Nat} {value : Code} {vars : List Nat}

theorem substitute_of_unreferenced {code : Code} (unreferenced : references v code = 0) :
    substitute v value code = code := by
  induction code with
  | literal | declare => rfl
  | var w =>
    have other : w ≠ v := by
      rintro rfl
      simp [references] at unreferenced
    simp [substitute, other]
  | block items ih =>
    rw [references] at unreferenced
    rw [substitute]
    congr 1
    induction items with
    | nil => rfl
    | cons item rest again =>
      rw [referencesAll, Nat.add_eq_zero_iff] at unreferenced
      rw [substituteAll, ih item (by simp) unreferenced.1,
        again (fun item member => ih item (by simp [member])) unreferenced.2]
  | define w init ih => rw [references] at unreferenced; rw [substitute, ih unreferenced]
  | assign w old retained ih => rw [references] at unreferenced; rw [substitute, ih unreferenced]

theorem substituteAll_of_unreferenced {items : List Code}
    (unreferenced : referencesAll v items = 0) : substituteAll v value items = items := by
  have whole : substitute v value (.block items) = .block items :=
    substitute_of_unreferenced unreferenced
  rw [substitute] at whole
  exact Code.block.inj whole

theorem substituteAll_append (as bs : List Code) :
    substituteAll v value (as ++ bs) = substituteAll v value as ++ substituteAll v value bs := by
  induction as with
  | nil => rfl
  | cons a rest ih => simp [substituteAll, ih]

/-- The first reference lies in front of what follows. -/
theorem substituteFirst?_append {items behind : List Code} (used : 0 < referencesAll v items) :
    substituteFirst? v value vars (items ++ behind) =
      (substituteFirst? v value vars items).map (· ++ behind) := by
  induction items with
  | nil => simp [referencesAll] at used
  | cons item rest ih =>
    simp only [List.cons_append, substituteFirst?]
    by_cases here : 0 < references v item
    · simp [here]
    · rw [referencesAll] at used
      simp only [here, if_false]
      split
      · rfl
      · rw [ih (by omega)]
        cases substituteFirst? v value vars rest <;> rfl

/-- In front of the first reference no variable of the value is assigned. -/
theorem substituteFirst?_of_behind {items behind : List Code}
    (unreferenced : referencesAll v items = 0)
    (ready : (substituteFirst? v value vars (items ++ behind)).isSome = true) :
    items.any (assigns vars) = false ∧ (substituteFirst? v value vars behind).isSome = true := by
  induction items with
  | nil => exact ⟨rfl, ready⟩
  | cons item rest ih =>
    rw [referencesAll, Nat.add_eq_zero_iff] at unreferenced
    rw [List.cons_append, substituteFirst?, unreferenced.1] at ready
    cases assigned : assigns vars item with
    | true => simp [assigned] at ready
    | false =>
      simp only [assigned, Nat.lt_irrefl, if_false, Bool.false_eq_true, Option.isSome_map] at ready
      simpa [assigned] using ih unreferenced.2 ready

/-- Where the variable is referred to once, the first reference is the only one. -/
theorem substituteFirst?_eq_substituteAll {items out : List Code}
    (once : referencesAll v items = 1) (done : substituteFirst? v value vars items = some out) :
    out = substituteAll v value items := by
  induction items generalizing out with
  | nil => cases done
  | cons item rest ih =>
    rw [referencesAll] at once
    rw [substituteFirst?] at done
    by_cases here : 0 < references v item
    · simp only [here, if_true] at done
      rw [← Option.some.inj done, substituteAll, substituteAll_of_unreferenced (by omega)]
    · simp only [here, if_false] at done
      split at done
      · cases done
      · obtain ⟨rest', more, rfl⟩ := Option.map_eq_some_iff.mp done
        rw [substituteAll, substitute_of_unreferenced (by omega), ih (by omega) more]

end Substitution

section Pass

def passed (items : List Code) : List Code := (pass items).1

@[simp] theorem passed_nil : passed [] = [] := rfl

/-- Whether a pass looks at the statement: it is an assignment that is not retained. -/
def isPassing : Code → Bool
  | assign _ _ false => true
  | _ => false

theorem eq_assign_of_isPassing {item : Code} (passing : item.isPassing = true) :
    ∃ v value, item = assign v value false := by
  cases item with
  | assign v value retained =>
    cases retained with
    | false => exact ⟨v, value, rfl⟩
    | true => cases passing
  | literal | var | block | declare | define => cases passing

theorem passed_cons {item : Code} (plain : item.isPassing = false) (rest : List Code) :
    passed (item :: rest) = item :: passed rest := by
  unfold passed
  cases item with
  | assign v value retained =>
    cases retained with
    | false => cases plain
    | true => simp [pass]
  | literal | var | block | declare | define => simp [pass]

theorem passed_append {items : List Code} (plain : items.all (!·.isPassing)) (rest : List Code) :
    passed (items ++ rest) = items ++ passed rest := by
  induction items with
  | nil => rfl
  | cons item others ih =>
    rw [List.all_cons, Bool.and_eq_true, Bool.not_eq_true'] at plain
    rw [List.cons_append, passed_cons plain.1, ih plain.2, List.cons_append]

theorem passed_assign (v : Nat) (value : Code) (rest : List Code) :
    passed (assign v value false :: rest) =
      match usesAhead v (passed rest) with
      | 0 => passed rest
      | 1 => (substituteFirst? v (inParens value) (reads value) (passed rest)).getD
          (assign v value false :: passed rest)
      | _ => assign v value false :: passed rest := by
  unfold passed
  rw [pass]
  rcases pass rest with ⟨rest, notes⟩
  simp only
  rcases usesAhead v rest with _ | _ | uses
  · rfl
  · cases substituteFirst? v (inParens value) (reads value) rest <;> rfl
  · rfl

theorem references_inParens (v : Nat) (value : Code) :
    references v (inParens value) = references v value := by
  cases value <;> simp [inParens, references, referencesAll]

mutual
theorem references_substitute_eq_zero {v w : Nat} {value : Code}
    (fresh : references v value = 0) : (code : Code) → references v code = 0 →
      references v (substitute w value code) = 0
  | literal _, _ | declare _, _ => by simp [substitute, references]
  | var u, free => by
    rw [substitute]
    split
    · exact fresh
    · exact free
  | block items, free => by
    rw [references] at free
    rw [substitute, references]
    exact referencesAll_substituteAll_eq_zero fresh items free
  | define u init, free => by
    rw [references] at free
    rw [substitute, references]
    exact references_substitute_eq_zero fresh init free
  | assign u old _, free => by
    rw [references] at free
    rw [substitute, references]
    exact references_substitute_eq_zero fresh old free
theorem referencesAll_substituteAll_eq_zero {v w : Nat} {value : Code}
    (fresh : references v value = 0) : (items : List Code) → referencesAll v items = 0 →
      referencesAll v (substituteAll w value items) = 0
  | [], _ => rfl
  | item :: rest, free => by
    rw [referencesAll, Nat.add_eq_zero_iff] at free
    rw [substituteAll, referencesAll, references_substitute_eq_zero fresh item free.1,
      referencesAll_substituteAll_eq_zero fresh rest free.2]
end

private theorem referencesAll_substituteFirst?_eq_zero {v w : Nat} {value : Code} {vars : List Nat}
    {items out : List Code} (fresh : references v value = 0) (free : referencesAll v items = 0)
    (done : substituteFirst? w value vars items = some out) : referencesAll v out = 0 := by
  induction items generalizing out with
  | nil => cases done
  | cons item rest ih =>
    rw [referencesAll, Nat.add_eq_zero_iff] at free
    rw [substituteFirst?] at done
    split at done
    · rw [← Option.some.inj done, referencesAll, free.2,
        references_substitute_eq_zero fresh item free.1]
    · split at done
      · cases done
      · obtain ⟨rest', more, rfl⟩ := Option.map_eq_some_iff.mp done
        rw [referencesAll, free.1, ih free.2 more]

/-- A pass refers to no other variables than before. -/
theorem referencesAll_passed_eq_zero {v : Nat} {items : List Code}
    (free : referencesAll v items = 0) : referencesAll v (passed items) = 0 := by
  induction items with
  | nil => rfl
  | cons item rest ih =>
    rw [referencesAll, Nat.add_eq_zero_iff] at free
    have kept : referencesAll v (item :: passed rest) = 0 := by
      rw [referencesAll, free.1, ih free.2]
    cases plain : item.isPassing with
    | false => rwa [passed_cons plain]
    | true =>
      obtain ⟨w, value, rfl⟩ := eq_assign_of_isPassing plain
      have fresh : references v (inParens value) = 0 := by
        rw [references_inParens]
        exact free.1
      rw [passed_assign]
      split
      · exact ih free.2
      · cases done : substituteFirst? w (inParens value) (reads value) (passed rest) with
        | none => exact kept
        | some out => exact referencesAll_substituteFirst?_eq_zero fresh (ih free.2) done
      · exact kept

end Pass

end StagedLexer.Code
