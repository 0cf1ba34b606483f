import StagedLexer.Proofs.Redirect

/-! A pass of the optimizer on statements. It makes of a scoped statement the one whose emitted
source is what the pass makes of the source, and that statement runs as the first one does, up to
the temporaries. -/
namespace StagedLexer

open Code

namespace Stmt

/-- What a pass makes of an assignment of a temporary and of what stands behind it, on which the pass
has been already. -/
def shorten (frame : Frame) (v r : Nat) (rest : List Stmt) : List Stmt :=
  let ahead := flattenAll (codes frame rest)
  match usesAhead v ahead with
  | 0 => rest
  | 1 =>
    if (substituteFirst? v (Place.ofResult r).code [r] ahead).isSome then redirectAll v r rest
    else assign v (.asPlace r) false :: rest
  | _ => assign v (.asPlace r) false :: rest

mutual
def pass (frame : Frame) : Stmt → Stmt
  | block items => block (passAll frame items)
  | guarded cond body => guarded cond (pass frame body)
  | onResult r matched failed => onResult r (pass frame matched) (pass frame failed)
  | loop body => loop (pass frame body)
  | dispatch stages arms otherwise => dispatch stages (passEach frame arms) (pass frame otherwise)
  | declare v => declare v
  | assign v value retained => assign v value retained
  | leave => leave
  | accept rule stop move => accept rule stop move
  | fail owner r => fail owner r
def passAll (frame : Frame) : List Stmt → List Stmt
  | [] => []
  | item :: rest =>
    match item.binding? with
    | some (v, r) => shorten frame v r (passAll frame rest)
    | none => pass frame item :: passAll frame rest
def passEach (frame : Frame) : List Stmt → List Stmt
  | [] => []
  | arm :: rest => pass frame arm :: passEach frame rest
end

variable {T : Nat → Prop} {live : List Nat} {frame : Frame} {v r : Nat}

/-- The three ways in which a pass treats an assignment of a temporary: it goes, the result takes the
place of the temporary, or it stays. -/
theorem shorten_cases (clear : frame.Clear T) (temp : T v) {rest : List Stmt}
    (inScope : ScopedAll T live rest) (fresh : v ∉ bindersAll rest) :
    (referencesAll v (codes frame rest) = 0 ∧ shorten frame v r rest = rest) ∨
    (referencesAll v (codes frame rest) = 1 ∧ Ready v r (flattenAll (codes frame rest)) ∧
      shorten frame v r rest = redirectAll v r rest) ∨
    (shorten frame v r rest = assign v (.asPlace r) false :: rest ∧
      (referencesAll v (codes frame rest) = 1 →
        substituteFirst? v (Place.ofResult r).code [r] (flattenAll (codes frame rest)) = none) ∧
      referencesAll v (codes frame rest) ≠ 0) := by
  have uses : usesAhead v (flattenAll (codes frame rest)) = referencesAll v (codes frame rest) := by
    rw [usesAhead_eq_referencesAll (unassignedAll clear temp rest inScope fresh),
      referencesAll_flattenAll]
  unfold shorten
  simp only [uses]
  rcases referencesAll v (codes frame rest) with _ | _ | more
  · exact .inl ⟨rfl, rfl⟩
  · by_cases ready : Ready v r (flattenAll (codes frame rest))
    · exact .inr (.inl ⟨rfl, ready, if_pos ready⟩)
    · exact .inr (.inr ⟨if_neg ready, fun _ => by simpa [Ready] using ready, by simp⟩)
  · exact .inr (.inr ⟨rfl, fun one => by omega, by omega⟩)

private theorem bindersAll_shorten (frame : Frame) (v r : Nat) (rest : List Stmt) :
    (bindersAll (shorten frame v r rest)).Sublist (v :: bindersAll rest) := by
  have kept : bindersAll (assign v (.asPlace r) false :: rest) = v :: bindersAll rest := by
    simp [bindersAll, binders]
  unfold shorten
  simp only
  split
  · exact List.sublist_cons_self _ _
  · split
    · rw [bindersAll_redirectAll]
      exact List.sublist_cons_self _ _
    · exact kept ▸ List.Sublist.refl _
  · exact kept ▸ List.Sublist.refl _

mutual
theorem binders_pass (frame : Frame) : (stmt : Stmt) →
    (stmt.pass frame).binders.Sublist stmt.binders
  | declare _ | assign _ _ _ | leave | accept _ _ _ | fail _ _ => List.Sublist.refl _
  | block items => bindersAll_passAll frame items
  | guarded _ body | loop body => binders_pass frame body
  | onResult _ matched failed => (binders_pass frame matched).append (binders_pass frame failed)
  | dispatch _ arms otherwise =>
    (bindersAll_passEach frame arms).append (binders_pass frame otherwise)
theorem bindersAll_passAll (frame : Frame) : (items : List Stmt) →
    (bindersAll (passAll frame items)).Sublist (bindersAll items)
  | [] => List.Sublist.refl _
  | item :: rest => by
    rw [passAll]
    cases bind : item.binding? with
    | none => exact (binders_pass frame item).append (bindersAll_passAll frame rest)
    | some binding =>
      obtain ⟨v, r⟩ := binding
      obtain rfl := eq_assign_of_binding? bind
      exact (bindersAll_shorten frame v r _).trans
        ((bindersAll_passAll frame rest).cons_cons v)
theorem bindersAll_passEach (frame : Frame) : (arms : List Stmt) →
    (bindersAll (passEach frame arms)).Sublist (bindersAll arms)
  | [] => List.Sublist.refl _
  | arm :: rest => (binders_pass frame arm).append (bindersAll_passEach frame rest)
end

theorem nodup_tail {rest : List Stmt}
    (distinct : (bindersAll (assign v (.asPlace r) false :: rest)).Nodup) :
    v ∉ bindersAll rest ∧ (bindersAll rest).Nodup := by
  simpa [bindersAll, binders] using distinct

theorem binding?_pass (frame : Frame) (stmt : Stmt) (bind : stmt.binding? = none) :
    (stmt.pass frame).binding? = none := by
  cases stmt with
  | assign => exact bind
  | _ => simp [pass, binding?]

mutual
/-- A statement stays scoped in a pass. -/
theorem Scoped.pass (clear : frame.Clear T) : (stmt : Stmt) → {live : List Nat} →
    stmt.Scoped T live → stmt.binders.Nodup → (stmt.pass frame).Scoped T live
  | declare _, _, inScope, _ | assign _ _ _, _, inScope, _ | leave, _, inScope, _
  | accept _ _ _, _, inScope, _ | fail _ _, _, inScope, _ => inScope
  | block items, _, inScope, distinct => ScopedAll.passAll clear items inScope distinct
  | guarded _ body, _, inScope, distinct =>
    ⟨inScope.1, Scoped.pass clear body inScope.2 distinct⟩
  | onResult _ matched failed, _, inScope, distinct => by
    rw [binders, List.nodup_append] at distinct
    exact ⟨inScope.1, Scoped.pass clear matched inScope.2.1 distinct.1,
      Scoped.pass clear failed inScope.2.2 distinct.2.1⟩
  | loop body, _, inScope, distinct =>
    Scoped.pass clear body (show body.Scoped T [] from inScope) distinct
  | dispatch _ arms otherwise, _, inScope, distinct => by
    rw [binders, List.nodup_append] at distinct
    exact ⟨ScopedEach.passEach clear arms inScope.1 distinct.1,
      Scoped.pass clear otherwise inScope.2 distinct.2.1⟩
theorem ScopedAll.passAll (clear : frame.Clear T) : (items : List Stmt) → {live : List Nat} →
    ScopedAll T live items → (bindersAll items).Nodup → ScopedAll T live (passAll frame items)
  | [], _, _, _ => trivial
  | item :: rest, live, inScope, distinct => by
    rw [ScopedAll] at inScope
    rw [Stmt.passAll]
    cases bind : item.binding? with
    | none =>
      rw [bind] at inScope
      rw [bindersAll, List.nodup_append] at distinct
      simp only
      rw [ScopedAll, binding?_pass frame item bind]
      exact ⟨Scoped.pass clear item inScope.1 distinct.1,
        ScopedAll.passAll clear rest inScope.2 distinct.2.1⟩
    | some binding =>
      obtain ⟨v, r⟩ := binding
      rw [bind] at inScope
      obtain rfl := eq_assign_of_binding? bind
      obtain ⟨temp, plain, behind⟩ := inScope
      obtain ⟨fresh, distinct⟩ := nodup_tail distinct
      have behind' := ScopedAll.passAll clear rest behind distinct
      have fresh' : v ∉ bindersAll (Stmt.passAll frame rest) :=
        fun member => fresh ((bindersAll_passAll frame rest).subset member)
      have others : ∀ w ∈ v :: live, w ≠ v → w ∈ live :=
        fun w member other => (List.mem_cons.mp member).resolve_left other
      rcases shorten_cases (r := r) clear temp behind' fresh' with ⟨none, equal⟩ |
        ⟨once, -, equal⟩ | ⟨equal, -, -⟩
      · simp only [equal]
        rw [← redirectAll_of_unreferenced (r := r) _ none]
        exact ScopedAll.redirectAll clear temp plain _ behind' (by omega) others
      · simp only [equal]
        exact ScopedAll.redirectAll clear temp plain _ behind' (by omega) others
      · simp only [equal]
        exact ⟨temp, plain, behind'⟩
theorem ScopedEach.passEach (clear : frame.Clear T) : (arms : List Stmt) →
    ScopedEach T arms → (bindersAll arms).Nodup → ScopedEach T (passEach frame arms)
  | [], _, _ => trivial
  | arm :: rest, inScope, distinct => by
    rw [bindersAll, List.nodup_append] at distinct
    exact ⟨Scoped.pass clear arm inScope.1 distinct.1,
      ScopedEach.passEach clear rest inScope.2 distinct.2.1⟩
end

section Stream

private theorem plain_place (place : Place) : (flatten place.code).all (!·.isPassing) := by
  cases place <;> simp [Place.code, flatten, flattenAll, isPassing]

private theorem plain_cond (cond : Cond) (chunk : Nat) :
    (flatten (cond.code chunk)).all (!·.isPassing) := by
  cases cond <;> simp [Cond.code, flatten, flattenAll, isPassing]

private theorem plain_accept (rule : Nat) (stop : Place) (move : StageMove) :
    (flatten ((accept rule stop move).code frame)).all (!·.isPassing) := by
  have place := plain_place stop
  cases move <;>
  · simp only [code, Frame.confirmPending, Frame.stageMove, flatten_block, flattenAll,
      List.all_append, place]
    simp [flatten, isPassing]

mutual
theorem temp_of_mem_binders : (stmt : Stmt) → {live : List Nat} → stmt.Scoped T live →
    ∀ v ∈ stmt.binders, T v
  | declare _, _, _ | leave, _, _ | accept _ _ _, _, _ | fail _ _, _, _ => by simp [binders]
  | assign w _ retained, _, inScope => by simp [binders, inScope.1]
  | block items, _, inScope => temp_of_mem_bindersAll items inScope
  | guarded _ body, _, inScope => temp_of_mem_binders body inScope.2
  | loop body, _, inScope => temp_of_mem_binders body (show body.Scoped T [] from inScope)
  | onResult _ matched failed, _, inScope => by
    intro v member
    rcases List.mem_append.mp member with first | second
    · exact temp_of_mem_binders matched inScope.2.1 v first
    · exact temp_of_mem_binders failed inScope.2.2 v second
  | dispatch _ arms otherwise, _, inScope => by
    intro v member
    rcases List.mem_append.mp member with listed | last
    · exact temp_of_mem_binders_arms arms inScope.1 v listed
    · exact temp_of_mem_binders otherwise inScope.2 v last
theorem temp_of_mem_bindersAll : (items : List Stmt) → {live : List Nat} →
    ScopedAll T live items → ∀ v ∈ bindersAll items, T v
  | [], _, _ => by simp [bindersAll]
  | item :: rest, live, inScope => by
    intro v member
    rw [ScopedAll] at inScope
    cases bind : item.binding? with
    | none =>
      rw [bind] at inScope
      rcases List.mem_append.mp member with first | behind
      · exact temp_of_mem_binders item inScope.1 v first
      · exact temp_of_mem_bindersAll rest inScope.2 v behind
    | some binding =>
      rw [bind] at inScope
      obtain rfl := eq_assign_of_binding? bind
      rcases List.mem_append.mp member with first | behind
      · obtain rfl : v = binding.1 := by simpa [binders] using first
        exact inScope.1
      · exact temp_of_mem_bindersAll rest inScope.2.2 v behind
theorem temp_of_mem_binders_arms : (arms : List Stmt) → ScopedEach T arms →
    ∀ v ∈ bindersAll arms, T v
  | [], _ => by simp [bindersAll]
  | arm :: rest, inScope => by
    intro v member
    rcases List.mem_append.mp member with first | behind
    · exact temp_of_mem_binders arm inScope.1 v first
    · exact temp_of_mem_binders_arms rest inScope.2 v behind
end

private theorem passed_shorten (clear : frame.Clear T) (temp : T v) {rest : List Stmt}
    {items behind : List Code} (inScope : ScopedAll T live rest) (fresh : v ∉ bindersAll rest)
    (unreferenced : referencesAll v behind = 0)
    (done : passed items = flattenAll (codes frame rest) ++ behind) :
    passed (.assign v ((Value.asPlace r).code frame.chunk) false :: items) =
      flattenAll (codes frame (shorten frame v r rest)) ++ behind := by
  have uses : usesAhead v (passed items) = referencesAll v (codes frame rest) := by
    rw [done, usesAhead_append unreferenced,
      usesAhead_eq_referencesAll (unassignedAll clear temp rest inScope fresh),
      referencesAll_flattenAll]
  have value : inParens ((Value.asPlace r).code frame.chunk) = (Place.ofResult r).code := rfl
  have vars : reads ((Value.asPlace r).code frame.chunk) = [r] := by
    simp [Value.code, reads, readsAll]
  rw [passed_assign, uses, value, vars, done]
  rcases shorten_cases (r := r) clear temp inScope fresh with ⟨none, equal⟩ |
    ⟨once, ready, equal⟩ | ⟨equal, stuck, some⟩
  · rw [none, equal]
    rfl
  · obtain ⟨out, found⟩ := Option.isSome_iff_exists.mp ready
    have used : referencesAll v (flattenAll (codes frame rest)) = 1 := by
      rw [referencesAll_flattenAll, once]
    rw [once, equal, substituteFirst?_append (by omega), found,
      substituteFirst?_eq_substituteAll used found,
      flattenAll_codes_redirectAll clear temp rest inScope fresh (by omega)]
    rfl
  · have kept : flattenAll (codes frame (assign v (.asPlace r) false :: rest)) =
        .assign v ((Value.asPlace r).code frame.chunk) false :: flattenAll (codes frame rest) := by
      simp [codes, flattenAll, code, flatten]
    rw [equal, kept]
    rcases count : referencesAll v (codes frame rest) with _ | _ | more
    · exact absurd count some
    · have used : 0 < referencesAll v (flattenAll (codes frame rest)) := by
        rw [referencesAll_flattenAll, count]
        exact Nat.one_pos
      rw [substituteFirst?_append used, stuck count]
      rfl
    · rfl

private theorem passed_literal (text : String) (behind : List Code) :
    passed ([Code.literal text] ++ behind) = [Code.literal text] ++ passed behind :=
  passed_append (by simp [isPassing]) behind

private theorem passed_test (before after : String) (r : Nat) (behind : List Code) :
    passed ([Code.literal before, Code.var r, Code.literal after] ++ behind) =
      [Code.literal before, Code.var r, Code.literal after] ++ passed behind :=
  passed_append (by simp [isPassing]) behind

private theorem flatten_guarded (cond : Cond) (body : Stmt) :
    flatten ((guarded cond body).code frame) =
      [Code.literal "if "] ++ flatten (cond.code frame.chunk) ++ [Code.literal " \x7b\n"] ++
        (flatten (body.code frame) ++ [Code.literal "\x7d\n"]) := by
  simp [code, flatten, flattenAll]

private theorem flatten_onResult (r : Nat) (matched failed : Stmt) :
    flatten ((onResult r matched failed).code frame) =
      [Code.literal "if ", Code.var r, Code.literal " >= 0 \x7b\n"] ++
        (flatten (matched.code frame) ++
        ([Code.literal "\x7d else if ", Code.var r, Code.literal " != -1 \x7b\n"] ++
          (flatten (failed.code frame) ++ [Code.literal "\x7d\n"]))) := by
  simp [code, flatten, flattenAll]

private theorem flatten_loop (body : Stmt) :
    flatten ((loop body).code frame) =
      [Code.literal "loop \x7b\n"] ++ (flatten (body.code frame) ++ [Code.literal "\x7d\n"]) := by
  simp [code, flatten, flattenAll]

private theorem flatten_dispatch (stages : List String) (arms : List Stmt) (otherwise : Stmt) :
    flatten ((dispatch stages arms otherwise).code frame) =
      [Code.literal "match stage.as_deref() \x7b\n"] ++ (flattenAll (armCodes frame stages arms) ++
        ([Code.literal "_ => \x7b\n"] ++
          (flatten (otherwise.code frame) ++ [Code.literal "\x7d\n\x7d\n"]))) := by
  simp [code, flatten, flattenAll]

private theorem flatten_arm (stage : String) (stages : List String) (arm : Stmt)
    (arms : List Stmt) :
    flattenAll (armCodes frame (stage :: stages) (arm :: arms)) =
      [armHead stage] ++ (flatten (arm.code frame) ++
        ([Code.literal "\x7d\n"] ++ flattenAll (armCodes frame stages arms))) := by
  simp [armCodes, armHead, flatten, flattenAll]

mutual
/-- A pass on the emitted source of a scoped statement, whatever follows, is the pass on the
statement. -/
theorem passed_code (clear : frame.Clear T) : (stmt : Stmt) → {live : List Nat} →
    stmt.Scoped T live → stmt.binders.Nodup → (∀ v ∈ stmt.binders, v ∉ live) →
      (behind : List Code) → (∀ v ∈ stmt.binders, referencesAll v behind = 0) →
        passed (flatten (stmt.code frame) ++ behind) =
          flatten ((stmt.pass frame).code frame) ++ passed behind
  | declare _, _, _, _, _, behind, _ => passed_append (by simp [code, flatten, isPassing]) behind
  | leave, _, _, _, _, behind, _ => passed_append (by simp [code, flatten, isPassing]) behind
  | assign _ _ _, _, inScope, _, _, behind, _ =>
    passed_append (by simp [code, flatten, isPassing, inScope.1]) behind
  | accept rule stop move, _, _, _, _, behind, _ =>
    passed_append (plain_accept rule stop move) behind
  | fail _ _, _, _, _, _, behind, _ =>
    passed_append (by simp [code, Frame.confirmPending, flatten, flattenAll, isPassing]) behind
  | block items, _, inScope, distinct, apart, behind, unreferenced => by
    simpa [code, pass] using passed_codes clear items inScope distinct apart behind unreferenced
  | guarded cond body, _, inScope, distinct, apart, behind, unreferenced => by
    have test := plain_cond cond frame.chunk
    have inner := passed_code clear body inScope.2 distinct apart ([Code.literal "\x7d\n"] ++
      behind)
      fun v member => by simpa [referencesAll, references] using unreferenced v member
    rw [passed_literal] at inner
    rw [pass, flatten_guarded, flatten_guarded]
    simp only [List.append_assoc]
    rw [passed_literal, passed_append test, passed_literal, inner]
  | onResult r matched failed, _, inScope, distinct, apart, behind, unreferenced => by
    rw [binders, List.nodup_append] at distinct
    simp only [binders, List.mem_append] at apart unreferenced
    have second := passed_code clear failed inScope.2.2 distinct.2.1
      (fun v member => apart v (.inr member)) ([Code.literal "\x7d\n"] ++ behind)
      fun v member => by simpa [referencesAll, references] using unreferenced v (.inr member)
    have first := passed_code clear matched inScope.2.1 distinct.1
      (fun v member => apart v (.inl member))
      ([Code.literal "\x7d else if ", Code.var r, Code.literal " != -1 \x7b\n"] ++
        (flatten (failed.code frame) ++ ([Code.literal "\x7d\n"] ++ behind)))
      fun v member => by
        -- What one of the statements binds is not mentioned in the other one.
        have temp := temp_of_mem_binders matched inScope.2.1 v member
        have other := ne_of_not_temp temp inScope.1
        have away := references_eq_zero clear temp failed inScope.2.2 (apart v (.inl member))
          fun again => distinct.2.2 v member v again rfl
        simpa [referencesAll_append, referencesAll_flatten, referencesAll, references, other, away]
          using unreferenced v (.inl member)
    rw [passed_literal] at second
    rw [passed_test, second] at first
    rw [pass, flatten_onResult, flatten_onResult]
    simp only [List.append_assoc]
    rw [passed_test, first]
  | loop body, _, inScope, distinct, _, behind, unreferenced => by
    have inner := passed_code clear body (show body.Scoped T [] from inScope) distinct (by simp)
      ([Code.literal "\x7d\n"] ++ behind)
      fun v member => by simpa [referencesAll, references] using unreferenced v member
    rw [passed_literal] at inner
    rw [pass, flatten_loop, flatten_loop]
    simp only [List.append_assoc]
    rw [passed_literal, inner]
  | dispatch stages arms otherwise, _, inScope, distinct, _, behind, unreferenced => by
    rw [binders, List.nodup_append] at distinct
    simp only [binders, List.mem_append] at unreferenced
    have last := passed_code clear otherwise inScope.2 distinct.2.1 (by simp)
      ([Code.literal "\x7d\n\x7d\n"] ++ behind)
      fun v member => by simpa [referencesAll, references] using unreferenced v (.inr member)
    have listed := passed_armCodes clear arms stages inScope.1 distinct.1
      ([Code.literal "_ => \x7b\n"] ++
        (flatten (otherwise.code frame) ++ ([Code.literal "\x7d\n\x7d\n"] ++ behind)))
      fun v member => by
        have away := references_eq_zero clear (temp_of_mem_binders_arms arms inScope.1 v member)
          otherwise inScope.2 (by simp) fun again => distinct.2.2 v member v again rfl
        simpa [referencesAll_append, referencesAll_flatten, referencesAll, references, away]
          using unreferenced v (.inl member)
    rw [passed_literal] at last
    rw [passed_literal, last] at listed
    rw [pass, flatten_dispatch, flatten_dispatch]
    simp only [List.append_assoc]
    rw [passed_literal, listed]
theorem passed_codes (clear : frame.Clear T) : (items : List Stmt) → {live : List Nat} →
    ScopedAll T live items → (bindersAll items).Nodup → (∀ v ∈ bindersAll items, v ∉ live) →
      (behind : List Code) → (∀ v ∈ bindersAll items, referencesAll v behind = 0) →
        passed (flattenAll (codes frame items) ++ behind) =
          flattenAll (codes frame (passAll frame items)) ++ passed behind
  | [], _, _, _, _, behind, _ => by simp [codes, passAll, flattenAll]
  | item :: rest, live, inScope, distinct, apart, behind, unreferenced => by
    rw [ScopedAll] at inScope
    rw [passAll, codes, flattenAll]
    cases bind : item.binding? with
    | none =>
      rw [bind] at inScope
      rw [bindersAll, List.nodup_append] at distinct
      simp only [bindersAll, List.mem_append] at apart unreferenced
      have first := passed_code clear item inScope.1 distinct.1
        (fun v member => apart v (.inl member)) (flattenAll (codes frame rest) ++ behind)
        fun v member => by
          have away := referencesAll_eq_zero clear (temp_of_mem_binders item inScope.1 v member)
            rest inScope.2 (apart v (.inl member)) fun again => distinct.2.2 v member v again rfl
          rw [referencesAll_append, referencesAll_flattenAll, away,
            unreferenced v (.inl member)]
      rw [passed_codes clear rest inScope.2 distinct.2.1 (fun v member => apart v (.inr member))
        behind fun v member => unreferenced v (.inr member)] at first
      simp only [codes, flattenAll, List.append_assoc]
      exact first
    | some binding =>
      obtain ⟨v, r⟩ := binding
      rw [bind] at inScope
      obtain rfl := eq_assign_of_binding? bind
      obtain ⟨temp, plain, inScope⟩ := inScope
      obtain ⟨fresh, distinct⟩ := nodup_tail distinct
      -- The optimizer goes from the end to the start: what follows has been passed already when the
      -- assignment is looked at.
      have here : v ∈ bindersAll (assign v (.asPlace r) false :: rest) := by
        simp [bindersAll, binders]
      have there (w : Nat) (member : w ∈ bindersAll rest) :
          w ∈ bindersAll (assign v (.asPlace r) false :: rest) := by
        simp [bindersAll, member]
      have done := passed_codes clear rest inScope distinct
        (fun w member => by
          rw [List.mem_cons, not_or]
          exact ⟨fun equal => fresh (equal ▸ member), apart w (there w member)⟩)
        behind fun w member => unreferenced w (there w member)
      exact passed_shorten clear temp (ScopedAll.passAll clear rest inScope distinct)
        (fun member => fresh ((bindersAll_passAll frame rest).subset member))
        (referencesAll_passed_eq_zero (unreferenced v here)) done
theorem passed_armCodes (clear : frame.Clear T) : (arms : List Stmt) → (stages : List String) →
    ScopedEach T arms → (bindersAll arms).Nodup →
      (behind : List Code) → (∀ v ∈ bindersAll arms, referencesAll v behind = 0) →
        passed (flattenAll (armCodes frame stages arms) ++ behind) =
          flattenAll (armCodes frame stages (passEach frame arms)) ++ passed behind
  | [], _, _, _, behind, _ | _ :: _, [], _, _, behind, _ => by
    simp [armCodes, passEach, flattenAll]
  | arm :: rest, stage :: stages, inScope, distinct, behind, unreferenced => by
    rw [bindersAll, List.nodup_append] at distinct
    simp only [bindersAll, List.mem_append] at unreferenced
    have others := passed_armCodes clear rest stages inScope.2 distinct.2.1 behind
      fun v member => unreferenced v (.inr member)
    have first := passed_code clear arm inScope.1 distinct.1 (by simp)
      ([Code.literal "\x7d\n"] ++ (flattenAll (armCodes frame stages rest) ++ behind))
      fun v member => by
        have away := referencesAll_arms_eq_zero clear
          (temp_of_mem_binders arm inScope.1 v member) rest stages inScope.2
          fun again => distinct.2.2 v member v again rfl
        simpa [referencesAll_append, referencesAll_flattenAll, referencesAll, references, away]
          using unreferenced v (.inl member)
    rw [passed_literal, others] at first
    rw [passEach, flatten_arm, flatten_arm, armHead]
    simp only [List.append_assoc]
    rw [passed_literal, first]
end

end Stream

end Stmt

end StagedLexer
