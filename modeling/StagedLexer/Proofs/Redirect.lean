import StagedLexer.Proofs.RegisterUse
import StagedLexer.Proofs.Scoping

/-! Redirecting a temporary: the result it is made from takes its place. In emitted source that is
what the optimizer does to a temporary that is used once, and it changes nothing about a run if the
result is not assigned in between. -/
namespace StagedLexer

open Code

/-- The place with a result instead of a temporary. -/
def Place.redirect (v r : Nat) : Place → Place
  | .var w => if w = v then .ofResult r else .var w
  | .ofResult w => .ofResult w

/-- The value with a result instead of a temporary. -/
def Value.redirect (v r : Nat) : Value → Value
  | .position p => .position (p.redirect v r)
  | .probe test p => .probe test (p.redirect v r)
  | .call bound p => .call bound (p.redirect v r)
  | .place p => .place (p.redirect v r)
  | other => other

namespace Stmt

mutual
/-- The statement with a result instead of a temporary, which no loop refers to and which is not
accepted as a match. -/
def redirect (v r : Nat) : Stmt → Stmt
  | assign w value retained => assign w (value.redirect v r) retained
  | block items => block (redirectAll v r items)
  | guarded cond body => guarded cond (redirect v r body)
  | onResult w matched failed => onResult w (redirect v r matched) (redirect v r failed)
  | declare w => declare w
  | loop body => loop body
  | leave => leave
  | accept rule stop move => accept rule stop move
  | fail owner w => fail owner w
  | dispatch stages arms otherwise => dispatch stages arms otherwise
def redirectAll (v r : Nat) : List Stmt → List Stmt
  | [] => []
  | item :: rest => redirect v r item :: redirectAll v r rest
end

mutual
theorem binders_redirect (v r : Nat) : (stmt : Stmt) → (stmt.redirect v r).binders = stmt.binders
  | assign _ _ _ | declare _ | loop _ | leave | accept _ _ _ | fail _ _ | dispatch _ _ _ => by
    simp [redirect, binders]
  | block items => by simp [redirect, binders, bindersAll_redirectAll v r items]
  | guarded _ body => by simp [redirect, binders, binders_redirect v r body]
  | onResult _ matched failed => by
    simp [redirect, binders, binders_redirect v r matched, binders_redirect v r failed]
theorem bindersAll_redirectAll (v r : Nat) : (items : List Stmt) →
    bindersAll (redirectAll v r items) = bindersAll items
  | [] => by simp [redirectAll]
  | item :: rest => by
    simp [redirectAll, bindersAll, binders_redirect v r item, bindersAll_redirectAll v r rest]
end

theorem binding?_redirect (v r : Nat) (stmt : Stmt) :
    (stmt.redirect v r).binding? = stmt.binding? := by
  cases stmt with
  | assign w value retained =>
    cases value <;> cases retained <;> simp [redirect, Value.redirect, binding?]
  | _ => simp [redirect, binding?]

end Stmt

variable {T : Nat → Prop} {live : List Nat} {frame : Frame} {v r : Nat}

section Scope

variable {less : List Nat}

private theorem Place.Scoped.redirect (plain : ¬ T r) {place : Place}
    (inScope : place.Scoped T live) (others : ∀ w ∈ live, w ≠ v → w ∈ less) :
    (place.redirect v r).Scoped T less := by
  cases place with
  | var w =>
    rw [Place.redirect]
    split
    · exact plain
    · next other => exact fun temp => others w (inScope temp) other
  | ofResult w => exact inScope

private theorem Value.Scoped.redirect (plain : ¬ T r) {value : Value}
    (inScope : value.Scoped T live) (others : ∀ w ∈ live, w ≠ v → w ∈ less) :
    (value.redirect v r).Scoped T less := by
  cases value with
  | position p | probe test p | place p => exact Place.Scoped.redirect plain inScope others
  | call bound p => exact ⟨inScope.1, Place.Scoped.redirect plain inScope.2 others⟩
  | noMatch | chunkEnd | zero | result | asPlace | succ | counted => exact inScope

end Scope

section Code

variable (temp : T v)

include temp

private theorem Place.code_redirect {place : Place} (inScope : place.Scoped T live) :
    substitute v (Place.ofResult r).code place.code = (place.redirect v r).code := by
  cases place with
  | var w =>
    rw [Place.code, substitute, Place.redirect]
    split <;> rfl
  | ofResult w =>
    simp [Place.code, Place.redirect, substitute, substituteAll, ne_of_not_temp temp inScope]

theorem Value.code_redirect (clear : frame.Clear T) {value : Value}
    (inScope : value.Scoped T live) :
    substitute v (Place.ofResult r).code (value.code frame.chunk) =
      (value.redirect v r).code frame.chunk := by
  have chunk := ne_of_not_temp temp clear.chunk
  cases value with
  | noMatch | zero => simp [Value.code, Value.redirect, substitute, substituteAll]
  | chunkEnd => simp [Value.code, Value.redirect, substitute, substituteAll, chunk]
  | position p | place p =>
    simp [Value.code, Value.redirect, substitute, substituteAll, Place.code_redirect temp inScope]
  | probe test p =>
    cases test <;> simp [Value.code, Value.redirect, Probe.code, Probe.code.advance, substitute,
      substituteAll, chunk, Place.code_redirect temp inScope]
  | call bound p =>
    simp [Value.code, Value.redirect, substitute, substituteAll, chunk,
      ne_of_not_temp temp inScope.1, Place.code_redirect temp inScope.2]
  | result w | asPlace w | succ w =>
    simp [Value.code, Value.redirect, substitute, substituteAll, ne_of_not_temp temp inScope]
  | counted counter min pos =>
    simp [Value.code, Value.redirect, substitute, substituteAll, ne_of_not_temp temp inScope.1,
      ne_of_not_temp temp inScope.2]

end Code

namespace Stmt

private theorem substituteAll_flatten {code : Code} {value : Code}
    (unreferenced : references v code = 0) :
    substituteAll v value (flatten code) = flatten code :=
  substituteAll_of_unreferenced ((referencesAll_flatten v code).trans unreferenced)

mutual
/-- Putting the result into the emitted source redirects the temporary. -/
theorem flatten_code_redirect (clear : frame.Clear T) (temp : T v) : (stmt : Stmt) →
    {live : List Nat} → stmt.Scoped T live → v ∉ stmt.binders →
      references v (stmt.code frame) ≤ 1 →
        flatten ((stmt.redirect v r).code frame) =
          substituteAll v (Place.ofResult r).code (flatten (stmt.code frame))
  | declare _, _, _, _, _ | leave, _, _, _, _ => by
    simp [redirect, code, flatten, substituteAll, substitute]
  | assign w value retained, _, inScope, _, _ => by
    simp [redirect, code, flatten, substituteAll, substitute,
      Value.code_redirect temp clear inScope.2.2]
  | block items, _, inScope, fresh, atMost => by
    simpa [redirect, code] using flattenAll_codes_redirectAll clear temp items inScope
      (by simpa [binders] using fresh) (by simpa [code, references] using atMost)
  | guarded cond body, _, inScope, fresh, atMost => by
    have test := Cond.references_eq_zero temp clear inScope.1
    simp only [code, references, referencesAll] at atMost
    have inner := flatten_code_redirect clear temp body inScope.2
      (by simpa [binders] using fresh) (by omega)
    simp only [redirect, code, flatten_block, flattenAll, substituteAll_append,
      substituteAll_flatten test, inner]
    simp [flatten, substituteAll, substitute]
  | onResult w matched failed, _, inScope, fresh, atMost => by
    have other := ne_of_not_temp temp inScope.1
    simp only [binders, List.mem_append, not_or] at fresh
    simp only [code, references, referencesAll] at atMost
    have first := flatten_code_redirect clear temp matched inScope.2.1 fresh.1 (by omega)
    have second := flatten_code_redirect clear temp failed inScope.2.2 fresh.2 (by omega)
    simp only [redirect, code, flatten_block, flattenAll, substituteAll_append, first, second]
    simp [flatten, substituteAll, substitute, other]
  | accept rule stop move, _, _, _, atMost => by
    have counts := references_accept clear temp rule stop move
    rw [redirect, substituteAll_flatten (counts.2 (by omega))]
  | fail owner w, live, inScope, fresh, _ => by
    have plain : (fail owner w).Scoped T [] := inScope
    rw [redirect, substituteAll_flatten (references_eq_zero clear temp _ plain (by simp) fresh)]
  | loop body, live, inScope, fresh, _ => by
    have plain : (loop body).Scoped T [] := inScope
    rw [redirect, substituteAll_flatten (references_eq_zero clear temp _ plain (by simp) fresh)]
  | dispatch stages arms otherwise, live, inScope, fresh, _ => by
    have plain : (dispatch stages arms otherwise).Scoped T [] := inScope
    rw [redirect, substituteAll_flatten (references_eq_zero clear temp _ plain (by simp) fresh)]
theorem flattenAll_codes_redirectAll (clear : frame.Clear T) (temp : T v) :
    (items : List Stmt) → {live : List Nat} → ScopedAll T live items → v ∉ bindersAll items →
      referencesAll v (codes frame items) ≤ 1 →
        flattenAll (codes frame (redirectAll v r items)) =
          substituteAll v (Place.ofResult r).code (flattenAll (codes frame items))
  | [], _, _, _, _ => by simp [redirectAll, codes, flattenAll, substituteAll]
  | item :: rest, live, inScope, fresh, atMost => by
    simp only [bindersAll, List.mem_append, not_or] at fresh
    rw [codes, referencesAll] at atMost
    rw [ScopedAll] at inScope
    cases bind : item.binding? with
    | none =>
      rw [bind] at inScope
      rw [redirectAll, codes, codes, flattenAll, flattenAll, substituteAll_append,
        flatten_code_redirect clear temp item inScope.1 fresh.1 (by omega),
        flattenAll_codes_redirectAll clear temp rest inScope.2 fresh.2 (by omega)]
    | some binding =>
      obtain ⟨w, q⟩ := binding
      rw [bind] at inScope
      obtain rfl := eq_assign_of_binding? bind
      rw [redirectAll, codes, codes, flattenAll, flattenAll, substituteAll_append,
        flattenAll_codes_redirectAll clear temp rest inScope.2.2 fresh.2 (by omega)]
      simp [redirect, Value.redirect, code, Value.code, flatten, substituteAll, substitute,
        ne_of_not_temp temp inScope.2.1]
end

mutual
/-- A temporary that is redirected needs not be live any more. -/
theorem Scoped.redirect (clear : frame.Clear T) (temp : T v) (plain : ¬ T r) : (stmt : Stmt) →
    {live less : List Nat} → stmt.Scoped T live → references v (stmt.code frame) ≤ 1 →
      (∀ w ∈ live, w ≠ v → w ∈ less) → (stmt.redirect v r).Scoped T less
  | declare _, _, _, _, _, _ | leave, _, _, _, _, _ => trivial
  | assign w value retained, _, _, inScope, _, others =>
    ⟨inScope.1, inScope.2.1, Value.Scoped.redirect plain inScope.2.2 others⟩
  | block items, _, _, inScope, atMost, others =>
    ScopedAll.redirectAll clear temp plain items inScope
      (by simpa [code, references] using atMost) others
  | guarded cond body, _, _, inScope, atMost, others => by
    simp only [code, references, referencesAll] at atMost
    exact ⟨inScope.1, Scoped.redirect clear temp plain body inScope.2 (by omega) others⟩
  | onResult w matched failed, _, _, inScope, atMost, others => by
    simp only [code, references, referencesAll] at atMost
    exact ⟨inScope.1, Scoped.redirect clear temp plain matched inScope.2.1 (by omega) others,
      Scoped.redirect clear temp plain failed inScope.2.2 (by omega) others⟩
  | accept rule stop move, _, _, inScope, atMost, others => by
    have counts := references_accept clear temp rule stop move
    cases stop with
    | ofResult => exact inScope
    | var w =>
      have other : w ≠ v := by
        rintro rfl
        simp only [Place.code, references, if_true] at counts
        omega
      exact fun temp => others w (inScope temp) other
  | fail _ _, _, _, inScope, _, _ | loop _, _, _, inScope, _, _
  | dispatch _ _ _, _, _, inScope, _, _ => inScope
theorem ScopedAll.redirectAll (clear : frame.Clear T) (temp : T v) (plain : ¬ T r) :
    (items : List Stmt) → {live less : List Nat} → ScopedAll T live items →
      referencesAll v (codes frame items) ≤ 1 → (∀ w ∈ live, w ≠ v → w ∈ less) →
        ScopedAll T less (redirectAll v r items)
  | [], _, _, _, _, _ => trivial
  | item :: rest, live, less, inScope, atMost, others => by
    rw [codes, referencesAll] at atMost
    rw [ScopedAll] at inScope
    rw [Stmt.redirectAll, ScopedAll, binding?_redirect]
    cases bind : item.binding? with
    | none =>
      rw [bind] at inScope
      exact ⟨Scoped.redirect clear temp plain item inScope.1 (by omega) others,
        ScopedAll.redirectAll clear temp plain rest inScope.2 (by omega) others⟩
    | some binding =>
      obtain ⟨w, q⟩ := binding
      rw [bind] at inScope
      refine ⟨inScope.1, inScope.2.1,
        ScopedAll.redirectAll clear temp plain rest inScope.2.2 (by omega) ?_⟩
      intro u member other
      rcases List.mem_cons.mp member with rfl | among
      · exact List.mem_cons_self
      · exact List.mem_cons_of_mem _ (others u among other)
end

private theorem Value.redirect_of_unreferenced {chunk : Nat} {value : Value}
    (unreferenced : references v (value.code chunk) = 0) : value.redirect v r = value := by
  have place {p : Place} (unreferenced : references v p.code = 0) : p.redirect v r = p := by
    cases p with
    | ofResult => rfl
    | var w =>
      have other : w ≠ v := by
        rintro rfl
        simp [Place.code, references] at unreferenced
      simp [Place.redirect, other]
  cases value with
  | position p | place p | call bound p =>
    simp only [Value.code, references, referencesAll] at unreferenced
    rw [Value.redirect, place (by omega)]
  | probe test p =>
    cases test <;>
    · simp only [Value.code, Probe.code, Probe.code.advance, references, referencesAll]
        at unreferenced
      rw [Value.redirect, place (by omega)]
  | noMatch | chunkEnd | zero | result | asPlace | succ | counted => rfl

mutual
theorem redirect_of_unreferenced : (stmt : Stmt) → references v (stmt.code frame) = 0 →
    stmt.redirect v r = stmt
  | declare _, _ | loop _, _ | leave, _ | accept _ _ _, _ | fail _ _, _ | dispatch _ _ _, _ => rfl
  | assign w value retained, unreferenced => by
    rw [code, references] at unreferenced
    rw [redirect, Value.redirect_of_unreferenced unreferenced]
  | block items, unreferenced => by
    rw [code, references] at unreferenced
    rw [redirect, redirectAll_of_unreferenced items unreferenced]
  | guarded cond body, unreferenced => by
    simp only [code, references, referencesAll] at unreferenced
    rw [redirect, redirect_of_unreferenced body (by omega)]
  | onResult w matched failed, unreferenced => by
    simp only [code, references, referencesAll] at unreferenced
    rw [redirect, redirect_of_unreferenced matched (by omega),
      redirect_of_unreferenced failed (by omega)]
theorem redirectAll_of_unreferenced : (items : List Stmt) →
    referencesAll v (codes frame items) = 0 → redirectAll v r items = items
  | [], _ => rfl
  | item :: rest, unreferenced => by
    rw [codes, referencesAll] at unreferenced
    rw [redirectAll, redirect_of_unreferenced item (by omega),
      redirectAll_of_unreferenced rest (by omega)]
end

end Stmt

/-- The result of a temporary can take the place of its first reference. -/
abbrev Code.Ready (v r : Nat) (items : List Code) : Prop :=
  (substituteFirst? v (Place.ofResult r).code [r] items).isSome = true

namespace Surroundings

open Machine

variable {Ctx : Type} {s : Surroundings Ctx} {rounds : Nat} {m m' : Machine}

private theorem ready_middle (before items behind : List Code)
    (unreferenced : referencesAll v before = 0) (used : 0 < referencesAll v items)
    (ready : Ready v r (before ++ (items ++ behind))) : Ready v r items := by
  have rest := (substituteFirst?_of_behind unreferenced ready).2
  rwa [substituteFirst?_append used, Option.isSome_map] at rest

private theorem ready_guarded {cond : Cond} {body : Stmt}
    (test : references v (cond.code frame.chunk) = 0) (used : references v (body.code frame) = 1)
    (ready : Ready v r (flatten ((Stmt.guarded cond body).code frame))) :
    Ready v r (flatten (body.code frame)) := by
  refine ready_middle (flatten (.literal "if ") ++ flatten (cond.code frame.chunk) ++
    flatten (.literal " \x7b\n")) _ (flatten (.literal "\x7d\n")) ?_ ?_ ?_
  · simp [referencesAll_append, referencesAll_flatten, references, test]
  · rw [referencesAll_flatten, used]
    exact Nat.one_pos
  · simpa [Stmt.code, flattenAll] using ready

private theorem ready_matched {w : Nat} {matched failed : Stmt} (differs : w ≠ v)
    (used : references v (matched.code frame) = 1)
    (ready : Ready v r (flatten ((Stmt.onResult w matched failed).code frame))) :
    Ready v r (flatten (matched.code frame)) := by
  refine ready_middle [.literal "if ", .var w, .literal " >= 0 \x7b\n"] _
    ([Code.literal "\x7d else if ", Code.var w, Code.literal " != -1 \x7b\n"] ++
      flatten (failed.code frame) ++ flatten (.literal "\x7d\n")) ?_ ?_ ?_
  · simp [referencesAll, references, differs]
  · rw [referencesAll_flatten, used]
    exact Nat.one_pos
  · simpa [Stmt.code, flatten, flattenAll] using ready

private theorem ready_failed {w : Nat} {matched failed : Stmt} (differs : w ≠ v)
    (unused : references v (matched.code frame) = 0) (used : references v (failed.code frame) = 1)
    (ready : Ready v r (flatten ((Stmt.onResult w matched failed).code frame))) :
    Ready v r (flatten (failed.code frame)) := by
  refine ready_middle ([Code.literal "if ", Code.var w, Code.literal " >= 0 \x7b\n"] ++
    flatten (matched.code frame) ++ [Code.literal "\x7d else if ", Code.var w,
      Code.literal " != -1 \x7b\n"]) _
    (flatten (.literal "\x7d\n")) ?_ ?_ ?_
  · simp [referencesAll_append, referencesAll_flatten, referencesAll, references, unused, differs]
  · rw [referencesAll_flatten, used]
    exact Nat.one_pos
  · simpa [Stmt.code, flatten, flattenAll] using ready

private theorem value_redirect (temp : T v) (other : r ≠ v) {value : Value}
    (inScope : value.Scoped T live) (agrees : m.Agrees (· ≠ v) m')
    (holds : m.get v = Source.position (m.get r)) :
    s.value m' (value.redirect v r) = s.value m value := by
  have plain {w : Nat} (notTemp : ¬ T w) : m'.get w = m.get w :=
    agrees.get w (ne_of_not_temp temp notTemp)
  have number {p : Place} (inScope : p.Scoped T live) : m'.number (p.redirect v r) = m.number p := by
    cases p with
    | ofResult w => simp only [Place.redirect, Machine.number, plain inScope]
    | var w =>
      rw [Place.redirect]
      split
      · next equal =>
        rw [Machine.number, Machine.number, equal, holds, agrees.get r other]
      · next differs => exact agrees.get w differs
  cases value with
  | noMatch | chunkEnd | zero => rfl
  | position p | place p => simp [Value.redirect, Surroundings.value, number inScope]
  | probe test p => simp [Value.redirect, Surroundings.value, Machine.position, number inScope]
  | call bound p => simp [Value.redirect, Surroundings.value, Machine.position, number inScope.2]
  | result w | asPlace w | succ w => simp [Value.redirect, Surroundings.value, plain inScope]
  | counted counter min pos =>
    simp [Value.redirect, Surroundings.value, plain inScope.1, plain inScope.2]

mutual
/-- Where a temporary holds the result and is referred to once, with no assignment of the result in
front, the redirected statement ends alike. -/
theorem alike_redirect (clear : s.frame.Clear T) (temp : T v) (other : r ≠ v) : (stmt : Stmt) →
    {live : List Nat} → stmt.Scoped T live → v ∉ stmt.binders →
      references v (stmt.code s.frame) = 1 → Ready v r (flatten (stmt.code s.frame)) →
        {m m' : Machine} → m.Agrees (· ≠ v) m' → m.get v = Source.position (m.get r) →
          Alike (· ≠ v) (s.exec rounds stmt m) (s.exec rounds (stmt.redirect v r) m')
  | .declare _, _, _, _, once, _, _, _, _, _ | .leave, _, _, _, once, _, _, _, _, _ => by
    simp [Stmt.code, references] at once
  | .assign w value retained, _, inScope, _, _, _, m, m', agrees, holds => by
    rw [Stmt.redirect, exec, exec, value_redirect temp other inScope.2.2 agrees holds]
    cases s.value m value with
    | error fault => exact ⟨rfl, agrees⟩
    | ok x => exact ⟨rfl, agrees.set_set w x⟩
  | .block items, _, inScope, fresh, once, ready, _, _, agrees, holds =>
    alike_block_redirect clear temp other items inScope (by simpa [Stmt.binders] using fresh)
      (by simpa [Stmt.code, references] using once) (by simpa [Stmt.code] using ready) agrees holds
  | .guarded cond body, _, inScope, fresh, once, ready, m, m', agrees, holds => by
    have test := Cond.references_eq_zero temp clear inScope.1
    simp only [Stmt.code, references, referencesAll, test] at once
    have used : references v (body.code s.frame) = 1 := by omega
    rw [Stmt.redirect, exec, exec, holds_congr agrees (refersTo_ne test)]
    split
    · exact alike_redirect clear temp other body inScope.2 (by simpa [Stmt.binders] using fresh)
        used (ready_guarded test used ready) agrees holds
    · exact ⟨rfl, agrees⟩
  | .onResult w matched failed, _, inScope, fresh, once, ready, m, m', agrees, holds => by
    have differs := ne_of_not_temp temp inScope.1
    simp only [Stmt.binders, List.mem_append, not_or] at fresh
    simp only [Stmt.code, references, referencesAll, differs, if_false] at once
    rw [Stmt.redirect, exec, exec, agrees.get w differs]
    -- The reference is in one of the two statements, and the other one is left as it is.
    by_cases used : references v (matched.code s.frame) = 0
    · have used' : references v (failed.code s.frame) = 1 := by omega
      have inner := ready_failed differs used used' ready
      rw [Stmt.redirect_of_unreferenced matched used]
      split
      · exact mimics_self matched (refersTo_ne used) m m' agrees
      · split
        · exact alike_redirect clear temp other failed inScope.2.2 fresh.2 used' inner agrees holds
        · exact ⟨rfl, agrees⟩
    · have used' : references v (matched.code s.frame) = 1 := by omega
      have unused : references v (failed.code s.frame) = 0 := by omega
      have inner := ready_matched differs used' ready
      rw [Stmt.redirect_of_unreferenced failed unused]
      split
      · exact alike_redirect clear temp other matched inScope.2.1 fresh.1 used' inner agrees holds
      · split
        · exact mimics_self failed (refersTo_ne unused) m m' agrees
        · exact ⟨rfl, agrees⟩
  | .accept rule stop move, _, _, _, once, _, _, _, _, _ => by
    have counts := Stmt.references_accept clear temp rule stop move
    omega
  | .fail owner w, _, inScope, fresh, once, _, _, _, _, _ => by
    have plain : (Stmt.fail owner w).Scoped T [] := inScope
    rw [Stmt.references_eq_zero clear temp _ plain (by simp) fresh] at once
    cases once
  | .loop body, _, inScope, fresh, once, _, _, _, _, _ => by
    have plain : (Stmt.loop body).Scoped T [] := inScope
    rw [Stmt.references_eq_zero clear temp _ plain (by simp) fresh] at once
    cases once
  | .dispatch stages arms otherwise, _, inScope, fresh, once, _, _, _, _, _ => by
    have plain : (Stmt.dispatch stages arms otherwise).Scoped T [] := inScope
    rw [Stmt.references_eq_zero clear temp _ plain (by simp) fresh] at once
    cases once
theorem alike_block_redirect (clear : s.frame.Clear T) (temp : T v) (other : r ≠ v) :
    (items : List Stmt) → {live : List Nat} → Stmt.ScopedAll T live items →
      v ∉ Stmt.bindersAll items → referencesAll v (Stmt.codes s.frame items) = 1 →
        Ready v r (flattenAll (Stmt.codes s.frame items)) →
          {m m' : Machine} → m.Agrees (· ≠ v) m' → m.get v = Source.position (m.get r) →
            Alike (· ≠ v) (s.exec rounds (.block items) m)
              (s.exec rounds (.block (Stmt.redirectAll v r items)) m')
  | [], _, _, _, once, _, _, _, _, _ => by simp [Stmt.codes, referencesAll] at once
  | item :: rest, live, inScope, fresh, once, ready, m, m', agrees, holds => by
    simp only [Stmt.bindersAll, List.mem_append, not_or] at fresh
    rw [Stmt.codes, referencesAll] at once
    rw [Stmt.codes, flattenAll] at ready
    rw [Stmt.redirectAll]
    by_cases here : references v (item.code s.frame) = 0
    · -- The first statement leaves the temporary and the result as they are.
      have passes := substituteFirst?_of_behind ((referencesAll_flatten v _).trans here) ready
      have first : Alike (· ≠ v) (s.exec rounds item m) (s.exec rounds item m') :=
        mimics_self item (refersTo_ne here) m m' agrees
      have result : (s.exec rounds item m).2.get r = m.get r :=
        exec_get_of_unassigned item passes.1 m
      have temporary : (s.exec rounds item m).2.get v = m.get v :=
        exec_get_of_unassigned item (Stmt.unassigned_head clear temp inScope fresh.1) m
      obtain ⟨live', behind⟩ := Stmt.ScopedAll.tail inScope
      rw [Stmt.redirect_of_unreferenced item here]
      rcases runA : s.exec rounds item m with ⟨flow, m₁⟩
      rcases runB : s.exec rounds item m' with ⟨flow', m₂⟩
      rw [runA] at first result temporary
      rw [runB] at first
      obtain rfl : flow = flow' := first.flow
      by_cases goes : flow = .next
      · subst goes
        rw [exec_block_next runA, exec_block_next runB]
        exact alike_block_redirect clear temp other rest behind fresh.2 (by omega) passes.2
          first.machine (by rw [temporary, holds, result])
      · rw [exec_block_end runA goes, exec_block_end runB goes]
        exact first
    · have used : 0 < referencesAll v (flatten (item.code s.frame)) := by
        rw [referencesAll_flatten]
        omega
      have unbound : item.binding? = none := by
        cases bind : item.binding? with
        | none => rfl
        | some binding =>
          obtain rfl := Stmt.eq_assign_of_binding? bind
          rw [Stmt.ScopedAll, bind] at inScope
          simp [Stmt.code, Value.code, references, referencesAll,
            ne_of_not_temp temp inScope.2.1] at here
      have unused : referencesAll v (Stmt.codes s.frame rest) = 0 := by omega
      rw [Stmt.ScopedAll, unbound] at inScope
      rw [Stmt.redirectAll_of_unreferenced rest unused]
      refine alike_block_cons (fun _ kept => kept) ?_
        (mimics_block_self rest fun w out => Decidable.not_not.mp out ▸ unused)
      exact alike_redirect clear temp other item inScope.1 fresh.1 (by omega)
        (ready_middle [] _ _ rfl used ready) agrees holds
end

end Surroundings

end StagedLexer
