import StagedLexer.Proofs.StatementPass

/-! The statement after a pass runs as the one before: the two end alike but for the temporaries
that nothing behind refers to. -/
namespace StagedLexer

open Machine

/-- All registers but those of temporaries that are not live. -/
def Kept (T : Nat → Prop) (live : List Nat) (v : Nat) : Prop := ¬ T v ∨ v ∈ live

namespace Surroundings

variable {Ctx : Type} {s : Surroundings Ctx} {rounds : Nat} {T : Nat → Prop} {live : List Nat}
  {v r : Nat}

private theorem Mimics.extend {a b : Stmt} (mimics : s.Mimics rounds (Kept T []) a b)
    (stays : ∀ v ∈ live, T v → (Code.flatten (a.code s.frame)).any (Code.assigns [v]) = false)
    (stays' : ∀ v ∈ live, T v → (Code.flatten (b.code s.frame)).any (Code.assigns [v]) = false) :
    s.Mimics rounds (Kept T live) a b := by
  intro m m' agrees
  have alike := mimics m m' (agrees.mono fun v kept => kept.imp_right fun none => by cases none)
  refine ⟨alike.flow, ⟨fun v kept => ?_, alike.machine.stage, alike.machine.pending,
    alike.machine.events⟩⟩
  by_cases temp : T v
  · have listed := kept.resolve_left (not_not_intro temp)
    rw [exec_get_of_unassigned a (stays v listed temp) m,
      exec_get_of_unassigned b (stays' v listed temp) m', agrees.get v kept]
  · exact alike.machine.get v (.inl temp)

private theorem refersTo_of_scoped (clear : s.frame.Clear T) {stmt : Stmt}
    (inScope : stmt.Scoped T live) (bare : stmt.binders = []) :
    RefersTo (Kept T live) (stmt.code s.frame) := by
  intro v out
  unfold Kept at out
  have temp : T v := Classical.byContradiction fun plain => out (.inl plain)
  exact Stmt.references_eq_zero clear temp stmt inScope (fun listed => out (.inr listed))
    (by simp [bare])

private theorem Alike.forget {a b c : Flow × Machine} (temp : T v) (dead : v ∉ live)
    (first : Alike (Kept T (v :: live)) a b) (second : Alike (· ≠ v) b c) :
    Alike (Kept T live) a c := by
  have less (w : Nat) (kept : Kept T live w) : Kept T (v :: live) w ∧ w ≠ v := by
    refine ⟨kept.imp_right (List.mem_cons_of_mem v), ?_⟩
    rintro rfl
    exact kept.elim (fun plain => plain temp) dead
  exact (first.mono fun w kept => (less w kept).1).trans (second.mono fun w kept => (less w kept).2)

/-- The three ways in which a pass treats an assignment of a temporary end alike. -/
private theorem mimics_shorten (clear : s.frame.Clear T) (temp : T v) (plain : ¬ T r)
    (dead : v ∉ live) {rest rest' : List Stmt}
    (inScope : Stmt.ScopedAll T (v :: live) rest') (fresh : v ∉ Stmt.bindersAll rest')
    (behind : s.Mimics rounds (Kept T (v :: live)) (.block rest) (.block rest')) :
    s.Mimics rounds (Kept T live) (.block (.assign v (.asPlace r) false :: rest))
      (.block (Stmt.shorten s.frame v r rest')) := by
  intro m m' agrees
  have same : m'.get r = m.get r := agrees.get r (.inl plain)
  let stop : Int := Source.position (m.get r)
  have bound : (m.set v stop).Agrees (Kept T (v :: live)) (m'.set v stop) := by
    refine ⟨fun w kept => ?_, agrees.stage, agrees.pending, agrees.events⟩
    rw [get_set, get_set]
    split
    · rfl
    · next other =>
      refine agrees.get w (kept.imp_right fun member => ?_)
      exact (List.mem_cons.mp member).resolve_left (Ne.symm other)
  have ran := behind _ _ bound
  have unset : (m'.set v stop).Agrees (· ≠ v) m' :=
    ((Agrees.refl m').set (by simp) _).symm
  rw [exec_block_next (exec_assign (x := stop) (by simp [value, stop]))]
  -- The assignment is dropped where nothing reads the variable, moved into its one reading, or
  -- kept.
  rcases Stmt.shorten_cases (r := r) clear temp inScope fresh with ⟨none, equal⟩ |
    ⟨once, ready, equal⟩ | ⟨equal, -, -⟩
  · rw [equal]
    exact ran.forget temp dead
      (mimics_block_self rest' (fun w out => Decidable.not_not.mp out ▸ none) _ _ unset)
  · rw [equal]
    have other := ne_of_not_temp temp plain
    exact ran.forget temp dead (alike_block_redirect clear temp other rest' inScope fresh once ready
      unset (by simp [Ne.symm other, same, stop]))
  · rw [equal, exec_block_next (exec_assign (x := stop) (by simp [value, same, stop]))]
    exact ran.mono fun w kept => kept.imp_right (List.mem_cons_of_mem v)

mutual
/-- The statement after a pass mimics the one before. -/
theorem mimics_pass (clear : s.frame.Clear T) : (stmt : Stmt) → {live : List Nat} →
    stmt.Scoped T live → stmt.binders.Nodup → (∀ v ∈ stmt.binders, v ∉ live) →
      s.Mimics rounds (Kept T live) stmt (stmt.pass s.frame)
  | .declare _, _, inScope, _, _ | .leave, _, inScope, _, _ | .accept _ _ _, _, inScope, _, _
  | .fail _ _, _, inScope, _, _ => mimics_self _ (refersTo_of_scoped clear inScope rfl)
  | .assign v value retained, _, inScope, _, _ =>
    mimics_self _ (refersTo_of_scoped clear inScope (by simp [Stmt.binders, inScope.1]))
  | .block items, _, inScope, distinct, apart =>
    mimics_passAll clear items inScope distinct apart
  | .guarded cond body, live, inScope, distinct, apart => by
    refine mimics_guarded (fun m m' agrees => holds_congr agrees fun v out => ?_)
      (mimics_pass clear body inScope.2 distinct apart)
    have temp : T v := Classical.byContradiction fun plain => out (.inl plain)
    exact Cond.references_eq_zero temp clear inScope.1
  | .onResult r matched failed, live, inScope, distinct, apart => by
    rw [Stmt.binders, List.nodup_append] at distinct
    simp only [Stmt.binders, List.mem_append] at apart
    exact mimics_onResult (.inl inScope.1)
      (mimics_pass clear matched inScope.2.1 distinct.1 fun v member => apart v (.inl member))
      (mimics_pass clear failed inScope.2.2 distinct.2.1 fun v member => apart v (.inr member))
  | .loop body, live, inScope, distinct, apart => by
    have alone : (Stmt.loop body).Scoped T [] := inScope
    have after := Stmt.Scoped.pass clear (.loop body) alone distinct
    refine (mimics_loop (mimics_pass clear body alone distinct (by simp))).extend
      (fun v listed temp => ?_) fun v listed temp => ?_
    · exact Stmt.unassigned clear temp _ alone fun member => apart v member listed
    · exact Stmt.unassigned clear temp _ after fun member =>
        apart v ((Stmt.binders_pass s.frame (.loop body)).subset member) listed
  | .dispatch stages arms otherwise, live, inScope, distinct, apart => by
    have alone : (Stmt.dispatch stages arms otherwise).Scoped T [] := inScope
    have after := Stmt.Scoped.pass clear (.dispatch stages arms otherwise) alone distinct
    have parts := distinct
    rw [Stmt.binders, List.nodup_append] at parts
    refine (mimics_passEach clear arms stages inScope.1 parts.1
      (mimics_pass clear otherwise inScope.2 parts.2.1 (by simp))).extend
      (fun v listed temp => ?_) fun v listed temp => ?_
    · exact Stmt.unassigned clear temp _ alone fun member => apart v member listed
    · exact Stmt.unassigned clear temp _ after fun member =>
        apart v ((Stmt.binders_pass s.frame (.dispatch stages arms otherwise)).subset member) listed
theorem mimics_passAll (clear : s.frame.Clear T) : (items : List Stmt) → {live : List Nat} →
    Stmt.ScopedAll T live items → (Stmt.bindersAll items).Nodup →
      (∀ v ∈ Stmt.bindersAll items, v ∉ live) →
        s.Mimics rounds (Kept T live) (.block items) (.block (Stmt.passAll s.frame items))
  | [], _, _, _, _ => mimics_nil
  | item :: rest, live, inScope, distinct, apart => by
    rw [Stmt.ScopedAll] at inScope
    rw [Stmt.passAll]
    cases bind : item.binding? with
    | none =>
      rw [bind] at inScope
      rw [Stmt.bindersAll, List.nodup_append] at distinct
      simp only [Stmt.bindersAll, List.mem_append] at apart
      exact mimics_cons
        (mimics_pass clear item inScope.1 distinct.1 fun v member => apart v (.inl member))
        (mimics_passAll clear rest inScope.2 distinct.2.1 fun v member => apart v (.inr member))
    | some binding =>
      obtain ⟨v, r⟩ := binding
      rw [bind] at inScope
      obtain rfl := Stmt.eq_assign_of_binding? bind
      obtain ⟨temp, plain, inScope⟩ := inScope
      obtain ⟨fresh, distinct⟩ := Stmt.nodup_tail distinct
      simp only [Stmt.bindersAll, Stmt.binders, List.mem_append] at apart
      refine mimics_shorten clear temp plain (apart v (.inl (by simp)))
        (Stmt.ScopedAll.passAll clear rest inScope distinct)
        (fun member => fresh ((Stmt.bindersAll_passAll s.frame rest).subset member))
        (mimics_passAll clear rest inScope distinct fun w member => ?_)
      rw [List.mem_cons, not_or]
      exact ⟨fun equal => fresh (equal ▸ member), apart w (.inr member)⟩
theorem mimics_passEach (clear : s.frame.Clear T) {otherwise otherwise' : Stmt} :
    (arms : List Stmt) → (stages : List String) → Stmt.ScopedEach T arms →
      (Stmt.bindersAll arms).Nodup → s.Mimics rounds (Kept T []) otherwise otherwise' →
        s.Mimics rounds (Kept T []) (.dispatch stages arms otherwise)
          (.dispatch stages (Stmt.passEach s.frame arms) otherwise')
  | [], _, _, _, last => fun m m' agrees => by
    rw [Stmt.passEach, exec_dispatch_nil, exec_dispatch_nil]
    exact last m m' agrees
  | _ :: _, [], _, _, last => fun m m' agrees => by
    rw [exec_dispatch_unlisted, exec_dispatch_unlisted]
    exact last m m' agrees
  | arm :: rest, stage :: stages, inScope, distinct, last => by
    rw [Stmt.bindersAll, List.nodup_append] at distinct
    exact mimics_dispatch_cons (mimics_pass clear arm inScope.1 distinct.1 (by simp))
      (mimics_passEach clear rest stages inScope.2 distinct.2.1 last)
end

end Surroundings

end StagedLexer
