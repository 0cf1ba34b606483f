import Mathlib.Logic.Function.Iterate
import StagedLexer.Proofs.StraightCode

/-! Where the optimizer stops. Passes are repeated until one finds nothing to remove; then every
assignment that may be removed is used more than once, or cannot be moved to its only use. Neither
flattening nor removing declarations opens the way for another pass. -/
namespace StagedLexer.Code

/-- One of the variables is assigned in front of the first statement that refers to `v`. -/
def Blocked (v : Nat) (vars : List Nat) (items : List Code) : Prop :=
  ∃ front use behind, items = front ++ use :: behind ∧ referencesAll v front = 0 ∧
    0 < references v use ∧ ∃ item ∈ front, assigns vars item = true

/-- A pass leaves the statement where it is, in front of `rest`. -/
def Stays (rest : List Code) : Code → Prop
  | assign v value false =>
    2 ≤ usesAhead v rest ∨ usesAhead v rest = 1 ∧ Blocked v (reads value) rest
  | _ => True

/-- The statements up to the next assignment of `v`, and that one. -/
def upToAssignment (v : Nat) : List Code → List Code
  | [] => []
  | item :: rest => if assigns [v] item then [item] else item :: upToAssignment v rest

def Settled : List Code → Prop
  | [] => True
  | item :: rest => item.Stays rest ∧ Settled rest

section Pass

variable {v : Nat} {vars : List Nat} {items : List Code}

theorem Blocked.cons {item : Code} (unreferenced : references v item = 0)
    (blocked : Blocked v vars items) : Blocked v vars (item :: items) := by
  obtain ⟨front, use, behind, rfl, free, used, other, member, assigned⟩ := blocked
  refine ⟨item :: front, use, behind, rfl, ?_, used, other, List.mem_cons_of_mem _ member, assigned⟩
  rw [referencesAll, unreferenced, free]

private theorem exists_first_use (used : 0 < referencesAll v items) :
    ∃ front use behind, items = front ++ use :: behind ∧ referencesAll v front = 0 ∧
      0 < references v use := by
  induction items with
  | nil => simp [referencesAll] at used
  | cons item rest ih =>
    by_cases here : 0 < references v item
    · exact ⟨[], item, rest, rfl, rfl, here⟩
    · rw [referencesAll] at used
      obtain ⟨front, use, behind, rfl, free, first⟩ := ih (by omega)
      refine ⟨item :: front, use, behind, rfl, ?_, first⟩
      rw [referencesAll, free]
      omega

theorem blocked_of_substituteFirst? {value : Code} (used : 0 < referencesAll v items)
    (stuck : substituteFirst? v value vars items = none) : Blocked v vars items := by
  induction items with
  | nil => simp [referencesAll] at used
  | cons item rest ih =>
    rw [substituteFirst?] at stuck
    split at stuck
    · cases stuck
    next unreferenced =>
    have free : references v item = 0 := by omega
    have later : 0 < referencesAll v rest := by
      rw [referencesAll] at used
      omega
    split at stuck
    · next assigned =>
      obtain ⟨front, use, behind, rfl, before, first⟩ := exists_first_use later
      refine ⟨item :: front, use, behind, rfl, ?_, first, item, List.mem_cons_self, assigned⟩
      rw [referencesAll, free, before]
    · exact (ih later (Option.map_eq_none_iff.mp stuck)).cons free

theorem Blocked.substituteFirst? (value : Code) (blocked : Blocked v vars items) :
    substituteFirst? v value vars items = none := by
  obtain ⟨front, use, behind, rfl, free, -, other, member, assigned⟩ := blocked
  by_contra found
  have clear := (substituteFirst?_of_behind free (Option.isSome_iff_ne_none.mpr found)).1
  rw [List.any_eq_false] at clear
  exact clear other member assigned

theorem settled_of_no_notes (quiet : (pass items).2 = []) :
    passed items = items ∧ Settled items := by
  unfold passed
  fun_induction pass items with
  | case1 => exact ⟨rfl, trivial⟩
  | case2 | case3 => simp at quiet
  | case4 v value rest rest' notes equal once stuck ih =>
    obtain rfl : notes = [] := quiet
    obtain ⟨same, settled⟩ := ih (by rw [equal])
    obtain rfl : rest' = rest := by rw [← same, equal]
    have used : 0 < referencesAll v rest' := by
      by_contra unused
      rw [usesAhead_eq_zero (by omega)] at once
      cases once
    exact ⟨rfl, .inr ⟨once, blocked_of_substituteFirst? used stuck⟩, settled⟩
  | case5 v value rest rest' notes equal used several ih =>
    obtain rfl : notes = [] := quiet
    obtain ⟨same, settled⟩ := ih (by rw [equal])
    obtain rfl : rest' = rest := by rw [← same, equal]
    exact ⟨rfl, .inl (Nat.one_lt_iff_ne_zero_and_ne_one.mpr ⟨used, several⟩), settled⟩
  | case6 item rest plain rest' notes equal ih =>
    obtain rfl : notes = [] := quiet
    obtain ⟨same, settled⟩ := ih (by rw [equal])
    obtain rfl : rest' = rest := by rw [← same, equal]
    refine ⟨rfl, ?_, settled⟩
    unfold Stays
    split
    · exact (plain _ _ rfl).elim
    · trivial

theorem Settled.pass_eq (settled : Settled items) : pass items = (items, []) := by
  fun_induction pass items with
  | case1 => rfl
  | case2 v value rest rest' notes equal unused ih =>
    obtain ⟨rfl, rfl⟩ := Prod.mk.inj (equal.symm.trans (ih settled.2))
    rcases settled.1 with several | ⟨once, -⟩ <;> omega
  | case3 v value rest rest' notes equal once out found ih =>
    obtain ⟨rfl, rfl⟩ := Prod.mk.inj (equal.symm.trans (ih settled.2))
    rcases settled.1 with several | ⟨-, blocked⟩
    · omega
    · rw [blocked.substituteFirst?] at found
      cases found
  | case4 v value rest rest' notes equal once stuck ih =>
    obtain ⟨rfl, rfl⟩ := Prod.mk.inj (equal.symm.trans (ih settled.2))
    rfl
  | case5 v value rest rest' notes equal used several ih =>
    obtain ⟨rfl, rfl⟩ := Prod.mk.inj (equal.symm.trans (ih settled.2))
    rfl
  | case6 item rest plain rest' notes equal ih =>
    obtain ⟨rfl, rfl⟩ := Prod.mk.inj (equal.symm.trans (ih settled.2))
    rfl

theorem settle_of_quiet (quiet : (pass items).2 = []) (passes : Nat) :
    settle items passes = (items, [], passes + 1) := by
  have same : (pass items).1 = items := (settled_of_no_notes quiet).1
  rw [settle]
  simp [quiet, same]

theorem settle_of_notes (noted : (pass items).2 ≠ []) (passes : Nat) :
    settle items passes = ((settle (passed items) (passes + 1)).1,
      (pass items).2 ++ (settle (passed items) (passes + 1)).2.1,
      (settle (passed items) (passes + 1)).2.2) := by
  rw [settle]
  simp [noted, passed]

/-- The loop makes `n` passes that remove something and one that does not. -/
theorem settle_eq_iterate (items : List Code) (passes : Nat) :
    ∃ n ≤ items.length, (settle items passes).1 = passed^[n] items ∧
      (settle items passes).2.2 = passes + n + 1 ∧
      (∀ k < n, (pass (passed^[k] items)).2 ≠ []) ∧
      pass (passed^[n] items) = (passed^[n] items, []) := by
  induction items, passes using settle.induct with
  | case1 items passes items' notes equal none =>
    have quiet : (pass items).2 = [] := by
      rw [equal]
      exact List.isEmpty_iff.mp none
    rw [settle_of_quiet quiet]
    exact ⟨0, Nat.zero_le _, rfl, rfl, by simp, (settled_of_no_notes quiet).2.pass_eq⟩
  | case2 items passes items' notes equal some shorter items'' more passes' rest ih =>
    have noted : (pass items).2 ≠ [] := by
      rw [equal]
      exact fun none => some (List.isEmpty_iff.mpr none)
    obtain rfl : passed items = items' := by rw [passed, equal]
    obtain ⟨n, few, result, count, before, last⟩ := ih
    rw [settle_of_notes noted]
    refine ⟨n + 1, by omega, result, count.trans (by omega), ?_, last⟩
    intro k less
    cases k with
    | zero => exact noted
    | succ k => exact before k (by omega)

end Pass

section Strip

variable {v : Nat} {vars : List Nat} {item : Code} {items : List Code}

theorem strip_assign (w : Nat) (value : Code) (retained : Bool) :
    strip vars (assign w value retained) = [assign w value retained] := by
  simp [strip, isNeeded, flatten]

theorem referencesAll_strip : referencesAll v (strip vars item) = references v item := by
  unfold strip
  split
  · exact referencesAll_flatten v item
  · next unneeded =>
    cases item with
    | declare w => rfl
    | literal | var | block | define | assign => simp [isNeeded] at unneeded

theorem isNeeded_of_isValue (plain : item.isValue = true) : item.isNeeded vars = true := by
  cases item with
  | declare => cases plain
  | literal | var | block | define | assign => rfl

theorem assigns_of_isValue (plain : item.isValue = true) : assigns vars item = false := by
  cases item with
  | assign => cases plain
  | literal | var | block | declare | define => rfl

/-- A part of a statement is the statement itself or part of a value that stands alone. -/
theorem of_mem_strip (whole : item.isItem = true) {part : Code} (member : part ∈ strip vars item) :
    part.isNeeded vars = true ∧ (part = item ∨ part.isValue = true) := by
  unfold strip at member
  split at member
  · next needed =>
    cases item with
    | literal | var | declare | define | assign =>
      obtain rfl := List.mem_singleton.mp (by simpa [flatten] using member)
      exact ⟨needed, .inl rfl⟩
    | block items =>
      have plain := isValue_of_mem_flatten whole member
      exact ⟨isNeeded_of_isValue plain, .inr plain⟩
  · cases member

theorem referencesAll_flatMap_strip :
    referencesAll v (items.flatMap (strip vars)) = referencesAll v items := by
  induction items with
  | nil => rfl
  | cons item rest ih =>
    rw [List.flatMap_cons, referencesAll_append, referencesAll_strip, ih, referencesAll]

theorem usesAhead_append_unassigned {front behind : List Code}
    (unassigned : front.any (assigns [v]) = false) :
    usesAhead v (front ++ behind) = referencesAll v front + usesAhead v behind := by
  induction front with
  | nil => simp [referencesAll]
  | cons item rest ih =>
    rw [List.any_cons, Bool.or_eq_false_iff] at unassigned
    rw [List.cons_append, usesAhead_cons, unassigned.1, ih unassigned.2, referencesAll,
      Nat.add_assoc]
    rfl

theorem usesAhead_flatMap_strip (whole : ∀ item ∈ items, item.isItem = true) :
    usesAhead v (items.flatMap (strip vars)) = usesAhead v items := by
  induction items with
  | nil => rfl
  | cons item rest ih =>
    rw [List.forall_mem_cons] at whole
    rw [List.flatMap_cons]
    cases assigned : assigns [v] item with
    | true =>
      cases item with
      | assign w value retained =>
        have same : w = v := by simpa [assigns] using assigned
        simp [strip_assign, usesAhead, same]
      | literal | var | block | declare | define => cases assigned
    | false =>
      have parts : (strip vars item).any (assigns [v]) = false := by
        rw [List.any_eq_false]
        intro part member
        rcases (of_mem_strip whole.1 member).2 with rfl | plain
        · simp [assigned]
        · simp [assigns_of_isValue plain]
      rw [usesAhead_append_unassigned parts, referencesAll_strip, ih whole.2, usesAhead_cons,
        assigned]
      rfl

theorem Blocked.flatMap_strip {within : List Nat} (blocked : Blocked v vars items) :
    Blocked v vars (items.flatMap (strip within)) := by
  obtain ⟨front, use, behind, rfl, free, used, other, member, assigned⟩ := blocked
  have inside : 0 < referencesAll v (strip within use) := by rwa [referencesAll_strip]
  obtain ⟨before, first, after, parts, unreferenced, here⟩ := exists_first_use inside
  refine ⟨front.flatMap (strip within) ++ before, first, after ++ behind.flatMap (strip within),
    ?_, ?_, here, other, ?_, assigned⟩
  · simp [parts]
  · rw [referencesAll_append, referencesAll_flatMap_strip, free, unreferenced]
  · apply List.mem_append_left
    apply List.mem_flatMap.mpr
    refine ⟨other, member, ?_⟩
    cases other with
    | assign w value retained => simp [strip_assign]
    | literal | var | block | declare | define => cases assigned

theorem settled_append {front behind : List Code} (plain : ∀ item ∈ front, item.isPassing = false)
    (settled : Settled behind) : Settled (front ++ behind) := by
  induction front with
  | nil => exact settled
  | cons item rest ih =>
    rw [List.forall_mem_cons] at plain
    refine ⟨?_, ih plain.2⟩
    unfold Stays
    split
    · cases plain.1
    · trivial

theorem Settled.flatMap_strip (whole : ∀ item ∈ items, item.isItem = true)
    (settled : Settled items) : Settled (items.flatMap (strip vars)) := by
  induction items with
  | nil => trivial
  | cons item rest ih =>
    rw [List.forall_mem_cons] at whole
    have tail := ih whole.2 settled.2
    rw [List.flatMap_cons]
    cases passing : item.isPassing with
    | true =>
      obtain ⟨v, value, rfl⟩ := eq_assign_of_isPassing passing
      rw [strip_assign, List.singleton_append]
      refine ⟨?_, tail⟩
      rcases settled.1 with several | ⟨once, blocked⟩
      · left
        rwa [usesAhead_flatMap_strip whole.2]
      · right
        rw [usesAhead_flatMap_strip whole.2]
        exact ⟨once, blocked.flatMap_strip⟩
    | false =>
      refine settled_append (fun part member => ?_) tail
      rcases (of_mem_strip whole.1 member).2 with rfl | plain
      · exact passing
      · cases part with
        | assign => cases plain
        | literal | var | block | declare | define => rfl

private theorem used_flatten {code : Code} (plain : code.isValue = true) :
    used (flatten code) = reads code := by
  induction code with
  | literal | var => simp [flatten, used, reads]
  | declare | define | assign => cases plain
  | block items ih =>
    rw [flatten_block, reads]
    induction items with
    | nil => rfl
    | cons item rest again =>
      rw [isValue, areValues, Bool.and_eq_true] at plain
      rw [flattenAll, used_append, readsAll, ih item List.mem_cons_self plain.1,
        again (fun part member => ih part (List.mem_cons_of_mem _ member)) plain.2]

theorem used_flatMap_strip (whole : ∀ item ∈ items, item.isItem = true) :
    used (items.flatMap (strip vars)) = used items := by
  induction items with
  | nil => rfl
  | cons item rest ih =>
    rw [List.forall_mem_cons] at whole
    have here : used (strip vars item) = used [item] := by
      cases item with
      | declare w => unfold strip; split <;> rfl
      | literal | var | define | assign => rfl
      | block parts =>
        simp only [strip, isNeeded, if_true]
        rw [used_flatten whole.1]
        simp [used]
    rw [List.flatMap_cons, used_append, here, ih whole.2, ← used_append]
    rfl

theorem dropUnused_flatMap_strip (whole : ∀ item ∈ items, item.isItem = true) :
    dropUnused (items.flatMap (strip (used items))) = items.flatMap (strip (used items)) := by
  rw [dropUnused_eq, used_flatMap_strip whole]
  apply List.filter_eq_self.mpr
  intro part member
  obtain ⟨item, among, inside⟩ := List.mem_flatMap.mp member
  exact (of_mem_strip (whole item among) inside).1

end Strip

theorem usesAhead_eq (v : Nat) (items : List Code) :
    usesAhead v items = referencesAll v (upToAssignment v items) := by
  induction items with
  | nil => rfl
  | cons item rest ih =>
    rw [upToAssignment, usesAhead_cons]
    split
    · rw [referencesAll, referencesAll]
    · rw [referencesAll, ih]

theorem Settled.stays {front rest : List Code} {item : Code}
    (settled : Settled (front ++ item :: rest)) : item.Stays rest := by
  induction front with
  | nil => exact settled.1
  | cons _ _ ih => exact ih settled.2

theorem flatten_ne_block {code item : Code} (member : item ∈ flatten code) (parts : List Code) :
    item ≠ block parts := by
  induction code with
  | literal | var | declare | define | assign =>
    obtain rfl := List.mem_singleton.mp (by simpa [flatten] using member)
    simp
  | block items ih =>
    rw [flatten_block, flattenAll_eq_flatMap] at member
    obtain ⟨part, among, inside⟩ := List.mem_flatMap.mp member
    exact ih part among inside

/-- A stream that passes leave alone and that declares no unused variable is its own result. -/
theorem optimize_of_settled {items : List Code} (flat : flattenAll items = items)
    (settled : Settled items) (needed : dropUnused items = items) :
    optimize (block items) = block items := by
  have quiet : (pass items).2 = [] := by rw [settled.pass_eq]
  simp only [optimize, optimizeNoted, flatten_block, flat, settle_of_quiet quiet, needed]

theorem settled_settle (items : List Code) (passes : Nat) : Settled (settle items passes).1 := by
  obtain ⟨n, -, result, -, -, last⟩ := settle_eq_iterate items passes
  rw [result]
  exact (settled_of_no_notes (congrArg Prod.snd last)).2

/-- Passes come to an end for every fragment. For a fragment whose values are plain, what they leave
is flat and optimal: a second run changes nothing, and an assignment that may be removed is referred
to twice up to the next one, or once behind an assignment of a variable that its value reads. -/
theorem optimizer_reaches_fixed_point (code : Code) :
    (∃ n ≤ (flatten code).length,
      (settle (flatten code) 0).1 = passed^[n] (flatten code) ∧
      (settle (flatten code) 0).2.2 = n + 1 ∧
      (∀ k < n, (pass (passed^[k] (flatten code))).2 ≠ []) ∧
      pass (passed^[n] (flatten code)) = (passed^[n] (flatten code), [])) ∧
    (code.isStraight = true → optimize (optimize code) = optimize code ∧
      ∃ items, optimize code = block items ∧ (∀ item ∈ items, ∀ parts, item ≠ block parts) ∧
        ∀ front v value rest, items = front ++ assign v value false :: rest →
          2 ≤ referencesAll v (upToAssignment v rest) ∨
          referencesAll v (upToAssignment v rest) = 1 ∧ Blocked v (reads value) rest) := by
  refine ⟨by simpa using settle_eq_iterate (flatten code) 0, fun straight => ?_⟩
  have whole := isItem_settle straight 0
  have settled := settled_settle (flatten code) 0
  rw [optimize_eq code]
  generalize (settle (flatten code) 0).1 = items at whole settled
  have result : Settled (items.flatMap (strip (used items))) := settled.flatMap_strip whole
  refine ⟨optimize_of_settled ?_ result (dropUnused_flatMap_strip whole), _, rfl, ?_, ?_⟩
  · rw [← flattenAll_dropUnused, flattenAll_flattenAll]
  · intro item member
    rw [← flattenAll_dropUnused, ← flatten_block] at member
    exact flatten_ne_block member
  · intro front v value rest parts
    rw [parts] at result
    rw [← usesAhead_eq]
    exact result.stays

theorem optimizer_settles_on_two_uses :
    let code := block [assign 0 (literal "1") true, declare 1,
      block [assign 1 (block [var 0, literal " + 1"]) false, assign 2 (var 1) false],
      block [literal "g(", var 2, literal ", ", var 1, literal ")"]]
    code.isStraight = true ∧ optimize (optimize code) = optimize code := by
  intro code
  have straight : code.isStraight = true := rfl
  exact ⟨straight, ((optimizer_reaches_fixed_point code).2 straight).1⟩

end StagedLexer.Code
