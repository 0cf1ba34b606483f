import StagedLexer.Proofs.SymbolicReading

/-! What straight-line code emits stays the same in the optimizer. A removed assignment gives a value
to a variable that nothing ahead reads, and a moved value meets the same values of its variables
where it is used. Both rest on comparing readings that agree on the variables used ahead. -/
namespace StagedLexer.Code

def declared : Code → List Nat
  | declare v | define v _ => [v]
  | _ => []

def targets : Code → List Nat
  | define v _ | assign v _ _ => [v]
  | _ => []

def occurring (item : Code) : List Nat := declared item ++ targets item ++ reads item

/-- Every variable is declared at most once, and before all that has to do with it. -/
def DeclaredFirst (items : List Code) : Prop :=
  items.Pairwise fun front behind => ∀ v ∈ occurring front, v ∉ declared behind

instance (items : List Code) : Decidable (DeclaredFirst items) :=
  inferInstanceAs (Decidable (items.Pairwise _))

/-- Two statements that emit the same and give the same values, up to parentheses. -/
structure Alike (known : List Symbol → Prop) (env : Env) (item : Code) (env' : Env)
    (item' : Code) : Prop where
  emits : Wraps known (emitted env item) (emitted env' item')
  gives : ∀ after ∈ bound env' item', ∃ before ∈ bound env item, Wraps known before after
  sets : ∀ w ∈ targets item, Wraps known (next env item w) (next env' item' w)

/-- Two streams that emit the same, up to parentheses, where the second one gives no new values. -/
structure Follows (known : List Symbol → Prop) (env : Env) (items : List Code) (env' : Env)
    (items' : List Code) : Prop where
  emits : Wraps known (emission env items) (emission env' items')
  gives : ∀ after ∈ values env' items', ∃ before ∈ values env items, Wraps known before after

section Compare

variable {known known' : List Symbol → Prop} {env env' : Env} {v w : Nat} {item item' : Code}
variable {items items' : List Code}

theorem next_of_not_mem (other : w ∉ targets item) : next env item w = env w := by
  cases item with
  | define | assign =>
    rw [targets, List.mem_singleton] at other
    exact Function.update_of_ne other _ _
  | literal | var | block | declare => rfl

theorem alike_define (w : Nat) {a b : Code} (same : Wraps known (expand env a) (expand env' b)) :
    Alike known env (define w a) env' (define w b) where
  emits := (same.append_right [.done]).append_left [.define w]
  gives := by simp [bound]
  sets := by simpa [targets, next] using same

theorem alike_assign (w : Nat) (retained : Bool) {a b : Code}
    (same : Wraps known (expand env a) (expand env' b)) :
    Alike known env (assign w a retained) env' (assign w b retained) where
  emits := by
    cases retained with
    | false => exact .refl _
    | true => exact (same.append_right [.done]).append_left [.assign w]
  gives := by
    cases retained with
    | false => simpa [bound] using same
    | true => simp [bound]
  sets := by simpa [targets, next] using same

theorem alike_self (item : Code) (each : ∀ w ∈ reads item, Wraps known (env w) (env' w)) :
    Alike known env item env' item := by
  cases item with
  | declare => exact ⟨.refl _, by simp [bound], by simp [targets]⟩
  | define w init => exact alike_define w (wraps_expand init each)
  | assign w value retained => exact alike_assign w retained (wraps_expand value each)
  | literal | var | block => exact ⟨wraps_expand _ each, by simp [bound], by simp [targets]⟩

theorem emitted_of_isValue (env : Env) {value : Code} (plain : value.isValue = true) :
    emitted env value = expand env value ∧ bound env value = [] := by
  cases value with
  | literal | var | block => exact ⟨rfl, rfl⟩
  | declare | define | assign => cases plain

theorem alike_substitute {value : Code} (plain : value.isValue = true)
    (here : Wraps known (env v) (expand env' value))
    (others : ∀ w, w ≠ v → Wraps known (env w) (env' w)) (whole : item.isItem = true) :
    Alike known env item env' (substitute v value item) := by
  cases item with
  | declare => exact ⟨.refl _, by simp [substitute, bound], by simp [targets]⟩
  | define w init => exact alike_define w (wraps_substitute here others init)
  | assign w old retained => exact alike_assign w retained (wraps_substitute here others old)
  | literal | var | block =>
    obtain ⟨emits, gives⟩ := emitted_of_isValue env' (isValue_substitute (v := v) plain _ whole)
    refine ⟨?_, by simp [gives], by simp [targets]⟩
    rw [emits]
    exact wraps_substitute here others _

theorem Alike.cons (alike : Alike known env item env' item')
    (rest : Follows known (next env item) items (next env' item') items') :
    Follows known env (item :: items) env' (item' :: items') where
  emits := alike.emits.append rest.emits
  gives := by
    intro after among
    rcases List.mem_append.mp among with here | later
    · obtain ⟨before, among, same⟩ := alike.gives after here
      exact ⟨before, List.mem_append_left _ among, same⟩
    · obtain ⟨before, among, same⟩ := rest.gives after later
      exact ⟨before, List.mem_append_right _ among, same⟩

theorem Follows.mono (follows : Follows known' env items env' items')
    (given : ∀ value, known' value → known value) : Follows known env items env' items' where
  emits := follows.emits.mono given
  gives := by
    intro after among
    obtain ⟨before, among, same⟩ := follows.gives after among
    exact ⟨before, among, same.mono given⟩

theorem Follows.unemitted (follows : Follows known (next env item) items env' items')
    (nothing : emitted env item = []) : Follows known env (item :: items) env' items' where
  emits := by
    rw [emission, nothing]
    exact follows.emits
  gives := by
    intro after among
    obtain ⟨before, among, same⟩ := follows.gives after among
    exact ⟨before, List.mem_append_right _ among, same⟩

theorem assigns_of_not_mem (other : v ∉ targets item) : assigns [v] item = false := by
  cases item with
  | assign => simpa [targets, assigns, eq_comm] using other
  | literal | var | block | declare | define => rfl

theorem assigns_of_mem_targets {vars : List Nat} (among : w ∈ vars) (target : w ∈ targets item) :
    w ∈ declared item ∨ assigns vars item = true := by
  cases item with
  | define u init => exact .inl target
  | assign u old retained =>
    obtain rfl : w = u := List.mem_singleton.mp target
    exact .inr (by simpa [assigns] using among)
  | literal | var | block | declare => cases target

/-- Nothing but the variables used ahead matters. -/
theorem follows_of_usesAhead
    (each : ∀ w, usesAhead w items ≠ 0 → Wraps known (env w) (env' w)) :
    Follows known env items env' items := by
  induction items generalizing env env' with
  | nil => exact ⟨.refl _, by simp [values]⟩
  | cons item rest ih =>
    have alike : Alike known env item env' item := by
      apply alike_self
      intro w read
      apply each
      have referenced := mt (references_eq_zero_iff w item).mp (not_not_intro read)
      rw [usesAhead_cons]
      omega
    apply alike.cons
    apply ih
    intro w ahead
    by_cases target : w ∈ targets item
    · exact alike.sets w target
    · rw [next_of_not_mem target, next_of_not_mem target]
      apply each
      rw [usesAhead_cons, assigns_of_not_mem target]
      exact Nat.ne_of_gt (Nat.add_pos_right _ (Nat.pos_of_ne_zero ahead))

theorem declared_of_isValue {value : Code} (plain : value.isValue = true) :
    declared value = [] ∧ targets value = [] := by
  cases value with
  | literal | var | block => exact ⟨rfl, rfl⟩
  | declare | define | assign => cases plain

theorem declared_substitute {value : Code} (plain : value.isValue = true)
    (whole : item.isItem = true) :
    declared (substitute v value item) = declared item ∧
      targets (substitute v value item) = targets item := by
  cases item with
  | declare | define | assign => exact ⟨rfl, rfl⟩
  | literal | var | block => exact declared_of_isValue (isValue_substitute plain _ whole)

/-- Up to the only use of `v`, nothing gives a value to it or to a variable of its value. -/
theorem follows_substituteFirst? {value : Code} {out : List Code} (plain : value.isValue = true)
    (whole : ∀ item ∈ items, item.isItem = true)
    (apart : ∀ w, w = v ∨ w ∈ reads value → w ∉ items.flatMap declared)
    (once : usesAhead v items = 1)
    (done : substituteFirst? v value (reads value) items = some out)
    (here : Wraps known (env v) (expand env' value))
    (others : ∀ w, w ≠ v → Wraps known (env w) (env' w)) :
    Follows known env items env' out := by
  induction items generalizing env env' out with
  | nil => cases done
  | cons item rest ih =>
    rw [List.forall_mem_cons] at whole
    have alike : Alike known env item env' (substitute v value item) :=
      alike_substitute plain here others whole.1
    rw [usesAhead_cons] at once
    rw [substituteFirst?] at done
    split at done
    · next referenced =>
      -- The use. Behind it `v` is not used, or the statement has just given it another value.
      obtain rfl := Option.some.inj done
      apply alike.cons
      apply follows_of_usesAhead
      intro w ahead
      by_cases target : w ∈ targets item
      · exact alike.sets w target
      · have kept : w ∉ targets (substitute v value item) := by
          rwa [(declared_substitute plain whole.1).2]
        rw [next_of_not_mem target, next_of_not_mem kept]
        apply others
        rintro rfl
        rw [assigns_of_not_mem target] at once
        simp only [Bool.false_eq_true, if_false] at once
        omega
    split at done
    · cases done
    next unreferenced unassigned =>
    -- In front of the use, the value keeps what it stands for.
    obtain ⟨rest', more, rfl⟩ := Option.map_eq_some_iff.mp done
    have free : references v item = 0 := by omega
    rw [substitute_of_unreferenced free] at alike
    have untouched : ∀ w, w = v ∨ w ∈ reads value → w ∉ targets item := by
      intro w among target
      have old : w ∉ declared item := fun new => apart w among (List.mem_append_left _ new)
      rcases among with rfl | read
      · have given := (assigns_of_mem_targets (List.mem_singleton_self w) target).resolve_left old
        simp [given, free] at once
      · exact unassigned ((assigns_of_mem_targets read target).resolve_left old)
    have later : usesAhead v rest = 1 := by
      rw [free, assigns_of_not_mem (untouched v (.inl rfl))] at once
      simpa using once
    apply alike.cons
    apply ih whole.2 _ later more
    · rw [next_of_not_mem (untouched v (.inl rfl))]
      apply here.trans
      apply wraps_expand
      intro w read
      rw [next_of_not_mem (untouched w (.inr read))]
      exact .refl _
    · intro w other
      by_cases target : w ∈ targets item
      · exact alike.sets w target
      · rw [next_of_not_mem target, next_of_not_mem target]
        exact others w other
    · intro w among
      have whole := apart w among
      rw [List.flatMap_cons, List.mem_append, not_or] at whole
      exact whole.2

end Compare

theorem mem_occurring_substitute {v w : Nat} {value item : Code} (plain : value.isValue = true)
    (whole : item.isItem = true) (occurs : w ∈ occurring (substitute v value item)) :
    w ∈ occurring item ∨ w ∈ reads value := by
  rw [occurring, (declared_substitute plain whole).1, (declared_substitute plain whole).2] at occurs
  rcases List.mem_append.mp occurs with target | read
  · exact .inl (List.mem_append_left _ target)
  · by_contra neither
    rw [not_or] at neither
    have fresh : references w value = 0 := (references_eq_zero_iff w value).mpr neither.2
    have free : references w item = 0 := by
      apply (references_eq_zero_iff w item).mpr
      exact fun among => neither.1 (List.mem_append_right _ among)
    exact (references_eq_zero_iff w _).mp (references_substitute_eq_zero fresh item free) read

theorem declaredFirst_cons {item : Code} {rest : List Code} :
    DeclaredFirst (item :: rest) ↔
      (∀ v ∈ occurring item, v ∉ rest.flatMap declared) ∧ DeclaredFirst rest := by
  rw [DeclaredFirst, List.pairwise_cons]
  simp only [List.mem_flatMap, not_exists, not_and]
  exact and_congr_left' ⟨fun apart v occurs other among => apart other among v occurs,
    fun apart other among v occurs => apart v occurs other among⟩

section Steps

variable {items items' : List Code}

private theorem declaredFirst_substituteFirst? {v : Nat} {value : Code} {vars : List Nat}
    {out : List Code} (plain : value.isValue = true) (whole : ∀ item ∈ items, item.isItem = true)
    (apart : ∀ w ∈ reads value, w ∉ items.flatMap declared) (first : DeclaredFirst items)
    (done : substituteFirst? v value vars items = some out) :
    out.flatMap declared = items.flatMap declared ∧ DeclaredFirst out := by
  induction items generalizing out with
  | nil => cases done
  | cons item rest ih =>
    rw [List.forall_mem_cons] at whole
    rw [declaredFirst_cons] at first
    have behind : ∀ w ∈ reads value, w ∉ rest.flatMap declared := by
      intro w read among
      exact apart w read (List.mem_append_right _ among)
    rw [substituteFirst?] at done
    split at done
    · obtain rfl := Option.some.inj done
      refine ⟨?_, declaredFirst_cons.mpr ⟨?_, first.2⟩⟩
      · rw [List.flatMap_cons, (declared_substitute plain whole.1).1, List.flatMap_cons]
      · intro w occurs
        rcases mem_occurring_substitute plain whole.1 occurs with before | read
        · exact first.1 w before
        · exact behind w read
    split at done
    · cases done
    · obtain ⟨rest', more, rfl⟩ := Option.map_eq_some_iff.mp done
      obtain ⟨same, ordered⟩ := ih whole.2 behind first.2 more
      refine ⟨?_, declaredFirst_cons.mpr ⟨?_, ordered⟩⟩
      · rw [List.flatMap_cons, same, List.flatMap_cons]
      · rw [same]
        exact first.1

theorem reads_inParens (value : Code) : reads (inParens value) = reads value := by
  cases value <;> simp [inParens, reads, readsAll]

theorem Rewrites.declaredFirst (step : Rewrites items items')
    (whole : ∀ item ∈ items, item.isItem = true) (first : DeclaredFirst items) :
    items'.flatMap declared = items.flatMap declared ∧ DeclaredFirst items' := by
  induction step with
  | dead => exact ⟨rfl, (declaredFirst_cons.mp first).2⟩
  | @moved v value rest out once done =>
    rw [List.forall_mem_cons] at whole
    rw [declaredFirst_cons] at first
    apply declaredFirst_substituteFirst? (isValue_inParens whole.1) whole.2 _ first.2 done
    intro w read
    rw [reads_inParens] at read
    exact first.1 w (List.mem_append_right _ read)
  | behind step ih =>
    rw [List.forall_mem_cons] at whole
    rw [declaredFirst_cons] at first ⊢
    obtain ⟨same, ordered⟩ := ih whole.2 first.2
    rw [List.flatMap_cons, List.flatMap_cons, same]
    exact ⟨rfl, first.1, ordered⟩

/-- The second stream emits what the first one emits, up to parentheses around values that the
first one gives to variables. -/
def Refines (items items' : List Code) : Prop :=
  ∀ env, Follows (· ∈ values env items) env items env items'

theorem Refines.refl (items : List Code) : Refines items items :=
  fun _ => follows_of_usesAhead fun _ _ => .refl _

theorem Refines.trans {items'' : List Code} (first : Refines items items')
    (second : Refines items' items'') : Refines items items'' := by
  intro env
  have earlier := first env
  have later := second env
  -- What the middle stream gives to variables is given by the first one, up to parentheses.
  constructor
  · exact earlier.emits.trans (later.emits.bind earlier.gives)
  · intro after among
    obtain ⟨between, among, outer⟩ := later.gives after among
    obtain ⟨before, among, inner⟩ := earlier.gives between among
    exact ⟨before, among, inner.trans (outer.bind earlier.gives)⟩

theorem Rewrites.refines (step : Rewrites items items')
    (whole : ∀ item ∈ items, item.isItem = true) (first : DeclaredFirst items) :
    Refines items items' := by
  induction step with
  | @dead v value rest unused =>
    intro env
    -- No statement behind reads the variable, so what it holds makes no difference.
    have follows : Follows (· ∈ values env (assign v value false :: rest))
        (next env (assign v value false)) rest env rest := by
      apply follows_of_usesAhead
      intro w ahead
      rw [next_of_not_mem]
      · exact .refl _
      · simp only [targets, List.mem_singleton]
        rintro rfl
        exact ahead unused
    exact follows.unemitted rfl
  | @moved v value rest out once done =>
    intro env
    rw [List.forall_mem_cons] at whole
    rw [declaredFirst_cons] at first
    -- The one reading gets the value in parentheses, whose own variables still hold what they held.
    have given : expand env value ∈ values env (assign v value false :: rest) :=
      List.mem_append_left _ List.mem_cons_self
    have follows : Follows (· ∈ values env (assign v value false :: rest))
        (next env (assign v value false)) rest env out := by
      rw [← reads_inParens value] at done
      apply follows_substituteFirst? (isValue_inParens whole.1) whole.2 _ once done
      · rw [next, Function.update_self]
        exact wraps_inParens value given
      · intro w other
        rw [next, Function.update_of_ne other]
        exact .refl _
      · rintro w (rfl | read)
        · exact first.1 w (by simp [occurring, targets])
        · rw [reads_inParens] at read
          exact first.1 w (List.mem_append_right _ read)
    exact follows.unemitted rfl
  | @behind item rest rest' step ih =>
    intro env
    rw [List.forall_mem_cons] at whole
    rw [declaredFirst_cons] at first
    apply (alike_self item fun _ _ => .refl _).cons
    apply (ih whole.2 first.2 (next env item)).mono
    exact fun value among => List.mem_append_right _ among

open Relation (ReflTransGen)

/-- Rewriting again and again. -/
theorem refines_of_rewrites (steps : ReflTransGen Rewrites items items')
    (whole : ∀ item ∈ items, item.isItem = true) (first : DeclaredFirst items) :
    Refines items items' := by
  suffices Refines items items' ∧ DeclaredFirst items' from this.1
  induction steps with
  | refl => exact ⟨.refl items, first⟩
  | tail before step ih =>
    have whole := isItem_of_rewrites before whole
    exact ⟨ih.1.trans (step.refines whole ih.2), (step.declaredFirst whole ih.2).2⟩

end Steps

section Strip

variable (env : Env) (vars : List Nat)

theorem emission_flatten {code : Code} (plain : code.isValue = true) (rest : List Code) :
    emission env (flatten code ++ rest) = expand env code ++ emission env rest := by
  induction code generalizing rest with
  | literal | var => rfl
  | declare | define | assign => cases plain
  | block items ih =>
    rw [flatten_block, expand]
    induction items with
    | nil => rfl
    | cons item others again =>
      rw [isValue, areValues, Bool.and_eq_true] at plain
      rw [flattenAll, List.append_assoc, ih item List.mem_cons_self plain.1, expandAll,
        List.append_assoc, again (fun part member => ih part (List.mem_cons_of_mem _ member)) plain.2]

theorem emission_strip {item : Code} (whole : item.isItem = true) (rest : List Code) :
    emission env (strip vars item ++ rest) = emission env (item :: rest) := by
  cases item with
  | declare w => unfold strip; split <;> rfl
  | block items => exact emission_flatten env whole rest
  | literal | var | define | assign => rfl

theorem emission_flatMap_strip {items : List Code} (whole : ∀ item ∈ items, item.isItem = true) :
    emission env (items.flatMap (strip vars)) = emission env items := by
  induction items generalizing env with
  | nil => rfl
  | cons item rest ih =>
    rw [List.forall_mem_cons] at whole
    rw [List.flatMap_cons, emission_strip env vars whole.1, emission, emission, ih _ whole.2]

end Strip

/-- The optimizer keeps what straight-line code emits: read from any point, the optimized code
emits the same sequence, up to parentheses around values that assignments give to variables. -/
theorem optimized_code_emits_same (code : Code) (straight : code.isStraight = true)
    (first : DeclaredFirst (flatten code)) (env : Env) :
    Wraps (· ∈ values env (flatten code)) (emission env (flatten code))
      (emission env (flatten code.optimize)) := by
  have whole : ∀ item ∈ flatten code, item.isItem = true :=
    fun _ => isItem_of_mem_flatten straight
  have refines : Refines (flatten code) (settle (flatten code) 0).1 :=
    refines_of_rewrites (rewrites_settle _ 0) whole first
  have flat : emission env (flatten code.optimize) =
      emission env (settle (flatten code) 0).1 := by
    rw [optimize_eq, flatten_block, ← flattenAll_dropUnused, flattenAll_flattenAll,
      flattenAll_dropUnused, emission_flatMap_strip env _ (isItem_settle straight 0)]
  rw [flat]
  exact (refines env).emits

/-- A copy of a copy, with the first variable assigned again in front of the use. -/
theorem copies_emit_same :
    let code := block [declare 0, declare 1, assign 0 (literal "f()") true,
      block [assign 1 (block [var 0, literal " + 1"]) false, assign 2 (var 1) false],
      assign 0 (literal "g()") false, literal "h(", var 2, literal ", ", var 0, literal ")"]
    code.isStraight = true ∧ DeclaredFirst (flatten code) ∧
      Wraps (· ∈ values (fun v => [.name v]) (flatten code))
        (emission (fun v => [.name v]) (flatten code))
        (emission (fun v => [.name v]) (flatten code.optimize)) := by
  intro code
  have straight : code.isStraight = true := rfl
  have first : DeclaredFirst (flatten code) := by decide
  exact ⟨straight, first, optimized_code_emits_same code straight first _⟩

end StagedLexer.Code
