import StagedLexer.Proofs.NormalForm

/-! Making statements only adds variables and bound readers. What an assembler has given out stays,
every bound reader has a variable of its own, and under identity by reference the variable of a
reader is bound to that very reader. -/
namespace StagedLexer

variable {Ctx α β : Type}

/-- Bound variables are given out and distinct, and the bound readers come from the pool. -/
structure Assembler.Fits (pool : List (Reader Ctx)) (asm : Assembler Ctx) : Prop where
  vars : ∀ binding ∈ asm.bindings, binding.1 < asm.nextVar
  distinct : (asm.bindings.map (·.1)).Nodup
  known : ∀ binding ∈ asm.bindings, binding.2 ∈ pool

/-- What was given out before is still so after. -/
structure Assembler.Grows (before after : Assembler Ctx) : Prop where
  vars : before.nextVar ≤ after.nextVar
  bindings : before.bindings ⊆ after.bindings

namespace Assembler

theorem Grows.refl (asm : Assembler Ctx) : asm.Grows asm := ⟨Nat.le_refl _, fun _ h => h⟩

theorem Grows.trans {a b c : Assembler Ctx} (first : a.Grows b) (second : b.Grows c) : a.Grows c :=
  ⟨Nat.le_trans first.vars second.vars, fun _ h => second.bindings (first.bindings h)⟩

theorem Fits.lookup {pool : List (Reader Ctx)} {asm : Assembler Ctx} (fits : asm.Fits pool)
    {v : Nat} {reader : Reader Ctx} (bound : (v, reader) ∈ asm.bindings) :
    asm.bindings.lookup v = some reader := by
  have distinct := fits.distinct
  generalize asm.bindings = bindings at bound distinct
  induction bindings with
  | nil => cases bound
  | cons binding rest ih =>
    rw [List.map_cons, List.nodup_cons] at distinct
    rcases List.mem_cons.mp bound with rfl | behind
    · exact List.lookup_cons_self
    · have other : (v == binding.1) = false := by
        rw [beq_eq_false_iff_ne]
        rintro rfl
        exact distinct.1 (List.mem_map.mpr ⟨(binding.1, reader), behind, rfl⟩)
      obtain ⟨w, other_reader⟩ := binding
      rw [List.lookup_cons, other]
      exact ih behind distinct.2

end Assembler

namespace Assembly

/-- The action keeps what the assembler has given out. -/
def Sound (pool : List (Reader Ctx)) (action : Assembly Ctx α) : Prop :=
  ∀ asm : Assembler Ctx, asm.Fits pool → (action asm).2.Fits pool ∧ asm.Grows (action asm).2

variable {pool : List (Reader Ctx)}

theorem Sound.pure (a : α) : Sound pool (pure a : Assembly Ctx α) :=
  fun asm fits => ⟨fits, .refl asm⟩

theorem Sound.bind {action : Assembly Ctx α} {next : α → Assembly Ctx β}
    (first : Sound pool action) (second : ∀ a, Sound pool (next a)) :
    Sound pool (action >>= next) := by
  intro asm fits
  obtain ⟨middle, grows⟩ := first asm fits
  obtain ⟨final, more⟩ := second (action asm).1 (action asm).2 middle
  exact ⟨final, grows.trans more⟩

theorem Sound.map {action : Assembly Ctx α} (f : α → β) (first : Sound pool action) :
    Sound pool (f <$> action) :=
  first.bind fun a => Sound.pure (f a)

theorem Sound.var : Sound pool (Assembly.var : Assembly Ctx Nat) := by
  intro asm fits
  refine ⟨⟨?_, fits.distinct, fits.known⟩, ⟨Nat.le_succ _, fun _ h => h⟩⟩
  intro binding member
  exact Nat.lt_succ_of_lt (fits.vars binding member)

theorem Sound.varIf (needed : Bool) : Sound pool (Assembly.varIf needed : Assembly Ctx _) := by
  unfold Assembly.varIf
  split
  · exact Sound.var.map some
  · exact Sound.pure none

theorem varIf_spec (needed : Bool) (asm : Assembler Ctx) :
    (Assembly.varIf needed asm).1.isSome = needed ∧
      ∀ c, (Assembly.varIf needed asm).1 = some c →
        c = asm.nextVar ∧ asm.nextVar < (Assembly.varIf needed asm).2.nextVar := by
  cases needed with
  | false => exact ⟨rfl, fun c equal => by cases equal⟩
  | true => exact ⟨rfl, fun c equal => ⟨(Option.some.inj equal).symm, Nat.lt_succ_self _⟩⟩

theorem Sound.bindReader {reader : Reader Ctx} (known : reader ∈ pool) :
    Sound pool (Assembly.bind reader) := by
  intro asm fits
  unfold Assembly.bind Assembler.bind
  split
  · exact ⟨fits, .refl asm⟩
  · refine ⟨⟨?_, ?_, ?_⟩, ⟨Nat.le_succ _, List.subset_append_left _ _⟩⟩
    · intro binding member
      rcases List.mem_append.mp member with old | new
      · exact Nat.lt_succ_of_lt (fits.vars binding old)
      · rw [List.mem_singleton.mp new]; exact Nat.lt_succ_self _
    · rw [List.map_append, List.nodup_append]
      refine ⟨fits.distinct, by simp, ?_⟩
      intro v old w new
      obtain ⟨binding, member, rfl⟩ := List.mem_map.mp old
      have fresh := fits.vars binding member
      have last : w = asm.nextVar := by simpa using new
      omega
    · intro binding member
      rcases List.mem_append.mp member with old | new
      · exact fits.known binding old
      · rw [List.mem_singleton.mp new]; exact known

/-- The variable of a reader is bound to the reader, since identity is by reference. -/
theorem mem_bindings_bind {reader : Reader Ctx} {asm : Assembler Ctx} (fits : asm.Fits pool)
    (known : reader ∈ pool) (identified : ∀ a ∈ pool, ∀ b ∈ pool, a.id = b.id → a = b) :
    ((Assembly.bind reader asm).1, reader) ∈ (Assembly.bind reader asm).2.bindings := by
  unfold Assembly.bind Assembler.bind
  split
  · next binding found =>
    have member := List.mem_of_find?_eq_some found
    have same : binding.2.id = reader.id := by simpa using List.find?_some found
    rw [← identified binding.2 (fits.known binding member) reader known same]
    exact member
  · simp

end Assembly

open Assembly

variable {pool : List (Reader Ctx)}

private theorem Leaf.value_sound {reader : Reader Ctx} (known : reader ∈ pool) (place : Place)
    (l : Leaf Ctx) : Sound pool (l.value reader place) := by
  cases l with
  | regex | custom => exact (Sound.bindReader known).bind fun _ => Sound.pure _
  | _ => exact Sound.pure _

namespace Stmt

private theorem ofSequence_sound_of {items : List (Reader Ctx)}
    (each : ∀ item ∈ items, ∀ place r, Sound pool (ofReader item place r)) (place r : Nat) :
    Sound pool (ofSequence items place r) := by
  induction items generalizing place with
  | nil => exact Sound.pure _
  | cons item rest ih =>
    cases rest with
    | nil => exact each item (by simp) place r
    | cons second rest =>
      refine (each item (by simp) place r).bind fun head => Sound.var.bind fun next => ?_
      exact (ih (fun i member => each i (List.mem_cons_of_mem _ member)) next).bind
        fun _ => Sound.pure _

private theorem ofAlternation_sound_of {items : List (Reader Ctx)}
    (each : ∀ item ∈ items, ∀ place r, Sound pool (ofReader item place r)) (place r : Nat) :
    Sound pool (ofAlternation items place r) := by
  induction items with
  | nil => exact Sound.pure _
  | cons item rest ih =>
    cases rest with
    | nil => exact each item (by simp) place r
    | cons second rest =>
      refine (each item (by simp) place r).bind fun head => ?_
      exact (ih fun i member => each i (List.mem_cons_of_mem _ member)).bind fun _ => Sound.pure _

theorem ofReader_sound {reader : Reader Ctx} (known : reader.parts ⊆ pool) (place r : Nat) :
    Sound pool (ofReader reader place r) := by
  induction reader generalizing place r with
  | leaf id l =>
    exact (Leaf.value_sound (known (by simp [Reader.parts])) _ l).bind fun _ => Sound.pure _
  | sequence id items ih =>
    apply ofSequence_sound_of
    intro item member place r
    apply ih item member
    intro _ inside
    exact known (by simp [Reader.parts, Reader.mem_partsAll.mpr ⟨item, member, inside⟩])
  | alternation id items ih =>
    apply ofAlternation_sound_of
    intro item member place r
    apply ih item member
    intro _ inside
    exact known (by simp [Reader.parts, Reader.mem_partsAll.mpr ⟨item, member, inside⟩])
  | repetition id inner min max ih =>
    have body := fun place r => ih (fun _ inside => known (by simp [Reader.parts, inside])) place r
    exact Sound.var.bind fun pos => Sound.var.bind fun result => (Sound.varIf _).bind fun counter =>
      (body pos result).bind fun _ => Sound.pure _
  | optional id inner ih =>
    exact (ih (fun _ inside => known (by simp [Reader.parts, inside])) place r).bind
      fun _ => Sound.pure _
  | lookahead id inner ih =>
    exact (ih (fun _ inside => known (by simp [Reader.parts, inside])) place r).bind
      fun _ => Sound.pure _
  | seek id inner inclusive openEnd ih =>
    have body := fun place r => ih (fun _ inside => known (by simp [Reader.parts, inside])) place r
    exact Sound.var.bind fun pos => Sound.var.bind fun result =>
      (body pos result).bind fun _ => Sound.pure _

theorem ofSequence_sound {items : List (Reader Ctx)} (known : ∀ item ∈ items, item.parts ⊆ pool)
    (place r : Nat) : Sound pool (ofSequence items place r) :=
  ofSequence_sound_of (fun item member => ofReader_sound (known item member)) place r

theorem ofAlternation_sound {items : List (Reader Ctx)}
    (known : ∀ item ∈ items, item.parts ⊆ pool) (place r : Nat) :
    Sound pool (ofAlternation items place r) :=
  ofAlternation_sound_of (fun item member => ofReader_sound (known item member)) place r

end Stmt

end StagedLexer
