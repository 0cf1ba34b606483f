import StagedLexer.Proofs.BranchCode
import StagedLexer.Proofs.Scoping

/-! The statements of readers and tries are scoped. Their temporaries are variables given out on the
way, each assigned once; all other variables given out are no temporaries. -/
namespace StagedLexer

variable {Ctx : Type}

namespace Assembler

/-- The variables `names` are given out between the two assemblers, each once. -/
structure Fresh (a b : Assembler Ctx) (names : List Nat) : Prop where
  vars : a.nextVar ≤ b.nextVar
  range : ∀ v ∈ names, a.nextVar ≤ v ∧ v < b.nextVar
  distinct : names.Nodup

/-- Of the variables given out between the two assemblers, `names` are temporaries. -/
def Marks (T : Nat → Prop) (a b : Assembler Ctx) (names : List Nat) : Prop :=
  ∀ v, a.nextVar ≤ v → v < b.nextVar → (T v ↔ v ∈ names)

/-- No temporary is bound to a reader. -/
def Unbound (T : Nat → Prop) (asm : Assembler Ctx) : Prop := ∀ binding ∈ asm.bindings, ¬ T binding.1

variable {a b c : Assembler Ctx} {names more : List Nat} {T : Nat → Prop}

theorem Fresh.append (first : a.Fresh b names) (second : b.Fresh c more) :
    a.Fresh c (names ++ more) := by
  refine ⟨Nat.le_trans first.vars second.vars, fun v member => ?_, ?_⟩
  · rcases List.mem_append.mp member with left | right
    · exact ⟨(first.range v left).1, Nat.lt_of_lt_of_le (first.range v left).2 second.vars⟩
    · exact ⟨Nat.le_trans first.vars (second.range v right).1, (second.range v right).2⟩
  · refine List.nodup_append.mpr ⟨first.distinct, second.distinct, fun v left w right => ?_⟩
    exact Nat.ne_of_lt (Nat.lt_of_lt_of_le (first.range v left).2 (second.range w right).1)

theorem Fresh.perm (fresh : a.Fresh b names) (perm : names.Perm more) : a.Fresh b more :=
  ⟨fresh.vars, fun v member => fresh.range v (perm.mem_iff.mpr member), perm.nodup fresh.distinct⟩

theorem Marks.perm (marks : Marks T a b names) (perm : names.Perm more) : Marks T a b more :=
  fun v low high => (marks v low high).trans perm.mem_iff

theorem Marks.split (first : a.Fresh b names) (second : b.Fresh c more)
    (marks : Marks T a c (names ++ more)) : Marks T a b names ∧ Marks T b c more := by
  constructor
  · intro v low high
    rw [marks v low (Nat.lt_of_lt_of_le high second.vars), List.mem_append]
    refine ⟨fun either => either.resolve_right fun right => ?_, .inl⟩
    exact absurd (second.range v right).1 (Nat.not_le.mpr high)
  · intro v low high
    rw [marks v (Nat.le_trans first.vars low) high, List.mem_append]
    refine ⟨fun either => either.resolve_left fun left => ?_, .inr⟩
    exact absurd (first.range v left).2 (Nat.not_lt.mpr low)

theorem Marks.none (marks : Marks T a b []) {v : Nat} (low : a.nextVar ≤ v) (high : v < b.nextVar) :
    ¬ T v := fun temp => by simpa using (marks v low high).mp temp

theorem fresh_var (asm : Assembler Ctx) : asm.Fresh asm.var.2 [] :=
  ⟨Nat.le_succ _, by simp, by simp⟩

theorem fresh_temp (asm : Assembler Ctx) : asm.Fresh asm.var.2 [asm.nextVar] :=
  ⟨Nat.le_succ _, fun v member => by
    obtain rfl := List.mem_singleton.mp member
    exact ⟨Nat.le_refl _, Nat.lt_succ_self _⟩, by simp⟩

theorem fresh_bind (asm : Assembler Ctx) (reader : Reader Ctx) :
    asm.Fresh (asm.bind reader).2 [] := by
  refine ⟨?_, by simp, by simp⟩
  unfold bind
  split
  · exact Nat.le_refl _
  · exact Nat.le_succ _

theorem Unbound.bind {asm : Assembler Ctx} (unbound : asm.Unbound T) (reader : Reader Ctx)
    (marks : Marks T asm (asm.bind reader).2 []) :
    ¬ T (asm.bind reader).1 ∧ (asm.bind reader).2.Unbound T := by
  unfold Assembler.bind at marks ⊢
  split
  · next binding found => exact ⟨unbound binding (List.mem_of_find?_eq_some found), unbound⟩
  · next missing =>
    simp only [missing] at marks
    have new : ¬ T asm.nextVar := marks.none (Nat.le_refl _) (Nat.lt_succ_self _)
    refine ⟨new, fun binding member => ?_⟩
    rcases List.mem_append.mp member with old | last
    · exact unbound binding old
    · rw [List.mem_singleton.mp last]
      exact new

end Assembler

open Assembler

/-- The statement is made between the two assemblers and scoped, where `place` is a position and `r`
a result. -/
structure Stmt.Generated (a b : Assembler Ctx) (place r : Nat) (stmt : Stmt) : Prop where
  fresh : a.Fresh b stmt.binders
  inScope : ∀ {T : Nat → Prop} {live : List Nat}, Marks T a b stmt.binders → a.Unbound T → ¬ T r →
    (T place → place ∈ live) → stmt.Scoped T live ∧ b.Unbound T

namespace Stmt

section Scope

variable {T : Nat → Prop} {live : List Nat} {item : Stmt} {rest : List Stmt}

theorem Scoped.binding?_eq_none (inScope : item.Scoped T live) : item.binding? = none := by
  cases item with
  | assign v value retained =>
    obtain ⟨rfl, -, -⟩ := inScope
    cases value <;> rfl
  | _ => rfl

theorem scopedAll_cons (first : item.Scoped T live) (others : ScopedAll T live rest) :
    ScopedAll T live (item :: rest) := by
  rw [ScopedAll, first.binding?_eq_none]
  exact ⟨first, others⟩

theorem scopedAll_append {items : List Stmt} (first : ∀ item ∈ items, item.Scoped T live)
    (others : ScopedAll T live rest) : ScopedAll T live (items ++ rest) := by
  induction items with
  | nil => exact others
  | cons item items ih =>
    exact scopedAll_cons (first item (by simp)) (ih fun item member => first item (by simp [member]))

theorem scopedAll_of_each {items : List Stmt} (each : ∀ item ∈ items, item.Scoped T live) :
    ScopedAll T live items := by
  rw [← List.append_nil items]
  exact scopedAll_append each trivial

end Scope

variable {a b c : Assembler Ctx} {place r : Nat} {T : Nat → Prop}

private theorem Leaf.value_generated (asm : Assembler Ctx) (reader : Reader Ctx) (place r : Nat)
    (l : Leaf Ctx) : Generated asm (l.value reader (.var place) asm).2 place r
      (.assign r (l.value reader (.var place) asm).1 true) := by
  have nothing : asm.Fresh asm [] := ⟨Nat.le_refl _, by simp, by simp⟩
  cases l with
  | regex | custom =>
    refine ⟨fresh_bind asm _, fun marks unbound plain place => ?_⟩
    have bound := unbound.bind _ marks
    exact ⟨⟨rfl, plain, bound.1, place⟩, bound.2⟩
  | never => exact ⟨nothing, fun _ unbound plain _ => ⟨⟨rfl, plain, trivial⟩, unbound⟩⟩
  | always | text | textAnyCase | oneOf | atEnd | skip =>
    exact ⟨nothing, fun _ unbound plain place => ⟨⟨rfl, plain, place⟩, unbound⟩⟩

private theorem Generated.andThen {head tail : Stmt} (first : Generated a b place r head)
    (second : Generated b.var.2 c b.nextVar r tail) :
    Generated a c place r (.block [head, .guarded (.isMatch r) (.block [.declare b.nextVar,
      .assign b.nextVar (.asPlace r) false, tail])]) := by
  have names : binders (.block [head, .guarded (.isMatch r) (.block [.declare b.nextVar,
      .assign b.nextVar (.asPlace r) false, tail])]) =
      head.binders ++ ([b.nextVar] ++ tail.binders) := by
    simp [binders, bindersAll]
  have rest := (fresh_temp b).append second.fresh
  refine ⟨names ▸ first.fresh.append rest, fun {T live} marks unbound plain place => ?_⟩
  rw [names] at marks
  obtain ⟨headMarks, restMarks⟩ := Marks.split first.fresh rest marks
  obtain ⟨tempMarks, tailMarks⟩ := Marks.split (fresh_temp b) second.fresh restMarks
  have temp : T b.nextVar := (tempMarks _ (Nat.le_refl _) (Nat.lt_succ_self _)).mpr (by simp)
  obtain ⟨headScoped, middle⟩ := first.inScope headMarks unbound plain place
  obtain ⟨tailScoped, after⟩ : tail.Scoped T (b.nextVar :: live) ∧ c.Unbound T :=
    second.inScope tailMarks middle plain fun _ => List.mem_cons_self
  refine ⟨scopedAll_cons headScoped (scopedAll_cons ⟨plain, ?_⟩ trivial), after⟩
  exact scopedAll_cons trivial ⟨temp, plain, scopedAll_cons tailScoped trivial⟩

private theorem Generated.orElse {head tail : Stmt} (first : Generated a b place r head)
    (second : Generated b c place r tail) :
    Generated a c place r (.block [head, .guarded (.noMatch r) tail]) := by
  have names : binders (.block [head, .guarded (.noMatch r) tail]) =
      head.binders ++ tail.binders := by
    simp [binders, bindersAll]
  refine ⟨names ▸ first.fresh.append second.fresh, fun marks unbound plain place => ?_⟩
  rw [names] at marks
  obtain ⟨headMarks, tailMarks⟩ := Marks.split first.fresh second.fresh marks
  obtain ⟨headScoped, middle⟩ := first.inScope headMarks unbound plain place
  obtain ⟨tailScoped, after⟩ := second.inScope tailMarks middle plain place
  exact ⟨scopedAll_cons headScoped (scopedAll_cons ⟨plain, tailScoped⟩ trivial), after⟩

private theorem Generated.position (asm : Assembler Ctx) (place r : Nat) :
    Generated asm asm place r (.assign r (.position (.var place)) true) :=
  ⟨⟨Nat.le_refl _, by simp [binders], by simp [binders]⟩,
    fun _ unbound plain place => ⟨⟨rfl, plain, place⟩, unbound⟩⟩

private theorem Generated.missing (asm : Assembler Ctx) (place r : Nat) :
    Generated asm asm place r (.assign r .noMatch true) :=
  ⟨⟨Nat.le_refl _, by simp [binders], by simp [binders]⟩,
    fun _ unbound plain _ => ⟨⟨rfl, plain, trivial⟩, unbound⟩⟩

private theorem Generated.ahead {body : Stmt} (first : Generated a b place r body) :
    Generated a b place r
      (.block [body, .guarded (.isMatch r) (.assign r (.position (.var place)) true)]) := by
  have names : binders (.block [body, .guarded (.isMatch r)
      (.assign r (.position (.var place)) true)]) = body.binders := by
    simp [binders, bindersAll]
  refine ⟨names ▸ first.fresh, fun marks unbound plain place => ?_⟩
  rw [names] at marks
  obtain ⟨bodyScoped, after⟩ := first.inScope marks unbound plain place
  exact ⟨scopedAll_cons bodyScoped (scopedAll_cons ⟨plain, rfl, plain, place⟩ trivial), after⟩

private theorem scoped_assignAndLeave {live : List Nat} {value : Value} (plain : ¬ T r)
    (inScope : value.Scoped T live) : (assignAndLeave r value).Scoped T live :=
  scopedAll_cons ⟨rfl, plain, inScope⟩ (scopedAll_cons trivial trivial)

section Loops

variable {live : List Nat} {pos inner : Nat} {counter : Option Nat}

private theorem binders_round (r pos inner : Nat) (counter : Option Nat) (min : Nat)
    (max : Option Nat) (body : Stmt) :
    (round r pos inner counter min max body).binders = body.binders := by
  cases counter <;> cases max <;>
    simp [round, limit, countUp, assignAndLeave, binders, bindersAll]

private theorem binders_repetition (place r pos inner : Nat) (counter : Option Nat) (min : Nat)
    (max : Option Nat) (body : Stmt) :
    (repetition place r pos inner counter min max body).binders = body.binders := by
  have inside := binders_round r pos inner counter min max body
  cases counter <;> simp [repetition, countFromZero, binders, bindersAll, inside]

private theorem binders_seek (place r pos inner : Nat) (inclusive openEnd : Bool) (body : Stmt) :
    (seek place r pos inner inclusive openEnd body).binders = body.binders := by
  simp [seek, probeNext, assignAndLeave, binders, bindersAll]

/-- The variables of a loop are no temporaries. -/
private structure LoopPlain (T : Nat → Prop) (r pos inner : Nat) (counter : Option Nat) : Prop where
  result : ¬ T r
  pos : ¬ T pos
  inner : ¬ T inner
  counter : ∀ c, counter = some c → ¬ T c

private theorem scoped_settled (plain : LoopPlain T r pos inner counter) (min : Nat) :
    (settled pos counter min).Scoped T [] := by
  have position : (Value.position (.var pos)).Scoped T [] := fun temp => absurd temp plain.pos
  cases counter with
  | none => exact position
  | some c =>
    rw [settled]
    split
    · exact ⟨plain.counter c rfl, plain.pos⟩
    · exact position

private theorem scoped_limit (plain : LoopPlain T r pos inner counter) (max : Option Nat) :
    ∀ item ∈ limit r pos counter max, item.Scoped T [] := by
  intro item member
  cases counter with
  | none => cases member
  | some c =>
    cases max with
    | none => cases member
    | some max =>
      obtain rfl := List.mem_singleton.mp member
      exact ⟨plain.counter c rfl,
        scoped_assignAndLeave plain.result fun temp => absurd temp plain.pos⟩

private theorem scoped_countUp (plain : LoopPlain T r pos inner counter) :
    ∀ item ∈ countUp counter, item.Scoped T [] := by
  intro item member
  cases counter with
  | none => cases member
  | some c =>
    obtain rfl := List.mem_singleton.mp member
    exact ⟨rfl, plain.counter c rfl, plain.counter c rfl⟩

private theorem scoped_round (plain : LoopPlain T r pos inner counter) (min : Nat)
    (max : Option Nat) {body : Stmt} (inScope : body.Scoped T []) :
    (round r pos inner counter min max body).Scoped T [] := by
  have ends : (assignAndLeave r (settled pos counter min)).Scoped T [] :=
    scoped_assignAndLeave plain.result (scoped_settled plain min)
  have fails : (assignAndLeave r (.result inner)).Scoped T [] :=
    scoped_assignAndLeave plain.result plain.inner
  rw [round, List.append_assoc]
  refine scopedAll_append (scoped_limit plain max) (scopedAll_append ?_
    (scopedAll_of_each (scoped_countUp plain)))
  intro item member
  simp only [List.mem_cons, List.not_mem_nil, or_false] at member
  rcases member with rfl | rfl | rfl | rfl | rfl | rfl
  · trivial
  · exact inScope
  · exact ⟨plain.inner, ends⟩
  · exact ⟨plain.inner, fails⟩
  · exact ⟨⟨plain.inner, plain.pos⟩, ends⟩
  · exact ⟨rfl, plain.pos, plain.inner⟩

private theorem scoped_repetition (plain : LoopPlain T r pos inner counter) (min : Nat)
    (max : Option Nat) {body : Stmt} (inPlace : T place → place ∈ live)
    (inScope : body.Scoped T []) :
    (repetition place r pos inner counter min max body).Scoped T live := by
  have counts : ∀ item ∈ countFromZero counter, item.Scoped T live := by
    intro item member
    cases counter with
    | none => cases member
    | some c =>
      rcases List.mem_cons.mp member with rfl | last
      · trivial
      · obtain rfl := List.mem_singleton.mp last
        exact ⟨rfl, plain.counter c rfl, trivial⟩
  have rounds : (loop (round r pos inner counter min max body)).Scoped T live :=
    scoped_round plain min max inScope
  rw [repetition, Scoped, List.append_assoc]
  refine scopedAll_append (fun item member => ?_)
    (scopedAll_append counts (scopedAll_cons rounds trivial))
  rcases List.mem_cons.mp member with rfl | last
  · trivial
  · obtain rfl := List.mem_singleton.mp last
    exact ⟨rfl, plain.pos, inPlace⟩

private theorem scoped_seek (plain : LoopPlain T r pos inner none) (inclusive openEnd : Bool)
    {body : Stmt} (inPlace : T place → place ∈ live) (inScope : body.Scoped T []) :
    (seek place r pos inner inclusive openEnd body).Scoped T live := by
  have found : (assignAndLeave r (if inclusive then .result inner else .position (.var pos))).Scoped
      T [] := by
    apply scoped_assignAndLeave plain.result
    split
    · exact plain.inner
    · exact fun temp => absurd temp plain.pos
  have fails : (assignAndLeave r (.result inner)).Scoped T [] :=
    scoped_assignAndLeave plain.result plain.inner
  have ends : (assignAndLeave r (if openEnd then .chunkEnd else .noMatch)).Scoped T [] := by
    apply scoped_assignAndLeave plain.result
    split <;> trivial
  have inside : (probeNext r pos inner inclusive openEnd body).Scoped T [] := by
    apply scopedAll_of_each
    intro item member
    simp only [List.mem_cons, List.not_mem_nil, or_false] at member
    rcases member with rfl | rfl | rfl | rfl | rfl | rfl
    · trivial
    · exact inScope
    · exact ⟨plain.inner, found⟩
    · exact ⟨plain.inner, fails⟩
    · exact ⟨plain.pos, ends⟩
    · exact ⟨rfl, plain.pos, plain.pos⟩
  have rounds : (loop (probeNext r pos inner inclusive openEnd body)).Scoped T live := inside
  exact scopedAll_cons trivial (scopedAll_cons ⟨rfl, plain.pos, inPlace⟩
    (scopedAll_cons rounds trivial))

private theorem fresh_varIf (needed : Bool) (asm : Assembler Ctx) :
    asm.Fresh (Assembly.varIf needed asm).2 [] := by
  cases needed with
  | false => exact ⟨Nat.le_refl _, by simp, by simp⟩
  | true => exact fresh_var asm

private theorem Generated.repetition (needed : Bool) (min : Nat) (max : Option Nat) {body : Stmt}
    (inside : Generated (Assembly.varIf needed a.var.2.var.2).2 b a.nextVar (a.nextVar + 1) body) :
    Generated a b place r (.repetition place r a.nextVar (a.nextVar + 1)
      (Assembly.varIf needed a.var.2.var.2).1 min max body) := by
  have front : a.Fresh (Assembly.varIf needed a.var.2.var.2).2 [] :=
    ((fresh_var a).append (fresh_var _)).append (fresh_varIf needed _)
  have whole := front.append inside.fresh
  refine ⟨by rwa [binders_repetition], fun {T live} marks unbound plain inPlace => ?_⟩
  rw [binders_repetition] at marks
  obtain ⟨frontMarks, bodyMarks⟩ := Marks.split front inside.fresh marks
  have past : a.nextVar + 2 ≤ (Assembly.varIf needed a.var.2.var.2).2.nextVar :=
    (fresh_varIf needed a.var.2.var.2).vars
  have vars : LoopPlain T r a.nextVar (a.nextVar + 1) (Assembly.varIf needed a.var.2.var.2).1 := by
    refine ⟨plain, frontMarks.none (by omega) (by omega), frontMarks.none (by omega) (by omega),
      fun c given => ?_⟩
    obtain ⟨rfl, high⟩ := (Assembly.varIf_spec needed a.var.2.var.2).2 c given
    exact frontMarks.none (Nat.le_add_right a.nextVar 2) high
  have unbound' : (Assembly.varIf needed a.var.2.var.2).2.Unbound T := by
    cases needed <;> exact unbound
  obtain ⟨bodyScoped, after⟩ : body.Scoped T [] ∧ b.Unbound T :=
    inside.inScope bodyMarks unbound' vars.inner fun temp => absurd temp vars.pos
  exact ⟨scoped_repetition vars min max inPlace bodyScoped, after⟩

private theorem Generated.seek (inclusive openEnd : Bool) {body : Stmt}
    (inside : Generated a.var.2.var.2 b a.nextVar (a.nextVar + 1) body) :
    Generated a b place r
      (.seek place r a.nextVar (a.nextVar + 1) inclusive openEnd body) := by
  have front : a.Fresh a.var.2.var.2 [] := (fresh_var a).append (fresh_var _)
  have whole := front.append inside.fresh
  refine ⟨by rwa [binders_seek], fun {T live} marks unbound plain inPlace => ?_⟩
  rw [binders_seek] at marks
  obtain ⟨frontMarks, bodyMarks⟩ := Marks.split front inside.fresh marks
  have vars : LoopPlain T r a.nextVar (a.nextVar + 1) none :=
    ⟨plain, frontMarks.none (Nat.le_refl _) (Nat.lt_add_of_pos_right Nat.two_pos),
      frontMarks.none (Nat.le_succ _) (Nat.lt_succ_self _), fun c given => by cases given⟩
  obtain ⟨bodyScoped, after⟩ : body.Scoped T [] ∧ b.Unbound T :=
    inside.inScope bodyMarks unbound vars.inner fun temp => absurd temp vars.pos
  exact ⟨scoped_seek vars inclusive openEnd inPlace bodyScoped, after⟩

end Loops

private theorem ofSequence_generated_of {items : List (Reader Ctx)}
    (each : ∀ item ∈ items, ∀ asm place r,
      Generated asm (ofReader item place r asm).2 place r (ofReader item place r asm).1)
    (asm : Assembler Ctx) (place r : Nat) :
    Generated asm (ofSequence items place r asm).2 place r (ofSequence items place r asm).1 := by
  induction items generalizing asm place with
  | nil => exact .position asm place r
  | cons item rest ih =>
    cases rest with
    | nil => exact each item (by simp) asm place r
    | cons second rest =>
      exact (each item (by simp) asm place r).andThen
        (ih (fun i member => each i (List.mem_cons_of_mem _ member)) _ _)

private theorem ofAlternation_generated_of {items : List (Reader Ctx)}
    (each : ∀ item ∈ items, ∀ asm place r,
      Generated asm (ofReader item place r asm).2 place r (ofReader item place r asm).1)
    (asm : Assembler Ctx) (place r : Nat) :
    Generated asm (ofAlternation items place r asm).2 place r
      (ofAlternation items place r asm).1 := by
  induction items generalizing asm with
  | nil => exact .missing asm place r
  | cons item rest ih =>
    cases rest with
    | nil => exact each item (by simp) asm place r
    | cons second rest =>
      exact (each item (by simp) asm place r).orElse
        (ih (fun i member => each i (List.mem_cons_of_mem _ member)) _)

/-- The statements of a reader are scoped. -/
theorem ofReader_generated (reader : Reader Ctx) (asm : Assembler Ctx) (place r : Nat) :
    Generated asm (ofReader reader place r asm).2 place r (ofReader reader place r asm).1 := by
  induction reader generalizing asm place r with
  | leaf id l => exact Leaf.value_generated asm (.leaf id l) place r l
  | sequence id items ih => exact ofSequence_generated_of ih asm place r
  | alternation id items ih => exact ofAlternation_generated_of ih asm place r
  | optional id inner ih => exact (ih asm place r).orElse (.position _ place r)
  | lookahead id inner ih => exact (ih asm place r).ahead
  | repetition id inner min max ih => exact .repetition _ min max (ih _ _ _)
  | seek id inner inclusive openEnd ih => exact .seek inclusive openEnd (ih _ _ _)

theorem ofSequence_generated (items : List (Reader Ctx)) (asm : Assembler Ctx) (place r : Nat) :
    Generated asm (ofSequence items place r asm).2 place r (ofSequence items place r asm).1 :=
  ofSequence_generated_of (fun item _ => ofReader_generated item) asm place r

/-- The statements are made between the two assemblers and scoped, where `place` is a position. -/
structure Placed (a b : Assembler Ctx) (place : Nat) (items : List Stmt) : Prop where
  fresh : a.Fresh b (bindersAll items)
  inScope : ∀ {T : Nat → Prop} {live : List Nat}, Marks T a b (bindersAll items) → a.Unbound T →
    (T place → place ∈ live) → (∀ item ∈ items, item.Scoped T live) ∧ b.Unbound T

theorem Placed.nil (asm : Assembler Ctx) (place : Nat) : Placed asm asm place [] :=
  ⟨⟨Nat.le_refl _, by simp [bindersAll], by simp [bindersAll]⟩,
    fun _ unbound _ => ⟨by simp, unbound⟩⟩

theorem Placed.cons {item : Stmt} {rest : List Stmt} (first : Placed a b place [item])
    (others : Placed b c place rest) : Placed a c place (item :: rest) := by
  have alone : bindersAll [item] = item.binders := by simp [bindersAll]
  have ahead := first.fresh
  rw [alone] at ahead
  refine ⟨ahead.append others.fresh, fun marks unbound inPlace => ?_⟩
  obtain ⟨firstMarks, otherMarks⟩ := Marks.split ahead others.fresh marks
  obtain ⟨firstScoped, middle⟩ := first.inScope (alone ▸ firstMarks) unbound inPlace
  obtain ⟨otherScoped, after⟩ := others.inScope otherMarks middle inPlace
  refine ⟨fun i member => ?_, after⟩
  rcases List.mem_cons.mp member with rfl | behind
  · exact firstScoped i (by simp)
  · exact otherScoped i behind

theorem Placed.block {items : List Stmt} (placed : Placed a b place items) :
    Placed a b place [.block items] := by
  have names : bindersAll [.block items] = bindersAll items := by simp [bindersAll, binders]
  refine ⟨names ▸ placed.fresh, fun marks unbound inPlace => ?_⟩
  obtain ⟨each, after⟩ := placed.inScope (names ▸ marks) unbound inPlace
  refine ⟨fun item member => ?_, after⟩
  obtain rfl := List.mem_singleton.mp member
  exact scopedAll_of_each each

private theorem Placed.branch (rules : Array (Rule Ctx)) (rule : Option Nat) (owner : Nat)
    {body : Stmt} {below : List Stmt} (children : Placed a.var.2.var.2 b (a.nextVar + 1) below)
    (readers : Generated b c place a.nextVar body) :
    Placed a c place [Branch.trying rules owner rule a.nextVar body below] := by
  have completes : bindersAll (Branch.completion rules (a.nextVar + 1) rule) = [] := by
    cases rule <;> simp [Branch.completion, bindersAll, binders]
  have names : bindersAll [Branch.trying rules owner rule a.nextVar body below] =
      body.binders ++ ((a.nextVar + 1) :: bindersAll below) := by
    simp [bindersAll, binders, completes]
  -- The order of the variables is that of the assembly: the children come before the readers.
  have order : (([] ++ [a.nextVar + 1]) ++ (bindersAll below ++ body.binders)).Perm
      (body.binders ++ ((a.nextVar + 1) :: bindersAll below)) := by
    rw [List.nil_append, List.singleton_append, ← List.cons_append]
    exact List.perm_append_comm
  have front : a.Fresh a.var.2.var.2 ([] ++ [a.nextVar + 1]) :=
    (fresh_var a).append (fresh_temp a.var.2)
  have rest := children.fresh.append readers.fresh
  refine ⟨names ▸ (front.append rest).perm order, fun {T live} marks unbound inPlace => ?_⟩
  rw [names] at marks
  obtain ⟨frontMarks, restMarks⟩ := Marks.split front rest (marks.perm order.symm)
  obtain ⟨varMarks, tempMarks⟩ := Marks.split (fresh_var a) (fresh_temp a.var.2) frontMarks
  obtain ⟨childMarks, readerMarks⟩ := Marks.split children.fresh readers.fresh restMarks
  have plain : ¬ T a.nextVar := varMarks.none (Nat.le_refl _) (Nat.lt_succ_self _)
  have temp : T (a.nextVar + 1) :=
    (tempMarks _ (Nat.le_refl _) (Nat.lt_succ_self _)).mpr (by simp [Assembler.var])
  obtain ⟨childScoped, middle⟩ : (∀ item ∈ below, item.Scoped T ((a.nextVar + 1) :: live)) ∧
      b.Unbound T := children.inScope childMarks unbound fun _ => List.mem_cons_self
  obtain ⟨bodyScoped, after⟩ : body.Scoped T live ∧ c.Unbound T :=
    readers.inScope readerMarks middle plain inPlace
  have accepts : ∀ item ∈ Branch.completion rules (a.nextVar + 1) rule,
      item.Scoped T ((a.nextVar + 1) :: live) := by
    intro item member
    cases rule with
    | none => cases member
    | some rule =>
      obtain rfl := List.mem_singleton.mp member
      exact fun _ => List.mem_cons_self
  refine ⟨fun item member => ?_, after⟩
  obtain rfl := List.mem_singleton.mp member
  refine scopedAll_cons trivial
    (scopedAll_cons bodyScoped (scopedAll_cons ⟨plain, ?_, plain⟩ trivial))
  exact scopedAll_cons trivial ⟨temp, plain, scopedAll_cons (scopedAll_of_each childScoped)
    (scopedAll_of_each accepts)⟩

end Stmt

namespace Branch

open Stmt

private theorem stmts_placed_of {rules : Array (Rule Ctx)} {branches : List (Branch Ctx)}
    (each : ∀ branch ∈ branches, ∀ asm place,
      Placed asm (stmt rules place branch asm).2 place [(stmt rules place branch asm).1])
    (asm : Assembler Ctx) (place : Nat) :
    Placed asm (stmts rules place branches asm).2 place (stmts rules place branches asm).1 := by
  induction branches generalizing asm with
  | nil => exact .nil asm place
  | cons branch rest ih =>
    exact (each branch (by simp) asm place).cons (ih (fun b member => each b (by simp [member])) _)

theorem stmt_placed (rules : Array (Rule Ctx)) (branch : Branch Ctx) (asm : Assembler Ctx)
    (place : Nat) :
    Placed asm (stmt rules place branch asm).2 place [(stmt rules place branch asm).1] := by
  induction branch generalizing asm place with
  | mk id readers children rule owner ih =>
    rw [stmt_eq]
    exact .branch rules rule owner (stmts_placed_of ih _ _) (ofSequence_generated readers _ _ _)

theorem stmts_placed (rules : Array (Rule Ctx)) (branches : List (Branch Ctx))
    (asm : Assembler Ctx) (place : Nat) :
    Placed asm (stmts rules place branches asm).2 place (stmts rules place branches asm).1 :=
  stmts_placed_of (fun branch _ => stmt_placed rules branch) asm place

end Branch

namespace Routine

open Stmt

private theorem arms_placed (rules : Array (Rule Ctx)) (cursor : Nat)
    (tries : List (String × List (Branch Ctx))) (asm : Assembler Ctx) :
    Placed asm (arms rules cursor tries asm).2 cursor (arms rules cursor tries asm).1 := by
  induction tries generalizing asm with
  | nil => exact .nil asm cursor
  | cons trie rest ih =>
    exact (Branch.stmts_placed rules trie.2 asm cursor).block.cons (ih _)

private theorem scopedEach_of_each {T : Nat → Prop} {arms : List Stmt}
    (each : ∀ arm ∈ arms, arm.Scoped T []) : ScopedEach T arms := by
  induction arms with
  | nil => trivial
  | cons arm rest ih =>
    exact ⟨each arm (by simp), ih fun arm member => each arm (by simp [member])⟩

/-- The statement of a lexicon is scoped, with its own binders as the temporaries. -/
theorem dispatchStmt_scoped (lexicon : Lexicon Ctx) {cursor : Nat} {asm : Assembler Ctx}
    (below : cursor < asm.nextVar) (unbound : asm.bindings = []) :
    (dispatchStmt lexicon cursor asm).1.Scoped
        (· ∈ (dispatchStmt lexicon cursor asm).1.binders) [] ∧
      (dispatchStmt lexicon cursor asm).1.binders.Nodup ∧
      ∀ v ∈ (dispatchStmt lexicon cursor asm).1.binders, asm.nextVar ≤ v := by
  have none (T : Nat → Prop) : asm.Unbound T := by simp [Unbound, unbound]
  -- The binders lie above the cursor, which is therefore no temporary.
  have finish {b : Assembler Ctx} {names : List Nat} (fresh : asm.Fresh b names)
      (inScope : Marks (· ∈ names) asm b names → cursor ∉ names →
        (dispatchStmt lexicon cursor asm).1.Scoped (· ∈ names) [])
      (equal : (dispatchStmt lexicon cursor asm).1.binders = names) :
      (dispatchStmt lexicon cursor asm).1.Scoped
          (· ∈ (dispatchStmt lexicon cursor asm).1.binders) [] ∧
        (dispatchStmt lexicon cursor asm).1.binders.Nodup ∧
        ∀ v ∈ (dispatchStmt lexicon cursor asm).1.binders, asm.nextVar ≤ v := by
    rw [equal]
    refine ⟨inScope (fun _ _ _ => Iff.rfl) fun member => ?_, fresh.distinct,
      fun v member => (fresh.range v member).1⟩
    exact absurd (fresh.range cursor member).1 (Nat.not_le.mpr below)
  have stageless := Branch.stmts_placed lexicon.rules lexicon.forest.stageless
  unfold dispatchStmt at finish ⊢
  by_cases empty : lexicon.forest.tries.isEmpty
  · simp only [empty, if_true] at finish ⊢
    refine finish (stageless asm cursor).fresh (fun marks plain => ?_) rfl
    exact scopedAll_of_each ((stageless asm cursor).inScope marks (none _)
      fun temp => absurd temp plain).1
  · simp only [empty] at finish ⊢
    have listed := arms_placed lexicon.rules cursor lexicon.forest.tries asm
    have last := stageless (arms lexicon.rules cursor lexicon.forest.tries asm).2 cursor
    refine finish (listed.fresh.append last.fresh) (fun marks plain => ?_) rfl
    obtain ⟨listedMarks, lastMarks⟩ := Marks.split listed.fresh last.fresh marks
    obtain ⟨listedScoped, middle⟩ := listed.inScope listedMarks (none _)
      fun temp => absurd temp plain
    obtain ⟨lastScoped, -⟩ := last.inScope lastMarks middle fun temp => absurd temp plain
    exact ⟨scopedEach_of_each listedScoped, scopedAll_of_each lastScoped⟩

end Routine

end StagedLexer
