import StagedLexer.Proofs.EmittedLiterals
import StagedLexer.Proofs.ForestContent
import StagedLexer.Proofs.GeneratedScope
import StagedLexer.Proofs.NormalForm
import StagedLexer.Proofs.StatementTypes
import StagedLexer.Proofs.TrieReaders

/-! The statements of readers and of tries are typed. The types of the variables given out before are
known; those that are given out on the way get theirs as the statements are made. -/
namespace StagedLexer

variable {Ctx : Type}

namespace Kinds

/-- Only variables that are given out have types, and bound variables are those of readers. -/
structure Fits (kinds : Kinds) (asm : Assembler Ctx) : Prop where
  below : ∀ v kind, kinds v = some kind → v < asm.nextVar
  bound : ∀ binding ∈ asm.bindings, kinds binding.1 = some .reader

/-- Variables of the second assembler can get types besides those that are known, such that the
goal holds. -/
def Leads (kinds : Kinds) (b : Assembler Ctx) (goal : Kinds → Prop) : Prop :=
  ∃ more, kinds.Extends more ∧ more.Fits b ∧ goal more

def put (kinds : Kinds) (v : Nat) (kind : Kind) : Kinds :=
  fun w => if w = v then some kind else kinds w

@[simp] theorem put_self (kinds : Kinds) (v : Nat) (kind : Kind) :
    kinds.put v kind v = some kind := if_pos rfl

variable {kinds : Kinds} {a b c : Assembler Ctx} {goal last : Kinds → Prop}

theorem Leads.here (fits : kinds.Fits a) (holds : goal kinds) : kinds.Leads a goal :=
  ⟨kinds, .refl kinds, fits, holds⟩

theorem Leads.then (first : kinds.Leads b goal)
    (next : ∀ more : Kinds, kinds.Extends more → more.Fits b → goal more → more.Leads c last) :
    kinds.Leads c last := by
  obtain ⟨more, extends', fits, holds⟩ := first
  obtain ⟨most, extends'', fits', ends⟩ := next more extends' fits holds
  exact ⟨most, extends'.trans extends'', fits', ends⟩

theorem Leads.map (first : kinds.Leads b goal)
    (next : ∀ more : Kinds, kinds.Extends more → goal more → last more) : kinds.Leads b last :=
  first.then fun more extends' fits holds => .here fits (next more extends' holds)

theorem Fits.extends_put (fits : kinds.Fits a) (kind : Kind) :
    kinds.Extends (kinds.put a.nextVar kind) := by
  intro v known given
  rw [put, if_neg (Nat.ne_of_lt (fits.below v known given))]
  exact given

private theorem Fits.put_bindings (fits : kinds.Fits a) (kind : Kind)
    {bindings : List (Nat × Reader Ctx)}
    (bound : ∀ binding ∈ bindings, kinds.put a.nextVar kind binding.1 = some .reader) :
    (kinds.put a.nextVar kind).Fits ⟨a.nextVar + 1, bindings⟩ := by
  refine ⟨fun v known given => ?_, bound⟩
  unfold put at given
  split at given
  · next same => exact same ▸ Nat.lt_succ_self _
  · exact Nat.lt_succ_of_lt (fits.below v known given)

theorem Fits.put (fits : kinds.Fits a) (kind : Kind) :
    (kinds.put a.nextVar kind).Fits a.var.2 :=
  fits.put_bindings kind fun binding member =>
    fits.extends_put kind _ _ (fits.bound binding member)

theorem Leads.var (fits : kinds.Fits a) (kind : Kind) :
    kinds.Leads a.var.2 fun more => more a.nextVar = some kind :=
  ⟨_, fits.extends_put kind, fits.put kind, put_self ..⟩

theorem Leads.bind (fits : kinds.Fits a) (reader : Reader Ctx) :
    kinds.Leads (a.bind reader).2 fun more => more (a.bind reader).1 = some .reader := by
  unfold Assembler.bind
  split
  · next binding found => exact .here fits (fits.bound binding (List.mem_of_find?_eq_some found))
  · refine ⟨_, fits.extends_put .reader, fits.put_bindings .reader ?_, put_self ..⟩
    intro binding member
    rcases List.mem_append.mp member with old | new
    · exact fits.extends_put .reader _ _ (fits.bound binding old)
    · obtain rfl := List.mem_singleton.mp new
      exact put_self ..

end Kinds

namespace Reader

/-- The sets of code units in the reader have members. -/
def Filled (reader : Reader Ctx) : Prop :=
  ∀ id set, leaf id (.oneOf set) ∈ reader.parts → set.ranges ≠ []

theorem Filled.of_parts_subset {whole reader : Reader Ctx} (filled : whole.Filled)
    (inside : reader.parts ⊆ whole.parts) : reader.Filled :=
  fun id set member => filled id set (inside member)

theorem Built.filled {reader : Reader Ctx} (built : Built reader) : reader.Filled := by
  intro id set member none
  obtain ⟨b, contains⟩ : NormalLeaf (.oneOf set : Leaf Ctx) := built.normal _ member
  have empty := ByteSet.isEmpty_iff.mp (ByteSet.isEmpty_of_ranges_eq_nil none) b
  rw [contains] at empty
  cases empty

theorem filled_of_mem {items : List (Reader Ctx)} (filled : ∀ id set,
    leaf id (.oneOf set) ∈ partsAll items → set.ranges ≠ []) : ∀ item ∈ items, item.Filled :=
  fun item member id set inside => filled id set (mem_partsAll.mpr ⟨item, member, inside⟩)

end Reader

namespace Stmt

open Kinds Assembler

variable {a b c : Assembler Ctx} {place r : Nat} {rules : Option Nat}

/-- The statement is made between the two assemblers and typed, if `place` is a position and `r` a
result. -/
def Types (rules : Option Nat) (a b : Assembler Ctx) (place r : Nat) (stmt : Stmt) : Prop :=
  ∀ kinds : Kinds, kinds.Fits a → kinds place = some .position → kinds r = some .result →
    kinds.Leads b fun more => stmt.Typed more rules

private theorem types_value (l : Leaf Ctx) (filled : ∀ set, l = .oneOf set → set.ranges ≠ [])
    (asm : Assembler Ctx) (reader : Reader Ctx) (place r : Nat) :
    Types rules asm (l.value reader (.var place) asm).2 place r
      (.assign r (l.value reader (.var place) asm).1 true) := by
  intro kinds fits position result
  cases l with
  | regex | custom =>
    exact (Leads.bind fits reader).map fun more extends' bound =>
      ⟨extends' _ _ result, bound, extends' _ _ position⟩
  | never => exact .here fits ⟨result, trivial⟩
  | always => exact .here fits ⟨result, position⟩
  | oneOf set => exact .here fits ⟨result, filled set rfl, position⟩
  | text | textAnyCase | atEnd | skip => exact .here fits ⟨result, trivial, position⟩

private theorem Types.position (asm : Assembler Ctx) (place r : Nat) :
    Types rules asm asm place r (.assign r (.position (.var place)) true) :=
  fun _ fits position result => .here fits ⟨result, position⟩

private theorem Types.missing (asm : Assembler Ctx) (place r : Nat) :
    Types rules asm asm place r (.assign r .noMatch true) :=
  fun _ fits _ result => .here fits ⟨result, trivial⟩

private theorem Types.andThen {head tail : Stmt} (first : Types rules a b place r head)
    (second : Types rules b.var.2 c b.nextVar r tail) :
    Types rules a c place r (.block [head, .guarded (.isMatch r) (.block [.declare b.nextVar,
      .assign b.nextVar (.asPlace r) false, tail])]) := by
  intro kinds fits position result
  refine (first kinds fits position result).then fun more extends' fits typed => ?_
  have result := extends' _ _ result
  refine (Leads.var fits .position).then fun most extends' fits next => ?_
  have result := extends' _ _ result
  refine (second most fits next result).map fun last extends'' behind => ?_
  have result := extends'' _ _ result
  have next := extends'' _ _ next
  exact ⟨(typed.mono extends' head).mono extends'' head,
    ⟨result, .inl next, ⟨next, result⟩, behind, trivial⟩, trivial⟩

private theorem Types.orElse {head tail : Stmt} (first : Types rules a b place r head)
    (second : Types rules b c place r tail) :
    Types rules a c place r (.block [head, .guarded (.noMatch r) tail]) := by
  intro kinds fits position result
  refine (first kinds fits position result).then fun more extends' fits typed => ?_
  have result := extends' _ _ result
  refine (second more fits (extends' _ _ position) result).map fun last extends'' behind => ?_
  exact ⟨typed.mono extends'' head, ⟨extends'' _ _ result, behind⟩, trivial⟩

private theorem Types.ahead {body : Stmt} (first : Types rules a b place r body) :
    Types rules a b place r
      (.block [body, .guarded (.isMatch r) (.assign r (.position (.var place)) true)]) := by
  intro kinds fits position result
  refine (first kinds fits position result).map fun more extends' typed => ?_
  have result := extends' _ _ result
  exact ⟨typed, ⟨result, result, extends' _ _ position⟩, trivial⟩

section Loops

variable {kinds : Kinds} {pos inner : Nat} {counter : Option Nat}

/-- The types of the variables of a loop. -/
private structure LoopKinds (kinds : Kinds) (r pos inner : Nat) (counter : Option Nat) : Prop where
  result : kinds r = some .result
  pos : kinds pos = some .position
  inner : kinds inner = some .result
  counter : ∀ c ∈ counter, kinds c = some .position

private theorem LoopKinds.mono {more : Kinds} (known : LoopKinds kinds r pos inner counter)
    (extends' : kinds.Extends more) : LoopKinds more r pos inner counter :=
  ⟨extends' _ _ known.result, extends' _ _ known.pos, extends' _ _ known.inner,
    fun c member => extends' _ _ (known.counter c member)⟩

private theorem typed_assignAndLeave {value : Value} (result : kinds r = some .result)
    (kind : value.kind = .result) (typed : value.Typed kinds) :
    (assignAndLeave r value).Typed kinds rules :=
  ⟨⟨kind ▸ result, typed⟩, trivial, trivial⟩

private theorem typed_settled (known : LoopKinds kinds r pos inner counter) (min : Nat) :
    (settled pos counter min).kind = .result ∧ (settled pos counter min).Typed kinds := by
  cases counter with
  | none => exact ⟨rfl, known.pos⟩
  | some c =>
    rw [settled]
    split
    · exact ⟨rfl, known.counter c rfl, known.pos⟩
    · exact ⟨rfl, known.pos⟩

private theorem typedAll_limit (known : LoopKinds kinds r pos inner counter) (max : Option Nat) :
    TypedAll kinds rules (limit r pos counter max) := by
  cases counter with
  | none => trivial
  | some c =>
    cases max with
    | none => trivial
    | some max =>
      exact ⟨⟨known.counter c rfl, typed_assignAndLeave known.result rfl known.pos⟩, trivial⟩

private theorem typed_round (known : LoopKinds kinds r pos inner counter) (min : Nat)
    (max : Option Nat) {body : Stmt} (typed : body.Typed kinds rules) :
    (round r pos inner counter min max body).Typed kinds rules := by
  obtain ⟨kind, settles⟩ := typed_settled known min
  have ends : (assignAndLeave r (settled pos counter min)).Typed kinds rules :=
    typed_assignAndLeave known.result kind settles
  have fails : (assignAndLeave r (.result inner)).Typed kinds rules :=
    typed_assignAndLeave known.result rfl known.inner
  have counts : TypedAll kinds rules (countUp counter) := by
    cases counter with
    | none => trivial
    | some c => exact ⟨⟨known.counter c rfl, known.counter c rfl⟩, trivial⟩
  refine TypedAll.append (TypedAll.append (typedAll_limit known max) ?_) counts
  exact ⟨.inr known.inner, typed, ⟨known.inner, ends⟩, ⟨known.inner, fails⟩,
    ⟨⟨known.inner, known.pos⟩, ends⟩, ⟨known.pos, known.inner⟩, trivial⟩

private theorem typed_repetition (known : LoopKinds kinds r pos inner counter) (min : Nat)
    (max : Option Nat) (position : kinds place = some .position) {body : Stmt}
    (typed : body.Typed kinds rules) :
    (repetition place r pos inner counter min max body).Typed kinds rules := by
  have counts : TypedAll kinds rules (countFromZero counter) := by
    cases counter with
    | none => trivial
    | some c => exact ⟨.inl (known.counter c rfl), ⟨known.counter c rfl, trivial⟩, trivial⟩
  refine TypedAll.append (TypedAll.append ?_ counts) ⟨typed_round known min max typed, trivial⟩
  exact ⟨.inl known.pos, ⟨known.pos, position⟩, trivial⟩

private theorem typed_seek (known : LoopKinds kinds r pos inner none) (inclusive openEnd : Bool)
    (position : kinds place = some .position) {body : Stmt} (typed : body.Typed kinds rules) :
    (seek place r pos inner inclusive openEnd body).Typed kinds rules := by
  have found : (assignAndLeave r (if inclusive then .result inner else
      .position (.var pos))).Typed kinds rules := by
    cases inclusive with
    | true => exact typed_assignAndLeave known.result rfl known.inner
    | false => exact typed_assignAndLeave known.result rfl known.pos
  have fails : (assignAndLeave r (.result inner)).Typed kinds rules :=
    typed_assignAndLeave known.result rfl known.inner
  have ends : (assignAndLeave r (if openEnd then .chunkEnd else .noMatch)).Typed kinds rules := by
    cases openEnd <;> exact typed_assignAndLeave known.result rfl trivial
  have inside : (probeNext r pos inner inclusive openEnd body).Typed kinds rules :=
    ⟨.inr known.inner, typed, ⟨known.inner, found⟩, ⟨known.inner, fails⟩, ⟨known.pos, ends⟩,
      ⟨known.pos, known.pos⟩, trivial⟩
  exact ⟨.inl known.pos, ⟨known.pos, position⟩, inside, trivial⟩

private theorem leads_varIf (needed : Bool) (fits : kinds.Fits a) :
    kinds.Leads (Assembly.varIf needed a).2
      fun more => ∀ c ∈ (Assembly.varIf needed a).1, more c = some .position := by
  cases needed with
  | false => exact .here fits (by rintro c ⟨⟩)
  | true =>
    refine (Leads.var fits .position).map fun more _ known c given => ?_
    obtain ⟨rfl, -⟩ := (Assembly.varIf_spec true a).2 c given
    exact known

private theorem Types.repetition (needed : Bool) (min : Nat) (max : Option Nat) {body : Stmt}
    (inside : Types rules (Assembly.varIf needed a.var.2.var.2).2 b a.nextVar (a.nextVar + 1)
      body) :
    Types rules a b place r (.repetition place r a.nextVar (a.nextVar + 1)
      (Assembly.varIf needed a.var.2.var.2).1 min max body) := by
  intro kinds fits position result
  refine (Leads.var fits .position).then fun first extends₁ fits pos => ?_
  refine (Leads.var fits .result).then fun second extends₂ fits inner => ?_
  refine (leads_varIf needed fits).then fun third extends₃ fits counter => ?_
  have fromStart := (extends₁.trans extends₂).trans extends₃
  have known : LoopKinds third r a.nextVar (a.nextVar + 1)
      (Assembly.varIf needed a.var.2.var.2).1 :=
    ⟨fromStart _ _ result, (extends₂.trans extends₃) _ _ pos, extends₃ _ _ inner, counter⟩
  refine (inside third fits known.pos known.inner).map fun last extends₄ typed => ?_
  exact typed_repetition (known.mono extends₄) min max ((fromStart.trans extends₄) _ _ position)
    typed

private theorem Types.seek (inclusive openEnd : Bool) {body : Stmt}
    (inside : Types rules a.var.2.var.2 b a.nextVar (a.nextVar + 1) body) :
    Types rules a b place r (.seek place r a.nextVar (a.nextVar + 1) inclusive openEnd body) := by
  intro kinds fits position result
  refine (Leads.var fits .position).then fun first extends₁ fits pos => ?_
  refine (Leads.var fits .result).then fun second extends₂ fits inner => ?_
  have fromStart := extends₁.trans extends₂
  have known : LoopKinds second r a.nextVar (a.nextVar + 1) none :=
    ⟨fromStart _ _ result, extends₂ _ _ pos, inner, by rintro c ⟨⟩⟩
  refine (inside second fits known.pos known.inner).map fun last extends₃ typed => ?_
  exact typed_seek (known.mono extends₃) inclusive openEnd
    ((fromStart.trans extends₃) _ _ position) typed

end Loops

private theorem ofSequence_types_of {items : List (Reader Ctx)}
    (each : ∀ item ∈ items, ∀ asm place r,
      Types rules asm (ofReader item place r asm).2 place r (ofReader item place r asm).1)
    (asm : Assembler Ctx) (place r : Nat) :
    Types rules asm (ofSequence items place r asm).2 place r
      (ofSequence items place r asm).1 := by
  induction items generalizing asm place with
  | nil => exact .position asm place r
  | cons item rest ih =>
    cases rest with
    | nil => exact each item (by simp) asm place r
    | cons second rest =>
      exact (each item (by simp) asm place r).andThen
        (ih (fun i member => each i (List.mem_cons_of_mem _ member)) _ _)

private theorem ofAlternation_types_of {items : List (Reader Ctx)}
    (each : ∀ item ∈ items, ∀ asm place r,
      Types rules asm (ofReader item place r asm).2 place r (ofReader item place r asm).1)
    (asm : Assembler Ctx) (place r : Nat) :
    Types rules asm (ofAlternation items place r asm).2 place r
      (ofAlternation items place r asm).1 := by
  induction items generalizing asm with
  | nil => exact .missing asm place r
  | cons item rest ih =>
    cases rest with
    | nil => exact each item (by simp) asm place r
    | cons second rest =>
      exact (each item (by simp) asm place r).orElse
        (ih (fun i member => each i (List.mem_cons_of_mem _ member)) _)

theorem ofReader_types (reader : Reader Ctx) (filled : reader.Filled) (asm : Assembler Ctx)
    (place r : Nat) : Types rules asm (ofReader reader place r asm).2 place r
      (ofReader reader place r asm).1 := by
  induction reader generalizing asm place r with
  | leaf id l =>
    refine types_value l ?_ asm (.leaf id l) place r
    rintro set rfl
    exact filled id set (Reader.self_mem_parts _)
  | sequence id items ih =>
    have each : ∀ item ∈ items, item.Filled := Reader.filled_of_mem fun i set inside =>
      filled i set (by simp [Reader.parts, inside])
    exact ofSequence_types_of (fun item member => ih item member (each item member)) asm place r
  | alternation id items ih =>
    have each : ∀ item ∈ items, item.Filled := Reader.filled_of_mem fun i set inside =>
      filled i set (by simp [Reader.parts, inside])
    exact ofAlternation_types_of (fun item member => ih item member (each item member)) asm place r
  | optional id inner ih =>
    exact (ih (filled.of_parts_subset (by simp [Reader.parts])) asm place r).orElse
      (.position _ place r)
  | lookahead id inner ih =>
    exact (ih (filled.of_parts_subset (by simp [Reader.parts])) asm place r).ahead
  | repetition id inner min max ih =>
    exact .repetition _ min max (ih (filled.of_parts_subset (by simp [Reader.parts])) _ _ _)
  | seek id inner inclusive openEnd ih =>
    exact .seek inclusive openEnd (ih (filled.of_parts_subset (by simp [Reader.parts])) _ _ _)

theorem ofSequence_types {items : List (Reader Ctx)} (filled : ∀ item ∈ items, item.Filled)
    (asm : Assembler Ctx) (place r : Nat) :
    Types rules asm (ofSequence items place r asm).2 place r (ofSequence items place r asm).1 :=
  ofSequence_types_of (fun item member => ofReader_types item (filled item member)) asm place r

/-- The statements are made between the two assemblers and typed, if `place` is a position. -/
def TypesAll (rules : Option Nat) (a b : Assembler Ctx) (place : Nat) (items : List Stmt) : Prop :=
  ∀ kinds : Kinds, kinds.Fits a → kinds place = some .position →
    kinds.Leads b fun more => TypedAll more rules items

private theorem TypesAll.nil (asm : Assembler Ctx) (place : Nat) :
    TypesAll rules asm asm place [] :=
  fun _ fits _ => .here fits trivial

private theorem TypesAll.cons {item : Stmt} {rest : List Stmt}
    (first : TypesAll rules a b place [item]) (others : TypesAll rules b c place rest) :
    TypesAll rules a c place (item :: rest) := by
  intro kinds fits position
  refine (first kinds fits position).then fun more extends' fits typed => ?_
  refine (others more fits (extends' _ _ position)).map fun most extends'' behind => ?_
  exact ⟨typed.1.mono extends'' item, behind⟩

private theorem TypesAll.block {items : List Stmt} (types : TypesAll rules a b place items) :
    TypesAll rules a b place [.block items] :=
  fun kinds fits position => (types kinds fits position).map fun _ _ typed => ⟨typed, trivial⟩

end Stmt

namespace Branch

/-- The rules that the branch and those below it stand for are among so many. -/
def Numbered (count : Nat) (branch : Branch Ctx) : Prop :=
  ∀ b ∈ branch.preorder, b.owner < count ∧ ∀ number ∈ b.rule, number < count

theorem numbered_iff {count id owner : Nat} {readers : List (Reader Ctx)}
    {children : List (Branch Ctx)} {rule : Option Nat} :
    Numbered count ⟨id, readers, children, rule, owner⟩ ↔
      (owner < count ∧ ∀ number ∈ rule, number < count) ∧ ∀ child ∈ children,
        child.Numbered count :=
  forall_preorder_iff

theorem Proper.numbered {branch : Branch Ctx} {count : Nat} (proper : branch.Proper)
    (few : ∀ way ∈ branch.ways, way.rule < count) : branch.Numbered count := by
  induction branch with
  | mk id readers children rule owner ih =>
    obtain ⟨-, ⟨way, among, owns⟩, -, below⟩ := proper
    refine numbered_iff.mpr ⟨⟨owns ▸ few way among, fun completed here => ?_⟩, ?_⟩
    · exact few _ (mem_ways.mpr ⟨⟨[], completed⟩, .inr ⟨rfl, here⟩, rfl⟩)
    · intro child member
      refine ih child member (below.of_mem member) fun inner inside => ?_
      have through := mem_waysAll.mpr ⟨child, member, inside⟩
      exact few (inner.behind (readers.map (·, owner))) (mem_ways.mpr ⟨inner, .inl through, rfl⟩)

variable {count : Nat} (rules : Array (Rule Ctx))

open Stmt Kinds

private theorem stmts_types_of {branches : List (Branch Ctx)}
    (each : ∀ branch ∈ branches, ∀ asm place, TypesAll (some count) asm
      (stmt rules place branch asm).2 place [(stmt rules place branch asm).1])
    (asm : Assembler Ctx) (place : Nat) : TypesAll (some count) asm
      (stmts rules place branches asm).2 place (stmts rules place branches asm).1 := by
  induction branches generalizing asm with
  | nil => exact .nil asm place
  | cons branch rest ih =>
    exact (each branch (by simp) asm place).cons (ih (fun b member => each b (by simp [member])) _)

private theorem types_branch {a b c : Assembler Ctx} {place owner : Nat} {rule : Option Nat}
    {body : Stmt} {below : List Stmt} (owned : owner < count)
    (completes : ∀ number ∈ rule, number < count)
    (children : TypesAll (some count) a.var.2.var.2 b (a.nextVar + 1) below)
    (readers : Types (some count) b c place a.nextVar body) :
    TypesAll (some count) a c place [trying rules owner rule a.nextVar body below] := by
  intro kinds fits position
  refine (Leads.var fits .result).then fun first extends₁ fits result => ?_
  refine (Leads.var fits .position).then fun second extends₂ fits stop => ?_
  refine (children second fits stop).then fun third extends₃ fits inner => ?_
  have result := (extends₂.trans extends₃) _ _ result
  refine (readers third fits (((extends₁.trans extends₂).trans extends₃) _ _ position) result).map
    fun last extends₄ typed => ?_
  have result : last a.nextVar = some .result := extends₄ _ _ result
  have stop : last (a.nextVar + 1) = some .position := (extends₃.trans extends₄) _ _ stop
  have accepts : TypedAll last (some count) (completion rules (a.nextVar + 1) rule) := by
    cases rule with
    | none => trivial
    | some rule => exact ⟨⟨⟨count, rfl, completes rule rfl⟩, stop⟩, trivial⟩
  have matched : TypedAll last (some count) ([Stmt.declare (a.nextVar + 1),
      Stmt.assign (a.nextVar + 1) (.asPlace a.nextVar) false, Stmt.block below] ++
        completion rules (a.nextVar + 1) rule) :=
    ⟨.inl stop, ⟨stop, result⟩, inner.mono extends₄ below, accepts⟩
  exact ⟨⟨.inr result, typed, ⟨result, matched, ⟨count, rfl, owned⟩, result⟩, trivial⟩, trivial⟩

theorem stmt_types {branch : Branch Ctx} (numbered : branch.Numbered count)
    (filled : branch.EachReader Reader.Filled) (asm : Assembler Ctx) (place : Nat) :
    TypesAll (some count) asm (stmt rules place branch asm).2 place
      [(stmt rules place branch asm).1] := by
  induction branch generalizing asm place with
  | mk id readers children rule owner ih =>
    obtain ⟨⟨owned, completes⟩, numberedBelow⟩ := numbered_iff.mp numbered
    obtain ⟨here, filledBelow⟩ := eachReader_iff.mp filled
    rw [stmt_eq]
    refine types_branch rules owned completes (stmts_types_of rules (fun child member => ?_) _ _)
      (ofSequence_types here _ _ _)
    exact ih child member (numberedBelow child member) (filledBelow child member)

theorem stmts_types {branches : List (Branch Ctx)}
    (numbered : ∀ branch ∈ branches, branch.Numbered count)
    (filled : ∀ branch ∈ branches, branch.EachReader Reader.Filled) (asm : Assembler Ctx)
    (place : Nat) : TypesAll (some count) asm (stmts rules place branches asm).2 place
      (stmts rules place branches asm).1 :=
  stmts_types_of rules
    (fun branch member => stmt_types rules (numbered branch member) (filled branch member)) asm place

end Branch

/-- The rules in the tries of the forest are among so many. -/
structure Forest.Numbered (count : Nat) (forest : Forest Ctx) : Prop where
  tries : ∀ trie ∈ forest.tries, ∀ branch ∈ trie.2, branch.Numbered count
  stageless : ∀ branch ∈ forest.stageless, branch.Numbered count

theorem Forest.numbered_ofRules {rules : List (Rule Ctx)} (initialStage : Option String)
    (steps : ∀ rule ∈ rules, rule.reader.steps ≠ []) :
    (ofRules rules initialStage).Numbered rules.length := by
  have each (stage : Option String) : ∀ branch ∈ (ofRules rules initialStage).roots stage,
      branch.Numbered rules.length := by
    have tracks := tracks_roots initialStage steps stage
    intro branch member
    refine (tracks.proper.of_mem member).numbered fun way inside => ?_
    have entry : way.entry ∈ Branch.entries ((ofRules rules initialStage).roots stage) :=
      List.mem_map_of_mem (Branch.mem_waysAll.mpr ⟨branch, member, inside⟩)
    obtain ⟨x, active, equal⟩ := tracks.mem_active entry
    have number : x.2 = way.rule := congrArg Prod.snd equal
    exact number ▸ lt_of_mem_activeRules x active
  refine ⟨fun trie member => ?_, each none⟩
  rw [← roots_of_mem (nodup_stages_ofRules rules initialStage) member]
  exact each (some trie.1)

namespace Routine

open Stmt

variable {lexicon : Lexicon Ctx} {count cursor : Nat}

private theorem arms_types (rules : Array (Rule Ctx)) {tries : List (String × List (Branch Ctx))}
    (numbered : ∀ trie ∈ tries, ∀ branch ∈ trie.2, branch.Numbered count)
    (filled : ∀ trie ∈ tries, ∀ branch ∈ trie.2, branch.EachReader Reader.Filled)
    (asm : Assembler Ctx) : TypesAll (some count) asm (arms rules cursor tries asm).2 cursor
      (arms rules cursor tries asm).1 := by
  induction tries generalizing asm with
  | nil => exact .nil asm cursor
  | cons trie rest ih =>
    have first := Branch.stmts_types rules (numbered trie (by simp)) (filled trie (by simp)) asm
      cursor
    exact first.block.cons (ih (fun t member => numbered t (by simp [member]))
      (fun t member => filled t (by simp [member])) _)

/-- The statement of a lexicon is typed, if the cursor is a position. -/
theorem dispatchStmt_types (numbered : lexicon.forest.Numbered count)
    (filled : lexicon.forest.EachReader Reader.Filled) (asm : Assembler Ctx) :
    TypesAll (some count) asm (dispatchStmt lexicon cursor asm).2 cursor
      [(dispatchStmt lexicon cursor asm).1] := by
  have stageless (asm : Assembler Ctx) := Branch.stmts_types lexicon.rules numbered.stageless
    filled.stageless asm cursor
  unfold dispatchStmt
  by_cases empty : lexicon.forest.tries.isEmpty
  · simp only [empty, if_true]
    exact (stageless asm).block
  · simp only [empty]
    intro kinds fits position
    change kinds.Leads (Branch.stmts lexicon.rules cursor lexicon.forest.stageless
      (arms lexicon.rules cursor lexicon.forest.tries asm).2).2 _
    refine (arms_types lexicon.rules numbered.tries filled.tries asm kinds fits position).then
      fun more extends' fits listed => ?_
    refine (stageless _ more fits (extends' _ _ position)).map fun most extends'' last => ?_
    exact ⟨⟨rfl, listed.mono extends'' _, last⟩, trivial⟩

end Routine

end StagedLexer
