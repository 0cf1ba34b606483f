import StagedLexer.Proofs.OptimizedRoutine
import StagedLexer.Proofs.StatementText

/-! The types of the variables of statements. A variable is a position or a result in all of a
statement, and the shared variables and those of readers have types of their own. What passes of the
optimizer make of a typed statement is typed. -/
namespace StagedLexer

inductive Kind where
  | position
  | result
  | chunk
  | pending
  | reader
  deriving DecidableEq

abbrev Kinds := Nat → Option Kind

def Kinds.Extends (kinds more : Kinds) : Prop := ∀ v kind, kinds v = some kind → more v = some kind

theorem Kinds.Extends.refl (kinds : Kinds) : kinds.Extends kinds := fun _ _ => id

theorem Kinds.Extends.trans {kinds more most : Kinds} (first : kinds.Extends more)
    (second : more.Extends most) : kinds.Extends most :=
  fun v kind known => second v kind (first v kind known)

def Place.Typed (kinds : Kinds) : Place → Prop
  | var v => kinds v = some .position
  | ofResult r => kinds r = some .result

namespace Value

def kind : Value → Kind
  | noMatch | position _ | result _ | probe _ _ | call _ _ | chunkEnd | counted _ _ _ => .result
  | place _ | asPlace _ | zero | succ _ => .position

def Typed (kinds : Kinds) : Value → Prop
  | noMatch | chunkEnd | zero => True
  | position p | place p => p.Typed kinds
  | result v | asPlace v => kinds v = some .result
  | probe test p => test.Filled ∧ p.Typed kinds
  | call bound p => kinds bound = some .reader ∧ p.Typed kinds
  | counted counter _ pos => kinds counter = some .position ∧ kinds pos = some .position
  | succ v => kinds v = some .position

end Value

def Cond.Typed (kinds : Kinds) : Cond → Prop
  | noMatch r | isMatch r | negative r | notNoMatch r => kinds r = some .result
  | reached counter _ => kinds counter = some .position
  | unmoved r pos => kinds r = some .result ∧ kinds pos = some .position
  | atChunkEnd pos => kinds pos = some .position

namespace Stmt

mutual
/-- The variables of the statement have the types that its uses of them ask for. It refers only to
rules of which there are so many, and to none if it does not stand in a scan. -/
def Typed (kinds : Kinds) (rules : Option Nat) : Stmt → Prop
  | declare v => kinds v = some .position ∨ kinds v = some .result
  | assign v value _ => kinds v = some value.kind ∧ value.Typed kinds
  | block items => TypedAll kinds rules items
  | guarded cond body => cond.Typed kinds ∧ Typed kinds rules body
  | onResult r matched failed =>
    kinds r = some .result ∧ Typed kinds rules matched ∧ Typed kinds rules failed
  | loop body => Typed kinds rules body
  | leave => True
  | accept rule stop _ => (∃ count ∈ rules, rule < count) ∧ stop.Typed kinds
  | fail owner r => (∃ count ∈ rules, owner < count) ∧ kinds r = some .result
  | dispatch _ arms otherwise =>
    rules.isSome ∧ TypedAll kinds rules arms ∧ Typed kinds rules otherwise
def TypedAll (kinds : Kinds) (rules : Option Nat) : List Stmt → Prop
  | [] => True
  | item :: rest => Typed kinds rules item ∧ TypedAll kinds rules rest
end

end Stmt

section Extends

variable {kinds more : Kinds} {rules : Option Nat}

theorem Place.Typed.mono {place : Place} (typed : place.Typed kinds)
    (extends' : kinds.Extends more) : place.Typed more := by
  cases place <;> exact extends' _ _ typed

theorem Value.Typed.mono {value : Value} (typed : value.Typed kinds)
    (extends' : kinds.Extends more) : value.Typed more := by
  cases value with
  | noMatch | chunkEnd | zero => trivial
  | position | place => exact Place.Typed.mono typed extends'
  | result | asPlace | succ => exact extends' _ _ typed
  | probe => exact ⟨typed.1, typed.2.mono extends'⟩
  | call => exact ⟨extends' _ _ typed.1, typed.2.mono extends'⟩
  | counted => exact ⟨extends' _ _ typed.1, extends' _ _ typed.2⟩

theorem Cond.Typed.mono {cond : Cond} (typed : cond.Typed kinds) (extends' : kinds.Extends more) :
    cond.Typed more := by
  cases cond with
  | unmoved => exact ⟨extends' _ _ typed.1, extends' _ _ typed.2⟩
  | _ => exact extends' _ _ typed

namespace Stmt

mutual
theorem Typed.mono (extends' : kinds.Extends more) : (stmt : Stmt) → stmt.Typed kinds rules →
    stmt.Typed more rules
  | declare _, typed => typed.imp (extends' _ _) (extends' _ _)
  | assign _ _ _, typed => ⟨extends' _ _ typed.1, typed.2.mono extends'⟩
  | block items, typed => TypedAll.mono extends' items typed
  | guarded _ body, typed => ⟨typed.1.mono extends', Typed.mono extends' body typed.2⟩
  | onResult _ matched failed, typed => ⟨extends' _ _ typed.1,
    Typed.mono extends' matched typed.2.1, Typed.mono extends' failed typed.2.2⟩
  | loop body, typed => Typed.mono extends' body typed
  | leave, _ => trivial
  | accept _ _ _, typed => ⟨typed.1, typed.2.mono extends'⟩
  | fail _ _, typed => ⟨typed.1, extends' _ _ typed.2⟩
  | dispatch _ arms otherwise, typed =>
    ⟨typed.1, TypedAll.mono extends' arms typed.2.1, Typed.mono extends' otherwise typed.2.2⟩
theorem TypedAll.mono (extends' : kinds.Extends more) : (items : List Stmt) →
    TypedAll kinds rules items → TypedAll more rules items
  | [], _ => trivial
  | item :: rest, typed => ⟨Typed.mono extends' item typed.1, TypedAll.mono extends' rest typed.2⟩
end

theorem typedAll_iff {items : List Stmt} :
    TypedAll kinds rules items ↔ ∀ item ∈ items, item.Typed kinds rules := by
  induction items with
  | nil => simp [TypedAll]
  | cons item rest ih => simp [TypedAll, ih]

theorem TypedAll.append {items others : List Stmt} (first : TypedAll kinds rules items)
    (second : TypedAll kinds rules others) : TypedAll kinds rules (items ++ others) :=
  typedAll_iff.mpr fun item member => (List.mem_append.mp member).elim
    (typedAll_iff.mp first item) (typedAll_iff.mp second item)

mutual
theorem Typed.filled : (stmt : Stmt) → stmt.Typed kinds rules → stmt.Filled
  | declare _, _ | leave, _ | accept _ _ _, _ | fail _ _, _ => trivial
  | assign _ value _, typed => by
    cases value with
    | probe => exact typed.2.1
    | _ => trivial
  | block items, typed => TypedAll.filled items typed
  | guarded _ body, typed => Typed.filled body typed.2
  | onResult _ matched failed, typed =>
    ⟨Typed.filled matched typed.2.1, Typed.filled failed typed.2.2⟩
  | loop body, typed => Typed.filled body typed
  | dispatch _ arms otherwise, typed =>
    ⟨TypedAll.filled arms typed.2.1, Typed.filled otherwise typed.2.2⟩
theorem TypedAll.filled : (items : List Stmt) → TypedAll kinds rules items → FilledAll items
  | [], _ => trivial
  | item :: rest, typed => ⟨Typed.filled item typed.1, TypedAll.filled rest typed.2⟩
end

end Stmt

end Extends

section Passes

variable {kinds : Kinds} {rules : Option Nat} {v r : Nat}

theorem Place.Typed.redirect {place : Place} (typed : place.Typed kinds)
    (result : kinds r = some .result) : (place.redirect v r).Typed kinds := by
  cases place with
  | ofResult => exact typed
  | var w =>
    rw [Place.redirect]
    split
    · exact result
    · exact typed

theorem Value.kind_redirect (value : Value) : (value.redirect v r).kind = value.kind := by
  cases value <;> rfl

theorem Value.Typed.redirect {value : Value} (typed : value.Typed kinds)
    (result : kinds r = some .result) : (value.redirect v r).Typed kinds := by
  cases value with
  | position | place => exact Place.Typed.redirect typed result
  | probe | call => exact ⟨typed.1, typed.2.redirect result⟩
  | _ => exact typed

namespace Stmt

mutual
theorem Typed.redirect (result : kinds r = some .result) : (stmt : Stmt) →
    stmt.Typed kinds rules → (stmt.redirect v r).Typed kinds rules
  | assign _ value _, typed => ⟨value.kind_redirect ▸ typed.1, typed.2.redirect result⟩
  | block items, typed => TypedAll.redirectAll result items typed
  | guarded _ body, typed => ⟨typed.1, Typed.redirect result body typed.2⟩
  | onResult _ matched failed, typed =>
    ⟨typed.1, Typed.redirect result matched typed.2.1, Typed.redirect result failed typed.2.2⟩
  | declare _, typed | loop _, typed | leave, typed | accept _ _ _, typed | fail _ _, typed
  | dispatch _ _ _, typed => typed
theorem TypedAll.redirectAll (result : kinds r = some .result) : (items : List Stmt) →
    TypedAll kinds rules items → TypedAll kinds rules (redirectAll v r items)
  | [], _ => trivial
  | item :: rest, typed =>
    ⟨Typed.redirect result item typed.1, TypedAll.redirectAll result rest typed.2⟩
end

private theorem TypedAll.shorten (frame : Frame) {rest : List Stmt}
    (first : (assign v (.asPlace r) false).Typed kinds rules) (typed : TypedAll kinds rules rest) :
    TypedAll kinds rules (shorten frame v r rest) := by
  unfold Stmt.shorten
  simp only
  split
  · exact typed
  · split
    · exact TypedAll.redirectAll first.2 rest typed
    · exact ⟨first, typed⟩
  · exact ⟨first, typed⟩

mutual
theorem Typed.pass (frame : Frame) : (stmt : Stmt) → stmt.Typed kinds rules →
    (stmt.pass frame).Typed kinds rules
  | declare _, typed | assign _ _ _, typed | leave, typed | accept _ _ _, typed
  | fail _ _, typed => typed
  | block items, typed => TypedAll.passAll frame items typed
  | guarded _ body, typed => ⟨typed.1, Typed.pass frame body typed.2⟩
  | onResult _ matched failed, typed =>
    ⟨typed.1, Typed.pass frame matched typed.2.1, Typed.pass frame failed typed.2.2⟩
  | loop body, typed => Typed.pass frame body typed
  | dispatch _ arms otherwise, typed =>
    ⟨typed.1, TypedAll.passEach frame arms typed.2.1, Typed.pass frame otherwise typed.2.2⟩
theorem TypedAll.passAll (frame : Frame) : (items : List Stmt) → TypedAll kinds rules items →
    TypedAll kinds rules (passAll frame items)
  | [], _ => trivial
  | item :: rest, typed => by
    have behind := TypedAll.passAll frame rest typed.2
    rw [Stmt.passAll]
    cases bind : item.binding? with
    | none => exact ⟨Typed.pass frame item typed.1, behind⟩
    | some binding =>
      rw [eq_assign_of_binding? bind] at typed
      exact TypedAll.shorten frame typed.1 behind
theorem TypedAll.passEach (frame : Frame) : (arms : List Stmt) → TypedAll kinds rules arms →
    TypedAll kinds rules (passEach frame arms)
  | [], _ => trivial
  | arm :: rest, typed => ⟨Typed.pass frame arm typed.1, TypedAll.passEach frame rest typed.2⟩
end

mutual
theorem Typed.undeclare (vars : List Nat) : (stmt : Stmt) → stmt.Typed kinds rules →
    (stmt.undeclare vars).Typed kinds rules
  | declare v, typed => by
    rw [Stmt.undeclare]
    split
    · exact typed
    · trivial
  | assign _ _ _, typed | leave, typed | accept _ _ _, typed | fail _ _, typed => typed
  | block items, typed => TypedAll.undeclareAll vars items typed
  | guarded _ body, typed => ⟨typed.1, Typed.undeclare vars body typed.2⟩
  | onResult _ matched failed, typed =>
    ⟨typed.1, Typed.undeclare vars matched typed.2.1, Typed.undeclare vars failed typed.2.2⟩
  | loop body, typed => Typed.undeclare vars body typed
  | dispatch _ arms otherwise, typed =>
    ⟨typed.1, TypedAll.undeclareAll vars arms typed.2.1, Typed.undeclare vars otherwise typed.2.2⟩
theorem TypedAll.undeclareAll (vars : List Nat) : (items : List Stmt) →
    TypedAll kinds rules items → TypedAll kinds rules (undeclareAll vars items)
  | [], _ => trivial
  | item :: rest, typed =>
    ⟨Typed.undeclare vars item typed.1, TypedAll.undeclareAll vars rest typed.2⟩
end

end Stmt

end Passes

end StagedLexer
