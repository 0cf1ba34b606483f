import StagedLexer.Code.Basic

/-! The control flow of emitted source. The source is taken apart into pieces without jumps, choices
between two blocks and loops. A variable belongs to the block of its declaration. Where this is kept
and enough is known to be assigned at every piece, no path through the source reads a variable that
has not been assigned since its declaration. -/
namespace StagedLexer

inductive Access where
  | declare (var : Nat)
  | assign (var : Nat)
  | read (var : Nat)
  deriving DecidableEq

namespace Code

mutual
/-- The accesses of a fragment in their order. All operands of an expression count as read, also
where a value has a choice between them. -/
def accesses : Code → List Access
  | literal _ => []
  | var v => [.read v]
  | block items => accessesAll items
  | declare v => [.declare v]
  | define v init => accesses init ++ [Access.declare v, Access.assign v]
  | assign v value _ => accesses value ++ [Access.assign v]
def accessesAll : List Code → List Access
  | [] => []
  | item :: rest => accesses item ++ accessesAll rest
end

theorem accessesAll_append (front behind : List Code) :
    accessesAll (front ++ behind) = accessesAll front ++ accessesAll behind := by
  induction front with
  | nil => rfl
  | cons item rest ih => rw [List.cons_append, accessesAll, accessesAll, ih, List.append_assoc]

mutual
theorem accessesAll_flatten : (code : Code) → accessesAll (flatten code) = code.accesses
  | literal _ | var _ | declare _ | define _ _ | assign _ _ _ => by
    simp [flatten, accesses, accessesAll]
  | block items => by
    rw [flatten, accesses, accessesAll_flattenAll items]
theorem accessesAll_flattenAll : (items : List Code) →
    accessesAll (flattenAll items) = accessesAll items
  | [] => by rw [flattenAll]
  | item :: rest => by
    rw [flattenAll, accessesAll, accessesAll_append, accessesAll_flatten item,
      accessesAll_flattenAll rest]
end

mutual
theorem count_read_accesses (v : Nat) : (code : Code) →
    code.accesses.count (.read v) = references v code
  | literal _ | declare _ => by simp [accesses, references]
  | var w => by simp [accesses, references, List.count_singleton]
  | block items => by rw [accesses, references, count_read_accessesAll v items]
  | define w init | assign w init _ => by
    simp [accesses, references, count_read_accesses v init]
theorem count_read_accessesAll (v : Nat) : (items : List Code) →
    (accessesAll items).count (.read v) = referencesAll v items
  | [] => by simp [accessesAll, referencesAll]
  | item :: rest => by
    rw [accessesAll, referencesAll, List.count_append, count_read_accesses v item,
      count_read_accessesAll v rest]
end

theorem read_not_mem_accesses {v : Nat} {code : Code} (unreferenced : references v code = 0) :
    .read v ∉ code.accesses := by
  rw [← List.count_eq_zero, count_read_accesses, unreferenced]

theorem read_not_mem_accessesAll {v : Nat} {items : List Code}
    (unreferenced : referencesAll v items = 0) : .read v ∉ accessesAll items := by
  rw [← List.count_eq_zero, count_read_accessesAll, unreferenced]

mutual
theorem read_mem_accesses {v : Nat} : (code : Code) → (.read v ∈ code.accesses ↔ v ∈ reads code)
  | literal _ | declare _ => by simp [accesses, reads]
  | var w => by simp [accesses, reads]
  | block items => by rw [accesses, reads, read_mem_accessesAll items]
  | define w init | assign w init _ => by simp [accesses, reads, read_mem_accesses init]
theorem read_mem_accessesAll {v : Nat} : (items : List Code) →
    (.read v ∈ accessesAll items ↔ v ∈ readsAll items)
  | [] => by simp [accessesAll, readsAll]
  | item :: rest => by
    rw [accessesAll, readsAll, List.mem_append, List.mem_append, read_mem_accesses item,
      read_mem_accessesAll rest]
end

end Code

/-- A way out of a piece of source other than to its end. -/
inductive Exit where
  /-- Out of the innermost loop. -/
  | leave
  /-- To the next round of the scan loop. -/
  | again
  /-- Out of the function. -/
  | stop
  deriving DecidableEq

/-- The control structure of emitted source. -/
inductive Shape where
  /-- Source that is run from its start to its end. -/
  | straight (path : List Access)
  | andThen (first second : Shape)
  /-- A test and two blocks, one of which is run. -/
  | choice (test : List Access) (first second : Shape)
  /-- A block that is run until it is left; of the scan loop rounds can also be cut short. -/
  | loop (scan : Bool) (body : Shape)
  | exit (way : Exit)

namespace Shape

def nothing : Shape := straight []

def accesses : Shape → List Access
  | straight path => path
  | andThen first second => first.accesses ++ second.accesses
  | choice test first second => test ++ (first.accesses ++ second.accesses)
  | loop _ body => body.accesses
  | exit _ => []

/-- Where a path ends: at the end of the source, at an exit, or somewhere within. -/
inductive Goal where
  | next
  | exit (way : Exit)
  | within
  deriving DecidableEq

/-- Whether a round of a loop that ends there is followed by another one. -/
def Goal.rejoins (scan : Bool) : Goal → Bool
  | next => true
  | exit .again => scan
  | exit .leave | exit .stop | within => false

/-- The paths through a shape, each with its accesses. A path may break off anywhere. -/
inductive Path : Shape → List Access → Goal → Prop
  | broken (shape : Shape) : Path shape [] .within
  | straight (path : List Access) : Path (straight path) path .next
  | andThen {first second : Shape} {path more : List Access} {goal : Goal}
      (passed : Path first path .next) (behind : Path second more goal) :
      Path (andThen first second) (path ++ more) goal
  | before {first second : Shape} {path : List Access} {goal : Goal} (away : goal ≠ .next)
      (inside : Path first path goal) : Path (andThen first second) path goal
  | first {test path : List Access} {first second : Shape} {goal : Goal}
      (inside : Path first path goal) : Path (choice test first second) (test ++ path) goal
  | second {test path : List Access} {first second : Shape} {goal : Goal}
      (inside : Path second path goal) :
      Path (choice test first second) (test ++ path) goal
  | round {scan : Bool} {body : Shape} {path more : List Access} {turn goal : Goal}
      (inside : Path body path turn) (rejoins : turn.rejoins scan = true)
      (others : Path (loop scan body) more goal) : Path (loop scan body) (path ++ more) goal
  | left {scan : Bool} {body : Shape} {path : List Access}
      (inside : Path body path (.exit .leave)) : Path (loop scan body) path .next
  | out {scan : Bool} {body : Shape} {path : List Access} {goal : Goal}
      (inside : Path body path goal) (away : goal.rejoins scan = false)
      (other : goal ≠ .exit .leave) : Path (loop scan body) path goal
  | exit (way : Exit) : Path (.exit way) [] (.exit way)

end Shape

namespace Access

variable (given : Nat → Prop)

/-- Variables are declared before they are assigned or read. Those of `given` come with the source;
they are only read. -/
def Lexical (visible : Nat → Prop) : List Access → Prop
  | [] => True
  | declare v :: rest => ¬ given v ∧ Lexical (fun w => visible w ∨ w = v) rest
  | assign v :: rest => ¬ given v ∧ visible v ∧ Lexical visible rest
  | read v :: rest => visible v ∧ Lexical visible rest

/-- Every variable that is read has been assigned since its declaration, unless it is one of
`ready`. -/
def Assigned (ready : Nat → Prop) : List Access → Prop
  | [] => True
  | declare v :: rest => Assigned (fun w => ready w ∧ w ≠ v) rest
  | assign v :: rest => Assigned (fun w => ready w ∨ w = v) rest
  | read v :: rest => ready v ∧ Assigned ready rest

/-- The variables that are assigned behind the accesses. -/
def after (ready : Nat → Prop) : List Access → Nat → Prop
  | [] => ready
  | declare v :: rest => after (fun w => ready w ∧ w ≠ v) rest
  | assign v :: rest => after (fun w => ready w ∨ w = v) rest
  | read _ :: rest => after ready rest

end Access

namespace Shape

variable (given : Nat → Prop)

/-- The variable is declared for what follows the shape in its block. -/
def Opens (v : Nat) : Shape → Prop
  | straight path => .declare v ∈ path
  | andThen first second => first.Opens v ∨ second.Opens v
  | choice _ _ _ | loop _ _ | exit _ => False

/-- Variables are assigned and read behind their declarations and in the blocks of these. -/
def Lexical (visible : Nat → Prop) : Shape → Prop
  | straight path => Access.Lexical given visible path
  | andThen first second =>
    first.Lexical visible ∧ second.Lexical fun v => visible v ∨ first.Opens v
  | choice test first second => Access.Lexical given visible test ∧
    first.Lexical visible ∧ second.Lexical visible
  | loop _ body => body.Lexical visible
  | exit _ => True

end Shape

/-- What is known at a place of the source: the variables that are declared in a block around it,
and variables that have been assigned for sure. -/
structure Scope where
  visible : Nat → Prop
  ready : Nat → Prop

namespace Shape

mutual
/-- The variable has been assigned for sure where the end of the shape is reached. -/
def Gains (v : Nat) : Shape → Prop
  | straight path => .assign v ∈ path
  | andThen first second => first.Gains v ∨ second.Gains v
  | choice _ first second => first.Gains v ∧ second.Gains v
  | loop _ body => body.LeavesWith v False
  | exit _ => True
/-- The same for every place where the innermost loop is left, if `ready` tells whether the variable
has been assigned before. -/
def LeavesWith (v : Nat) : Shape → (ready : Prop) → Prop
  | straight _, _ => True
  | andThen first second, ready =>
    first.LeavesWith v ready ∧ second.LeavesWith v (ready ∨ first.Gains v)
  | choice _ first second, ready => first.LeavesWith v ready ∧ second.LeavesWith v ready
  | loop _ _, _ => True
  | exit .leave, ready => ready
  | exit .again, _ | exit .stop, _ => True
end

theorem LeavesWith.mono {shape : Shape} {v : Nat} {ready more : Prop}
    (leaves : shape.LeavesWith v ready) (implies : ready → more) : shape.LeavesWith v more := by
  induction shape generalizing ready more with
  | straight | loop => trivial
  | andThen first second first_ih second_ih =>
    exact ⟨first_ih leaves.1 implies, second_ih leaves.2 (Or.imp_left implies)⟩
  | choice test first second first_ih second_ih =>
    exact ⟨first_ih leaves.1 implies, second_ih leaves.2 implies⟩
  | exit way =>
    cases way with
    | leave => exact implies leaves
    | again | stop => trivial

theorem LeavesWith.of_ready {shape : Shape} {v : Nat} {ready : Prop} (known : ready) :
    shape.LeavesWith v ready := by
  induction shape generalizing ready with
  | straight | loop => trivial
  | andThen first second first_ih second_ih => exact ⟨first_ih known, second_ih (.inl known)⟩
  | choice test first second first_ih second_ih => exact ⟨first_ih known, second_ih known⟩
  | exit way =>
    cases way with
    | leave => exact known
    | again | stop => trivial

end Shape

namespace Scope

def declare (scope : Scope) (v : Nat) : Scope :=
  { scope with visible := fun w => scope.visible w ∨ w = v }

def assign (scope : Scope) (v : Nat) : Scope :=
  { scope with ready := fun w => scope.ready w ∨ w = v }

def behind (scope : Scope) (shape : Shape) : Scope :=
  ⟨fun v => scope.visible v ∨ shape.Opens v, fun v => scope.ready v ∨ shape.Gains v⟩

variable (given : Nat → Prop)

/-- The accesses are in order: what is assigned or read is visible, what is read has been assigned,
and what is declared has not. -/
def Allows : Scope → List Access → Prop
  | _, [] => True
  | scope, .declare v :: rest => ¬ given v ∧ ¬ scope.ready v ∧ Allows (scope.declare v) rest
  | scope, .assign v :: rest => ¬ given v ∧ scope.visible v ∧ Allows (scope.assign v) rest
  | scope, .read v :: rest => scope.visible v ∧ scope.ready v ∧ Allows scope rest

end Scope

namespace Shape

variable (given : Nat → Prop)

def Fits : Shape → Scope → Prop
  | straight path, scope => scope.Allows given path
  | andThen first second, scope => first.Fits scope ∧ second.Fits (scope.behind first)
  | choice test first second, scope =>
    scope.Allows given test ∧ first.Fits scope ∧ second.Fits scope
  | loop _ body, scope => body.Fits scope
  | exit _, _ => True

end Shape

section Lexical

variable {given : Nat → Prop}

theorem Scope.Allows.lexical {scope : Scope} {path : List Access}
    (allows : scope.Allows given path) : Access.Lexical given scope.visible path := by
  induction path generalizing scope with
  | nil => trivial
  | cons access rest ih =>
    cases access with
    | declare v => exact ⟨allows.1, ih allows.2.2⟩
    | assign v =>
      have later : Access.Lexical given (scope.assign v).visible rest := ih allows.2.2
      exact ⟨allows.1, allows.2.1, later⟩
    | read v => exact ⟨allows.1, ih allows.2.2⟩

theorem Shape.Fits.lexical {shape : Shape} {scope : Scope} (fits : shape.Fits given scope) :
    shape.Lexical given scope.visible := by
  induction shape generalizing scope with
  | straight path => exact Scope.Allows.lexical fits
  | andThen first second first_ih second_ih => exact ⟨first_ih fits.1, second_ih fits.2⟩
  | choice test first second first_ih second_ih =>
    exact ⟨Scope.Allows.lexical fits.1, first_ih fits.2.1, second_ih fits.2.2⟩
  | loop scan body ih => exact ih fits
  | exit => trivial

theorem Access.Lexical.mono {path : List Access} {visible more : Nat → Prop}
    (lexical : Lexical given visible path) (known : ∀ v, visible v → more v) :
    Lexical given more path := by
  induction path generalizing visible more with
  | nil => trivial
  | cons access rest ih =>
    cases access with
    | declare w => exact ⟨lexical.1, ih lexical.2 fun v => Or.imp_left (known v)⟩
    | assign w => exact ⟨lexical.1, known w lexical.2.1, ih lexical.2.2 known⟩
    | read w => exact ⟨known w lexical.1, ih lexical.2 known⟩

theorem Access.lexical_append {path more : List Access} {visible : Nat → Prop} :
    Lexical given visible (path ++ more) ↔ Lexical given visible path ∧
      Lexical given (fun v => visible v ∨ declare v ∈ path) more := by
  induction path generalizing visible with
  | nil => simp [Lexical]
  | cons access rest ih =>
    cases access with
    | declare w => simp [Lexical, ih, and_assoc, or_assoc]
    | assign w => simp [Lexical, ih, and_assoc]
    | read w => simp [Lexical, ih, and_assoc]

theorem Shape.Opens.declare_mem {shape : Shape} {v : Nat} (opens : shape.Opens v) :
    .declare v ∈ shape.accesses := by
  induction shape with
  | straight => exact opens
  | andThen first second first_ih second_ih =>
    exact List.mem_append.mpr (opens.imp first_ih second_ih)
  | choice | loop | exit => exact opens.elim

/-- What is behind a declaration in the block of that is behind it in the source. -/
theorem Shape.Lexical.accesses {shape : Shape} {visible more : Nat → Prop}
    (lexical : shape.Lexical given visible) (known : ∀ v, visible v → more v) :
    Access.Lexical given more shape.accesses := by
  induction shape generalizing visible more with
  | straight path => exact Access.Lexical.mono lexical known
  | andThen first second first_ih second_ih =>
    refine Access.lexical_append.mpr ⟨first_ih lexical.1 known, second_ih lexical.2 ?_⟩
    exact fun v => Or.imp (known v) Opens.declare_mem
  | choice test first second first_ih second_ih =>
    refine Access.lexical_append.mpr ⟨lexical.1.mono known, Access.lexical_append.mpr ⟨?_, ?_⟩⟩
    · exact first_ih lexical.2.1 fun v before => .inl (known v before)
    · exact second_ih lexical.2.2 fun v before => .inl (.inl (known v before))
  | loop scan body ih => exact ih lexical known
  | exit => trivial

theorem Access.Lexical.visible_or_mem {path : List Access} {visible : Nat → Prop}
    (lexical : Lexical given visible path) :
    (∀ v, given v → declare v ∉ path ∧ assign v ∉ path) ∧
      ∀ v, read v ∈ path ∨ assign v ∈ path → visible v ∨ declare v ∈ path := by
  induction path generalizing visible with
  | nil => simp
  | cons access rest ih =>
    cases access with
    | declare w =>
      obtain ⟨apart, known⟩ := ih lexical.2
      refine ⟨fun v among => ⟨?_, by simpa using (apart v among).2⟩, fun v occurs => ?_⟩
      · rintro (_ | ⟨_, later⟩)
        · exact lexical.1 among
        · exact (apart v among).1 later
      · rcases known v (by simpa using occurs) with (before | rfl) | later
        · exact .inl before
        · exact .inr List.mem_cons_self
        · exact .inr (List.mem_cons_of_mem _ later)
    | assign w =>
      obtain ⟨apart, known⟩ := ih lexical.2.2
      refine ⟨fun v among => ⟨by simpa using (apart v among).1, ?_⟩, fun v occurs => ?_⟩
      · rintro (_ | ⟨_, later⟩)
        · exact lexical.1 among
        · exact (apart v among).2 later
      · by_cases here : v = w
        · exact .inl (here ▸ lexical.2.1)
        · exact (known v (by simpa [here] using occurs)).imp_right (List.mem_cons_of_mem _)
    | read w =>
      obtain ⟨apart, known⟩ := ih lexical.2
      refine ⟨by simpa using apart, fun v occurs => ?_⟩
      by_cases here : v = w
      · exact .inl (here ▸ lexical.1)
      · exact (known v (by simpa [here] using occurs)).imp_right (List.mem_cons_of_mem _)

end Lexical

section Paths

variable {given : Nat → Prop}

namespace Access

variable {ready : Nat → Prop}

theorem assigned_append {path more : List Access} : Assigned ready (path ++ more) ↔
    Assigned ready path ∧ Assigned (after ready path) more := by
  induction path generalizing ready with
  | nil => simp [Assigned, after]
  | cons access rest ih =>
    cases access with
    | declare | assign => exact ih
    | read v => simp only [List.cons_append, Assigned, after, ih, and_assoc]

theorem after_append (path more : List Access) :
    after ready (path ++ more) = after (after ready path) more := by
  induction path generalizing ready with
  | nil => rfl
  | cons access rest ih => cases access <;> exact ih

/-- What is assigned has been so from the start or by an access, with no declaration behind it. -/
theorem exists_of_after {path : List Access} {v : Nat} (known : after ready path v) :
    ready v ∧ declare v ∉ path ∨
      ∃ earlier middle, path = earlier ++ assign v :: middle ∧ declare v ∉ middle := by
  induction path generalizing ready with
  | nil => exact .inl ⟨known, by simp⟩
  | cons access rest ih =>
    have later (found : ∃ earlier middle, rest = earlier ++ assign v :: middle ∧
        declare v ∉ middle) : ∃ earlier middle, access :: rest = earlier ++ assign v :: middle ∧
          declare v ∉ middle := by
      obtain ⟨earlier, middle, rfl, still⟩ := found
      exact ⟨access :: earlier, middle, rfl, still⟩
    cases access with
    | declare w =>
      rcases ih known with ⟨before, still⟩ | found
      · exact .inl ⟨before.1, by simp [before.2, still]⟩
      · exact .inr (later found)
    | assign w =>
      rcases ih known with ⟨before | rfl, still⟩ | found
      · exact .inl ⟨before, by simp [still]⟩
      · exact .inr ⟨[], rest, rfl, still⟩
      · exact .inr (later found)
    | read w =>
      rcases ih known with ⟨before, still⟩ | found
      · exact .inl ⟨before, by simp [still]⟩
      · exact .inr (later found)

theorem Assigned.of_read {before behind : List Access} {v : Nat}
    (assigned : Assigned ready (before ++ read v :: behind)) : after ready before v :=
  (assigned_append.mp assigned).2.1

end Access

theorem Scope.Allows.sound {scope : Scope} {path : List Access} {ready : Nat → Prop}
    (allows : scope.Allows given path) (known : ∀ v, scope.ready v → ready v) :
    Access.Assigned ready path ∧
      ∀ v, scope.ready v ∨ .assign v ∈ path → Access.after ready path v := by
  induction path generalizing scope ready with
  | nil => exact ⟨trivial, fun v either => known v (by simpa using either)⟩
  | cons access rest ih =>
    cases access with
    | declare w =>
      have still : ∀ v, scope.ready v → ready v ∧ v ≠ w := by
        intro v before
        refine ⟨known v before, ?_⟩
        rintro rfl
        exact allows.2.1 before
      obtain ⟨assigned, later⟩ := ih allows.2.2 still
      exact ⟨assigned, fun v either => later v (either.imp_right fun here => by simpa using here)⟩
    | assign w =>
      have more : ∀ v, (scope.assign w).ready v → ready v ∨ v = w :=
        fun v => Or.imp_left (known v)
      obtain ⟨assigned, later⟩ := ih allows.2.2 more
      refine ⟨assigned, fun v either => later v ?_⟩
      rcases either with before | here
      · exact .inl (.inl before)
      · rcases List.mem_cons.mp here with same | behind
        · exact .inl (.inr (Access.assign.inj same))
        · exact .inr behind
    | read w =>
      obtain ⟨assigned, later⟩ := ih allows.2.2 known
      exact ⟨⟨known w allows.2.1, assigned⟩, fun v either => later v (by simpa using either)⟩

def Shape.Known (shape : Shape) (ready : Nat → Prop) (v : Nat) : Shape.Goal → Prop
  | .next => ready v ∨ shape.Gains v
  | .exit .leave => shape.LeavesWith v (ready v)
  | .exit .again => ready v
  | .exit .stop | .within => False

namespace Shape.Known

variable {ready : Nat → Prop} {v : Nat} {goal : Shape.Goal}

theorem of_choice {test : List Access} {first second : Shape}
    (known : (choice test first second).Known ready v goal) :
    first.Known ready v goal ∧ second.Known ready v goal := by
  cases goal with
  | next =>
    rcases known with before | gained
    · exact ⟨.inl before, .inl before⟩
    · exact ⟨.inr gained.1, .inr gained.2⟩
  | exit way =>
    cases way with
    | leave => exact known
    | again | stop => exact ⟨known, known⟩
  | within => exact known.elim

theorem of_before {first second : Shape} (away : goal ≠ .next)
    (known : (andThen first second).Known ready v goal) : first.Known ready v goal := by
  cases goal with
  | next => exact (away rfl).elim
  | exit way =>
    cases way with
    | leave => exact known.1
    | again | stop => exact known
  | within => exact known

theorem of_behind {first second : Shape} (known : (andThen first second).Known ready v goal) :
    second.Known (fun v => ready v ∨ first.Gains v) v goal := by
  cases goal with
  | next => exact or_assoc.mpr known
  | exit way =>
    cases way with
    | leave => exact known.2
    | again => exact .inl known
    | stop => exact known
  | within => exact known

theorem of_left {scan : Bool} {body : Shape} (known : (loop scan body).Known ready v .next) :
    body.Known ready v (.exit .leave) := by
  rcases known with before | gained
  · exact LeavesWith.of_ready before
  · exact LeavesWith.mono gained False.elim

theorem of_out {scan : Bool} {body : Shape} (away : goal.rejoins scan = false)
    (other : goal ≠ .exit .leave) (known : (loop scan body).Known ready v goal) :
    body.Known ready v goal := by
  cases goal with
  | next => cases away
  | exit way =>
    cases way with
    | leave => exact (other rfl).elim
    | again | stop => exact known
  | within => exact known

theorem of_rejoins {scan : Bool} {body : Shape} (rejoins : goal.rejoins scan = true)
    (before : ready v) : body.Known ready v goal := by
  cases goal with
  | next => exact .inl before
  | exit way =>
    cases way with
    | again => exact before
    | leave | stop => cases rejoins
  | within => cases rejoins

end Shape.Known

/-- Where all accesses are in order, every path reads assigned variables only. -/
theorem Shape.Path.sound {shape : Shape} {path : List Access} {goal : Shape.Goal}
    (taken : shape.Path path goal) {scope : Scope} {ready : Nat → Prop}
    (fits : shape.Fits given scope) (known : ∀ v, scope.ready v → ready v) :
    Access.Assigned ready path ∧
      ∀ v, shape.Known scope.ready v goal → Access.after ready path v := by
  induction taken generalizing scope ready with
  | broken => exact ⟨trivial, fun v never => never.elim⟩
  | straight path => exact Scope.Allows.sound fits known
  | andThen _ _ first_ih second_ih =>
    obtain ⟨assigned, between⟩ := first_ih fits.1 known
    obtain ⟨assigned', later⟩ := second_ih fits.2 between
    refine ⟨Access.assigned_append.mpr ⟨assigned, assigned'⟩, fun v found => ?_⟩
    rw [Access.after_append]
    exact later v found.of_behind
  | before away _ ih =>
    obtain ⟨assigned, later⟩ := ih fits.1 known
    exact ⟨assigned, fun v found => later v (found.of_before away)⟩
  | first _ ih =>
    obtain ⟨tested, between⟩ := Scope.Allows.sound fits.1 known
    obtain ⟨assigned, later⟩ := ih fits.2.1 fun v before => between v (.inl before)
    refine ⟨Access.assigned_append.mpr ⟨tested, assigned⟩, fun v found => ?_⟩
    rw [Access.after_append]
    exact later v (found.of_choice).1
  | second _ ih =>
    obtain ⟨tested, between⟩ := Scope.Allows.sound fits.1 known
    obtain ⟨assigned, later⟩ := ih fits.2.2 fun v before => between v (.inl before)
    refine ⟨Access.assigned_append.mpr ⟨tested, assigned⟩, fun v found => ?_⟩
    rw [Access.after_append]
    exact later v (found.of_choice).2
  | round _ rejoins _ body_ih rest_ih =>
    -- What is known in front of the loop still is behind a round, for no round forgets it.
    obtain ⟨assigned, between⟩ := body_ih fits known
    obtain ⟨assigned', later⟩ :=
      rest_ih fits fun v before => between v (Known.of_rejoins rejoins before)
    refine ⟨Access.assigned_append.mpr ⟨assigned, assigned'⟩, fun v found => ?_⟩
    rw [Access.after_append]
    exact later v found
  | left _ ih =>
    obtain ⟨assigned, later⟩ := ih fits known
    exact ⟨assigned, fun v found => later v found.of_left⟩
  | out _ away other ih =>
    obtain ⟨assigned, later⟩ := ih fits known
    exact ⟨assigned, fun v found => later v (found.of_out away other)⟩
  | exit way =>
    refine ⟨trivial, fun v found => known v ?_⟩
    cases way with
    | leave | again => exact found
    | stop => exact found.elim

end Paths

section Transfer

variable {given : Nat → Prop} {scope other : Scope}

/-- Of the variables of some accesses as much is known in the other scope, and what is declared
there has not been assigned either. -/
structure Scope.Serves (scope other : Scope) (path : List Access) : Prop where
  visible : ∀ v, .read v ∈ path ∨ .assign v ∈ path → scope.visible v → other.visible v
  ready : ∀ v, .read v ∈ path → scope.ready v → other.ready v
  less : ∀ v, .declare v ∈ path → other.ready v → scope.ready v

namespace Scope.Serves

variable {path part : List Access}

theorem of_subset (serves : scope.Serves other path) (inside : part ⊆ path) :
    scope.Serves other part :=
  ⟨fun v occurs => serves.visible v (occurs.imp (@inside _) (@inside _)),
    fun v read => serves.ready v (inside read), fun v new => serves.less v (inside new)⟩

theorem extend (serves : scope.Serves other path) (opened gained : Nat → Prop) :
    Serves ⟨fun v => scope.visible v ∨ opened v, fun v => scope.ready v ∨ gained v⟩
      ⟨fun v => other.visible v ∨ opened v, fun v => other.ready v ∨ gained v⟩ path :=
  ⟨fun v occurs => Or.imp_left (serves.visible v occurs),
    fun v read => Or.imp_left (serves.ready v read), fun v new => Or.imp_left (serves.less v new)⟩

theorem declare (serves : scope.Serves other path) (v : Nat) :
    (scope.declare v).Serves (other.declare v) path :=
  ⟨fun w occurs => Or.imp_left (serves.visible w occurs), serves.ready, serves.less⟩

theorem assign (serves : scope.Serves other path) (v : Nat) :
    (scope.assign v).Serves (other.assign v) path :=
  ⟨serves.visible, fun w read => Or.imp_left (serves.ready w read),
    fun w new => Or.imp_left (serves.less w new)⟩

end Scope.Serves

theorem Scope.Allows.transfer {path : List Access} (allows : scope.Allows given path)
    (serves : scope.Serves other path) : other.Allows given path := by
  induction path generalizing scope other with
  | nil => trivial
  | cons access rest ih =>
    have later := serves.of_subset (List.subset_cons_self access rest)
    cases access with
    | declare v =>
      refine ⟨allows.1, fun known => allows.2.1 ?_, ih allows.2.2 (later.declare v)⟩
      exact serves.less v List.mem_cons_self known
    | assign v =>
      refine ⟨allows.1, ?_, ih allows.2.2 (later.assign v)⟩
      exact serves.visible v (.inr List.mem_cons_self) allows.2.1
    | read v =>
      refine ⟨?_, serves.ready v List.mem_cons_self allows.2.1, ih allows.2.2 later⟩
      exact serves.visible v (.inl List.mem_cons_self) allows.1

theorem Shape.Fits.transfer {shape : Shape} (fits : shape.Fits given scope)
    (serves : scope.Serves other shape.accesses) : shape.Fits given other := by
  induction shape generalizing scope other with
  | straight path => exact Scope.Allows.transfer fits serves
  | andThen first second first_ih second_ih =>
    refine ⟨first_ih fits.1 (serves.of_subset (List.subset_append_left _ _)), ?_⟩
    exact second_ih fits.2
      ((serves.of_subset (List.subset_append_right _ _)).extend (first.Opens ·) (first.Gains ·))
  | choice test first second first_ih second_ih =>
    have tested := serves.of_subset (List.subset_append_left test _)
    have inside := serves.of_subset (List.subset_append_right test _)
    exact ⟨fits.1.transfer tested,
      first_ih fits.2.1 (inside.of_subset (List.subset_append_left _ _)),
      second_ih fits.2.2 (inside.of_subset (List.subset_append_right _ _))⟩
  | loop scan body ih => exact ih fits serves
  | exit => trivial

end Transfer

end StagedLexer
