import Mathlib.Data.List.Forall2
import StagedLexer.Emission

/-! The scanning routine as text. With bound readers it takes them from a slice and gives each a
name; as a module of its own it imports them under the same names, and the text of its body is the
same. -/
namespace StagedLexer

variable {Ctx : Type}

/-- The lines that take bound readers from the slice, in the order of their slots. -/
def slotLines (names : List String) : String :=
  String.join (names.mapIdx fun slot name =>
    "let " ++ name ++ " = &values[" ++ toString slot ++ "];\n")

/-- The name of a scanning routine with its generic parameters, for a context type or for any. -/
def scanHead : (context : Option String) → String
  | some ctx => "pub fn scan" ++ ("<T, H: Handler<T, " ++ ctx ++ ">>")
  | none => "pub fn scan<T, C, H: Handler<T, C>>"

def scanParams (ctx : String) : List (String × String) :=
  [("rules", "&[Rule<T, " ++ ctx ++ ">]"), ("state", "&mut State"), ("handler", "&mut H"),
    ("ctx", "&" ++ ctx), ("streaming", "bool")]

def paramList (params : List (String × String)) : String :=
  String.intercalate ", " (params.map fun param => param.1 ++ ": " ++ param.2)

/-- A scanning routine with the given body. -/
def plainScan (context : Option String) (body : String) : String :=
  scanHead context ++ "(" ++ paramList (scanParams (context.getD "C")) ++ ") \x7b\n" ++ body ++
    "\x7d\n"

/-- A scanning routine that takes bound readers and calls them by the given names in its body. -/
def wrappedScan (names : List String) (body : String) : String :=
  scanHead none ++ "(values: &[Reader<C>]) -> impl Fn(" ++
    String.intercalate ", " ((scanParams "C").map (·.2)) ++ ") + '_ \x7b\n" ++ slotLines names ++
    "move |" ++ paramList (scanParams "C") ++ "| \x7b\n" ++ body ++ "\x7d\n\x7d\n"

namespace Signature

variable {signature : Signature} {front : String} {params : List (String × String)}
  {names : Code.Names} {body : Code}

theorem renderParams_literals (params : List (String × String)) :
    renderParams (params.map fun param => (.literal param.1, param.2)) names =
      (paramList params, names) := by
  induction params with
  | nil => rfl
  | cons param rest ih =>
    cases rest with
    | nil => simp [renderParams, Code.render, paramList]
    | cons next rest =>
      rw [List.map_cons] at ih
      rw [List.map_cons, List.map_cons, renderParams]
      · simp only [Code.render, ih]
        simp [paramList, String.append_assoc]
      · simp

/-- The parts of a signature as they stand in the text of its function. -/
structure Reads (signature : Signature) (front : String) (params : List (String × String)) :
    Prop where
  front : "pub fn " ++ signature.name ++ signature.generics = front
  params : signature.params = params.map fun param => (.literal param.1, param.2)

theorem Reads.plainFunction (reads : signature.Reads front params) :
    signature.plainFunction body names =
      front ++ "(" ++ paramList params ++ ") \x7b\n" ++ (body.render names).1 ++ "\x7d\n" := by
  rw [Signature.plainFunction, reads.params, renderParams_literals, reads.front]

theorem Reads.function (reads : signature.Reads front params) (asm : Assembler Ctx)
    (bound : asm.bindings.isEmpty = false) : asm.function signature body =
      front ++ "(values: &[Reader<C>]) -> impl Fn(" ++
        String.intercalate ", " (params.map (·.2)) ++ ") + '_ \x7b\n" ++
        slotLines asm.boundNames.1 ++ "move |" ++ paramList params ++ "| \x7b\n" ++
        (body.render asm.boundNames.2).1 ++ "\x7d\n\x7d\n" := by
  have types : (params.map fun param => (Code.literal param.1, param.2)).map (·.2) =
      params.map (·.2) := by
    rw [List.map_map]
    rfl
  simp only [Assembler.function, bound, Bool.false_eq_true, if_false, slotLines,
    List.mapIdx_eq_zipIdx_map, reads.params, types, renderParams_literals, reads.front]

theorem reads_scan (context : Option String) :
    (Routine.signature context).Reads (scanHead context) (scanParams (context.getD "C")) := by
  cases context with
  | none => exact ⟨by decide, rfl⟩
  | some ctx =>
    have name : "pub fn " ++ "scan" = "pub fn scan" := by decide
    exact ⟨congrArg (· ++ ("<T, H: Handler<T, " ++ ctx ++ ">>")) name, rfl⟩

end Signature

namespace Tokenizer

def slotNames (tokenizer : Tokenizer Ctx) : List String := tokenizer.routine.assembler.boundNames.1

/-- The text of the body, in which the bound readers have their names already. -/
def bodyText (tokenizer : Tokenizer Ctx) : String :=
  (tokenizer.body.render tokenizer.routine.assembler.boundNames.2).1

theorem plainSource_eq (tokenizer : Tokenizer Ctx) (context : Option String) :
    tokenizer.plainSource context =
      (tokenizer.slotNames, plainScan context tokenizer.bodyText) :=
  congrArg (tokenizer.slotNames, ·) (Signature.reads_scan context).plainFunction

theorem source_eq (tokenizer : Tokenizer Ctx) :
    tokenizer.source = if tokenizer.boundReaders.isEmpty then plainScan none tokenizer.bodyText
      else wrappedScan tokenizer.slotNames tokenizer.bodyText := by
  have same : tokenizer.boundReaders.isEmpty = tokenizer.routine.assembler.bindings.isEmpty := by
    simp [boundReaders, Assembler.values]
  have reads := Signature.reads_scan none
  rw [same]
  cases bound : tokenizer.routine.assembler.bindings.isEmpty with
  | true =>
    rw [source, Assembler.function, bound]
    exact reads.plainFunction
  | false => exact reads.function tokenizer.routine.assembler bound

end Tokenizer

namespace Code.Names

theorem length_nameAll (vars : List Nat) (names : Names) :
    (names.nameAll vars).1.length = vars.length := by
  induction vars generalizing names with
  | nil => rfl
  | cons v rest ih => simp only [nameAll, List.length_cons, ih]

end Code.Names

theorem Tokenizer.length_slotNames (tokenizer : Tokenizer Ctx) :
    tokenizer.slotNames.length = tokenizer.boundReaders.length := by
  simp [slotNames, Assembler.boundNames, Code.Names.length_nameAll, boundReaders, Assembler.values]

namespace Imports

/-- The line that imports a reader from a path under a name. -/
def useLine (path name : String) : String := "use " ++ path ++ " as " ++ name ++ ";\n"

def addAll (imports : Imports Ctx) (additions : List (Reader Ctx × String)) : Imports Ctx :=
  additions.foldl (fun imports addition => imports.add addition.1 addition.2) imports

variable {imports : Imports Ctx} {additions : List (Reader Ctx × String)} {reader : Reader Ctx}

@[simp] theorem contextType_addAll :
    (imports.addAll additions).contextType = imports.contextType := by
  induction additions generalizing imports with
  | nil => rfl
  | cons addition rest ih => exact ih

theorem path?_add (imports : Imports Ctx) (reader other : Reader Ctx) (path : String) :
    (imports.add other path).path? reader =
      if other.id = reader.id then some path else imports.path? reader := by
  by_cases same : other.id = reader.id <;> simp [path?, add, same]

/-- The path of a reader is the last one that has been added for its identity. -/
theorem path?_addAll : (imports.addAll additions).path? reader =
    (((additions.filter (·.1.id == reader.id)).getLast?).map (·.2)).or (imports.path? reader) := by
  induction additions generalizing imports with
  | nil => rfl
  | cons addition rest ih =>
    have step := path?_add imports reader addition.1 addition.2
    by_cases same : addition.1.id = reader.id
    · rw [if_pos same] at step
      rw [addAll, List.foldl_cons, ← addAll, ih, step, List.filter_cons_of_pos (by simpa using same),
        List.getLast?_cons]
      cases (rest.filter (·.1.id == reader.id)).getLast? <;> rfl
    · rw [if_neg same] at step
      rw [addAll, List.foldl_cons, ← addAll, ih, step, List.filter_cons_of_neg (by simpa using same)]

theorem path?_eq_none_iff : (imports.addAll additions).path? reader = none ↔
    (∀ addition ∈ additions, addition.1.id ≠ reader.id) ∧ imports.path? reader = none := by
  simp [path?_addAll]

variable {readers : List (Reader Ctx)} {names : List String}

/-- The lines are there if all readers have paths. -/
theorem useLines_eq_ok_iff (imports : Imports Ctx) (enough : names.length = readers.length)
    {lines : List String} :
    imports.useLines (readers.zip names) = .ok lines ↔
      ∃ paths, List.Forall₂ (fun reader path => imports.path? reader = some path) readers paths ∧
        lines = List.zipWith useLine paths names := by
  induction readers generalizing names lines with
  | nil =>
    constructor
    · intro made
      cases made
      exact ⟨[], .nil, rfl⟩
    · rintro ⟨paths, related, rfl⟩
      cases related
      rfl
  | cons reader rest ih =>
    obtain ⟨name, names, rfl⟩ := List.exists_cons_of_length_eq_add_one enough
    have enough : names.length = rest.length := Nat.succ.inj enough
    rw [List.zip_cons_cons, useLines]
    cases known : imports.path? reader with
    | none =>
      refine ⟨fun made => (by cases made), ?_⟩
      rintro ⟨paths, related, -⟩
      cases related with
      | cons first _ =>
        rw [known] at first
        cases first
    | some path =>
      constructor
      · intro made
        cases others : imports.useLines (rest.zip names) with
        | error e =>
          rw [others] at made
          cases made
        | ok more =>
          rw [others] at made
          cases made
          obtain ⟨paths, related, rfl⟩ := (ih enough).mp others
          exact ⟨path :: paths, .cons known related, rfl⟩
      · rintro ⟨paths, related, rfl⟩
        cases related with
        | cons first behind =>
          rw [known] at first
          cases first
          have others := (ih enough).mpr ⟨_, behind, rfl⟩
          simp only [others]
          rfl

/-- The first reader without a path is reported. -/
theorem useLines_eq_error_iff (imports : Imports Ctx) (enough : names.length = readers.length)
    {e : BuildError} :
    imports.useLines (readers.zip names) = .error e ↔
      ∃ before reader after, readers = before ++ reader :: after ∧
        (∀ other ∈ before, imports.path? other ≠ none) ∧ imports.path? reader = none ∧
        e = .missingImport reader.describe := by
  induction readers generalizing names with
  | nil => simp [useLines]
  | cons reader rest ih =>
    obtain ⟨name, names, rfl⟩ := List.exists_cons_of_length_eq_add_one enough
    have enough : names.length = rest.length := Nat.succ.inj enough
    rw [List.zip_cons_cons, useLines]
    cases known : imports.path? reader with
    | none =>
      constructor
      · intro failed
        cases failed
        exact ⟨[], reader, rest, rfl, by simp, known, rfl⟩
      · rintro ⟨before, missing, after, split, present, -, rfl⟩
        cases before with
        | nil =>
          cases split
          rfl
        | cons first before =>
          cases split
          exact absurd known (present reader (List.mem_cons_self ..))
    | some path =>
      constructor
      · intro failed
        have others : imports.useLines (rest.zip names) = .error e := by
          cases others : imports.useLines (rest.zip names) with
          | error e' =>
            rw [others] at failed
            cases failed
            rfl
          | ok more =>
            rw [others] at failed
            cases failed
        obtain ⟨before, missing, after, rfl, present, none, rfl⟩ := (ih enough).mp others
        refine ⟨reader :: before, missing, after, rfl, ?_, none, rfl⟩
        rintro other (_ | ⟨_, member⟩)
        · simp [known]
        · exact present other member
      · rintro ⟨before, missing, after, split, present, none, rfl⟩
        cases before with
        | nil =>
          cases split
          rw [known] at none
          cases none
        | cons first before =>
          cases split
          have others := (ih enough).mpr ⟨before, missing, after, rfl,
            fun other member => present other (List.mem_cons_of_mem _ member), none, rfl⟩
          simp only [others]
          rfl

theorem useLines_congr {other : Imports Ctx}
    (same : ∀ reader ∈ readers, imports.path? reader = other.path? reader) (names : List String) :
    imports.useLines (readers.zip names) = other.useLines (readers.zip names) := by
  induction readers generalizing names with
  | nil => rfl
  | cons reader rest ih =>
    cases names with
    | nil => rfl
    | cons name names =>
      rw [List.zip_cons_cons, useLines, useLines, same reader (List.mem_cons_self ..),
        ih fun reader member => same reader (List.mem_cons_of_mem _ member)]

end Imports

namespace Tokenizer

variable {tokenizer : Tokenizer Ctx} {imports : Imports Ctx}

theorem emitModule_eq : tokenizer.emitModule imports =
    (imports.useLines (tokenizer.boundReaders.zip tokenizer.slotNames)).map fun uses =>
      moduleHeader ++ String.join uses ++ "\n" ++
        plainScan (tokenizer.contextOf imports) tokenizer.bodyText := by
  rw [emitModule, plainSource_eq]
  dsimp only
  cases imports.useLines (tokenizer.boundReaders.zip tokenizer.slotNames) <;> rfl

/-- Only the paths of bound readers matter. -/
theorem emitModule_congr {other : Imports Ctx} (context : imports.contextType = other.contextType)
    (same : ∀ reader ∈ tokenizer.boundReaders, imports.path? reader = other.path? reader) :
    tokenizer.emitModule imports = tokenizer.emitModule other := by
  rw [emitModule_eq, emitModule_eq, Imports.useLines_congr same, contextOf, contextOf, context]

section Given

variable {contextType : Option String} {additions additions' : List (Reader Ctx × String)}

/-- The path of a reader is the last one among the imports of the reader. -/
theorem path?_given (reader : Reader Ctx) :
    (Imports.addAll { contextType } additions).path? reader =
      (additions.filter (·.1.id == reader.id)).getLast?.map (·.2) := by
  have none : Imports.path? { contextType } reader = none := rfl
  rw [Imports.path?_addAll, none, Option.or_none]

theorem emitModule_eq_error_iff {e : BuildError} :
    tokenizer.emitModule (Imports.addAll { contextType } additions) = .error e ↔
      ∃ before reader after, tokenizer.boundReaders = before ++ reader :: after ∧
        (∀ other ∈ before, ∃ addition ∈ additions, addition.1.id = other.id) ∧
        (∀ addition ∈ additions, addition.1.id ≠ reader.id) ∧
        e = .missingImport reader.describe := by
  let given : Imports Ctx := Imports.addAll { contextType } additions
  have missing (reader : Reader Ctx) : given.path? reader = none ↔
      ∀ addition ∈ additions, addition.1.id ≠ reader.id := by
    have none : Imports.path? { contextType } reader = none := rfl
    rw [Imports.path?_eq_none_iff, and_iff_left none]
  have failed := Imports.useLines_eq_error_iff given tokenizer.length_slotNames (e := e)
  simp only [missing, ne_eq, not_forall, not_not, exists_prop] at failed
  rw [← failed, emitModule_eq]
  cases given.useLines (tokenizer.boundReaders.zip tokenizer.slotNames) <;> simp [Except.map]

theorem emitModule_eq_ok_iff {text : String} :
    tokenizer.emitModule (Imports.addAll { contextType } additions) = .ok text ↔
      ∃ paths, List.Forall₂ (fun reader path =>
          (additions.filter (·.1.id == reader.id)).getLast?.map (·.2) = some path)
            tokenizer.boundReaders paths ∧
        text = moduleHeader ++ String.join (List.zipWith Imports.useLine paths tokenizer.slotNames) ++
          "\n" ++ plainScan (tokenizer.contextOf (Imports.addAll { contextType } additions))
            tokenizer.bodyText := by
  let given : Imports Ctx := Imports.addAll { contextType } additions
  have made {lines : List String} := @Imports.useLines_eq_ok_iff Ctx _ _ given
    tokenizer.length_slotNames lines
  simp only [given, path?_given] at made
  rw [emitModule_eq]
  constructor
  · intro emitted
    cases uses : given.useLines (tokenizer.boundReaders.zip tokenizer.slotNames) with
    | error e =>
      rw [uses] at emitted
      cases emitted
    | ok lines =>
      rw [uses] at emitted
      obtain ⟨paths, related, rfl⟩ := made.mp uses
      exact ⟨paths, related, (Except.ok.inj emitted).symm⟩
  · rintro ⟨paths, related, rfl⟩
    rw [made.mpr ⟨paths, related, rfl⟩]
    rfl

/-- The order of imports of distinct readers does not matter. -/
theorem emitModule_of_same_imports
    (same : ∀ id, additions.filter (·.1.id == id) = additions'.filter (·.1.id == id)) :
    tokenizer.emitModule (Imports.addAll { contextType } additions) =
      tokenizer.emitModule (Imports.addAll { contextType } additions') := by
  apply emitModule_congr (Imports.contextType_addAll.trans Imports.contextType_addAll.symm)
  intro reader _
  rw [path?_given, path?_given, same]

/-- Imports of readers that are not bound do not matter. -/
theorem emitModule_filter_bound :
    tokenizer.emitModule (Imports.addAll { contextType } (additions.filter fun addition =>
        (tokenizer.boundReaders.map Reader.id).contains addition.1.id)) =
      tokenizer.emitModule (Imports.addAll { contextType } additions) := by
  apply emitModule_congr (Imports.contextType_addAll.trans Imports.contextType_addAll.symm)
  intro reader bound
  rw [path?_given, path?_given, List.filter_filter]
  congr 2
  apply List.filter_congr
  intro addition _
  by_cases same : addition.1.id = reader.id
  · have listed : (tokenizer.boundReaders.map Reader.id).contains addition.1.id = true :=
      List.contains_iff_mem.mpr (same ▸ List.mem_map_of_mem bound)
    rw [listed, Bool.and_true]
  · rw [beq_eq_false_iff_ne.mpr same, Bool.false_and]

end Given

/-- The module of a tokenizer agrees with its source. There is a module exactly if all bound readers
are imported, by identity, and the first one that is not is reported. It consists of a header, one
line for each bound reader in the order of the slots, which imports the reader under the name of its
slot, and a function whose body has the text of the body in the source. It is the same for all orders
of imports that keep the order among those of one reader, and imports of other readers than the bound
ones do not matter. -/
theorem module_agrees_with_source (tokenizer : Tokenizer Ctx) (contextType : Option String) :
    let given (additions : List (Reader Ctx × String)) : Imports Ctx :=
      Imports.addAll { contextType } additions
    (tokenizer.slotNames.length = tokenizer.boundReaders.length ∧
      tokenizer.source = if tokenizer.boundReaders.isEmpty then plainScan none tokenizer.bodyText
        else wrappedScan tokenizer.slotNames tokenizer.bodyText) ∧
    (∀ additions e, tokenizer.emitModule (given additions) = .error e ↔
      ∃ before reader after, tokenizer.boundReaders = before ++ reader :: after ∧
        (∀ other ∈ before, ∃ addition ∈ additions, addition.1.id = other.id) ∧
        (∀ addition ∈ additions, addition.1.id ≠ reader.id) ∧
        e = .missingImport reader.describe) ∧
    (∀ additions text, tokenizer.emitModule (given additions) = .ok text ↔
      ∃ paths, List.Forall₂ (fun reader path =>
          (additions.filter (·.1.id == reader.id)).getLast?.map (·.2) = some path)
            tokenizer.boundReaders paths ∧
        text = moduleHeader ++ String.join (List.zipWith Imports.useLine paths tokenizer.slotNames) ++
          "\n" ++ plainScan (tokenizer.contextOf (given additions)) tokenizer.bodyText) ∧
    (∀ additions additions',
      (∀ id, additions.filter (·.1.id == id) = additions'.filter (·.1.id == id)) →
        tokenizer.emitModule (given additions) = tokenizer.emitModule (given additions')) ∧
    ∀ additions, tokenizer.emitModule (given (additions.filter fun addition =>
        (tokenizer.boundReaders.map Reader.id).contains addition.1.id)) =
      tokenizer.emitModule (given additions) := by
  intro given
  refine ⟨⟨tokenizer.length_slotNames, tokenizer.source_eq⟩, ?_, ?_, ?_, ?_⟩
  · exact fun additions e => emitModule_eq_error_iff
  · exact fun additions text => emitModule_eq_ok_iff
  · exact fun additions additions' same => emitModule_of_same_imports same
  · exact fun additions => emitModule_filter_bound

/-- Two custom readers, imported in either order. -/
theorem module_agrees_with_source_swapped :
    let first : Reader Unit := .leaf 1 (.custom fun _ offset _ => .matched offset)
    let second : Reader Unit := .leaf 2 (.custom fun _ _ _ => .noMatch)
    let settings : Settings Unit :=
      { rules := [{ tokenType := "a", reader := first }, { tokenType := "b", reader := second }] }
    let additions := [(first, "crate::first"), (second, "crate::second")]
    ∃ tokenizer, settings.build = .ok tokenizer ∧ tokenizer.boundReaders.map Reader.id = [1, 2] ∧
      tokenizer.emitModule (Imports.addAll {} additions) =
        tokenizer.emitModule (Imports.addAll {} additions.reverse) := by
  intro first second settings additions
  refine ⟨_, rfl, rfl, ?_⟩
  apply (module_agrees_with_source _ none).2.2.2.1
  intro id
  have ids : first.id = 1 ∧ second.id = 2 := ⟨rfl, rfl⟩
  cases one : (1 : Nat) == id with
  | true =>
    obtain rfl := eq_of_beq one
    rfl
  | false =>
    simp only [additions, List.reverse_cons, List.reverse_nil, List.nil_append, List.cons_append,
      List.filter, ids, one]

end Tokenizer

end StagedLexer
