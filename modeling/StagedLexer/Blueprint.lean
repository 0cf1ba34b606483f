import StagedLexer.Reader.Build
import StagedLexer.Tokenizer

/-! Descriptions of readers, rules and tokenizers, for configurations that come from outside. A
description refers to readers described before it by name; building it makes a new reader for every
other part, each with an identity of its own. Parts are built in the order in which they stand, and
the first error ends the building. -/
namespace StagedLexer

variable {Ctx : Type}

inductive Blueprint (Ctx : Type) where
  | named (name : String)
  | never
  | always
  | atEnd
  | skip (count : Nat)
  | text (units : List UInt8)
  | textAnyCase (units : List UInt8)
  | oneOf (units : List UInt8)
  | noneOf (units : List UInt8)
  | charAnyCase (c : Char)
  | charRange (lo hi : UInt8)
  | charSet (ranges : List (UInt8 × UInt8))
  | regex (pattern : String)
  | custom (run : Bytes → Nat → Ctx → Reading)
  | sequence (items : List (Blueprint Ctx))
  | alternation (items : List (Blueprint Ctx))
  | repetition (inner : Blueprint Ctx) (min : Nat) (max : Option Nat)
  | optional (inner : Blueprint Ctx)
  | lookahead (inner : Blueprint Ctx)
  | seek (inner : Blueprint Ctx) (inclusive openEnd : Bool)

abbrev Definitions (Ctx : Type) := List (String × Reader Ctx)

abbrev Building := StateT Nat (Except BuildError)

namespace Blueprint

/-- Takes three identities and gives the first one; no reader needs more. -/
def newId : Building Nat := fun next => .ok (next, next + 3)

mutual
def build (definitions : Definitions Ctx) : Blueprint Ctx → Building (Reader Ctx)
  | named name =>
    match definitions.lookup name with
    | some reader => return reader
    | none => return .never (← newId)
  | never => return .never (← newId)
  | always => return .always (← newId)
  | atEnd => return .atEnd (← newId)
  | skip count => return .skip (← newId) count
  | text units => return .text (← newId) units
  | textAnyCase units => return .textAnyCase (← newId) units
  | oneOf units => return .oneOf (← newId) units
  | noneOf units => return .noneOf (← newId) units
  | charAnyCase c => do Reader.charAnyCase (← newId) c
  | charRange lo hi => do Reader.charRange (← newId) lo hi
  | charSet ranges =>
    return .ofSet (← newId) (ranges.foldl (fun set (lo, hi) => set.insertRange lo hi) .empty)
  | regex pattern => do Reader.regex (← newId) pattern
  | custom run => return .custom (← newId) run
  | sequence items => do
    let items ← buildAll definitions items
    return .inOrder (← newId) items
  | alternation items => do
    let items ← buildAll definitions items
    return .firstOf (← newId) items
  | repetition inner min max => do
    let inner ← build definitions inner
    return .times (← newId) inner min max
  | optional inner => do
    let inner ← build definitions inner
    return .orNothing (← newId) inner
  | lookahead inner => do
    let inner ← build definitions inner
    return .ahead (← newId) inner
  | seek inner inclusive openEnd => do
    let inner ← build definitions inner
    return .upTo (← newId) inner inclusive openEnd
def buildAll (definitions : Definitions Ctx) :
    List (Blueprint Ctx) → Building (List (Reader Ctx))
  | [] => return []
  | item :: rest => do
    let reader ← build definitions item
    let readers ← buildAll definitions rest
    return reader :: readers
end

def buildDefinitions (definitions : Definitions Ctx) :
    List (String × Blueprint Ctx) → Building (Definitions Ctx)
  | [] => return definitions
  | (name, blueprint) :: rest => do
    let reader ← build definitions blueprint
    buildDefinitions ((name, reader) :: definitions) rest

end Blueprint

structure RuleBlueprint (Ctx : Type) where
  tokenType : String
  reader : Blueprint Ctx
  activity : Activity := .everywhere
  transition : Transition Ctx := .stay

def RuleBlueprint.build (definitions : Definitions Ctx) (blueprint : RuleBlueprint Ctx) :
    Building (Rule Ctx) := do
  let reader ← blueprint.reader.build definitions
  return {
    tokenType := blueprint.tokenType, reader
    activity := blueprint.activity, transition := blueprint.transition }

structure SettingsBlueprint (Ctx : Type) where
  definitions : List (String × Blueprint Ctx) := []
  rules : List (RuleBlueprint Ctx) := []
  initialStage : Option String := none
  optimize : Bool := true

def SettingsBlueprint.build (blueprint : SettingsBlueprint Ctx) :
    Building (Settings Ctx × Definitions Ctx) := do
  let definitions ← Blueprint.buildDefinitions [] blueprint.definitions
  let rules ← blueprint.rules.mapM (RuleBlueprint.build definitions)
  return ({ rules, initialStage := blueprint.initialStage, optimize := blueprint.optimize },
    definitions)

def Building.result {α : Type} (building : Building α) : Except BuildError α :=
  (·.1) <$> building.run 0

end StagedLexer
