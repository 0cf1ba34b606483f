import StagedLexer.Folder
import StagedLexer.Tokenizer

/-! The scanning routine as a module of emitted source that stands alone. The readers that it calls
are imported under the names by which it refers to them. -/
namespace StagedLexer

variable {Ctx : Type}

structure Imports (Ctx : Type) where
  paths : List (Nat × String) := []
  contextType : Option String := none

namespace Imports

def add (imports : Imports Ctx) (reader : Reader Ctx) (path : String) : Imports Ctx :=
  { imports with paths := (reader.id, path) :: imports.paths }

def path? (imports : Imports Ctx) (reader : Reader Ctx) : Option String :=
  (imports.paths.find? (·.1 == reader.id)).map (·.2)

def useLines (imports : Imports Ctx) : List (Reader Ctx × String) → Except BuildError (List String)
  | [] => .ok []
  | (reader, name) :: rest =>
    match imports.path? reader with
    | none => .error (.missingImport reader.describe)
    | some path => do
      let more ← imports.useLines rest
      return ("use " ++ path ++ " as " ++ name ++ ";\n") :: more

end Imports

def moduleHeader : String :=
  "// Generated by streamlex. Do not edit.\n" ++
    "#![allow(unused_mut, unused_parens, unused_variables, non_upper_case_globals, clippy::all)]\n\n" ++
    "use streamlex::\x7bHandler, Rule, State\x7d;\n"

namespace Tokenizer

/-- The context type of an emitted routine. Without a given one it is any, unless readers are
imported: these belong to a context, which is then the empty one. -/
def contextOf (tokenizer : Tokenizer Ctx) (imports : Imports Ctx) : Option String :=
  imports.contextType.or (if tokenizer.boundReaders.isEmpty then none else some "()")

def emitModule (tokenizer : Tokenizer Ctx) (imports : Imports Ctx) : Except BuildError String := do
  let (names, source) := tokenizer.plainSource (tokenizer.contextOf imports)
  let uses ← imports.useLines (tokenizer.boundReaders.zip names)
  return moduleHeader ++ String.join uses ++ "\n" ++ source

def emissionNote (tokenizer : Tokenizer Ctx) : Note := .moduleEmitted tokenizer.boundReaders.length

def writeModule (tokenizer : Tokenizer Ctx) (imports : Imports Ctx) (path : String) :
    Except BuildError Folder × List Note :=
  match tokenizer.emitModule imports with
  | .error e => (.error e, [])
  | .ok source =>
    match Folder.write [] path source with
    | .error fault => (.error (.file fault), [tokenizer.emissionNote])
    | .ok folder => (.ok folder, [tokenizer.emissionNote, .formatterMissing])

end Tokenizer

end StagedLexer
