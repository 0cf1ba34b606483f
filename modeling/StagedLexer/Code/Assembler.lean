import StagedLexer.Code.Basic
import StagedLexer.Reader.Basic

/-! Collecting the variables of a function of emitted source and the readers it calls, and the text
of the function. Readers that have no form of their own in emitted source are bound: the source
refers to them by a variable, one for every reader. -/
namespace StagedLexer

structure Assembler (Ctx : Type) where
  nextVar : Nat := 0
  bindings : List (Nat × Reader Ctx) := []

structure Signature where
  name : String
  generics : String
  params : List (Code × String)

namespace Assembler

variable {Ctx : Type}

def var (asm : Assembler Ctx) : Nat × Assembler Ctx :=
  (asm.nextVar, { asm with nextVar := asm.nextVar + 1 })

def bind (asm : Assembler Ctx) (reader : Reader Ctx) : Nat × Assembler Ctx :=
  match asm.bindings.find? fun binding => binding.2.id == reader.id with
  | some binding => (binding.1, asm)
  | none =>
    (asm.nextVar,
      { nextVar := asm.nextVar + 1, bindings := asm.bindings ++ [(asm.nextVar, reader)] })

def values (asm : Assembler Ctx) : List (Reader Ctx) := asm.bindings.map (·.2)

def boundNames (asm : Assembler Ctx) : List String × Code.Names :=
  Code.Names.nameAll {} (asm.bindings.map (·.1))

end Assembler

namespace Signature

def renderParams : List (Code × String) → Code.Names → String × Code.Names
  | [], names => ("", names)
  | [(param, type)], names =>
    let (text, names) := param.render names
    (text ++ ": " ++ type, names)
  | (param, type) :: rest, names =>
    let (text, names) := param.render names
    let (more, names) := renderParams rest names
    (text ++ ": " ++ type ++ ", " ++ more, names)

def plainFunction (signature : Signature) (body : Code) (names : Code.Names) : String :=
  let (params, names) := renderParams signature.params names
  let (text, _) := body.render names
  "pub fn " ++ signature.name ++ signature.generics ++ "(" ++ params ++ ") \x7b\n" ++ text ++
    "\x7d\n"

end Signature

/-- A function with its bound readers: without any it is a plain function, otherwise it takes them
in a slice, gives each a name and returns the function proper. -/
def Assembler.function {Ctx : Type} (asm : Assembler Ctx) (signature : Signature) (body : Code) :
    String :=
  let (bound, names) := asm.boundNames
  if asm.bindings.isEmpty then signature.plainFunction body names
  else
    let types := String.intercalate ", " (signature.params.map (·.2))
    let lets := bound.zipIdx.map fun (name, slot) =>
      "let " ++ name ++ " = &values[" ++ toString slot ++ "];\n"
    let (params, names) := Signature.renderParams signature.params names
    let (text, _) := body.render names
    "pub fn " ++ signature.name ++ signature.generics ++ "(values: &[Reader<C>]) -> impl Fn(" ++
      types ++ ") + '_ \x7b\n" ++ String.join lets ++ "move |" ++ params ++ "| \x7b\n" ++ text ++
      "\x7d\n\x7d\n"

end StagedLexer
