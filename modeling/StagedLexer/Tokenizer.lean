import StagedLexer.Routine.Basic
import StagedLexer.Error

/-! Tokenizers: the rules with their tries, the stage in which streams start, and the scanning
routine as emitted source. -/
namespace StagedLexer

structure Settings (Ctx : Type) where
  rules : List (Rule Ctx) := []
  initialStage : Option String := none
  optimize : Bool := true

structure Tokenizer (Ctx : Type) where
  lexicon : Lexicon Ctx
  initialStage : Option String
  routine : Routine Ctx
  body : Code

namespace Settings

variable {Ctx : Type}

def stageText (stage : Option String) : String := Text.optional (stage.map Text.quote)

def describe (settings : Settings Ctx) : String :=
  "TokenizerBuilder \x7b rules: " ++ Text.bracketed (settings.rules.map Rule.describe) ++
    ", initial_stage: " ++ stageText settings.initialStage ++ ", optimize: " ++
    Reader.flagText settings.optimize ++ " \x7d"

/-- The initial stage, if no rule refers to it. -/
def unknownStage? (settings : Settings Ctx) : Option String :=
  settings.initialStage.filter fun stage =>
    !settings.rules.any fun rule => rule.stages.contains stage

def buildNoted (settings : Settings Ctx) : Except BuildError (Tokenizer Ctx × List Note) :=
  match settings.unknownStage? with
  | some stage => .error (.unknownStage stage)
  | none =>
    let (forest, notes) := Forest.build settings.rules settings.initialStage
    let lexicon : Lexicon Ctx := { rules := settings.rules.toArray, forest }
    let routine := Routine.ofLexicon lexicon
    let (body, more) :=
      if settings.optimize then routine.body.optimizeNoted else (routine.body, [])
    .ok ({ lexicon, initialStage := settings.initialStage, routine, body },
      notes ++ [Note.treeBuilt forest.size forest.stages] ++ more ++ [Note.routineBuilt])

def build (settings : Settings Ctx) : Except BuildError (Tokenizer Ctx) :=
  (·.1) <$> settings.buildNoted

end Settings

namespace Tokenizer

variable {Ctx : Type}

def stages (tokenizer : Tokenizer Ctx) : List String := tokenizer.lexicon.forest.stages

def boundReaders (tokenizer : Tokenizer Ctx) : List (Reader Ctx) :=
  tokenizer.routine.assembler.values

def source (tokenizer : Tokenizer Ctx) : String :=
  tokenizer.routine.assembler.function (Routine.signature none) tokenizer.body

def plainSource (tokenizer : Tokenizer Ctx) (context : Option String) : List String × String :=
  let (bound, names) := tokenizer.routine.assembler.boundNames
  (bound, (Routine.signature context).plainFunction tokenizer.body names)

/-- Adds a chunk to a stream and scans it; more text may follow. Without a state a stream starts in
the initial stage. -/
def write (tokenizer : Tokenizer Ctx) (chunk : Bytes) (state : Option StreamState) (ctx : Ctx) :
    Scan.Report :=
  match (state.getD (.fresh tokenizer.initialStage)).append chunk with
  | .ok state => tokenizer.lexicon.scan state ctx true
  | .error fault => { events := #[], notes := #[], result := .error fault }

def finish (tokenizer : Tokenizer Ctx) (state : StreamState) (ctx : Ctx) : Scan.Report :=
  tokenizer.lexicon.scan state ctx false

def tokenize (tokenizer : Tokenizer Ctx) (text : Bytes) (ctx : Ctx) : Scan.Report :=
  tokenizer.lexicon.scan { StreamState.fresh tokenizer.initialStage with chunk := text } ctx false

def describe (tokenizer : Tokenizer Ctx) : String :=
  "Tokenizer \x7b rules: " ++
    Text.bracketed (tokenizer.lexicon.rules.toList.map Rule.describe) ++ ", initial_stage: " ++
    Settings.stageText tokenizer.initialStage ++ ", stages: " ++
    Text.bracketed (tokenizer.stages.map Text.quote) ++ " \x7d"

end Tokenizer

end StagedLexer
