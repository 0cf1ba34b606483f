import StagedLexer.Reader.Basic
import StagedLexer.StreamState

/-! Rules: a token type, the reader of its tokens, the stages in which the rule is active and the
stage that follows a match. -/
namespace StagedLexer

inductive Activity where
  | everywhere
  | inStages (stages : List String)
  | nowhere
  deriving DecidableEq

namespace Activity

def ofStages (stages : List String) : Activity :=
  if stages.isEmpty then nowhere else inStages stages

def describe : Activity → String
  | everywhere => "All"
  | inStages stages => "Stages(" ++ Text.bracketed (stages.map Text.quote) ++ ")"
  | nowhere => "Never"

end Activity

/-- A match as a stage transition sees it: `size` code units from position `start` of a text, found
in stage `stage`. -/
structure Match where
  text : Bytes
  start : Nat
  size : Nat
  stage : Option String

def Match.lexeme (m : Match) : Except Fault Bytes := m.text.slice m.start (m.start + m.size)

inductive Transition (Ctx : Type) where
  | stay
  | switch (stage : String)
  | computed (next : Match → Ctx → Except Fault (Option String))

structure Rule (Ctx : Type) where
  tokenType : String
  reader : Reader Ctx
  activity : Activity := .everywhere
  transition : Transition Ctx := .stay

namespace Transition

variable {Ctx : Type}

def next : Transition Ctx → Match → Ctx → Except Fault (Option String)
  | stay, _, _ => .ok none
  | switch stage, _, _ => .ok (some stage)
  | computed f, m, ctx => f m ctx

def target? : Transition Ctx → Option String
  | switch stage => some stage
  | _ => none

def describe : Transition Ctx → String
  | stay => "Unchanged"
  | switch stage => "Fixed(" ++ Text.quote stage ++ ")"
  | computed _ => "Computed"

end Transition

namespace Rule

variable {Ctx : Type}

def on (rule : Rule Ctx) (stages : List String) : Rule Ctx :=
  { rule with activity := .ofStages stages }

def goingTo (rule : Rule Ctx) (stage : String) : Rule Ctx :=
  { rule with transition := .switch stage }

def isActiveIn (rule : Rule Ctx) (stage : Option String) : Bool :=
  match rule.activity with
  | .everywhere => true
  | .inStages stages => stage.any stages.contains
  | .nowhere => false

def stages (rule : Rule Ctx) : List String :=
  (match rule.activity with
    | .inStages stages => stages
    | _ => []) ++ rule.transition.target?.toList

def describe (rule : Rule Ctx) : String :=
  "Rule \x7b token_type: " ++ Text.quote rule.tokenType ++ ", reader: " ++ rule.reader.describe ++
    ", on: " ++ rule.activity.describe ++ ", to: " ++ rule.transition.describe ++ " \x7d"

end Rule

end StagedLexer
