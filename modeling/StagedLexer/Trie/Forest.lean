import StagedLexer.Trie.Basic

/-! The tries of all stages. The known stages are those that the initial stage and the rules name,
in the order in which they are first named. Without a stage, and in an unknown one, only the rules
that are active everywhere apply; they have a trie of their own. -/
namespace StagedLexer

structure Forest (Ctx : Type) where
  tries : List (String × List (Branch Ctx)) := []
  stageless : List (Branch Ctx) := []
  size : Nat := 0

def distinct : List String → List String
  | [] => []
  | name :: rest => name :: (distinct rest).filter (· ≠ name)

namespace Forest

variable {Ctx : Type}

def stages (forest : Forest Ctx) : List String := forest.tries.map (·.1)

def roots (forest : Forest Ctx) (stage : Option String) : List (Branch Ctx) :=
  (stage.bind fun name => forest.tries.lookup name).getD forest.stageless

def insertIn (forest : Forest Ctx) (stage : String) (steps : List (Reader Ctx)) (rule : Nat) :
    Forest Ctx × List Note :=
  let inserted := Branch.insertAll steps rule forest.size (forest.roots (some stage))
  ({ forest with
      tries := forest.tries.map fun (name, branches) =>
        if name = stage then (name, inserted.result) else (name, branches)
      size := inserted.next }, inserted.notes)

def insertStageless (forest : Forest Ctx) (steps : List (Reader Ctx)) (rule : Nat) :
    Forest Ctx × List Note :=
  let inserted := Branch.insertAll steps rule forest.size forest.stageless
  ({ forest with stageless := inserted.result, size := inserted.next }, inserted.notes)

def insertInAll (steps : List (Reader Ctx)) (rule : Nat) :
    Forest Ctx → List String → Forest Ctx × List Note
  | forest, [] => (forest, [])
  | forest, stage :: rest =>
    let (forest, notes) := forest.insertIn stage steps rule
    let (forest, more) := insertInAll steps rule forest rest
    (forest, notes ++ more)

def insert (forest : Forest Ctx) (rule : Rule Ctx) (index : Nat) : Forest Ctx × List Note :=
  let steps := rule.reader.steps
  match rule.activity with
  | .everywhere =>
    let (forest, notes) := insertInAll steps index forest forest.stages
    -- In a stage that nothing names it is active as well.
    let (forest, more) := forest.insertStageless steps index
    (forest, notes ++ more)
  | .inStages stages => insertInAll steps index forest (distinct stages)
  | .nowhere => (forest, [.neverActive index])

def insertRules : Forest Ctx → (index : Nat) → List (Rule Ctx) → Forest Ctx × List Note
  | forest, _, [] => (forest, [])
  | forest, index, rule :: rest =>
    let (forest, notes) := forest.insert rule index
    let (forest, more) := insertRules forest (index + 1) rest
    (forest, notes ++ more)

def knownStages (rules : List (Rule Ctx)) (initialStage : Option String) : List String :=
  distinct (initialStage.toList ++ rules.flatMap Rule.stages)

def build (rules : List (Rule Ctx)) (initialStage : Option String) : Forest Ctx × List Note :=
  insertRules { tries := (knownStages rules initialStage).map fun stage => (stage, []) } 0 rules

def ofRules (rules : List (Rule Ctx)) (initialStage : Option String) : Forest Ctx :=
  (build rules initialStage).1

def branches (forest : Forest Ctx) : List (Branch Ctx) :=
  let all := (forest.tries.flatMap fun trie => Branch.preorderAll trie.2) ++
    Branch.preorderAll forest.stageless
  all.mergeSort fun a b => a.id ≤ b.id

end Forest

end StagedLexer
