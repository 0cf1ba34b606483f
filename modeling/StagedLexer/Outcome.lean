import StagedLexer.Trie.Forest

/-! Trying the branches of a trie at one position. -/
namespace StagedLexer

inductive Outcome where
  | matched (rule stop : Nat)
  | failed (owner : Nat) (code : ErrorCode)
  | noMatch
  | endless
  deriving DecidableEq

namespace Outcome

def orElse (outcome : Outcome) (other : Unit → Outcome) : Outcome :=
  match outcome with
  | noMatch => other ()
  | outcome => outcome

end Outcome

namespace Branch

variable {Ctx : Type}

mutual
/-- Tries a branch at position `pos`. Behind its readers the children are tried before the rule of
the branch, which must end behind position `start`. -/
def attempt (text : Bytes) (ctx : Ctx) (start pos : Nat) : Branch Ctx → Outcome
  | ⟨_, readers, children, rule, owner⟩ =>
    match Reader.readAll text ctx readers pos with
    | .noMatch => .noMatch
    | .failed code => .failed owner code
    | .endless => .endless
    | .matched stop =>
      (attemptAll text ctx start stop children).orElse fun _ =>
        match rule with
        | some rule => if start < stop then .matched rule stop else .noMatch
        | none => .noMatch
def attemptAll (text : Bytes) (ctx : Ctx) (start pos : Nat) : List (Branch Ctx) → Outcome
  | [] => .noMatch
  | branch :: rest =>
    (attempt text ctx start pos branch).orElse fun _ => attemptAll text ctx start pos rest
end

mutual
theorem lt_of_attempt_eq_matched {text : Bytes} {ctx : Ctx} {start : Nat} :
    ∀ (pos : Nat) (branch : Branch Ctx) {rule stop : Nat},
      attempt text ctx start pos branch = .matched rule stop → start < stop
  | pos, ⟨_, readers, children, rule, owner⟩, r, stop, h => by
    unfold attempt at h
    split at h
    · cases h
    · cases h
    · cases h
    · next stop' _ =>
      unfold Outcome.orElse at h
      split at h
      · split at h
        · split at h
          · cases h; assumption
          · cases h
        · cases h
      · exact lt_of_attemptAll_eq_matched stop' children h
theorem lt_of_attemptAll_eq_matched {text : Bytes} {ctx : Ctx} {start : Nat} :
    ∀ (pos : Nat) (branches : List (Branch Ctx)) {rule stop : Nat},
      attemptAll text ctx start pos branches = .matched rule stop → start < stop
  | pos, [], r, stop, h => by cases h
  | pos, branch :: rest, r, stop, h => by
    unfold attemptAll Outcome.orElse at h
    split at h
    · exact lt_of_attemptAll_eq_matched pos rest h
    · exact lt_of_attempt_eq_matched pos branch h
end

end Branch

end StagedLexer
