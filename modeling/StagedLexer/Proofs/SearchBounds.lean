import StagedLexer.Regex

/-! Matches of regular expressions end within the text: a search goes on behind a position only by
characters that stand there. -/
namespace StagedLexer

open StagedLexer.Text

/-- A character ends within the part of the text in which it is read. -/
theorem Text.Utf8.stop_of_stepBefore {text : Bytes} {stop i w : Nat} {c : Char}
    (read : stepBefore text stop i = .scalar c w) : i + w ≤ stop := by
  have unit_lt {k : Nat} {b : UInt8}
      (unit : (if i + k < stop then text[i + k]? else none) = some b) : i + k < stop := by
    split at unit
    · assumption
    · cases unit
  unfold stepBefore at read
  simp only at read
  -- A character of `w` code units is read from the first to the last of them.
  split at read
  · cases read
  next first =>
  have one := unit_lt first
  split at read
  · cases read
  · cases read
    exact one
  split at read
  · cases read
  next second =>
  have two := unit_lt second
  split at read
  · cases read
  split at read
  · cases read
    exact two
  split at read
  · cases read
  next third =>
  have three := unit_lt third
  split at read
  · cases read
  split at read
  · cases read
    exact three
  split at read
  · cases read
  next fourth =>
  have four := unit_lt fourth
  split at read
  · cases read
  · cases read
    exact four

private theorem Text.Utf8.stop_of_charAt? {text : Bytes} {i w : Nat} {c : Char}
    (read : charAt? text i = some (c, w)) : i + w ≤ text.size := by
  unfold charAt? at read
  split at read
  · next step =>
    cases read
    exact stop_of_stepBefore step
  · cases read

namespace Regex.Program

variable {program : Program} {text : Bytes}

private theorem advance_none (ways round i : Nat) (waiting : List Nat) (threads : Threads) :
    (advance program text none ways round i waiting threads).2 = threads := by
  induction waiting with
  | nil => rfl
  | cons index rest ih =>
    unfold advance
    split
    · rfl
    · simpa using ih
    · exact ih

private theorem search_within (ways : Nat) {low stop : Nat} :
    ∀ (fuel i : Nat) (best : Option Nat) (threads : Threads), low ≤ i →
      (threads.waiting.isEmpty = true ∨ i ≤ text.size) →
      (∀ found, best = some found → low ≤ found ∧ found ≤ text.size) →
      search program text ways fuel i best threads = some stop → low ≤ stop ∧ stop ≤ text.size := by
  intro fuel
  induction fuel with
  | zero => exact fun _ _ _ _ _ known ends => known stop ends
  | succ fuel ih =>
    intro i best threads above inside known ends
    unfold search at ends
    split at ends
    · exact known stop ends
    · next waiting =>
      have small := inside.resolve_left waiting
      refine ih _ _ _ ?_ ?_ ?_ ends
      · omega
      · -- Without a whole character nothing waits behind the position.
        cases next : Utf8.charAt? text i with
        | none =>
          left
          simp only [Option.map_none, advance_none]
          rfl
        | some read =>
          right
          exact Utf8.stop_of_charAt? next
      · intro found chosen
        split at chosen
        · cases chosen
          exact ⟨above, small⟩
        · exact known found chosen

theorem matchAt?_within {offset stop : Nat} (inside : offset ≤ text.size)
    (found : program.matchAt? text offset = some stop) : offset ≤ stop ∧ stop ≤ text.size := by
  unfold matchAt? at found
  simp only at found
  split at found
  · cases found
  · next ends =>
    split at found
    · cases found
    · cases found
      exact search_within _ _ _ _ _ (Nat.le_refl _) (.inr inside) (by simp) ends

end Regex.Program

end StagedLexer
