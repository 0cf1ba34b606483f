import StagedLexer.JsonTokens
import StagedLexer.Proofs.SearchStates

/-! Numbers in JSON texts. A search with the pattern of a number finds the longest number at a
position. Text that is added behind it changes this only where a point or the letter of an exponent
follows. -/
namespace StagedLexer.JsonTokens

open Regex Text

mutual

private theorem eq_of_same {a b : Expr} (same : a.same b = true) : a = b := by
  cases a <;> cases b <;>
    simp only [Expr.same, Bool.and_eq_true, beq_iff_eq, Bool.false_eq_true] at same
  case empty.empty => rfl
  case literal.literal => rw [same]
  case oneOf.oneOf => rw [same.1, same.2]
  case look.look => rw [same]
  case repetition.repetition =>
    rw [same.1.1.1, same.1.1.2, same.1.2, eq_of_same same.2]
  case capture.capture => rw [same.1, eq_of_same same.2]
  case concat.concat => rw [eq_of_allSame same]
  case alternation.alternation => rw [eq_of_allSame same]

private theorem eq_of_allSame {as bs : List Expr} (same : Expr.allSame as bs = true) :
    as = bs := by
  cases as <;> cases bs <;>
    simp only [Expr.allSame, Bool.and_eq_true, Bool.false_eq_true] at same
  case nil.nil => rfl
  case cons.cons => rw [eq_of_same same.1, eq_of_allSame same.2]

end

/-- How far a number has come. -/
inductive NumberState where
  | start
  | minus
  | zero
  | whole
  | point
  | fraction
  | letter
  | sign
  | power
  deriving DecidableEq

namespace NumberState

def isDigit (code : Nat) : Bool := 0x30 ≤ code && code ≤ 0x39

def leading (code : Nat) : Option NumberState :=
  if code = 0x30 then some zero else if isDigit code then some whole else none

def exponent (code : Nat) : Option NumberState :=
  if code = 0x65 || code = 0x45 then some letter else none

def next (code : Nat) : NumberState → Option NumberState
  | start => if code = 0x2d then some minus else leading code
  | minus => leading code
  | zero => if code = 0x2e then some point else exponent code
  | whole =>
    if isDigit code then some whole else if code = 0x2e then some point else exponent code
  | point => if isDigit code then some fraction else none
  | fraction => if isDigit code then some fraction else exponent code
  | letter =>
    if code = 0x2b || code = 0x2d then some sign else if isDigit code then some power else none
  | sign | power => if isDigit code then some power else none

def accepts : NumberState → Bool
  | zero | whole | fraction | power => true
  | start | minus | point | letter | sign => false

/-- The length of the longest start of the text with which a number is complete. -/
def longest : NumberState → List UInt8 → Option Nat
  | state, [] => if state.accepts then some 0 else none
  | state, b :: rest =>
    ((state.next b.toNat).bind fun state => (longest state rest).map (· + 1)).or
      (if state.accepts then some 0 else none)

/-- The instructions that wait when a number has come so far. -/
def waiting : NumberState → List Nat
  | start => [16, 11, 14]
  | minus => [11, 14]
  | zero => [9, 5, 0]
  | whole => [13, 9, 5, 0]
  | point => [8]
  | fraction => [8, 5, 0]
  | letter => [3, 2]
  | sign => [2]
  | power => [2, 0]

end NumberState

def numberProgram : Program where
  insts :=
    let digit : CodeSet := ⟨#[(0x30, 0x39)]⟩
    #[.accept, .split [2, 0], .char digit 1, .char ⟨#[(0x2b, 0x2b), (0x2d, 0x2d)]⟩ 2, .split [3, 2],
      .char ⟨#[(0x45, 0x45), (0x65, 0x65)]⟩ 4, .split [5, 0], .split [8, 6], .char digit 7,
      .char ⟨#[(0x2e, 0x2e)]⟩ 8, .split [9, 6], .char ⟨#[(0x30, 0x30)]⟩ 10, .split [13, 10],
      .char digit 12, .char ⟨#[(0x31, 0x39)]⟩ 12, .split [11, 14], .char ⟨#[(0x2d, 0x2d)]⟩ 15,
      .split [16, 15]]
  start := 17
  nullable := false
  isLenient := false

private def numberExpr : Expr :=
  let digit : Expr := .oneOf true ⟨#[(0x30, 0x39)]⟩
  .concat [.repetition 0 (some 1) true (.literal [0x2d]),
    .capture 1 (.alternation [.literal [0x30],
      .concat [.oneOf true ⟨#[(0x31, 0x39)]⟩, .repetition 0 none true digit]]),
    .repetition 0 (some 1) true (.capture 2 (.concat [.literal [0x2e],
      .repetition 1 none true digit])),
    .repetition 0 (some 1) true (.capture 3 (.concat [.oneOf true ⟨#[(0x45, 0x45), (0x65, 0x65)]⟩,
      .repetition 0 (some 1) true (.oneOf true ⟨#[(0x2b, 0x2b), (0x2d, 0x2d)]⟩),
      .repetition 1 none true digit]))]

private theorem parse_numberPattern :
    (Pattern.parse numberPattern).toOption.bind (fun parsed => (Expr.ofPattern parsed).toOption) =
      some numberExpr := by
  -- The result is compared by a test, for a test can be evaluated.
  have reads : ((Pattern.parse numberPattern).toOption.bind
      fun parsed => (Expr.ofPattern parsed).toOption).any (·.same numberExpr) = true := by
    decide +kernel
  obtain ⟨expr, parsed, same⟩ := (Option.any_eq_true _ _).mp reads
  rw [parsed, eq_of_same same]

private theorem ofExpr_numberExpr : Program.ofExpr numberExpr = .ok numberProgram := by
  have forward : (Automaton.ofExpr false numberExpr).toOption.isSome := by
    decide +kernel
  have backward : (Automaton.ofExpr true numberExpr).toOption.isSome := by
    decide +kernel
  unfold Program.ofExpr
  cases first : Automaton.ofExpr false numberExpr with
  | error fault => simp [first, Except.toOption] at forward
  | ok there =>
    cases second : Automaton.ofExpr true numberExpr with
    | error fault => simp [second, Except.toOption] at backward
    | ok back => rfl

theorem number_eq : number = .ok (.leaf 0 (.regex ⟨numberPattern, numberProgram⟩)) := by
  have regex : Regex.ofPattern numberPattern = .ok ⟨numberPattern, numberProgram⟩ := by
    have parsed := parse_numberPattern
    unfold Regex.ofPattern
    cases parse : Pattern.parse numberPattern with
    | error cause => simp [parse, Except.toOption] at parsed
    | ok pattern =>
      cases expr : Expr.ofPattern pattern with
      | error fault => simp [parse, expr, Except.toOption] at parsed
      | ok expr' =>
        obtain rfl : expr' = numberExpr := by simpa [parse, expr, Except.toOption] using parsed
        simp only [expr, bind, Except.bind, ofExpr_numberExpr]
  rw [number, Reader.regex, regex]

namespace NumberState

private theorem stepOn_ascii (state : NumberState) : ∀ code < 128,
    numberProgram.stepOn (·.contains code) state.waiting [] [] =
      (state.accepts, ((state.next code).map waiting).getD []) := by
  cases state <;> decide +kernel

private theorem stepOn_none (state : NumberState) :
    numberProgram.stepOn (fun _ => false) state.waiting [] [] = (state.accepts, []) := by
  cases state <;> rfl

/-- The instruction is no condition, and the code points of its set are those of ASCII characters. -/
private def isPlain : Inst → Bool
  | .char set _ => set.ranges.all fun range => 0 < range.1 && range.2 < 128
  | .look _ _ => false
  | _ => true

private theorem isPlain_of_getElem? {index : Nat} {inst : Inst}
    (found : numberProgram.insts[index]? = some inst) : isPlain inst = true := by
  have all : numberProgram.insts.all isPlain := by decide +kernel
  exact Array.all_eq_true'.mp all inst (Array.mem_of_getElem? found)

/-- A character that is no code unit below 128 does not continue a number. -/
private theorem stepOn_foreign (state : NumberState) {text : Bytes} {i : Nat}
    (foreign : ∀ b, text[i]? = some b → 128 ≤ b.toNat) :
    numberProgram.stepOn (Program.membership ((Utf8.charAt? text i).map (·.1))) state.waiting
      [] [] = (state.accepts, []) := by
  rw [← stepOn_none state]
  refine Program.stepOn_congr (fun index set next inst => ?_) _ _ _
  cases read : Utf8.charAt? text i with
  | none => rfl
  | some read' =>
    obtain ⟨c, width⟩ := read'
    obtain ⟨b, unit, -, small | ⟨-, code⟩⟩ := Utf8.charAt?_cases read
    · exact absurd (foreign b unit) (Nat.not_le.mpr small)
    · refine CodeSet.contains_eq_false fun range member => ?_
      simp only
      have bounds : 0 < range.1 ∧ range.2 < 128 := by
        simpa using Array.all_eq_true'.mp (isPlain_of_getElem? inst) range member
      omega

private theorem next_large (state : NumberState) {code : Nat} (large : 128 ≤ code) :
    state.next code = none := by
  have digit : isDigit code = false := by
    simp [isDigit]
    omega
  have apart (other : Nat) (small : other < 128) : code ≠ other := by omega
  cases state <;> simp [next, leading, exponent, digit, apart]

private theorem waiting_ne_nil (state : NumberState) : state.waiting.isEmpty = false := by
  cases state <;> rfl

private theorem runOn_nil (text : Bytes) (fuel i : Nat) (best : Option Nat) :
    numberProgram.runOn text fuel i best [] = best := by
  cases fuel <;> rfl

private theorem longest_of_drop {text : Bytes} {i : Nat} (state : NumberState)
    (foreign : ∀ b, text[i]? = some b → 128 ≤ b.toNat) :
    state.longest (text.toList.drop i) = if state.accepts then some 0 else none := by
  cases rest : text.toList.drop i with
  | nil => rfl
  | cons b more =>
    have unit : text[i]? = some b := by
      rw [← Array.getElem?_toList, ← List.head?_drop, rest, List.head?_cons]
    rw [longest, state.next_large (foreign b unit)]
    rfl

private theorem runOn_waiting (text : Bytes) (fuel i : Nat) (best : Option Nat)
    (state : NumberState) (enough : text.size - i < fuel) :
    numberProgram.runOn text fuel i best state.waiting =
      ((state.longest (text.toList.drop i)).map (i + ·)).or best := by
  induction fuel generalizing i best state with
  | zero => exact absurd enough (Nat.not_lt_zero _)
  | succ fuel ih =>
    have here : ((if state.accepts then some 0 else none).map (i + ·)).or best =
        if state.accepts then some i else best := by
      cases state.accepts <;> rfl
    rw [Program.runOn, waiting_ne_nil state]
    simp only [Bool.false_eq_true, if_false]
    -- The end of the text and every character beyond ASCII end the number.
    by_cases foreign : ∀ b, text[i]? = some b → 128 ≤ b.toNat
    · rw [stepOn_foreign state foreign, longest_of_drop state foreign, here]
      exact runOn_nil text fuel _ _
    · obtain ⟨b, unit, ascii⟩ : ∃ b, text[i]? = some b ∧ b.toNat < 128 := by
        simpa using foreign
      obtain ⟨c, read, same⟩ := Utf8.charAt?_of_ascii unit ascii
      obtain ⟨inside, value⟩ := Array.getElem?_eq_some_iff.mp unit
      have drop : text.toList.drop i = b :: text.toList.drop (i + 1) := by
        rw [List.drop_eq_getElem_cons (by simpa using inside), Array.getElem_toList, value]
      have step : numberProgram.stepOn (Program.membership (some c)) state.waiting [] [] =
          (state.accepts, ((state.next b.toNat).map waiting).getD []) := by
        rw [← stepOn_ascii state b.toNat ascii, ← same]
        rfl
      simp only [read, Option.map_some, Option.getD_some, step, drop, longest]
      cases state.next b.toNat with
      | none =>
        simp only [Option.map_none, Option.getD_none, Option.bind_none, Option.none_or, here]
        exact runOn_nil text fuel _ _
      | some state' =>
        simp only [Option.map_some, Option.getD_some, Option.bind_some]
        rw [ih (i + 1) _ state' (by omega), ← here, Option.map_or, Option.or_assoc, Option.map_map]
        congr 2
        funext n
        simp only [Function.comp_apply]
        omega

end NumberState

private theorem unconditional_numberProgram : numberProgram.Unconditional := fun _ _ _ found =>
  absurd (NumberState.isPlain_of_getElem? found) Bool.false_ne_true

/-- A search with the pattern of a number finds the longest number. -/
theorem matchAt?_numberProgram (text : Bytes) (offset : Nat) :
    numberProgram.matchAt? text offset =
      (NumberState.start.longest (text.toList.drop offset)).map (offset + ·) := by
  have first : (numberProgram.gather numberProgram.ways [numberProgram.start] [] []).2 =
      NumberState.start.waiting := rfl
  rw [Program.matchAt?_eq_runOn unconditional_numberProgram rfl, first,
    NumberState.runOn_waiting _ _ _ _ _ (by omega), Option.or_none]

namespace NumberState

/-- A complete number that goes on with neither a point nor the letter of an exponent is complete
again. -/
private theorem accepts_next {state state' : NumberState} {code : Nat}
    (accepts : state.accepts = true) (next : state.next code = some state')
    (point : code ≠ 0x2e) (letter : code ≠ 0x65 ∧ code ≠ 0x45) : state'.accepts = true := by
  cases state <;> simp_all [NumberState.accepts, NumberState.next, exponent]
  all_goals simp [← next.2]

private theorem longest_ne_none {state : NumberState} (accepts : state.accepts = true)
    (rest : List UInt8) : state.longest rest ≠ none := by
  cases rest <;> simp [longest, accepts]

/-- Text that is added behind a number does not change it, unless a point or the letter of an
exponent follows. -/
theorem longest_append {state : NumberState} {rest : List UInt8} {n : Nat} {b : UInt8}
    (found : state.longest rest = some n) (behind : rest[n]? = some b) (point : b.toNat ≠ 0x2e)
    (letter : b.toNat ≠ 0x65 ∧ b.toNat ≠ 0x45) (more : List UInt8) :
    state.longest (rest ++ more) = some n := by
  induction rest generalizing state n with
  | nil => cases behind
  | cons first rest ih =>
    rw [List.cons_append, longest]
    rw [longest] at found
    cases next : state.next first.toNat with
    | none => simpa [next] using found
    | some state' =>
      simp only [next, Option.bind_some] at found ⊢
      cases later : state'.longest rest with
      | some m =>
        obtain rfl : m + 1 = n := by simpa [later] using found
        rw [ih later behind]
        rfl
      | none =>
        -- The number is complete here, and the code unit behind it would have made it longer.
        simp only [later, Option.map_none, Option.none_or, Option.ite_none_right_eq_some,
          Option.some.injEq] at found
        obtain ⟨accepts, rfl⟩ := found
        obtain rfl : first = b := by simpa using behind
        exact (longest_ne_none (accepts_next accepts next point letter) rest later).elim

theorem longest_le {state : NumberState} {rest : List UInt8} {n : Nat}
    (found : state.longest rest = some n) : n ≤ rest.length := by
  induction rest generalizing state n with
  | nil =>
    simp only [longest, Option.ite_none_right_eq_some, Option.some.injEq] at found
    omega
  | cons b rest ih =>
    rw [longest, Option.or_eq_some_iff] at found
    rcases found with further | ⟨-, here⟩
    · obtain ⟨state', -, counted⟩ := Option.bind_eq_some_iff.mp further
      obtain ⟨m, later, rfl⟩ := Option.map_eq_some_iff.mp counted
      exact Nat.succ_le_succ (ih later)
    · simp only [Option.ite_none_right_eq_some, Option.some.injEq] at here
      omega

/-- A number starts with a digit or the sign. -/
theorem longest_start {rest : List UInt8} {n : Nat} (found : start.longest rest = some n) :
    0 < n ∧ ∃ b, rest.head? = some b ∧ (b.toNat = 0x2d ∨ isDigit b.toNat = true) := by
  cases rest with
  | nil => cases found
  | cons b rest =>
    simp only [longest, accepts, Bool.false_eq_true, if_false, Option.or_none,
      Option.bind_eq_some_iff, Option.map_eq_some_iff] at found
    obtain ⟨state, next, m, -, rfl⟩ := found
    refine ⟨Nat.succ_pos m, b, rfl, ?_⟩
    by_cases sign : b.toNat = 0x2d
    · exact .inl sign
    · right
      simp only [NumberState.next, if_neg sign, leading] at next
      split at next
      · next zero => simp [isDigit, zero]
      · split at next
        · assumption
        · cases next

end NumberState

end StagedLexer.JsonTokens
