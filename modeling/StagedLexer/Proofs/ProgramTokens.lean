import StagedLexer.Source.Parser

/-! The tokens of programs. A program is read back from its tokens if its expressions and its
patterns are, each in front of the token that ends it. -/
namespace StagedLexer.Source

namespace Pattern

def rangeTokens (range : UInt8 × UInt8) : List Token :=
  if range.1 = range.2 then [.unit range.1] else [.unit range.1, .mark "..=", .unit range.2]

def rangesTokens : List (UInt8 × UInt8) → List Token
  | [] => []
  | [range] => rangeTokens range
  | range :: rest => rangeTokens range ++ Token.mark "|" :: rangesTokens rest

def partTokens : List (Option String) → List Token
  | [] => []
  | [part] => [.word (part.getD "_")]
  | part :: rest => .word (part.getD "_") :: .mark "," :: partTokens rest

def tokens : Pattern → List Token
  | anything => [.word "_"]
  | name n => [.word n]
  | text s => [.text s]
  | some inside => [Token.word "Some", Token.mark "("] ++ inside.tokens ++ [Token.mark ")"]
  | tuple parts => [Token.mark "("] ++ partTokens parts ++ [Token.mark ")"]
  | emptySlice => [.mark "[", .mark "]"]
  | startsIn n ranges => [Token.word n, Token.mark "@", Token.mark "["] ++ rangesTokens ranges ++
    [Token.mark ",", Token.mark "..", Token.mark "]"]
  | fields type names => [Token.word type, Token.mark "\x7b"] ++
    names.flatMap (fun n => [.word n, .mark ","]) ++ [Token.mark "\x7d"]

end Pattern

def Operator.token : Operator → Token
  | plus => .mark "+"
  | minus => .mark "-"
  | equal => .mark "=="
  | differs => .mark "!="
  | less => .mark "<"
  | greater => .mark ">"
  | atMost => .mark "<="
  | atLeast => .mark ">="
  | both => .mark "&&"

def pathTokens : List String → List Token
  | [] => []
  | [name] => [.word name]
  | name :: rest => .word name :: .mark "::" :: pathTokens rest

mutual
def Expr.tokens : Expr → List Token
  | .number n => [.number n]
  | .size n => [.size n]
  | .text s => [.text s]
  | .units us => [.units us]
  | .var v => [.var v]
  | .name n => [.word n]
  | .absent types => [Token.word "None", Token.mark "::", Token.mark "<"] ++ types ++
      [Token.mark ">"]
  | .paren inner => [Token.mark "("] ++ inner.tokens ++ [Token.mark ")"]
  | .negative inner => .mark "-" :: inner.tokens
  | .content inner => .mark "*" :: inner.tokens
  | .borrow inner => .mark "&" :: inner.tokens
  | .cast inner type => inner.tokens ++ [Token.word "as", Token.word type]
  | .binary operator left right => left.tokens ++ operator.token :: right.tokens
  | .fromOn start => start.tokens ++ [Token.mark ".."]
  | .upTo stop => .mark ".." :: stop.tokens
  | .index inner place => inner.tokens ++ Token.mark "[" :: place.tokens ++ [Token.mark "]"]
  | .call path arguments => pathTokens path ++ Token.mark "(" :: tokensOfList arguments ++
      [Token.mark ")"]
  | .method receiver name arguments =>
    receiver.tokens ++ [Token.mark ".", Token.word name, Token.mark "("] ++
      tokensOfList arguments ++ [Token.mark ")"]
  | .tuple items => [Token.mark "("] ++ tokensOfList items ++ [Token.mark ")"]
  | .either cond first second =>
    Token.word "if" :: cond.tokens ++ Token.mark "\x7b" :: first.tokens ++
      [Token.mark "\x7d", Token.word "else", Token.mark "\x7b"] ++ second.tokens ++
      [Token.mark "\x7d"]
  | .choose inner arms => Token.word "match" :: inner.tokens ++ Token.mark "\x7b" :: arms.tokens ++
    [Token.mark "\x7d"]
def tokensOfList : List Expr → List Token
  | [] => []
  | [item] => item.tokens
  | item :: rest => item.tokens ++ Token.mark "," :: tokensOfList rest
def Arms.tokens : Arms → List Token
  | .done => []
  | .plain pattern value rest =>
    pattern.tokens ++ Token.mark "=>" :: value.tokens ++ Token.mark "," :: rest.tokens
  | .guarded pattern guard value rest => pattern.tokens ++ Token.word "if" :: guard.tokens ++
    Token.mark "=>" :: value.tokens ++ Token.mark "," :: rest.tokens
end

namespace Command

def isTest : Command → Bool
  | test _ _ _ | testPattern _ _ _ _ => true
  | _ => false

mutual
def tokens : Command → List Token
  | declare v none => [.word "let", .word "mut", .var v, .mark ";"]
  | declare v (some init) =>
    [Token.word "let", Token.word "mut", Token.var v, Token.mark "="] ++ init.tokens ++
      [Token.mark ";"]
  | fix v value => [Token.word "let", Token.var v, Token.mark "="] ++ value.tokens ++
      [Token.mark ";"]
  | bind pattern value =>
    Token.word "let" :: pattern.tokens ++ Token.mark "=" :: value.tokens ++ [Token.mark ";"]
  | assign target value => target.tokens ++ Token.mark "=" :: value.tokens ++ [Token.mark ";"]
  | perform action => action.tokens ++ [Token.mark ";"]
  | test cond first second =>
    Token.word "if" :: cond.tokens ++ Token.mark "\x7b" :: tokensAll first ++
      Token.mark "\x7d" :: tokensElse second
  | testPattern pattern value first second =>
    [Token.word "if", Token.word "let"] ++ pattern.tokens ++ Token.mark "=" :: value.tokens ++
      Token.mark "\x7b" :: tokensAll first ++ Token.mark "\x7d" :: tokensElse second
  | choose value patterns bodies => Token.word "match" :: value.tokens ++ Token.mark "\x7b" ::
    tokensCases patterns bodies ++ [Token.mark "\x7d"]
  | loop body => [Token.word "loop", Token.mark "\x7b"] ++ tokensAll body ++ [Token.mark "\x7d"]
  | during label cond body =>
    [Token.label label, Token.mark ":", Token.word "while"] ++ cond.tokens ++
      Token.mark "\x7b" :: tokensAll body ++ [Token.mark "\x7d"]
  | leave => [.word "break", .mark ";"]
  | again label => [.word "continue", .label label, .mark ";"]
  | stop => [.word "return", .mark ";"]
def tokensAll : List Command → List Token
  | [] => []
  | command :: rest => tokens command ++ tokensAll rest
def tokensElse : List Command → List Token
  | [] => []
  | command :: rest =>
    if command.isTest ∧ rest = [] then .word "else" :: tokens command
    else [Token.word "else", Token.mark "\x7b"] ++ (tokens command ++ tokensAll rest) ++
      [Token.mark "\x7d"]
def tokensCases (patterns : List Pattern) : List (List Command) → List Token
  | [] => []
  | body :: rest =>
    match patterns with
    | [] => []
    | pattern :: patterns =>
      pattern.tokens ++ [Token.mark "=>", Token.mark "\x7b"] ++ tokensAll body ++
        Token.mark "\x7d" :: tokensCases patterns rest
end

theorem tokensAll_append (front behind : List Command) :
    tokensAll (front ++ behind) = tokensAll front ++ tokensAll behind := by
  induction front with
  | nil => rfl
  | cons command rest ih => rw [List.cons_append, tokensAll, tokensAll, ih, List.append_assoc]

end Command

/-- Whatever stands behind the mark, the pattern is read from its tokens up to there. -/
def Pattern.Reads (pattern : Pattern) (mark : String) : Prop := ∀ fuel rest,
  pattern.tokens.length + 12 ≤ fuel →
    Parser.pattern fuel (pattern.tokens ++ Token.mark mark :: rest) =
    Option.some (pattern, .mark mark :: rest)

def Expr.Reads (expr : Expr) (mark : String) : Prop := ∀ fuel rest,
  expr.tokens.length + 12 ≤ fuel → Parser.expr fuel (expr.tokens ++ Token.mark mark :: rest) =
    some (expr, .mark mark :: rest)

def Expr.Opens (expr : Expr) : Prop := ∃ first rest, expr.tokens = first :: rest ∧
  first ≠ .mark "\x7d" ∧ (∀ label, first ≠ .label label) ∧
  ∀ keyword ∈ Parser.keywords, first ≠ .word keyword

namespace Command

mutual
/-- All expressions and patterns of a command can be read. -/
def Reads : Command → Prop
  | declare _ none | leave | again _ | stop => True
  | declare _ (some value) | fix _ value => value.Reads ";"
  | bind pattern value => pattern.Reads "=" ∧ pattern.tokens.head? ≠ some (.word "mut") ∧
    value.Reads ";"
  | assign target value => target.Opens ∧ target.Reads "=" ∧ value.Reads ";"
  | perform action => action.Opens ∧ action.Reads ";"
  | test cond first second =>
    cond.Reads "\x7b" ∧ cond.tokens.head? ≠ some (.word "let") ∧ ReadsAll first ∧ ReadsAll second
  | testPattern pattern value first second =>
    pattern.Reads "=" ∧ value.Reads "\x7b" ∧ ReadsAll first ∧ ReadsAll second
  | choose value patterns bodies => value.Reads "\x7b" ∧ patterns.length = bodies.length ∧
    (∀ pattern ∈ patterns, pattern.Reads "=>") ∧ ReadsBodies bodies
  | loop body => ReadsAll body
  | during _ cond body => cond.Reads "\x7b" ∧ ReadsAll body
def ReadsAll : List Command → Prop
  | [] => True
  | command :: rest => Reads command ∧ ReadsAll rest
def ReadsBodies : List (List Command) → Prop
  | [] => True
  | body :: rest => ReadsAll body ∧ ReadsBodies rest
end

end Command

theorem Pattern.starts (pattern : Pattern) : ∃ first more, pattern.tokens = first :: more ∧
    first ≠ .mark "\x7d" ∧ ∀ v, first ≠ .var v := by
  cases pattern <;> simp [tokens]

namespace Parser

variable {fuel : Nat} {tokens rest : List Token}

@[simp] theorem expect_cons (token : Token) : expect token (token :: rest) = some rest := by
  simp [expect]

theorem line_tokens {value : Expr} (reads : value.Reads ";") (fuel : Nat) (rest : List Token)
    (enough : value.tokens.length + 12 ≤ fuel) :
    line fuel (value.tokens ++ Token.mark ";" :: rest) = some (value, rest) := by
  simp [line, reads fuel rest enough]

theorem command_let {bound : Pattern} (notMut : bound.tokens.head? ≠ some (.word "mut"))
    (commands : Parser (List Command)) :
    command commands fuel (.word "let" :: (bound.tokens ++ rest)) = (do
      let (pattern, rest) ← pattern fuel (bound.tokens ++ rest)
      let rest ← expect (.mark "=") rest
      let (value, rest) ← line fuel rest
      return (.bind pattern value, rest)) := by
  obtain ⟨first, more, equal, -, noVar⟩ := bound.starts
  rw [equal] at notMut ⊢
  unfold command
  split <;> simp_all

theorem command_expr {target : Expr} (opens : target.Opens) (commands : Parser (List Command)) :
    command commands fuel (target.tokens ++ rest) = (do
      let (target, rest) ← expr fuel (target.tokens ++ rest)
      if rest.head? = some (.mark "=") then
        let (value, rest) ← line fuel rest.tail
        return (.assign target value, rest)
      else
        let rest ← expect (.mark ";") rest
        return (.perform target, rest)) := by
  obtain ⟨first, more, equal, -, label, keyword⟩ := opens
  rw [equal]
  unfold command
  split <;> simp_all [keywords]

theorem condition_expr (notLet : tokens.head? ≠ some (.word "let")) :
    condition fuel tokens = (expr fuel tokens).map fun (cond, rest) => (.test cond, rest) := by
  unfold condition
  split <;> simp_all

end Parser

open Source.Parser

namespace Command

variable {rest : List Token} {first second body : List Command}

attribute [local simp] tokens command

def Parsed (c : Command) : Prop := ∀ depth fuel rest, c.tokens.length + 15 ≤ depth →
  c.tokens.length + 15 ≤ fuel → rest.head? ≠ some (.word "else") →
    command (commands depth) fuel (c.tokens ++ rest) = some (c, rest)

def Closed (rest : List Token) : Prop := rest = [] ∨ rest.head? = some (.mark "\x7d")

theorem Closed.notElse (closed : Closed rest) : rest.head? ≠ some (.word "else") := by
  rcases closed with rfl | closes
  · simp
  · simp [closes]

theorem Reads.starts {c : Command} (reads : c.Reads) : ∃ first more, c.tokens = first :: more ∧
    first ≠ .mark "\x7d" ∧ first ≠ .word "else" := by
  cases c with
  | declare v init => cases init <;> simp
  | assign target value =>
    obtain ⟨first, more, equal, notClose, -, keyword⟩ := reads.1
    exact ⟨first, _, by rw [tokens, equal, List.cons_append, List.cons_append], notClose,
      keyword "else" (by simp [keywords])⟩
  | perform action =>
    obtain ⟨first, more, equal, notClose, -, keyword⟩ := reads.1
    exact ⟨first, _, by rw [tokens, equal, List.cons_append], notClose,
      keyword "else" (by simp [keywords])⟩
  | _ => simp

theorem commands_tokens {items : List Command} (each : ∀ c ∈ items, c.Reads ∧ c.Parsed)
    (fuel : Nat) (enough : (tokensAll items).length + 16 ≤ fuel) (closed : Closed rest) :
    commands fuel (tokensAll items ++ rest) = some (items, rest) := by
  induction items generalizing fuel with
  | nil =>
    obtain ⟨fuel, rfl⟩ := Nat.exists_eq_add_of_le' (show 1 ≤ fuel by omega)
    rw [tokensAll, List.nil_append, commands, if_pos (show rest = [] ∨ _ from closed)]
  | cons c items ih =>
    obtain ⟨fuel, rfl⟩ := Nat.exists_eq_add_of_le' (show 1 ≤ fuel by omega)
    obtain ⟨reads, parsed⟩ := each c (by simp)
    have others : ∀ c ∈ items, c.Reads ∧ c.Parsed := fun d member => each d (by simp [member])
    obtain ⟨first, more, equal, notClose, -⟩ := reads.starts
    have size : 0 < c.tokens.length := by simp [equal]
    rw [tokensAll, List.length_append] at enough
    have follows : (tokensAll items ++ rest).head? ≠ some (.word "else") := by
      cases items with
      | nil => exact closed.notElse
      | cons d items =>
        obtain ⟨second, more, equal, -, notElse⟩ := (others d (by simp)).1.starts
        simp [tokensAll, equal, notElse]
    have opens : ¬ (c.tokens ++ (tokensAll items ++ rest) = [] ∨
        (c.tokens ++ (tokensAll items ++ rest)).head? = some (.mark "\x7d")) := by
      simp [equal, notClose]
    have here := parsed fuel fuel _ (by omega) (by omega) follows
    have later := ih others fuel (by omega)
    rw [tokensAll, List.append_assoc, commands, if_neg opens, here]
    simp [later]

section Blocks

variable (each : ∀ c ∈ body, c.Reads ∧ c.Parsed)

include each

theorem block_tokens (depth : Nat) (rest : List Token)
    (enough : (tokensAll body).length + 16 ≤ depth) :
    block (commands depth) (.mark "\x7b" :: (tokensAll body ++ Token.mark "\x7d" :: rest)) =
      some (body, rest) := by
  have inside : commands depth (tokensAll body ++ Token.mark "\x7d" :: rest) =
      some (body, .mark "\x7d" :: rest) :=
    commands_tokens each depth enough (.inr rfl)
  simp [block, inside]

theorem parsed_loop : (loop body).Parsed := by
  intro depth fuel rest enough _ _
  simp only [tokens, List.length_append, List.length_cons, List.length_nil] at enough
  have inside := block_tokens each depth rest (by omega)
  simp [inside]

theorem parsed_during {label : String} {cond : Expr} (reads : cond.Reads "\x7b") :
    (during label cond body).Parsed := by
  intro depth fuel rest enough enough' _
  simp only [tokens, List.length_append, List.length_cons, List.length_nil] at enough enough'
  have first := reads fuel (tokensAll body ++ Token.mark "\x7d" :: rest) (by omega)
  have inside := block_tokens each depth rest (by omega)
  simp [Parser.during, first, inside]

end Blocks

section Tests

theorem Parsed.test {c : Command} (parsed : c.Parsed) (isTest : c.isTest) (depth fuel : Nat)
    (rest : List Token) (enough : c.tokens.length + 15 ≤ depth)
    (enough' : c.tokens.length + 15 ≤ fuel) (follows : rest.head? ≠ some (.word "else")) :
    ∃ more, c.tokens = .word "if" :: more ∧
      Parser.test (commands depth) fuel (more ++ rest) = some (c, rest) := by
  have read := parsed depth fuel rest enough enough' follows
  cases c with
  | test | testPattern => exact ⟨_, rfl, read⟩
  | _ => cases isTest

/-- What follows the first body of a test is read as its second body. -/
theorem test_tokens (firstParsed : ∀ c ∈ first, c.Reads ∧ c.Parsed)
    (secondParsed : ∀ c ∈ second, c.Reads ∧ c.Parsed) (depth fuel : Nat) {before : List Token}
    (rest : List Token) {make : List Command → List Command → Command}
    (enough : before.length + (tokensAll first).length + (tokensElse second).length + 17 ≤ depth)
    (enough' : before.length + (tokensAll first).length + (tokensElse second).length + 16 ≤ fuel)
    (follows : rest.head? ≠ some (.word "else"))
    (head : ∀ rest, condition fuel (before ++ Token.mark "\x7b" :: rest) =
      some (make, .mark "\x7b" :: rest)) :
    Parser.test (commands depth) (fuel + 1) (before ++ Token.mark "\x7b" :: (tokensAll first ++
      Token.mark "\x7d" :: (tokensElse second ++ rest))) = some (make first second, rest) := by
  have inside := block_tokens firstParsed depth (tokensElse second ++ rest) (by omega)
  rw [Parser.test, head]
  simp only [Option.bind_eq_bind, Option.bind_some, inside]
  cases second with
  | nil =>
    rw [tokensElse, List.nil_append]
    split <;> simp_all
  | cons c more =>
    rw [tokensElse] at enough enough' ⊢
    by_cases chained : c.isTest ∧ more = []
    · rw [if_pos chained] at enough enough' ⊢
      obtain ⟨isTest, rfl⟩ := chained
      rw [List.length_cons] at enough enough'
      obtain ⟨more, equal, read⟩ := (secondParsed c (by simp)).2.test isTest depth fuel rest
        (by omega) (by omega) follows
      simp [equal, read]
    · rw [if_neg chained] at enough enough' ⊢
      simp only [List.length_append, List.length_cons, List.length_nil] at enough
      have last := block_tokens secondParsed depth rest (by
        rw [tokensAll, List.length_append]
        omega)
      rw [tokensAll, List.append_assoc] at last
      simp [last]

theorem parsed_test {cond : Expr} (reads : cond.Reads "\x7b")
    (notLet : cond.tokens.head? ≠ some (.word "let"))
    (firstParsed : ∀ c ∈ first, c.Reads ∧ c.Parsed)
    (secondParsed : ∀ c ∈ second, c.Reads ∧ c.Parsed) : (test cond first second).Parsed := by
  intro depth fuel rest enough enough' follows
  simp only [tokens, List.length_append, List.length_cons] at enough enough'
  obtain ⟨fuel, rfl⟩ := Nat.exists_eq_add_of_le' (show 1 ≤ fuel by omega)
  have head (rest : List Token) : condition fuel (cond.tokens ++ Token.mark "\x7b" :: rest) =
      some (.test cond, .mark "\x7b" :: rest) := by
    rw [condition_expr, reads fuel rest (by omega)]
    · rfl
    · cases equal : cond.tokens <;> simp_all
  have read := test_tokens firstParsed secondParsed depth fuel rest (by omega) (by omega) follows head
  simpa using read

theorem parsed_testPattern {pattern : Pattern} {value : Expr} (reads : pattern.Reads "=")
    (reads' : value.Reads "\x7b") (firstParsed : ∀ c ∈ first, c.Reads ∧ c.Parsed)
    (secondParsed : ∀ c ∈ second, c.Reads ∧ c.Parsed) :
    (testPattern pattern value first second).Parsed := by
  intro depth fuel rest enough enough' follows
  simp only [tokens, List.length_append, List.length_cons, List.length_nil] at enough enough'
  obtain ⟨fuel, rfl⟩ := Nat.exists_eq_add_of_le' (show 1 ≤ fuel by omega)
  have head (rest : List Token) : condition fuel
      ((Token.word "let" :: (pattern.tokens ++ Token.mark "=" ::
      value.tokens)) ++ Token.mark "\x7b" :: rest) =
        some (.testPattern pattern value, .mark "\x7b" :: rest) := by
    simp [condition, reads fuel (value.tokens ++ Token.mark "\x7b" :: rest) (by omega),
      reads' fuel rest (by omega)]
  have read := test_tokens firstParsed secondParsed depth fuel rest
    (by simp only [List.length_append, List.length_cons]; omega)
    (by simp only [List.length_append, List.length_cons]; omega) follows head
  simpa using read

end Tests

section Cases

theorem cases_tokens {patterns : List Pattern} {bodies : List (List Command)} (depth fuel : Nat)
    (rest : List Token) (same : patterns.length = bodies.length)
    (reads : ∀ pattern ∈ patterns, pattern.Reads "=>")
    (each : ∀ body ∈ bodies, ∀ c ∈ body, c.Reads ∧ c.Parsed)
    (enough : (tokensCases patterns bodies).length + 13 ≤ depth)
    (enough' : (tokensCases patterns bodies).length + 13 ≤ fuel) :
    cases (commands depth) fuel (tokensCases patterns bodies ++ Token.mark "\x7d" :: rest) =
      some ((patterns, bodies), rest) := by
  induction bodies generalizing patterns fuel with
  | nil =>
    obtain rfl := List.length_eq_zero_iff.mp same
    obtain ⟨fuel, rfl⟩ := Nat.exists_eq_add_of_le' (show 1 ≤ fuel by omega)
    simp [tokensCases, cases]
  | cons body bodies ih =>
    obtain ⟨pattern, patterns, rfl⟩ := List.exists_cons_of_length_eq_add_one same
    obtain ⟨fuel, rfl⟩ := Nat.exists_eq_add_of_le' (show 1 ≤ fuel by omega)
    simp only [tokensCases, List.length_append, List.length_cons, List.length_nil] at enough enough'
    obtain ⟨first, more, equal, notClose, -⟩ := pattern.starts
    have head := reads pattern (by simp) fuel
    have inside := block_tokens (each body (by simp)) depth
      (tokensCases patterns bodies ++ Token.mark "\x7d" :: rest) (by omega)
    have later := ih fuel (Nat.succ.inj same) (fun p member => reads p (by simp [member]))
      (fun b member => each b (by simp [member])) (by omega) (by omega)
    have opens :
        (tokensCases (pattern :: patterns) (body :: bodies) ++ Token.mark "\x7d" :: rest).head? ≠
        some (.mark "\x7d") := by
      simp [tokensCases, equal, notClose]
    rw [cases, if_neg opens]
    simp [tokensCases, head _ (by omega), inside, later]

theorem parsed_choose {patterns : List Pattern} {bodies : List (List Command)} {value : Expr}
    (reads : value.Reads "\x7b") (same : patterns.length = bodies.length)
    (reads' : ∀ pattern ∈ patterns, pattern.Reads "=>")
    (each : ∀ body ∈ bodies, ∀ c ∈ body, c.Reads ∧ c.Parsed) :
    (choose value patterns bodies).Parsed := by
  intro depth fuel rest enough enough' _
  simp only [tokens, List.length_append, List.length_cons, List.length_nil] at enough enough'
  have head := reads fuel (tokensCases patterns bodies ++ Token.mark "\x7d" :: rest) (by omega)
  have inside := cases_tokens depth fuel rest same reads' each (by omega) (by omega)
  simp [head, inside]

end Cases

section Simple

variable {value : Expr}

theorem parsed_declare {v : Nat} : (init : Option Expr) → (declare v init).Reads →
    (declare v init).Parsed
  | none, _, _, _, _, _, _, _ => by simp
  | some init, reads, depth, fuel, rest, _, enough, _ => by
    simp only [tokens, List.length_append, List.length_cons, List.length_nil] at enough
    simp [line_tokens reads fuel rest (by omega)]

theorem parsed_fix (v : Nat) (reads : value.Reads ";") : (fix v value).Parsed := by
  intro depth fuel rest _ enough _
  simp only [tokens, List.length_append, List.length_cons, List.length_nil] at enough
  simp [line_tokens reads fuel rest (by omega)]

theorem parsed_bind {pattern : Pattern} (reads : pattern.Reads "=")
    (notMut : pattern.tokens.head? ≠ some (.word "mut")) (reads' : value.Reads ";") :
    (bind pattern value).Parsed := by
  intro depth fuel rest _ enough _
  simp only [tokens, List.length_append, List.length_cons, List.length_nil] at enough
  have head := reads fuel (value.tokens ++ Token.mark ";" :: rest) (by omega)
  have last := line_tokens reads' fuel rest (by omega)
  simp [-command, command_let notMut, head, last]

theorem parsed_assign {target : Expr} (opens : target.Opens) (reads : target.Reads "=")
    (reads' : value.Reads ";") : (assign target value).Parsed := by
  intro depth fuel rest _ enough _
  simp only [tokens, List.length_append, List.length_cons, List.length_nil] at enough
  have head := reads fuel (value.tokens ++ Token.mark ";" :: rest) (by omega)
  have last := line_tokens reads' fuel rest (by omega)
  simp [-command, command_expr opens, head, last]

theorem parsed_perform (opens : value.Opens) (reads : value.Reads ";") :
    (perform value).Parsed := by
  intro depth fuel rest _ enough _
  simp only [tokens, List.length_append, List.length_cons, List.length_nil] at enough
  have head := reads fuel rest (by omega)
  simp [-command, command_expr opens, head]

theorem parsed_exit : leave.Parsed ∧ (∀ label, (again label).Parsed) ∧ stop.Parsed := by
  refine ⟨fun _ _ _ _ _ _ => ?_, fun label _ _ _ _ _ _ => ?_, fun _ _ _ _ _ _ => ?_⟩
  · simp
  · simp
  · simp

end Simple

mutual
theorem Reads.parsed : {c : Command} → c.Reads → c.Parsed
  | declare _ init, reads => parsed_declare init reads
  | fix v _, reads => parsed_fix v reads
  | bind _ _, reads => parsed_bind reads.1 reads.2.1 reads.2.2
  | assign _ _, reads => parsed_assign reads.1 reads.2.1 reads.2.2
  | perform _, reads => parsed_perform reads.1 reads.2
  | test _ _ _, reads =>
    parsed_test reads.1 reads.2.1 (ReadsAll.parsed reads.2.2.1) (ReadsAll.parsed reads.2.2.2)
  | testPattern _ _ _ _, reads => parsed_testPattern reads.1 reads.2.1
    (ReadsAll.parsed reads.2.2.1) (ReadsAll.parsed reads.2.2.2)
  | choose _ _ _, reads =>
    parsed_choose reads.1 reads.2.1 reads.2.2.1 (ReadsBodies.parsed reads.2.2.2)
  | loop _, reads => parsed_loop (ReadsAll.parsed reads)
  | during _ _ _, reads => parsed_during (ReadsAll.parsed reads.2) reads.1
  | leave, _ => parsed_exit.1
  | again label, _ => parsed_exit.2.1 label
  | stop, _ => parsed_exit.2.2
theorem ReadsAll.parsed : {items : List Command} → ReadsAll items →
    ∀ c ∈ items, c.Reads ∧ c.Parsed
  | [], _ => by simp
  | _ :: _, reads =>
    List.forall_mem_cons.mpr ⟨⟨reads.1, Reads.parsed reads.1⟩, ReadsAll.parsed reads.2⟩
theorem ReadsBodies.parsed : {bodies : List (List Command)} → ReadsBodies bodies →
    ∀ body ∈ bodies, ∀ c ∈ body, c.Reads ∧ c.Parsed
  | [], _ => by simp
  | _ :: _, reads =>
    List.forall_mem_cons.mpr ⟨ReadsAll.parsed reads.1, ReadsBodies.parsed reads.2⟩
end

end Command

theorem parse?_tokensAll {program : List Command} (reads : Command.ReadsAll program) :
    parse? (Command.tokensAll program) = some program := by
  have all : Parser.commands ((Command.tokensAll program).length + 16)
      (Command.tokensAll program ++ []) = some (program, []) :=
    Command.commands_tokens reads.parsed _ (Nat.le_refl _) (.inl rfl)
  rw [List.append_nil] at all
  rw [parse?, all]

end StagedLexer.Source
