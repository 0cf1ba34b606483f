import StagedLexer.Proofs.SourceTokens
import StagedLexer.Proofs.StatementProgram

/-! The text of a statement is that of its program. -/
namespace StagedLexer

open Source Source.Pending

namespace Code

@[simp] theorem signs_literal (text : String) : (literal text).signs = signsOf text := by
  simp [signs, pieces, Piece.signs]

@[simp] theorem signs_var (v : Nat) : (var v).signs = [.var v] := rfl

@[simp] theorem signs_block_nil : (block []).signs = [] := rfl

@[simp] theorem signs_block_cons (item : Code) (rest : List Code) :
    (block (item :: rest)).signs = item.signs ++ (block rest).signs := by
  simp [signs, pieces, piecesAll]

@[simp] theorem signs_assign (v : Nat) (value : Code) (retained : Bool) :
    (assign v value retained).signs =
      .var v :: (signsOf " = " ++ (value.signs ++ signsOf ";\n")) := by
  simp [signs, pieces, Piece.signs]

end Code

-- Texts are read by evaluation.
set_option maxRecDepth 2000

section Values

variable {chunk : Nat}

private theorem Probe.spelled_advance (place : Place) {pattern : String} {tokens : List Token}
    (spelled : Spelled (signsOf pattern) tokens) (distance : Nat) :
    Spelled (code.advance chunk place pattern distance).signs
      (.word "match" :: ((Expr.method (.var chunk) "get" [.fromOn place.expr]).tokens ++
        Token.mark "\x7b" :: (tokens ++ Token.mark "=>" :: ((behind chunk distance).tokens ++
          [Token.mark ",", Token.word "_", Token.mark "=>", Token.mark "-", Token.number 1,
            Token.mark ",", Token.mark "\x7d"])))) := by
  have text : (code.advance chunk place pattern distance).signs =
      (signsOf "match " ++ Sign.var chunk :: (signsOf ".get(" ++ (place.code.signs ++
        signsOf "..) \x7b\n"))) ++ (signsOf pattern ++ ((signsOf " => (" ++ Sign.var chunk ::
          signsOf ".len() - rest_.len() + ") ++ (signsOf (toString distance) ++
            signsOf ") as isize,\n_ => -1,\n\x7d"))) := by
    simp [code.advance]
  have first : run nothing (signsOf "match " ++ Sign.var chunk :: (signsOf ".get(" ++
      (place.code.signs ++ signsOf "..) \x7b\n"))) = (.word "match" :: ((Expr.method (.var chunk)
        "get" [.fromOn place.expr]).tokens ++ [Token.mark "\x7b"]), nothing) := by
    cases place <;> rfl
  have arrow : run nothing (signsOf " => (" ++ Sign.var chunk ::
    signsOf ".len() - rest_.len() + ") =
      (.mark "=>" :: .mark "(" :: ((Expr.binary .minus (size (.var chunk)) (size rest)).tokens ++
        [Token.mark "+"]), nothing) := by
    rfl
  have last : run nothing (signsOf ") as isize,\n_ => -1,\n\x7d") = ([.mark ")", .word "as",
      .word "isize", .mark ",", .word "_", .mark "=>", .mark "-", .number 1, .mark ","],
      mark "\x7d") := by
    rfl
  have value := (spelled_number distance).append arrow (enters_nothing _) last rfl (by decide)
  have whole := spelled.append first (enters_nothing _) value rfl (by decide)
  refine .of_run (text ▸ whole) ?_ fun c _ => divides_closing (by simp) c
  simp only [List.append_assoc, List.cons_append]
  rfl

private theorem Probe.spelled_text (units : List UInt8) :
    Spelled (signsOf ("Some(rest_) if rest_.starts_with(" ++ byteStringLiteral units ++ ")"))
      ((Pattern.some (.name "rest_")).tokens ++ Token.word "if" ::
        (Expr.method rest "starts_with" [.units units]).tokens) := by
  have first : run nothing (signsOf "Some(rest_) if rest_.starts_with(") =
      ((Pattern.some (.name "rest_")).tokens ++ Token.word "if" ::
        [Token.word "rest_", Token.mark ".", Token.word "starts_with"], mark "(") := by
    rfl
  have whole := (spelled_units units).append first (enters_units (by rfl) units)
    (show run nothing (signsOf ")") = ([], mark ")") by rfl) rfl (by decide)
  rw [signsOf_append, signsOf_append, List.append_assoc]
  exact .of_run whole (by rfl) fun c _ => divides_closing (by simp) c

private theorem Probe.spelled_textAnyCase (units : List UInt8) :
    Spelled (signsOf ("Some(rest_) if rest_.len() >= " ++ toString units.length ++ " && rest_[.." ++
      toString units.length ++ "].eq_ignore_ascii_case(" ++ byteStringLiteral units ++ ")"))
      ((Pattern.some (.name "rest_")).tokens ++ Token.word "if" ::
        (Expr.binary .both (.binary .atLeast (size rest) (.number units.length))
          (.method (.index rest (.upTo (.number units.length))) "eq_ignore_ascii_case"
            [.units units])).tokens) := by
  have first : run nothing (signsOf "Some(rest_) if rest_.len() >= ") =
      ((Pattern.some (.name "rest_")).tokens ++ Token.word "if" :: ((size rest).tokens ++
        [Token.mark ">="]),
        nothing) := by
    rfl
  have second : run nothing (signsOf " && rest_[..") =
      ([.mark "&&", .word "rest_", .mark "["], mark "..") := by
    rfl
  have third : run nothing (signsOf "].eq_ignore_ascii_case(") =
      ([.mark "]", .mark ".", .word "eq_ignore_ascii_case"], mark "(") := by
    rfl
  have value := (spelled_units units).append third (enters_units (by rfl) units)
    (show run nothing (signsOf ")") = ([], mark ")") by rfl) rfl (by decide)
  have part := (spelled_number units.length).append second (enters_number _ _) value rfl (by decide)
  have whole := (spelled_number units.length).append first (enters_nothing _) part rfl (by decide)
  simp only [signsOf_append, List.append_assoc]
  exact .of_run whole (by rfl) fun c _ => divides_closing (by simp) c

private theorem Probe.spelled_oneOf {set : ByteSet} (filled : set.ranges ≠ []) :
    Spelled (signsOf ("Some(rest_ @ [" ++ set.pattern ++ ", ..])"))
      (Pattern.some (.startsIn "rest_" set.ranges)).tokens := by
  have first : run nothing (signsOf "Some(rest_ @ [") =
      ([.word "Some", .mark "(", .word "rest_", .mark "@"], mark "[") := by
    rfl
  have whole := (spelled_pattern filled).append first (enters_pattern filled (by rfl))
    (show run nothing (signsOf ", ..])") = ([.mark ",", .mark "..", .mark "]"], mark ")") by rfl)
    rfl (by decide)
  rw [signsOf_append, signsOf_append, List.append_assoc]
  refine .of_run whole ?_ fun c _ => divides_closing (by simp) c
  simp [Pattern.tokens, finish]

private theorem Probe.spelled_skip (count : Nat) :
    Spelled (signsOf ("Some(rest_) if rest_.len() >= " ++ toString count))
      ((Pattern.some (.name "rest_")).tokens ++ Token.word "if" ::
        (Expr.binary .atLeast (size rest) (.number count)).tokens) := by
  have first : run nothing (signsOf "Some(rest_) if rest_.len() >= ") =
      ((Pattern.some (.name "rest_")).tokens ++ Token.word "if" :: ((size rest).tokens ++
        [Token.mark ">="]),
        nothing) := by
    rfl
  rw [signsOf_append]
  exact (spelled_number count).after first (enters_nothing _)

def Probe.Filled : Probe → Prop
  | oneOf set => set.ranges ≠ []
  | _ => True

theorem Probe.spelled {probe : Probe} (filled : probe.Filled) (place : Place) :
    Spelled (probe.code chunk place).signs (probe.expr chunk place).tokens := by
  cases probe with
  | text units =>
    have whole := @spelled_advance chunk place _ _ (spelled_text units) units.length
    cases place <;> exact whole
  | textAnyCase units =>
    have whole := @spelled_advance chunk place _ _ (spelled_textAnyCase units) units.length
    cases place <;> exact whole
  | oneOf set =>
    have whole := @spelled_advance chunk place _ _ (spelled_oneOf filled) 1
    simpa [code, expr, arm, missing, Expr.tokens, Arms.tokens, Pattern.tokens] using whole
  | atEnd =>
    cases place <;>
      exact .of_pending (q := mark "\x7d") (by rfl) (by rfl) fun c _ => divides_closing (by simp) c
  | skip count =>
    have whole := @spelled_advance chunk place _ _ (spelled_skip count) count
    cases place <;> exact whole

theorem Place.spelled (place : Place) : Spelled place.code.signs place.expr.tokens := by
  cases place with
  | var v => exact .of_pending (q := .var v) rfl rfl fun _ => divides_var v
  | ofResult r =>
    exact .of_pending (q := mark ")") (by rfl) (by rfl) fun c _ => divides_closing (by simp) c

private theorem Value.spelled_counted (counter min pos : Nat) :
    Spelled ((counted counter min pos).code chunk).signs
      ((counted counter min pos).expr chunk).tokens := by
  have first : run nothing (signsOf "if " ++ Sign.var counter :: signsOf " >= ") =
      ([.word "if", .var counter, .mark ">="], nothing) := by
    rfl
  have last : run nothing
      (signsOf " \x7b " ++ Sign.var pos :: signsOf " as isize \x7d else \x7b -1 \x7d") =
      ([.mark "\x7b", .var pos, .word "as", .word "isize", .mark "\x7d", .word "else",
        .mark "\x7b", .mark "-", .number 1], mark "\x7d") := by
    rfl
  have whole := (spelled_number min).append first (enters_nothing _) last rfl (by decide)
  have text : ((counted counter min pos).code chunk).signs =
      (signsOf "if " ++ Sign.var counter :: signsOf " >= ") ++ (signsOf (toString min) ++
        (signsOf " \x7b " ++ Sign.var pos :: signsOf " as isize \x7d else \x7b -1 \x7d")) := by
    simp [Value.code]
  exact text ▸ .of_run whole (by rfl) fun c _ => divides_closing (by simp) c

def Value.Filled : Value → Prop
  | probe test _ => test.Filled
  | _ => True

theorem Value.spelled {value : Value} (filled : value.Filled) (chunk : Nat) :
    Spelled (value.code chunk).signs (value.expr chunk).tokens := by
  have word (letters : List Char) (c : Char) := divides_word (c := c) letters
  cases value with
  | noMatch | succ => exact .of_pending (q := .word ['1']) (by rfl) (by rfl) (word _)
  | result v => exact .of_pending (q := .var v) rfl rfl fun _ => divides_var v
  | probe test place => exact Probe.spelled filled place
  | counted counter min pos => exact spelled_counted counter min pos
  | place p => exact p.spelled
  | zero => exact .of_pending (q := .word "ezisu0".toList) (by rfl) (by rfl) (word _)
  | chunkEnd => exact .of_pending (q := .word "ezisi".toList) (by rfl) (by rfl) (word _)
  | asPlace => exact .of_pending (q := .word "ezisu".toList) (by rfl) (by rfl) (word _)
  | position p =>
    cases p <;> exact .of_pending (q := .word "ezisi".toList) (by rfl) (by rfl) (word _)
  | call bound p =>
    cases p <;>
      exact .of_pending (q := mark ")") (by rfl) (by rfl) fun c _ => divides_closing (by simp) c

theorem Cond.spelled (cond : Cond) (chunk : Nat) :
    Spelled (cond.code chunk).signs (cond.expr chunk).tokens := by
  have word (letters : List Char) (c : Char) := divides_word (c := c) letters
  cases cond with
  | noMatch | notNoMatch => exact .of_pending (q := .word ['1']) (by rfl) (by rfl) (word _)
  | isMatch | negative => exact .of_pending (q := .word ['0']) (by rfl) (by rfl) (word _)
  | reached counter bound =>
    have first : run nothing (.var counter :: signsOf " == ") =
        ([.var counter, .mark "=="], nothing) := by
      rfl
    have text : ((reached counter bound).code chunk).signs =
        (Sign.var counter :: signsOf " == ") ++ signsOf (toString bound) := by
      simp [Cond.code]
    exact text ▸ (spelled_number bound).after first (enters_nothing _)
  | unmoved r pos => exact .of_pending (q := .var pos) (by rfl) (by rfl) fun _ => divides_var pos
  | atChunkEnd =>
    exact .of_pending (q := mark ")") (by rfl) (by rfl) fun c _ => divides_closing (by simp) c

end Values

section Statements

variable {frame : Frame}

/-- The signs are read as whole tokens. -/
abbrev Written (part : List Sign) (tokens : List Token) : Prop :=
  run nothing part = (tokens, nothing)

theorem Written.append {front behind : List Sign} {tokens more : List Token}
    (first : Written front tokens) (second : Written behind more) :
    Written (front ++ behind) (tokens ++ more) :=
  run_append_of first second

namespace Frame

theorem written_confirmPending : Written frame.confirmPending.signs frame.confirm.tokens := by
  rfl

theorem written_stageMove (rule : Nat) (stop : Place) (move : StageMove) :
    Written (frame.stageMove rule stop move).signs
      (Command.tokensAll (frame.move rule stop move)) := by
  cases move with
  | stay => rfl
  | switch stage =>
    have first : run nothing (signsOf "*stage = Some(String::from(") =
        ([.mark "*", .word "stage", .mark "=", .word "Some", .mark "(", .word "String", .mark "::",
          .word "from"], mark "(") := by
      rfl
    have last : Written (signsOf "));\n") [.mark ")", .mark ")", .mark ";"] := by rfl
    have whole := (spelled_quote stage).append first (enters_quote (by rfl) stage) last rfl
      (by decide)
    rw [stageMove, Code.signs_literal, signsOf_append, signsOf_append, List.append_assoc]
    exact whole
  | computed =>
    have first : run nothing (signsOf "if let Some(next_stage) = rules[") =
        ([.word "if", .word "let", .word "Some", .mark "(", .word "next_stage", .mark ")",
          .mark "=", .word "rules"], mark "[") := by
      rfl
    have last : Written (signsOf "].next_stage(" ++ Sign.var frame.chunk :: (signsOf ", " ++
        Sign.var frame.cursor :: (signsOf ", " ++ (stop.code.signs ++ (signsOf " - " ++
          Sign.var frame.cursor ::
            signsOf ", ctx, stage.as_deref()) \x7b\n*stage = Some(next_stage);\n\x7d\n")))))
        ([Token.mark "]", Token.mark ".", Token.word "next_stage", Token.mark "("] ++ (tokensOfList
          [.var frame.chunk, .var frame.cursor, .binary .minus stop.expr (.var frame.cursor),
            .name "ctx", .method (.name "stage") "as_deref" []] ++
            [Token.mark ")", Token.mark "\x7b"] ++
          ((setStage (.name "next_stage")).tokens ++ [Token.mark "\x7d"]))) := by
      cases stop <;> rfl
    have whole := (spelled_number rule).append first (enters_number _ rule) last rfl (by decide)
    simp only [stageMove, Code.signs_block_cons, Code.signs_block_nil, Code.signs_literal,
      Code.signs_var, signsOf_append, List.append_assoc, List.cons_append, List.nil_append,
      List.append_nil]
    refine Eq.trans whole ?_
    cases stop <;> rfl

theorem written_accept (rule : Nat) (stop : Place) (move : StageMove) :
    Written ((Stmt.accept rule stop move).code frame).signs
      (Command.tokensAll ((Stmt.accept rule stop move).program frame)) := by
  have test : Written (signsOf "if " ++ (stop.code.signs ++ (signsOf " > " ++
    Sign.var frame.cursor ::
      signsOf " \x7b\n"))) (.word "if" :: ((Expr.binary .greater stop.expr
        (.var frame.cursor)).tokens ++ [Token.mark "\x7b"])) := by
    cases stop <;> rfl
  have keep : Written (signsOf "let prev_stage = stage.clone();\n")
      (Command.bind (.name "prev_stage") (.method (.name "stage") "clone" [])).tokens := by
    rfl
  have first : run nothing (.var frame.pending :: (signsOf " = Some((")) =
      ([.var frame.pending, .mark "=", .word "Some", .mark "("], mark "(") := by
    rfl
  have last : Written (signsOf ", " ++ Sign.var frame.cursor :: (signsOf ", " ++ (stop.code.signs ++
      signsOf ", prev_stage));\n"))) ([Token.mark ",", Token.var frame.cursor, Token.mark ","] ++
        (stop.expr.tokens ++ [Token.mark ",", Token.word "prev_stage", Token.mark ")",
          Token.mark ")", Token.mark ";"])) := by
    cases stop <;> rfl
  have pending : Written _ _ :=
    (spelled_number rule).append first (enters_number _ rule) last rfl (by decide)
  have ends : Written (.var frame.cursor :: (signsOf " = " ++ (stop.code.signs ++
      (signsOf ";\n" ++ signsOf "continue 'scan;\n\x7d\n"))))
      (Command.tokensAll [.assign (.var frame.cursor) stop.expr, .again "scan"] ++
        [Token.mark "\x7d"]) := by
    cases stop <;> rfl
  have whole := test.append (frame.written_confirmPending.append (keep.append
    ((frame.written_stageMove rule stop move).append (pending.append ends))))
  have text : signsOf ", prev_stage));\n" = signsOf ", prev_stage))" ++ signsOf ";\n" := by rfl
  rw [text] at whole
  simp only [Stmt.code, Stmt.program, Code.signs_block_cons, Code.signs_block_nil,
    Code.signs_literal, Code.signs_var, Code.signs_assign, signsOf_append, List.append_assoc,
    List.cons_append, List.nil_append, List.append_nil] at whole ⊢
  refine Eq.trans whole ?_
  simp [Command.tokensAll, Command.tokens, Command.tokensElse, Frame.accept,
    Command.tokensAll_append, Expr.tokens, pathTokens, tokensOfList, finish]

theorem written_fail (owner r : Nat) :
    Written ((Stmt.fail owner r).code frame).signs (Command.tokensAll (frame.fail owner r)) := by
  have first : run nothing (signsOf "handler.error(&rules[") =
      ([.word "handler", .mark ".", .word "error", .mark "(", .mark "&", .word "rules"],
        mark "[") := by
    rfl
  have last : Written (signsOf "], *chunk_offset + " ++ Sign.var frame.cursor :: (signsOf ", " ++
      Sign.var r :: (signsOf ");\n*offset = " ++ Sign.var frame.cursor :: signsOf ";\nreturn;\n")))
      (.mark "]" :: .mark "," :: ((inStream (.var frame.cursor)).tokens ++ [Token.mark ",",
        Token.var r,
        Token.mark ")", Token.mark ";"] ++ Command.tokensAll
          [.assign (.content (.name "offset")) (.var frame.cursor), .stop])) := by
    rfl
  have report : Written _ _ :=
    (spelled_number owner).append first (enters_number _ owner) last rfl (by decide)
  have whole := frame.written_confirmPending.append report
  simp only [Stmt.code, Code.signs_block_cons, Code.signs_block_nil, Code.signs_literal,
    Code.signs_var, signsOf_append, List.append_assoc, List.cons_append, List.nil_append,
    List.append_nil] at whole ⊢
  refine Eq.trans whole ?_
  simp [Command.tokensAll, Command.tokens, fail, ruleAt, Expr.tokens, tokensOfList, finish]

end Frame

namespace Stmt

theorem written_armHead (stage : String) : Written (armHead stage).signs
    ((Pattern.some (.text stage)).tokens ++ [Token.mark "=>", Token.mark "\x7b"]) := by
  have first : run nothing (signsOf "Some(") = ([.word "Some"], mark "(") := by rfl
  have last : Written (signsOf ") => \x7b\n") [.mark ")", .mark "=>", .mark "\x7b"] := by rfl
  have whole := (spelled_quote stage).append first (enters_quote (by rfl) stage) last rfl (by decide)
  rw [armHead, Code.signs_literal, signsOf_append, signsOf_append, List.append_assoc]
  exact whole

theorem written_close : Written (signsOf "\x7d\n") [.mark "\x7d"] := by rfl

/-- A part in braces behind another one. -/
theorem written_braces {front part inside : List Sign} {before tokens more : List Token}
    (spelled : Spelled part tokens) (first : Written front before) (second : Written inside more) :
    Written (front ++ (part ++ (signsOf " \x7b\n" ++ (inside ++ signsOf "\x7d\n"))))
      (before ++ (tokens ++ Token.mark "\x7b" :: (more ++ [Token.mark "\x7d"]))) := by
  have opens : Written (signsOf " \x7b\n") [.mark "\x7b"] := by rfl
  exact spelled.append (c := ' ') first (enters_nothing _)
    (opens.append (second.append written_close)) rfl (by decide)

mutual
/-- The sets of all readings in the statement have members. -/
def Filled : Stmt → Prop
  | assign _ value _ => value.Filled
  | block items => FilledAll items
  | guarded _ body | loop body => Filled body
  | onResult _ matched failed => Filled matched ∧ Filled failed
  | dispatch _ arms otherwise => FilledAll arms ∧ Filled otherwise
  | declare _ | leave | accept _ _ _ | fail _ _ => True
def FilledAll : List Stmt → Prop
  | [] => True
  | item :: rest => Filled item ∧ FilledAll rest
end

mutual
/-- The text of a statement is that of its program. -/
theorem written : (stmt : Stmt) → stmt.Filled →
    Written (stmt.code frame).signs (Command.tokensAll (stmt.program frame))
  | declare v, _ => by rfl
  | assign v value retained, filled => by
    have first : run nothing (.var v :: signsOf " = ") = ([.var v, .mark "="], nothing) := by rfl
    have last : Written (signsOf ";\n") [.mark ";"] := by rfl
    have whole := (Value.spelled filled frame.chunk).append (c := ';') first (enters_nothing _) last
      rfl (by decide)
    simpa [code, program, Command.tokensAll, Command.tokens, Expr.tokens, finish] using whole
  | block items, filled => writtenAll items filled
  | guarded cond body, filled => by
    have first : Written (signsOf "if ") [.word "if"] := by rfl
    have whole := written_braces (cond.spelled frame.chunk) first (written body filled)
    simpa [code, program, Command.tokensAll, Command.tokens, Command.tokensElse] using whole
  | onResult r matched failed, filled => by
    have first : Written (signsOf "if " ++ Sign.var r :: signsOf " >= 0 \x7b\n")
        [.word "if", .var r, .mark ">=", .number 0, .mark "\x7b"] := by
      rfl
    have second : Written (signsOf "\x7d else if " ++ Sign.var r :: signsOf " != -1 \x7b\n")
        [.mark "\x7d", .word "else", .word "if", .var r, .mark "!=", .mark "-", .number 1,
          .mark "\x7b"] := by
      rfl
    have whole := first.append ((written matched filled.1).append
      (second.append ((written failed filled.2).append written_close)))
    simpa [code, program, Command.tokensAll, Command.tokens, Command.tokensElse, Command.isTest,
      Operator.token, Expr.tokens] using whole
  | loop body, filled => by
    have first : Written (signsOf "loop \x7b\n") [.word "loop", .mark "\x7b"] := by rfl
    have whole := first.append ((written body filled).append written_close)
    simpa [code, program, Command.tokensAll, Command.tokens] using whole
  | leave, _ => by rfl
  | accept rule stop move, _ => frame.written_accept rule stop move
  | fail owner r, _ => frame.written_fail owner r
  | dispatch stages arms otherwise, filled => by
    have first : Written (signsOf "match stage.as_deref() \x7b\n") (.word "match" ::
        ((Expr.method (.name "stage") "as_deref" []).tokens ++ [Token.mark "\x7b"])) := by
      rfl
    have last : Written (signsOf "_ => \x7b\n") [.word "_", .mark "=>", .mark "\x7b"] := by rfl
    have listed := writtenArms arms stages filled.1
      (last.append ((written otherwise filled.2).append written_close))
    have whole := first.append (listed.append written_close)
    have text : signsOf "\x7d\n\x7d\n" = signsOf "\x7d\n" ++ signsOf "\x7d\n" := by rfl
    simpa [code, program, Command.tokensAll, Command.tokens, text] using whole
theorem writtenAll : (items : List Stmt) → FilledAll items →
    Written (Code.block (codes frame items)).signs (Command.tokensAll (programAll frame items))
  | [], _ => by rfl
  | item :: rest, filled => by
    rw [codes, programAll, Command.tokensAll_append, Code.signs_block_cons]
    exact (written item filled.1).append (writtenAll rest filled.2)
theorem writtenArms {last : List Sign} {otherwise : List Command} : (arms : List Stmt) →
    (stages : List String) → FilledAll arms →
      Written last ([Token.word "_", Token.mark "=>", Token.mark "\x7b"] ++
        (Command.tokensAll otherwise ++ [Token.mark "\x7d"])) →
        Written ((Code.block (armCodes frame stages arms)).signs ++ last)
          (Command.tokensCases (patterns stages arms) (programArms frame stages otherwise arms))
  | [], _, _, ends | _ :: _, [], _, ends => by
    simpa [armCodes, patterns, programArms, Command.tokensCases, Pattern.tokens] using ends
  | arm :: rest, stage :: stages, filled, ends => by
    have others := writtenArms rest stages filled.2 ends
    have whole := (written_armHead stage).append ((written arm filled.1).append
      (written_close.append others))
    simpa [armCodes, patterns, programArms, Command.tokensCases] using whole
end

end Stmt

namespace Routine

variable {Ctx : Type}

private theorem written_prologue (frame : Frame) :
    Written (prologue frame).signs (Command.tokensAll (firstCommands frame)) := by
  rfl

private theorem written_epilogue (frame : Frame) :
    Written (epilogue frame).signs (Command.tokensAll (lastCommands frame)) := by
  rfl

/-- The text of the body of a routine is that of its program. -/
theorem written_body (routine : Routine Ctx) (filled : routine.dispatch.Filled) :
    Written routine.body.signs (Command.tokensAll routine.program) := by
  have head : Written (signsOf "'scan: while " ++ Sign.var routine.frame.cursor :: (signsOf " < " ++
      Sign.var routine.frame.chunk :: signsOf ".len() \x7b\n"))
      ([Token.label "scan", Token.mark ":", Token.word "while"] ++
        ((textLeft routine.frame).tokens ++ [Token.mark "\x7b"])) := by
    rfl
  have close : Written (signsOf "break;\n\x7d\n") (Command.leave.tokens ++
    [Token.mark "\x7d"]) := by rfl
  have inside : Written (routine.dispatch.code routine.frame).signs _ := Stmt.written _ filled
  have whole := (written_prologue routine.frame).append (head.append (inside.append
    (close.append (written_epilogue routine.frame))))
  simpa [body, program, Command.tokensAll_append, Command.tokensAll, Command.tokens] using whole

end Routine

end Statements

end StagedLexer
