import StagedLexer.Code.Optimize
import StagedLexer.Routine.Readers
import StagedLexer.Scan

/-! The scanning routine of a lexicon: the tries unrolled into nested statements and the readers
written out, around the same handling of the pending token as in a scan. -/
namespace StagedLexer

variable {Ctx : Type}

def StageMove.ofTransition : Transition Ctx → StageMove
  | .stay => .stay
  | .switch stage => .switch stage
  | .computed _ => .computed

def StageMove.ofRule (rules : Array (Rule Ctx)) (rule : Nat) : StageMove :=
  match rules[rule]? with
  | some rule => ofTransition rule.transition
  | none => .stay

namespace Branch

def completion (rules : Array (Rule Ctx)) (stop : Nat) : (rule : Option Nat) → List Stmt
  | some rule => [.accept rule (.var stop) (.ofRule rules rule)]
  | none => []

mutual
def stmt (rules : Array (Rule Ctx)) (place : Nat) : Branch Ctx → Assembly Ctx Stmt
  | ⟨_, readers, children, rule, owner⟩ => do
    let r ← Assembly.var
    let stop ← Assembly.var
    let below ← stmts rules stop children
    let body ← Stmt.ofSequence readers place r
    return .block [.declare r, body, .onResult r
      (.block ([Stmt.declare stop, Stmt.assign stop (.asPlace r) false, Stmt.block below] ++
        completion rules stop rule))
      (.fail owner r)]
def stmts (rules : Array (Rule Ctx)) (place : Nat) : List (Branch Ctx) → Assembly Ctx (List Stmt)
  | [] => return []
  | branch :: rest => do
    let head ← stmt rules place branch
    let tail ← stmts rules place rest
    return head :: tail
end

end Branch

/-- A scanning routine: its shared variables, the statement that tries the rules at the cursor, and
the variables and readers that it uses. -/
structure Routine (Ctx : Type) where
  frame : Frame
  dispatch : Stmt
  assembler : Assembler Ctx

namespace Routine

def arms (rules : Array (Rule Ctx)) (cursor : Nat) :
    List (String × List (Branch Ctx)) → Assembly Ctx (List Stmt)
  | [] => return []
  | (_, branches) :: rest => do
    let arm ← Branch.stmts rules cursor branches
    let more ← arms rules cursor rest
    return .block arm :: more

def dispatchStmt (lexicon : Lexicon Ctx) (cursor : Nat) : Assembly Ctx Stmt := do
  if lexicon.forest.tries.isEmpty then
    return .block (← Branch.stmts lexicon.rules cursor lexicon.forest.stageless)
  else
    let listed ← arms lexicon.rules cursor lexicon.forest.tries
    let otherwise ← Branch.stmts lexicon.rules cursor lexicon.forest.stageless
    return .dispatch lexicon.forest.stages listed (.block otherwise)

def ofLexicon (lexicon : Lexicon Ctx) : Routine Ctx :=
  let (frame, asm) := (do
    let chunk ← Assembly.var
    let cursor ← Assembly.var
    let pending ← Assembly.var
    return { chunk, cursor, pending } : Assembly Ctx Frame).run {}
  let (dispatch, assembler) := (dispatchStmt lexicon frame.cursor).run asm
  { frame, dispatch, assembler }

def prologue (frame : Frame) : Code :=
  .block [.literal ("let State \x7b\nstage,\nchunk,\noffset,\nchunk_offset,\n\x7d = state;\n" ++
      "let "), .var frame.chunk, .literal " = chunk.as_slice();\n",
    .define frame.cursor (.literal "*offset"),
    .define frame.pending (.literal "None::<(usize, usize, usize, Option<String>)>")]

def epilogue (frame : Frame) : Code :=
  let cursor : Code := .var frame.cursor
  let pending : Code := .var frame.pending
  .block [.literal "if streaming \x7b\nif let Some((_, p_start, _, prev_stage)) = ", pending,
    .literal (" \x7b\n*offset = p_start;\n*stage = prev_stage;\n\x7d else \x7b\n*offset = "),
    cursor,
    .literal (";\n\x7d\n\x7d else \x7b\nif let Some((p_rule, p_start, _, _)) = "), pending,
    .literal (" \x7b\nhandler.token(&rules[p_rule], *chunk_offset + p_start, *chunk_offset + "),
    cursor, .literal ");\n\x7d\nif ", cursor, .literal " < ", .var frame.chunk,
    .literal ".len() \x7b\nhandler.unrecognized_token(*chunk_offset + ", cursor,
    .literal ");\n\x7d\n*offset = ", cursor, .literal ";\n\x7d\n"]

def body (routine : Routine Ctx) : Code :=
  let frame := routine.frame
  .block [prologue frame, .literal "'scan: while ", .var frame.cursor, .literal " < ",
    .var frame.chunk, .literal ".len() \x7b\n", routine.dispatch.code frame,
    .literal "break;\n\x7d\n", epilogue frame]

def signature (context : Option String) : Signature :=
  let (generics, ctx) := match context with
    | some ctx => ("<T, H: Handler<T, " ++ ctx ++ ">>", ctx)
    | none => ("<T, C, H: Handler<T, C>>", "C")
  { name := "scan", generics
    params := [(.literal "rules", "&[Rule<T, " ++ ctx ++ ">]"), (.literal "state", "&mut State"),
      (.literal "handler", "&mut H"), (.literal "ctx", "&" ++ ctx),
      (.literal "streaming", "bool")] }

end Routine

end StagedLexer
