import StagedLexer.Code.Basic
import StagedLexer.ByteSet

/-! The statements of a scanning routine and their form in emitted source. Results of readings and
positions are held in numbered variables; a result is a position, -1 for no match, or an error
code. -/
namespace StagedLexer

inductive Place where
  | var (var : Nat)
  | ofResult (result : Nat)
  deriving DecidableEq

inductive Probe where
  | text (units : List UInt8)
  | textAnyCase (units : List UInt8)
  | oneOf (set : ByteSet)
  | atEnd
  | skip (count : Nat)
  deriving DecidableEq

inductive Value where
  | noMatch
  | position (place : Place)
  | result (var : Nat)
  | probe (probe : Probe) (place : Place)
  | call (bound : Nat) (place : Place)
  | chunkEnd
  /-- The position in `pos` as a result if `counter` is at least `min`, and no match otherwise. -/
  | counted (counter min pos : Nat)
  | place (place : Place)
  | asPlace (result : Nat)
  | zero
  | succ (var : Nat)
  deriving DecidableEq

inductive Cond where
  | noMatch (result : Nat)
  | isMatch (result : Nat)
  | negative (result : Nat)
  | notNoMatch (result : Nat)
  | reached (counter bound : Nat)
  | unmoved (result pos : Nat)
  | atChunkEnd (pos : Nat)
  deriving DecidableEq

inductive StageMove where
  | stay
  | switch (stage : String)
  | computed
  deriving DecidableEq

inductive Stmt where
  | declare (var : Nat)
  | assign (var : Nat) (value : Value) (retained : Bool)
  | block (items : List Stmt)
  | guarded (cond : Cond) (body : Stmt)
  | onResult (result : Nat) (matched failed : Stmt)
  | loop (body : Stmt)
  | leave
  /-- Makes the match of a rule up to `stop` the pending token and goes on with the scan, if the
  match is not empty. -/
  | accept (rule : Nat) (stop : Place) (move : StageMove)
  | fail (owner result : Nat)
  | dispatch (stages : List String) (arms : List Stmt) (otherwise : Stmt)

structure Frame where
  chunk : Nat
  cursor : Nat
  pending : Nat

namespace Place

def code : Place → Code
  | var v => .var v
  | ofResult r => .block [.literal "(", .block [.var r, .literal " as usize"], .literal ")"]

end Place

def byteStringLiteral (units : List UInt8) : String :=
  "b\"" ++ String.join (units.map Text.escapeUnit) ++ "\""

namespace Probe

def code (chunk : Nat) (place : Place) : Probe → Code
  | text units =>
    advance ("Some(rest_) if rest_.starts_with(" ++ byteStringLiteral units ++ ")") units.length
  | textAnyCase units =>
    let size := toString units.length
    advance ("Some(rest_) if rest_.len() >= " ++ size ++ " && rest_[.." ++ size ++
      "].eq_ignore_ascii_case(" ++ byteStringLiteral units ++ ")") units.length
  | oneOf set => advance ("Some(rest_ @ [" ++ set.pattern ++ ", ..])") 1
  | atEnd =>
    .block [.literal "match ", .var chunk, .literal ".get(", place.code,
      .literal "..) \x7b\nSome([]) => ", .var chunk, .literal ".len() as isize,\n_ => -1,\n\x7d"]
  | skip count => advance ("Some(rest_) if rest_.len() >= " ++ toString count) count
where
  advance (pattern : String) (distance : Nat) : Code :=
    .block [.literal "match ", .var chunk, .literal ".get(", place.code,
      .literal ("..) \x7b\n" ++ pattern ++ " => ("), .var chunk,
      .literal (".len() - rest_.len() + " ++ toString distance ++ ") as isize,\n_ => -1,\n\x7d")]

end Probe

namespace Value

def code (chunk : Nat) : Value → Code
  | noMatch => .block [.literal "-1"]
  | position p => .block [p.code, .literal " as isize"]
  | result v => .var v
  | probe test p => test.code chunk p
  | call bound p =>
    .block [.var bound, .literal ".read(", .var chunk, .literal ", ", p.code, .literal ", ctx)"]
  | chunkEnd => .block [.var chunk, .literal ".len() as isize"]
  | counted counter min pos =>
    .block [.literal "if ", .var counter, .literal (" >= " ++ toString min ++ " \x7b "), .var pos,
      .literal " as isize \x7d else \x7b -1 \x7d"]
  | place p => p.code
  | asPlace r => .block [.var r, .literal " as usize"]
  | zero => .literal "0usize"
  | succ v => .block [.var v, .literal " + 1"]

end Value

namespace Cond

def code (chunk : Nat) : Cond → Code
  | noMatch r => .block [.var r, .literal " == -1"]
  | isMatch r => .block [.var r, .literal " >= 0"]
  | negative r => .block [.var r, .literal " < 0"]
  | notNoMatch r => .block [.var r, .literal " != -1"]
  | reached counter bound => .block [.var counter, .literal (" == " ++ toString bound)]
  | unmoved r pos => .block [.var r, .literal " as usize == ", .var pos]
  | atChunkEnd pos => .block [.var pos, .literal " >= ", .var chunk, .literal ".len()"]

end Cond

namespace Frame

def confirmPending (frame : Frame) : Code :=
  .block [.literal "if let Some((p_rule, p_start, p_end, _)) = ", .var frame.pending,
    .literal (".take() \x7b\n" ++
      "handler.token(&rules[p_rule], *chunk_offset + p_start, *chunk_offset + p_end);\n\x7d\n")]

def stageMove (frame : Frame) (rule : Nat) (stop : Place) : StageMove → Code
  | .stay => .block []
  | .switch stage => .literal ("*stage = Some(String::from(" ++ Text.quote stage ++ "));\n")
  | .computed =>
    .block [.literal ("if let Some(next_stage) = rules[" ++ toString rule ++ "].next_stage("),
      .var frame.chunk, .literal ", ", .var frame.cursor, .literal ", ", stop.code,
      .literal " - ", .var frame.cursor,
      .literal ", ctx, stage.as_deref()) \x7b\n*stage = Some(next_stage);\n\x7d\n"]

end Frame

namespace Stmt

def armHead (stage : String) : Code := .literal ("Some(" ++ Text.quote stage ++ ") => \x7b\n")

mutual
def code (frame : Frame) : Stmt → Code
  | declare v => .declare v
  | assign v value retained => .assign v (value.code frame.chunk) retained
  | block items => .block (codes frame items)
  | guarded cond body =>
    .block [.literal "if ", cond.code frame.chunk, .literal " \x7b\n", code frame body,
      .literal "\x7d\n"]
  | onResult r matched failed =>
    .block [.literal "if ", .var r, .literal " >= 0 \x7b\n", code frame matched,
      .literal "\x7d else if ", .var r, .literal " != -1 \x7b\n", code frame failed,
      .literal "\x7d\n"]
  | loop body => .block [.literal "loop \x7b\n", code frame body, .literal "\x7d\n"]
  | leave => .literal "break;\n"
  | accept rule stop move =>
    .block [.literal "if ", stop.code, .literal " > ", .var frame.cursor, .literal " \x7b\n",
      frame.confirmPending, .literal "let prev_stage = stage.clone();\n",
      frame.stageMove rule stop move,
      .assign frame.pending (.block [.literal ("Some((" ++ toString rule ++ ", "),
        .var frame.cursor, .literal ", ", stop.code, .literal ", prev_stage))"]) true,
      .assign frame.cursor stop.code true, .literal "continue 'scan;\n\x7d\n"]
  | fail owner r =>
    .block [frame.confirmPending,
      .literal ("handler.error(&rules[" ++ toString owner ++ "], *chunk_offset + "),
      .var frame.cursor, .literal ", ", .var r, .literal ");\n*offset = ", .var frame.cursor,
      .literal ";\nreturn;\n"]
  | dispatch stages arms otherwise =>
    .block [.literal "match stage.as_deref() \x7b\n", .block (armCodes frame stages arms),
      .literal "_ => \x7b\n", code frame otherwise, .literal "\x7d\n\x7d\n"]
def codes (frame : Frame) : List Stmt → List Code
  | [] => []
  | item :: rest => code frame item :: codes frame rest
def armCodes (frame : Frame) (stages : List String) : List Stmt → List Code
  | [] => []
  | arm :: rest =>
    match stages with
    | [] => []
    | stage :: stages =>
      .block [armHead stage, code frame arm, .literal "\x7d\n"] :: armCodes frame stages rest
end

end Stmt

end StagedLexer
