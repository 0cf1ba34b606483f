import StagedLexer.Proofs.ProgramTokens
import StagedLexer.Proofs.SourceTokens
import StagedLexer.Routine.Basic

/-! The programs that the statements of a routine stand for. -/
namespace StagedLexer

open Source

namespace Place

def expr : Place → Expr
  | var v => .var v
  | ofResult r => .paren (.cast (.var r) "usize")

end Place

namespace Probe

def rest : Expr := .name "rest_"

def size (expr : Expr) : Expr := .method expr "len" []

def missing : Expr := .negative (.number 1)

def behind (chunk distance : Nat) : Expr :=
  .cast (.paren (.binary .plus (.binary .minus (size (.var chunk)) (size rest))
    (.number distance))) "isize"

def arm (chunk : Nat) : Probe → Arms → Arms
  | text units => .guarded (.some (.name "rest_")) (.method rest "starts_with" [.units units])
    (behind chunk units.length)
  | textAnyCase units => .guarded (.some (.name "rest_"))
    (.binary .both (.binary .atLeast (size rest) (.number units.length))
      (.method (.index rest (.upTo (.number units.length))) "eq_ignore_ascii_case" [.units units]))
    (behind chunk units.length)
  | oneOf set => .plain (.some (.startsIn "rest_" set.ranges)) (behind chunk 1)
  | atEnd => .plain (.some .emptySlice) (.cast (size (.var chunk)) "isize")
  | skip count => .guarded (.some (.name "rest_")) (.binary .atLeast (size rest) (.number count))
    (behind chunk count)

def expr (chunk : Nat) (place : Place) (probe : Probe) : Expr :=
  .choose (.method (.var chunk) "get" [.fromOn place.expr])
    (probe.arm chunk (.plain .anything missing .done))

end Probe

namespace Value

def expr (chunk : Nat) : Value → Expr
  | noMatch => .negative (.number 1)
  | position p => .cast p.expr "isize"
  | result v => .var v
  | probe test p => test.expr chunk p
  | call bound p => .method (.var bound) "read" [.var chunk, p.expr, .name "ctx"]
  | chunkEnd => .cast (.method (.var chunk) "len" []) "isize"
  | counted counter min pos => .either (.binary .atLeast (.var counter) (.number min))
    (.cast (.var pos) "isize") (.negative (.number 1))
  | place p => p.expr
  | asPlace r => .cast (.var r) "usize"
  | zero => .size 0
  | succ v => .binary .plus (.var v) (.number 1)

end Value

namespace Cond

def expr (chunk : Nat) : Cond → Expr
  | noMatch r => .binary .equal (.var r) (.negative (.number 1))
  | isMatch r => .binary .atLeast (.var r) (.number 0)
  | negative r => .binary .less (.var r) (.number 0)
  | notNoMatch r => .binary .differs (.var r) (.negative (.number 1))
  | reached counter bound => .binary .equal (.var counter) (.number bound)
  | unmoved r pos => .binary .equal (.cast (.var r) "usize") (.var pos)
  | atChunkEnd pos => .binary .atLeast (.var pos) (.method (.var chunk) "len" [])

end Cond

namespace Frame

/-- A position in the stream. -/
def inStream (position : Expr) : Expr := .binary .plus (.content (.name "chunk_offset")) position

def ruleAt (number : Expr) : Expr := .borrow (.index (.name "rules") number)

def setStage (stage : Expr) : Command := .assign (.content (.name "stage")) (.call ["Some"] [stage])

def confirm (frame : Frame) : Command :=
  .testPattern (.some (.tuple [some "p_rule", some "p_start", some "p_end", none]))
    (.method (.var frame.pending) "take" [])
    [.perform (.method (.name "handler") "token" [ruleAt (.name "p_rule"),
      inStream (.name "p_start"), inStream (.name "p_end")])] []

def move (frame : Frame) (rule : Nat) (stop : Place) : StageMove → List Command
  | .stay => []
  | .switch stage => [setStage (.call ["String", "from"] [.text stage])]
  | .computed =>
    [.testPattern (.some (.name "next_stage"))
      (.method (.index (.name "rules") (.number rule)) "next_stage" [.var frame.chunk,
        .var frame.cursor, .binary .minus stop.expr (.var frame.cursor), .name "ctx",
        .method (.name "stage") "as_deref" []])
      [setStage (.name "next_stage")] []]

def accept (frame : Frame) (rule : Nat) (stop : Place) (move : StageMove) : List Command :=
  frame.confirm :: Command.bind (.name "prev_stage") (.method (.name "stage") "clone" []) ::
    frame.move rule stop move ++
      [Command.assign (.var frame.pending) (.call ["Some"] [.tuple [.number rule, .var frame.cursor,
        stop.expr, .name "prev_stage"]]),
      Command.assign (.var frame.cursor) stop.expr, Command.again "scan"]

def fail (frame : Frame) (owner r : Nat) : List Command :=
  [frame.confirm,
    .perform (.method (.name "handler") "error" [ruleAt (.number owner),
      inStream (.var frame.cursor), .var r]),
    .assign (.content (.name "offset")) (.var frame.cursor), .stop]

end Frame

namespace Stmt

def patterns (stages : List String) : List Stmt → List Source.Pattern
  | [] => [.anything]
  | _ :: arms =>
    match stages with
    | [] => [.anything]
    | stage :: stages => .some (.text stage) :: patterns stages arms

mutual
/-- The program of a statement. -/
def program (frame : Frame) : Stmt → List Command
  | declare v => [.declare v none]
  | assign v value _ => [.assign (.var v) (value.expr frame.chunk)]
  | block items => programAll frame items
  | guarded cond body => [.test (cond.expr frame.chunk) (program frame body) []]
  | onResult r matched failed => [.test (.binary .atLeast (.var r) (.number 0))
    (program frame matched) [.test (.binary .differs (.var r) (.negative (.number 1)))
      (program frame failed) []]]
  | loop body => [.loop (program frame body)]
  | leave => [.leave]
  | accept rule stop move =>
    [.test (.binary .greater stop.expr (.var frame.cursor)) (frame.accept rule stop move) []]
  | fail owner r => frame.fail owner r
  | dispatch stages arms otherwise => [.choose (.method (.name "stage") "as_deref" [])
    (patterns stages arms) (programArms frame stages (program frame otherwise) arms)]
def programAll (frame : Frame) : List Stmt → List Command
  | [] => []
  | item :: rest => program frame item ++ programAll frame rest
def programArms (frame : Frame) (stages : List String) (otherwise : List Command) :
    List Stmt → List (List Command)
  | [] => [otherwise]
  | arm :: rest =>
    match stages with
    | [] => [otherwise]
    | _ :: stages => program frame arm :: programArms frame stages otherwise rest
end

end Stmt

namespace Routine

def firstCommands (frame : Frame) : List Command :=
  [.bind (.fields "State" ["stage", "chunk", "offset", "chunk_offset"]) (.name "state"),
    .fix frame.chunk (.method (.name "chunk") "as_slice" []),
    .declare frame.cursor (some (.content (.name "offset"))),
    .declare frame.pending (some (.absent [.mark "(", .word "usize", .mark ",", .word "usize",
      .mark ",", .word "usize", .mark ",", .word "Option", .mark "<", .word "String", .mark ">",
      .mark ")"]))]

def textLeft (frame : Frame) : Expr :=
  .binary .less (.var frame.cursor) (.method (.var frame.chunk) "len" [])

def setOffset (frame : Frame) : Command :=
  .assign (.content (.name "offset")) (.var frame.cursor)

def holdBack (frame : Frame) : Command :=
  .testPattern (.some (.tuple [none, some "p_start", none, some "prev_stage"]))
    (.var frame.pending)
    [.assign (.content (.name "offset")) (.name "p_start"),
      .assign (.content (.name "stage")) (.name "prev_stage")]
    [setOffset frame]

def reportPending (frame : Frame) : Command :=
  .testPattern (.some (.tuple [some "p_rule", some "p_start", none, none])) (.var frame.pending)
    [.perform (.method (.name "handler") "token" [Frame.ruleAt (.name "p_rule"),
      Frame.inStream (.name "p_start"), Frame.inStream (.var frame.cursor)])] []

def reportRest (frame : Frame) : Command :=
  .test (textLeft frame) [.perform (.method (.name "handler") "unrecognized_token"
    [Frame.inStream (.var frame.cursor)])] []

def lastCommands (frame : Frame) : List Command :=
  [.test (.name "streaming") [holdBack frame]
    [reportPending frame, reportRest frame, setOffset frame]]

/-- The program of the body of a routine. -/
def program {Ctx : Type} (routine : Routine Ctx) : List Command :=
  let frame := routine.frame
  firstCommands frame ++ Command.during "scan" (textLeft frame)
    (routine.dispatch.program frame ++ [Command.leave]) :: lastCommands frame

end Routine

end StagedLexer
