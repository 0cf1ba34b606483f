import StagedLexer.Tokenizer
import StagedLexer.Reader.Build

/-! A tokenizer for JSON texts with comments. The contents of strings are read in a stage of their
own, where characters and escape sequences are tokens. -/
namespace StagedLexer.JsonTokens

def valueStage : String := "Value"

def stringStage : String := "String"

def invalidEscape : ErrorCode := ⟨-2, by decide⟩

def numberPattern : String := "-?(0|[1-9][0-9]*)(\\.[0-9]+)?([eE][+-]?[0-9]+)?"

/-- Reads an escape sequence. At the end of the text it is not known whether a backslash starts a
valid one. -/
def readEscape (text : Bytes) (offset : Nat) (_ : Unit) : Reading :=
  if text[offset]? = some 0x5c then
    match text[offset + 1]? with
    | none => .noMatch
    | some b =>
      if (Bytes.ofString "\"\\/bfnrt").contains b then .matched (offset + 2)
      else .failed invalidEscape
  else .noMatch

def rules (number escape : Reader Unit) : List (Rule Unit) :=
  let units (s : String) : List UInt8 := Bytes.ofString s
  let word (id : Nat) (s : String) : Reader Unit := .text id (units s)
  let inValue (tokenType : String) (reader : Reader Unit) : Rule Unit :=
    { tokenType, reader, activity := .inStages [valueStage] }
  let inString (tokenType : String) (reader : Reader Unit) : Rule Unit :=
    { tokenType, reader, activity := .inStages [stringStage] }
  [ inValue "Whitespace" (.times 3 (.oneOf 2 (units " \t\r\n")) 1 none),
    inValue "Number" number,
    inValue "True" (word 4 "true"),
    inValue "False" (word 5 "false"),
    inValue "Null" (word 6 "null"),
    inValue "LBrace" (word 7 "\x7b"),
    inValue "RBrace" (word 8 "\x7d"),
    inValue "LBracket" (word 9 "["),
    inValue "RBracket" (word 10 "]"),
    inValue "Colon" (word 11 ":"),
    inValue "Comma" (word 12 ","),
    inValue "Comment" (.inOrder 16 [word 13 "/*", .upTo 15 (word 14 "*/") true false]),
    (inValue "Quote" (word 17 "\"")).goingTo stringStage,
    inString "Escape" escape,
    inString "Chars" (.times 19 (.noneOf 18 (units "\"\\")) 1 none),
    (inString "Quote" (word 20 "\"")).goingTo valueStage ]

def escape : Reader Unit := .custom 1 readEscape

def number : Except BuildError (Reader Unit) := Reader.regex 0 numberPattern

def settings (number : Reader Unit) : Settings Unit :=
  { rules := rules number escape, initialStage := some valueStage }

def tokenizer : Except BuildError (Tokenizer Unit) := do (settings (← number)).build

end StagedLexer.JsonTokens
