import StagedLexer.Text.Quoted

/-! JSON values and their text. -/
namespace StagedLexer

/-- A JSON value. Objects keep the order of their fields and may repeat a name. -/
inductive Json where
  | null
  | bool (value : Bool)
  | integer (value : Int)
  | real (literal : String)
  | string (text : String)
  | brokenString
  | array (items : List Json)
  | object (fields : List (Option String × Json))
  deriving Inhabited

namespace Json

def quoteChar (c : Char) : String :=
  if c = '"' then "\\\""
  else if c = '\\' then "\\\\"
  else if c = '\x08' then "\\b"
  else if c = '\x0c' then "\\f"
  else if c = '\n' then "\\n"
  else if c = '\r' then "\\r"
  else if c = '\t' then "\\t"
  else if c.toNat < 0x20 then "\\u00" ++ Text.hex2 c.toNat
  else String.singleton c

def quote (s : String) : String := "\"" ++ String.join (s.toList.map quoteChar) ++ "\""

def renderName : Option String → String
  | some name => quote name
  | none => "\"\\ud800\""

mutual
def render : Json → String
  | null => "null"
  | bool value => if value then "true" else "false"
  | integer value => toString value
  | real literal => literal
  | string text => renderName (some text)
  | brokenString => renderName none
  | array items => "[" ++ String.intercalate "," (renderAll items) ++ "]"
  | object fields => "\x7b" ++ String.intercalate "," (renderFields fields) ++ "\x7d"
def renderAll : List Json → List String
  | [] => []
  | item :: rest => render item :: renderAll rest
def renderFields : List (Option String × Json) → List String
  | [] => []
  | (name, value) :: rest => (renderName name ++ ":" ++ render value) :: renderFields rest
end

def ofFields (fields : List (String × Json)) : Json :=
  object (fields.map fun (name, value) => (some name, value))

def ofNat (n : Nat) : Json := integer n

end Json

end StagedLexer
