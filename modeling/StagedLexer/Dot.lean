/-! Writing graphs in the dot language. A graph is told to the writer in calls, each of which writes a
line. -/
namespace StagedLexer.Dot

inductive Attribute where
  | circle
  | red
  | blue
  | penWidth (width : Nat)
  | label (text : String)
  deriving DecidableEq, Repr

inductive Call where
  | label (text : String)
  | leftToRight
  | node (name : String) (attributes : List Attribute)
  | edge (source target : String) (attributes : List Attribute)
  deriving DecidableEq, Repr

inductive Statement where
  | setting (name : String)
  | node (name : String)
  | edge (source target : String)
  deriving DecidableEq, Repr

def Call.statement : Call → Statement
  | label _ => .setting "label"
  | leftToRight => .setting "rankdir"
  | node name _ => .node name
  | edge source target _ => .edge source target

/-- A label stands between quotes as it is. -/
def Attribute.text : Attribute → String
  | circle => "shape=circle"
  | red => "color=red"
  | blue => "color=blue"
  | penWidth width => "penwidth=" ++ toString width
  | label text => "label=\"" ++ text ++ "\""

def joined : List Attribute → String
  | [] => ""
  | [last] => last.text
  | first :: rest => first.text ++ ", " ++ joined rest

def bracketed (attributes : List Attribute) : String :=
  if attributes.isEmpty then "" else " [" ++ joined attributes ++ "]"

def Call.line : Call → String
  | label text => "  label=\"" ++ text ++ "\";\n"
  | leftToRight => "  rankdir=LR;\n"
  | node name attributes => "  " ++ name ++ bracketed attributes ++ ";\n"
  | edge source target attributes =>
    "  " ++ source ++ " -> " ++ target ++ bracketed attributes ++ ";\n"

def render (calls : List Call) : String :=
  "digraph \x7b\n" ++ String.join (calls.map Call.line) ++ "\x7d\n"

end StagedLexer.Dot
