import StagedLexer.Code.Names

/-! Fragments of emitted source. Variables are numbers that get their names when a fragment is
rendered; all that is neither a variable nor a statement about one is opaque text. -/
namespace StagedLexer

inductive Code where
  | literal (text : String)
  | var (var : Nat)
  | block (items : List Code)
  | declare (var : Nat)
  | define (var : Nat) (init : Code)
  /-- An assignment. The optimizer leaves it alone if `retained` is set. -/
  | assign (var : Nat) (value : Code) (retained : Bool)
  deriving Inhabited

namespace Code

mutual
def same : Code → Code → Bool
  | literal a, literal b => a == b
  | var a, var b => a == b
  | block as, block bs => sameAll as bs
  | declare a, declare b => a == b
  | define a x, define b y => a == b && same x y
  | assign a x r, assign b y s => a == b && same x y && r == s
  | _, _ => false
def sameAll : List Code → List Code → Bool
  | [], [] => true
  | a :: as, b :: bs => same a b && sameAll as bs
  | _, _ => false
end

mutual
def render : Code → Names → String × Names
  | literal text, names => (text, names)
  | var v, names => names.name v
  | block items, names => renderAll items names
  | declare v, names =>
    let (name, names) := names.name v
    ("let mut " ++ name ++ ";\n", names)
  | define v init, names =>
    let (name, names) := names.name v
    let (text, names) := render init names
    ("let mut " ++ name ++ " = " ++ text ++ ";\n", names)
  | assign v value _, names =>
    let (name, names) := names.name v
    let (text, names) := render value names
    (name ++ " = " ++ text ++ ";\n", names)
def renderAll : List Code → Names → String × Names
  | [], names => ("", names)
  | item :: rest, names =>
    let (text, names) := render item names
    let (more, names) := renderAll rest names
    (text ++ more, names)
end

inductive Piece where
  | text (text : String)
  | var (var : Nat)
  deriving DecidableEq

mutual
def pieces : Code → List Piece
  | literal text => [.text text]
  | var v => [.var v]
  | block items => piecesAll items
  | declare v => [.text "let mut ", .var v, .text ";\n"]
  | define v init => [Piece.text "let mut ", Piece.var v, Piece.text " = "] ++ pieces init ++
      [Piece.text ";\n"]
  | assign v value _ => [Piece.var v, Piece.text " = "] ++ pieces value ++ [Piece.text ";\n"]
def piecesAll : List Code → List Piece
  | [] => []
  | item :: rest => pieces item ++ piecesAll rest
end

mutual
/-- A fragment without the blocks on its surface; values keep theirs. -/
def flatten : Code → List Code
  | block items => flattenAll items
  | item => [item]
def flattenAll : List Code → List Code
  | [] => []
  | item :: rest => flatten item ++ flattenAll rest
end

mutual
def references (v : Nat) : Code → Nat
  | literal _ | declare _ => 0
  | var w => if w = v then 1 else 0
  | block items => referencesAll v items
  | define _ init => references v init
  | assign _ value _ => references v value
def referencesAll (v : Nat) : List Code → Nat
  | [] => 0
  | item :: rest => references v item + referencesAll v rest
end

mutual
def reads : Code → List Nat
  | literal _ | declare _ => []
  | var v => [v]
  | block items => readsAll items
  | define _ init => reads init
  | assign _ value _ => reads value
def readsAll : List Code → List Nat
  | [] => []
  | item :: rest => reads item ++ readsAll rest
end

mutual
def substitute (v : Nat) (value : Code) : Code → Code
  | var w => if w = v then value else var w
  | literal text => literal text
  | declare w => declare w
  | block items => block (substituteAll v value items)
  | define w init => define w (substitute v value init)
  | assign w old retained => assign w (substitute v value old) retained
def substituteAll (v : Nat) (value : Code) : List Code → List Code
  | [] => []
  | item :: rest => substitute v value item :: substituteAll v value rest
end

end Code

end StagedLexer
