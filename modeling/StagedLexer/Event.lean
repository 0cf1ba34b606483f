import StagedLexer.Reading
import StagedLexer.Text.Quoted

/-! What a tokenizer reports: spans of the stream and events. Positions are counted in code units
from the start of the stream. -/
namespace StagedLexer

structure Span where
  start : Nat
  stop : Nat
  deriving DecidableEq

namespace Span

def isEmpty (span : Span) : Bool := span.stop ≤ span.start

def size (span : Span) : Nat := span.stop - span.start

def ofBounds (bounds : Nat × Nat) : Span := ⟨bounds.1, bounds.2⟩

def bounds (span : Span) : Nat × Nat := (span.start, span.stop)

def display (span : Span) : String := toString span.start ++ ".." ++ toString span.stop

def describe (span : Span) : String :=
  "Span \x7b start: " ++ toString span.start ++ ", end: " ++ toString span.stop ++ " \x7d"

end Span

inductive Event where
  | token (tokenType : String) (span : Span)
  | error (tokenType : String) (offset : Nat) (code : Int)
  | unrecognized (offset : Nat)
  deriving DecidableEq

def Event.describe : Event → String
  | token tokenType span =>
    "Token \x7b token_type: " ++ Text.quote tokenType ++ ", span: " ++ span.describe ++ " \x7d"
  | error tokenType offset code =>
    "Error \x7b token_type: " ++ Text.quote tokenType ++ ", offset: " ++ toString offset ++
      ", code: " ++ toString code ++ " \x7d"
  | unrecognized offset => "Unrecognized \x7b offset: " ++ toString offset ++ " \x7d"

end StagedLexer
