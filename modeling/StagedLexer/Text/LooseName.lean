/-! Names of classes of characters are compared loosely: case, blanks, hyphens and underscores do
not distinguish them, and neither does `is` in front. -/
namespace StagedLexer.Text

def distinctive (name : List Char) : List Char :=
  (name.filter fun c => c.toNat < 0x80 && c != ' ' && c != '_' && c != '-').map Char.toLower

/-- The form in which names are compared. A name that would be left with the letter `c` alone keeps
its `is`. -/
def looseName (name : String) : String :=
  match name.toList with
  | first :: second :: rest =>
    if first.toLower = 'i' && second.toLower = 's' then
      match distinctive rest with
      | ['c'] => "isc"
      | rest => String.ofList rest
    else String.ofList (distinctive (first :: second :: rest))
  | short => String.ofList (distinctive short)

end StagedLexer.Text
