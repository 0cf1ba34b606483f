import StagedLexer.Regex.Pattern
import StagedLexer.Text.Break
import StagedLexer.Text.Edition

/-! The classes of characters that patterns can name: by a property, a general category or a script
alone, or by one of the properties with values and a value of it. -/
namespace StagedLexer.Regex

open StagedLexer.Text

def categoryCodes? (name : String) : Option CodeSet :=
  let is (category : Category) : Option CodeSet := some (Category.classCodes (· == category))
  match name with
  | "any" => some ⟨#[(0, CodeSet.top)]⟩
  | "ascii" => some ⟨#[(0, 0x7f)]⟩
  | "assigned" => some (Category.classCodes (· != .unassigned))
  | "l" | "letter" => some (Category.classCodes Category.isLetter)
  | "lc" | "casedletter" =>
    some (Category.classCodes fun c => c == .upper || c == .lower || c == .title)
  | "lu" | "uppercaseletter" => is .upper
  | "ll" | "lowercaseletter" => is .lower
  | "lt" | "titlecaseletter" => is .title
  | "lm" | "modifierletter" => is .modifierLetter
  | "lo" | "otherletter" => is .otherLetter
  | "m" | "mark" | "combiningmark" => some (Category.classCodes Category.isMark)
  | "mn" | "nonspacingmark" => is .nonspacingMark
  | "mc" | "spacingmark" => is .spacingMark
  | "me" | "enclosingmark" => is .enclosingMark
  | "n" | "number" => some (Category.classCodes Category.isNumber)
  | "nd" | "decimalnumber" | "digit" => is .decimal
  | "nl" | "letternumber" => is .letterNumber
  | "no" | "othernumber" => is .otherNumber
  | "p" | "punctuation" | "punct" => some (Category.classCodes Category.isPunctuation)
  | "pc" | "connectorpunctuation" => is .connector
  | "pd" | "dashpunctuation" => is .dash
  | "ps" | "openpunctuation" => is .opening
  | "pe" | "closepunctuation" => is .close
  | "pi" | "initialpunctuation" => is .initialQuote
  | "pf" | "finalpunctuation" => is .finalQuote
  | "po" | "otherpunctuation" => is .otherPunctuation
  | "s" | "symbol" => some (Category.classCodes Category.isSymbol)
  | "sm" | "mathsymbol" => is .math
  | "sc" | "currencysymbol" => is .currency
  | "sk" | "modifiersymbol" => is .modifierSymbol
  | "so" | "othersymbol" => is .otherSymbol
  | "z" | "separator" => some (Category.classCodes Category.isSeparator)
  | "zs" | "spaceseparator" => is .space
  | "zl" | "lineseparator" => is .line
  | "zp" | "paragraphseparator" => is .paragraph
  | "c" | "other" => some (Category.classCodes Category.isOther)
  | "cc" | "control" | "cntrl" => is .control
  | "cf" | "format" => is .format
  | "co" | "privateuse" => is .privateUse
  | "cn" | "unassigned" => is .unassigned
  | _ => none

def scriptCodes? (name : String) : Option CodeSet := (Script.find? name).map Script.codes

def valueCodes? (property value : String) : Option CodeSet :=
  match property with
  | "generalcategory" | "gc" => categoryCodes? value
  | "script" | "sc" => scriptCodes? value
  | "scriptextensions" | "scx" => (Script.find? value).map Script.users
  | "age" => Edition.known? value
  | "graphemeclusterbreak" | "gcb" => (GraphemeBreak.find? value).map GraphemeBreak.codes
  | "wordbreak" | "wb" => (WordBreak.find? value).map WordBreak.codes
  | "sentencebreak" | "sb" => (SentenceBreak.find? value).map SentenceBreak.codes
  | _ => none

def ClassQuery.codes? : ClassQuery → Option CodeSet
  | .named name =>
    let name := looseName name
    ((Property.find? name).map Property.codes).or ((categoryCodes? name).or (scriptCodes? name))
  | .valued property value => valueCodes? (looseName property) (looseName value)

end StagedLexer.Regex
