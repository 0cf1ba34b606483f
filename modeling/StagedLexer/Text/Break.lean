import StagedLexer.Text.Property
import StagedLexer.Text.Script

/-! How characters stand together in graphemes, words and sentences, in edition 16 of the standard:
three partitions of all characters into classes. The characters without a class in a partition have
no name there. -/
namespace StagedLexer.Text

inductive GraphemeBreak where
  | carriageReturn | lineFeed | control | extend | joiner | regionalIndicator | prepended
  | spacingMark | leading | vowel | trailing | openSyllable | closedSyllable
  deriving DecidableEq, Repr

namespace GraphemeBreak

def find? : String → Option GraphemeBreak
  | "cr" => some carriageReturn
  | "lf" => some lineFeed
  | "control" | "cn" => some control
  | "extend" | "ex" => some extend
  | "zwj" => some joiner
  | "regionalindicator" | "ri" => some regionalIndicator
  | "prepend" | "pp" => some prepended
  | "spacingmark" | "sm" => some spacingMark
  | "l" => some leading
  | "v" => some vowel
  | "t" => some trailing
  | "lv" => some openSyllable
  | "lvt" => some closedSyllable
  | _ => none

def extendCodes : CodeSet := Property.extenderCodes.union Property.emojiModifiers

/-- The syllables without a trailing consonant: each is followed by its 27 closed syllables. -/
def openSyllables : CodeSet :=
  CodeSet.ofRanges ((List.range 399).map fun i => (0xac00 + 28 * i, 0xac00 + 28 * i))

def codes : GraphemeBreak → CodeSet
  | carriageReturn => .ofText "D"
  | lineFeed => .ofText "A"
  | control =>
    ((Category.classCodes fun c =>
      c == .line || c == .paragraph || c == .control || c == .format).union
      ((Category.classCodes (· == .unassigned)).inter Property.ignorableCodes)).diff
        ((extendCodes.union Property.prependedCodes).union (.ofText "A D 200C-200D"))
  | extend => extendCodes
  | joiner => .ofText "200D"
  | regionalIndicator => Property.codes .regionalIndicator
  | prepended =>
    .ofText "600-605 6DD 70F 890-891 8E2 D4E 110BD 110CD 111C2-111C3 113D1 1193F 11941 11A3A
      11A84-11A89 11D46 11F02"
  | spacingMark =>
    ((Category.classCodes (· == .spacingMark)).diff (extendCodes.union
      (.ofText "102B-102C 1038 1062-1064 1067-106D 1083 1087-108C 108F 109A-109C 1A61 1A63-1A64
        AA7B AA7D 11720-11721"))).union (.ofText "E33 EB3")
  | leading => .ofText "1100-115F A960-A97C"
  | vowel => .ofText "1160-11A7 D7B0-D7C6 16D63 16D67-16D6A"
  | trailing => .ofText "11A8-11FF D7CB-D7FB"
  | openSyllable => openSyllables
  | closedSyllable => (CodeSet.ofText "AC00-D7A3").diff openSyllables

end GraphemeBreak

inductive WordBreak where
  | carriageReturn | lineFeed | newline | extend | joiner | regionalIndicator | format | katakana
  | hebrewLetter | letter | singleQuote | doubleQuote | midLetter | midNumber | midNumberLetter
  | numeric | extendNumberLetter | blank
  deriving DecidableEq, Repr

namespace WordBreak

def find? : String → Option WordBreak
  | "cr" => some carriageReturn
  | "lf" => some lineFeed
  | "newline" | "nl" => some newline
  | "extend" => some extend
  | "zwj" => some joiner
  | "regionalindicator" | "ri" => some regionalIndicator
  | "format" | "fo" => some format
  | "katakana" | "ka" => some katakana
  | "hebrewletter" | "hl" => some hebrewLetter
  | "aletter" | "le" => some letter
  | "singlequote" | "sq" => some singleQuote
  | "doublequote" | "dq" => some doubleQuote
  | "midletter" | "ml" => some midLetter
  | "midnum" | "mn" => some midNumber
  | "midnumlet" | "mb" => some midNumberLetter
  | "numeric" | "nu" => some numeric
  | "extendnumlet" | "ex" => some extendNumberLetter
  | "wsegspace" => some blank
  | _ => none

def scriptCodes (name : String) : CodeSet := ((Script.find? name).map Script.codes).getD .empty

def extendCodes : CodeSet :=
  ((Property.extenderCodes.union Property.emojiModifiers).union
    (Category.classCodes (· == .spacingMark))).diff (.ofText "200D")

def numberSigns : CodeSet := .ofText "600-605 6DD 890-891 8E2 110BD 110CD"

def unspacedLetters : CodeSet :=
  .ofText "E01-E30 E32-E33 E40-E46 E81-E82 E84 E86-E8A E8C-EA3 EA5 EA7-EB0 EB2-EB3 EBD EC0-EC4
    EC6 EDC-EDF 1000-102A 103F 1050-1055 105A-105D 1061 1065-1066 106E-1070 1075-1081 108E
    1780-17B3 17D7 17DC 1950-196D 1970-1974 1980-19AB 19B0-19C9 1A20-1A54 1AA7 A9E0-A9E4 A9E6-A9EF
    A9FA-A9FE AA60-AA76 AA7A AA7E-AAAF AAB1 AAB5-AAB6 AAB9-AABD AAC0 AAC2 AADB-AADD 11700-1171A
    11740-11746"

def katakanaCodes : CodeSet :=
  (scriptCodes "katakana").union (.ofText "3031-3035 309B-309C 30A0 30FC FF70")

def hebrewCodes : CodeSet := (scriptCodes "hebrew").inter (Category.classCodes (· == .otherLetter))

def letterCodes : CodeSet :=
  let letters := Property.alphabeticCodes.union
    (.ofText "B8 2C2-2C5 2D2-2D7 2DE-2DF 2E5-2EB 2ED 2EF-2FF 55A-55C 55E 58A 5F3 A708-A716
      A720-A721 A789-A78A AB5B")
  let others := [Property.ideographCodes, katakanaCodes, scriptCodes "hiragana", extendCodes,
    hebrewCodes, unspacedLetters]
  (others.foldl CodeSet.diff letters).union (.ofText "70F")

def codes : WordBreak → CodeSet
  | carriageReturn => .ofText "D"
  | lineFeed => .ofText "A"
  | newline => .ofText "B-C 85 2028-2029"
  | extend => extendCodes
  | joiner => .ofText "200D"
  | regionalIndicator => Property.codes .regionalIndicator
  | format =>
    (Category.classCodes (· == .format)).diff
      ((extendCodes.union (GraphemeBreak.codes .prepended)).union (.ofText "200B-200D"))
  | katakana => katakanaCodes
  | hebrewLetter => hebrewCodes
  | letter => letterCodes
  | singleQuote => .ofText "27"
  | doubleQuote => .ofText "22"
  | midLetter => .ofText "3A B7 387 55F 5F4 2027 FE13 FE55 FF1A"
  | midNumber => .ofText "2C 3B 37E 589 60C-60D 66C 7F8 2044 FE50 FE54 FF0C FF1B"
  | midNumberLetter => .ofText "2E 2018-2019 2024 FE52 FF07 FF0E"
  | numeric => ((Category.classCodes (· == .decimal)).union numberSigns).union (.ofText "66B 19DA")
  | extendNumberLetter => (Category.classCodes (· == .connector)).union (.ofText "202F")
  | blank => (Category.classCodes (· == .space)).diff (.ofText "A0 2007 202F")

end WordBreak

inductive SentenceBreak where
  | carriageReturn | lineFeed | extend | separator | format | blank | lower | upper | letter
  | numeric | fullStop | terminal | closing | continuing
  deriving DecidableEq, Repr

namespace SentenceBreak

def find? : String → Option SentenceBreak
  | "cr" => some carriageReturn
  | "lf" => some lineFeed
  | "extend" | "ex" => some extend
  | "sep" | "se" => some separator
  | "format" | "fo" => some format
  | "sp" => some blank
  | "lower" | "lo" => some lower
  | "upper" | "up" => some upper
  | "oletter" | "le" => some letter
  | "numeric" | "nu" => some numeric
  | "aterm" | "at" => some fullStop
  | "sterm" | "st" => some terminal
  | "close" | "cl" => some closing
  | "scontinue" | "sc" => some continuing
  | _ => none

def extendCodes : CodeSet :=
  (Property.extenderCodes.union (Category.classCodes (· == .spacingMark))).union (.ofText "200D")

def lowerCodes : CodeSet :=
  (Property.lowerCodes.diff Property.extenderCodes).diff (.ofText "10D0-10FA 10FD-10FF")

def upperCodes : CodeSet :=
  (Property.upperCodes.union (Category.classCodes (· == .title))).diff
    (.ofText "1C90-1CBA 1CBD-1CBF")

def fullStops : CodeSet := .ofText "2E 2024 FE52 FF0E"

def codes : SentenceBreak → CodeSet
  | carriageReturn => .ofText "D"
  | lineFeed => .ofText "A"
  | extend => extendCodes
  | separator => .ofText "85 2028-2029"
  | format =>
    (Category.classCodes (· == .format)).diff (extendCodes.union WordBreak.numberSigns)
  | blank => blanks.diff (.ofText "A D 85 2028-2029")
  | lower => lowerCodes
  | upper => upperCodes
  | letter =>
    (Property.alphabeticCodes.union (.ofText "5F3")).diff
      ((lowerCodes.union upperCodes).union extendCodes)
  | numeric =>
    ((Category.classCodes (· == .decimal)).union WordBreak.numberSigns).union
      (.ofText "66B-66C 19DA")
  | fullStop => fullStops
  | terminal => Property.sentenceEnds.diff fullStops
  | closing =>
    ((Category.classCodes fun c =>
      c == .opening || c == .close || c == .initialQuote || c == .finalQuote).union
        (.ofText "22 27 275B-2760 2E00-2E01 2E06-2E08 2E0B 1F676-1F678")).diff
          Property.sentenceEnds
  | continuing =>
    .ofText "2C-2D 3A-3B 37E 55D 60C-60D 7F8 1802 1808 2013-2014 3001 FE10-FE11 FE13-FE14
      FE31-FE32 FE50-FE51 FE54-FE55 FE58 FE63 FF0C-FF0D FF1A-FF1B FF64"

end SentenceBreak

end StagedLexer.Text
