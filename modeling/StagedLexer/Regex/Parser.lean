import StagedLexer.Regex.Pattern
import StagedLexer.Text.Category

/-! Reading patterns. The parser keeps the open groups and the open classes on stacks of their own,
so that its loops run over the characters of the pattern; each loop is bounded by the number of
characters left, of which every round consumes one. -/
namespace StagedLexer.Regex

open StagedLexer.Text

structure Cursor where
  chars : Array Char
  pos : Position := {}
  ignoreSpace : Bool := false
  names : List (String × Span) := []

namespace Cursor

def char? (cursor : Cursor) : Option Char := cursor.chars[cursor.pos.index]?

def peek? (cursor : Cursor) : Option Char := cursor.chars[cursor.pos.index + 1]?

def atEnd (cursor : Cursor) : Bool := cursor.char?.isNone

def isAt (cursor : Cursor) (c : Char) : Bool := cursor.char? == some c

def fuel (cursor : Cursor) : Nat := cursor.chars.size - cursor.pos.index + 1

def next (cursor : Cursor) : Position :=
  let p := cursor.pos
  match cursor.char? with
  | none => p
  | some '\n' => ⟨p.index + 1, p.line + 1, 1⟩
  | some _ => ⟨p.index + 1, p.line, p.column + 1⟩

def bump (cursor : Cursor) : Cursor := { cursor with pos := cursor.next }

def spanChar (cursor : Cursor) : Span := ⟨cursor.pos, cursor.next⟩

def spanHere (cursor : Cursor) : Span := Span.point cursor.pos

def since (cursor : Cursor) (start : Position) : Span := ⟨start, cursor.pos⟩

def skipComment (cursor : Cursor) : (fuel : Nat) → Cursor
  | 0 => cursor
  | fuel + 1 =>
    match cursor.char? with
    | none => cursor
    | some '\n' => cursor.bump
    | some _ => cursor.bump.skipComment fuel

def skipBlanks (cursor : Cursor) : (fuel : Nat) → Cursor
  | 0 => cursor
  | fuel + 1 =>
    match cursor.char? with
    | none => cursor
    | some c =>
      if isBlank c then cursor.bump.skipBlanks fuel
      else if c = '#' then (cursor.bump.skipComment cursor.fuel).skipBlanks fuel
      else cursor

def bumpSpace (cursor : Cursor) : Cursor :=
  if cursor.ignoreSpace then cursor.skipBlanks cursor.fuel else cursor

def bumpAndSpace (cursor : Cursor) : Cursor := cursor.bump.bumpSpace

def startsWith (cursor : Cursor) (word : String) : Bool :=
  word.toList.zipIdx.all fun (c, i) => cursor.chars[cursor.pos.index + i]? == some c

def bumpBy (cursor : Cursor) : Nat → Cursor
  | 0 => cursor
  | n + 1 => cursor.bump.bumpBy n

def bumpIf? (cursor : Cursor) (word : String) : Option Cursor :=
  if cursor.startsWith word then some (cursor.bumpBy word.length) else none

/-- The first significant character of a list. The character that opens a comment is passed over
like a blank, once. -/
def significant (inComment : Bool) : List Char → Option Char
  | [] => none
  | c :: rest =>
    if isBlank c then significant inComment rest
    else if c = '#' && !inComment then significant true rest
    else some c

def peekSpace? (cursor : Cursor) : Option Char :=
  if !cursor.ignoreSpace || cursor.atEnd then cursor.peek?
  else
    let rest := cursor.chars.toList.drop (cursor.pos.index + 1)
    (significant false rest).or rest.head?

end Cursor

abbrev Parser := StateT Cursor (Except SyntaxError)

namespace Parser

def fail {α : Type} (kind : SyntaxErrorKind) (span : Span) : Parser α := throw ⟨kind, span⟩

inductive Primitive where
  | literal (literal : Literal)
  | assertion (span : Span) (kind : Assertion)
  | dot (span : Span)
  | shorthand (span : Span) (kind : Shorthand) (negated : Bool)
  | unicode (span : Span) (negated : Bool) (query : ClassQuery)

namespace Primitive

def span : Primitive → Span
  | literal l => l.span
  | assertion span _ | dot span | shorthand span _ _ | unicode span _ _ => span

def toPattern : Primitive → Pattern
  | literal l => .literal l
  | assertion span kind => .assertion span kind
  | dot span => .dot span
  | shorthand span kind negated => .shorthand span kind negated
  | unicode span negated query => .unicode span negated query

def toItem : Primitive → Parser ClassSet
  | literal l => return .literal l
  | shorthand span kind negated => return .shorthand span kind negated
  | unicode span negated query => return .unicode span negated query
  | other => fail .classEscapeInvalid other.span

def toBound : Primitive → Parser Literal
  | literal l => return l
  | other => fail .classRangeLiteral other.span

end Primitive

def hexValue? (c : Char) : Option Nat :=
  if c.isDigit then some (c.toNat - '0'.toNat)
  else if 'a' ≤ c && c ≤ 'f' then some (c.toNat - 'a'.toNat + 10)
  else if 'A' ≤ c && c ≤ 'F' then some (c.toNat - 'A'.toNat + 10)
  else none

def scalar? (n : Nat) : Option Char := if n.isValidChar then some (Char.ofNat n) else none

def hexDigits (value : Nat) (first : Bool) : (count : Nat) → Parser Nat
  | 0 => do
    modify Cursor.bumpAndSpace
    return value
  | count + 1 => do
    unless first do
      modify Cursor.bumpAndSpace
      if (← get).atEnd then fail .escapeUnexpectedEnd (← get).spanHere
    let cursor ← get
    match cursor.char?.bind hexValue? with
    | none => fail .hexInvalidDigit cursor.spanChar
    | some digit => hexDigits (value * 16 + digit) false count

def hexBraced (brace : Position) (value : Nat) (found : Bool) : (fuel : Nat) → Parser (Nat × Bool)
  | 0 => return (value, found)
  | fuel + 1 => do
    modify Cursor.bumpAndSpace
    let cursor ← get
    match cursor.char? with
    | none => fail .escapeUnexpectedEnd (cursor.since brace)
    | some '\x7d' => return (value, found)
    | some c =>
      match hexValue? c with
      | none => fail .hexInvalidDigit cursor.spanChar
      | some digit => hexBraced brace (value * 16 + digit) true fuel

def hexLiteral (start : Position) (letter : Char) : Parser Literal := do
  modify Cursor.bumpAndSpace
  let cursor ← get
  if cursor.atEnd then fail .escapeUnexpectedEnd cursor.spanHere
  if cursor.isAt '\x7b' then
    let first := cursor.next
    let (value, found) ← hexBraced cursor.pos 0 false cursor.fuel
    let last := (← get).pos
    modify Cursor.bumpAndSpace
    unless found do fail .hexEmpty ((← get).since cursor.pos)
    match scalar? value with
    | none => fail .hexInvalid ⟨first, last⟩
    | some c => return { span := (← get).since start, char := c }
  else
    let count := if letter = 'x' then 2 else if letter = 'u' then 4 else 8
    let value ← hexDigits 0 true count
    match scalar? value with
    | none => fail .hexInvalid ((← get).since cursor.pos)
    | some c => return { span := (← get).since start, char := c, isUnit := letter = 'x' }

def className (name : List Char) : (fuel : Nat) → Parser String
  | 0 => return String.ofList name.reverse
  | fuel + 1 => do
    modify Cursor.bumpAndSpace
    let cursor ← get
    match cursor.char? with
    | none => fail .escapeUnexpectedEnd cursor.spanHere
    | some '\x7d' => return String.ofList name.reverse
    | some c => className (c :: name) fuel

def splitName? (name separator : String) : Option ClassQuery :=
  match name.splitOn separator with
  | [] | [_] => none
  | property :: rest => some (.valued property (String.intercalate separator rest))

/-- A class of the Unicode standard. The cursor is at the letter behind the backslash. That a
property differs from a value negates the class once more. -/
def unicodeClass (start : Position) (negated : Bool) : Parser Primitive := do
  modify Cursor.bumpAndSpace
  let cursor ← get
  match cursor.char? with
  | none => fail .escapeUnexpectedEnd cursor.spanHere
  | some '\x7b' =>
    let name ← className [] cursor.fuel
    modify Cursor.bump
    let span := (← get).since start
    return match splitName? name "!=" with
      | some query => .unicode span (!negated) query
      | none =>
        .unicode span negated (((splitName? name ":").or (splitName? name "=")).getD (.named name))
  | some '\\' => fail .unicodeClassInvalid cursor.spanChar
  | some c =>
    modify Cursor.bumpAndSpace
    return .unicode ((← get).since start) negated (.named (String.singleton c))

def boundaryName (name : List Char) : (fuel : Nat) → Parser String
  | 0 => return String.ofList name.reverse
  | fuel + 1 => do
    match (← get).char? with
    | some c =>
      if c.isAlpha || c = '-' then
        modify Cursor.bumpAndSpace
        boundaryName (c :: name) fuel
      else return String.ofList name.reverse
    | none => return String.ofList name.reverse

def specialBoundary? (start : Position) : Parser (Option Assertion) := do
  let brace ← get
  let inner := brace.bumpAndSpace
  match inner.char? with
  | none => fail .wordBoundaryOrCountUnexpectedEnd (inner.since start)
  | some c =>
    if !(c.isAlpha || c = '-') then return none
    set inner
    let name ← boundaryName [] inner.fuel
    let cursor ← get
    unless cursor.isAt '\x7d' do fail .wordBoundaryUnclosed (cursor.since brace.pos)
    modify Cursor.bump
    match name with
    | "start" => return some .wordStart
    | "end" => return some .wordEnd
    | "start-half" => return some .wordStartHalf
    | "end-half" => return some .wordEndHalf
    | _ => fail .wordBoundaryUnrecognized ⟨inner.pos, cursor.pos⟩

def isMeta (c : Char) : Bool := "\\.+*?()|[]\x7b\x7d^$#&-~".toList.contains c

def isEscapable (c : Char) : Bool :=
  isMeta c || (c.toNat < 0x80 && !c.isAlphanum && c != '<' && c != '>')

def escape : Parser Primitive := do
  let start := (← get).pos
  modify Cursor.bump
  let cursor ← get
  match cursor.char? with
  | none => fail .escapeUnexpectedEnd (cursor.since start)
  | some c =>
    if c.isDigit then fail .backreference ⟨start, cursor.next⟩
    if c = 'x' || c = 'u' || c = 'U' then return .literal (← hexLiteral start c)
    if c = 'p' || c = 'P' then return ← unicodeClass start (c = 'P')
    modify Cursor.bump
    let span := (← get).since start
    let literal (c : Char) : Parser Primitive := return .literal { span, char := c }
    let assertion (kind : Assertion) : Parser Primitive := return .assertion span kind
    if isEscapable c then return .literal { span, char := c }
    match c with
    | 'd' => return .shorthand span .digit false
    | 's' => return .shorthand span .blank false
    | 'w' => return .shorthand span .word false
    | 'D' => return .shorthand span .digit true
    | 'S' => return .shorthand span .blank true
    | 'W' => return .shorthand span .word true
    | 'a' => literal '\x07'
    | 'f' => literal '\x0c'
    | 't' => literal '\t'
    | 'n' => literal '\n'
    | 'r' => literal '\r'
    | 'v' => literal '\x0b'
    | 'A' => assertion .startText
    | 'z' => assertion .endText
    | 'B' => assertion .notWordBoundary
    | '<' => assertion .wordStart
    | '>' => assertion .wordEnd
    | 'b' =>
      if (← get).isAt '\x7b' then
        match ← specialBoundary? start with
        | none => assertion .wordBoundary
        | some kind => return .assertion ((← get).since start) kind
      else assertion .wordBoundary
    | _ => fail .escapeUnrecognized span

def primitive : Parser Primitive := do
  let cursor ← get
  match cursor.char? with
  | some '\\' => escape
  | some c =>
    set cursor.bump
    match c with
    | '.' => return .dot cursor.spanChar
    | '^' => return .assertion cursor.spanChar .startLine
    | '$' => return .assertion cursor.spanChar .endLine
    | _ => return .literal { span := cursor.spanChar, char := c }
  | none => fail .escapeUnexpectedEnd cursor.spanHere

def numberBlanks (move : Cursor → Cursor) : (fuel : Nat) → Parser Unit
  | 0 => return ()
  | fuel + 1 => do
    match (← get).char? with
    | some c =>
      if isBlank c then
        modify move
        numberBlanks move fuel
      else return ()
    | none => return ()

def decimalDigits (digits : List Char) : (fuel : Nat) → Parser (List Char)
  | 0 => return digits.reverse
  | fuel + 1 => do
    match (← get).char? with
    | some c =>
      if c.isDigit then
        modify Cursor.bumpAndSpace
        decimalDigits (c :: digits) fuel
      else return digits.reverse
    | none => return digits.reverse

def countLimit : Nat := 0xffffffff

/-- A number in a counted repetition. A missing or too large number is a result, since another
error can come before it. -/
def count : Parser (Except SyntaxError Nat) := do
  numberBlanks Cursor.bump (← get).fuel
  let start := (← get).pos
  let digits ← decimalDigits [] (← get).fuel
  let span := (← get).since start
  numberBlanks Cursor.bumpAndSpace (← get).fuel
  if digits.isEmpty then return .error ⟨.countDecimalEmpty, span⟩
  let value := digits.foldl (fun n c => n * 10 + (c.toNat - '0'.toNat)) 0
  return if countLimit < value then .error ⟨.decimalInvalid, span⟩ else .ok value

structure Items where
  start : Position
  items : List Pattern := []

namespace Items

def push (items : Items) (item : Pattern) : Items := { items with items := item :: items.items }

def close (items : Items) (stop : Position) : Pattern :=
  Pattern.ofConcat ⟨items.start, stop⟩ items.items.reverse

def popRepeated (items : Items) : Parser (Pattern × Items) := do
  let here := (← get).spanHere
  match items.items with
  | [] | .empty _ :: _ | .flags _ _ :: _ => fail .repetitionMissing here
  | item :: rest => return (item, { items with items := rest })

end Items

def repetition (items : Items) (min : Nat) (max : Option Nat) : Parser Items := do
  let (item, items) ← items.popRepeated
  modify Cursor.bump
  let greedy := !(← get).isAt '?'
  unless greedy do modify Cursor.bump
  return items.push (.repetition ⟨item.span.start, (← get).pos⟩ min max greedy item)

def countedRepetition (items : Items) : Parser Items := do
  let start := (← get).pos
  let unclosed {α : Type} : Parser α := do fail .countUnclosed ((← get).since start)
  let (item, items) ← items.popRepeated
  modify Cursor.bumpAndSpace
  if (← get).atEnd then unclosed
  let low ← count
  if (← get).atEnd then unclosed
  let (min, max) ← do
    if (← get).isAt ',' then
      modify Cursor.bumpAndSpace
      if (← get).atEnd then unclosed
      if (← get).isAt '\x7d' then
        pure (← (low : Except SyntaxError Nat), none)
      else
        let min ← (low : Except SyntaxError Nat)
        let high ← count
        pure (min, some (← (high : Except SyntaxError Nat)))
    else
      let min ← (low : Except SyntaxError Nat)
      pure (min, some min)
  unless (← get).isAt '\x7d' do unclosed
  modify Cursor.bumpAndSpace
  let greedy := !(← get).isAt '?'
  unless greedy do modify Cursor.bump
  if max.any (· < min) then fail .countInvalid ((← get).since start)
  return items.push (.repetition ⟨item.span.start, (← get).pos⟩ min max greedy item)

structure Union where
  span : Span
  items : List ClassSet := []

namespace Union

def push (union : Union) (item : ClassSet) : Union :=
  { span := ⟨if union.items.isEmpty then item.span.start else union.span.start, item.span.stop⟩
    items := item :: union.items }

def close (union : Union) : ClassSet :=
  match union.items with
  | [] => .empty union.span
  | [item] => item
  | items => .union union.span items.reverse

end Union

inductive ClassFrame where
  | bracket (outer : Union) (span : Span) (negated : Bool)
  | op (kind : ClassOp) (left : ClassSet)

def unclosedClass {α : Type} (frames : List ClassFrame) : Parser α := do
  match frames.findSome? fun
    | .bracket _ span _ => some span
    | .op _ _ => none with
  | some span => fail .classUnclosed span
  | none => fail .classUnclosed (← get).spanHere

def leadingHyphens (start : Position) (union : Union) : (fuel : Nat) → Parser Union
  | 0 => return union
  | fuel + 1 => do
    let cursor ← get
    if cursor.isAt '-' then
      modify Cursor.bumpAndSpace
      if (← get).atEnd then fail .classUnclosed (Span.point start)
      leadingHyphens start (union.push (.literal { span := cursor.spanChar, char := '-' })) fuel
    else return union

def openBracket : Parser (Span × Bool × Union) := do
  let start := (← get).pos
  let unclosed {α : Type} : Parser α := do fail .classUnclosed ((← get).since start)
  modify Cursor.bumpAndSpace
  if (← get).atEnd then unclosed
  let negated := (← get).isAt '^'
  if negated then
    modify Cursor.bumpAndSpace
    if (← get).atEnd then unclosed
  let union ← leadingHyphens start { span := (← get).spanHere } (← get).fuel
  let cursor ← get
  if union.items.isEmpty && cursor.isAt ']' then
    modify Cursor.bumpAndSpace
    if (← get).atEnd then unclosed
    return ((← get).since start, negated,
      union.push (.literal { span := cursor.spanChar, char := ']' }))
  return ((← get).since start, negated, union)

def asciiName (cursor : Cursor) (name : List Char) : (fuel : Nat) → Option (String × Cursor)
  | 0 => none
  | fuel + 1 =>
    match cursor.char? with
    | none => none
    | some ':' => some (String.ofList name.reverse, cursor)
    | some c => asciiName cursor.bump (c :: name) fuel

def asciiClass? (cursor : Cursor) : Option (ClassSet × Cursor) := do
  let start := cursor.pos
  let cursor ← cursor.bumpIf? "[:"
  let negated := cursor.isAt '^'
  let cursor := if negated then cursor.bump else cursor
  let (name, cursor) ← asciiName cursor [] cursor.fuel
  let cursor ← cursor.bumpIf? ":]"
  let kind ← AsciiClass.ofName? name
  return (.ascii (cursor.since start) kind negated, cursor)

def classRange (frames : List ClassFrame) : Parser ClassSet := do
  let item : Parser Primitive := do
    let cursor ← get
    match cursor.char? with
    | some '\\' => escape
    | some c =>
      set cursor.bump
      return .literal { span := cursor.spanChar, char := c }
    | none => unclosedClass frames
  let first ← item
  modify Cursor.bumpSpace
  let cursor ← get
  if cursor.atEnd then unclosedClass frames
  if !cursor.isAt '-' || cursor.peekSpace? == some ']' || cursor.peekSpace? == some '-' then
    return ← first.toItem
  modify Cursor.bumpAndSpace
  if (← get).atEnd then unclosedClass frames
  let last ← item
  let span : Span := ⟨first.span.start, last.span.stop⟩
  let low ← first.toBound
  let high ← last.toBound
  if high.char < low.char then fail .classRangeInvalid span
  return .range span low high

def popOp (right : ClassSet) : List ClassFrame → ClassSet × List ClassFrame
  | .op kind left :: frames => (.op ⟨left.span.start, right.span.stop⟩ kind left right, frames)
  | frames => (right, frames)

def classOp? (cursor : Cursor) : Option ClassOp :=
  if cursor.startsWith "&&" then some .intersection
  else if cursor.startsWith "--" then some .difference
  else if cursor.startsWith "~~" then some .symmetricDifference
  else none

def bracketed (frames : List ClassFrame) (union : Union) : (fuel : Nat) → Parser Pattern
  | 0 => unclosedClass frames
  | fuel + 1 => do
    modify Cursor.bumpSpace
    let cursor ← get
    match cursor.char? with
    | none => unclosedClass frames
    | some '[' =>
      match if frames.isEmpty then none else asciiClass? cursor with
      | some (item, cursor) =>
        set cursor
        bracketed frames (union.push item) fuel
      | none =>
        let (span, negated, inner) ← openBracket
        bracketed (.bracket union span negated :: frames) inner fuel
    | some ']' =>
      let (inner, frames) := popOp union.close frames
      modify Cursor.bump
      match frames with
      | [.bracket _ span negated] =>
        return .bracketed ⟨span.start, (← get).pos⟩ negated inner
      | .bracket outer span negated :: frames =>
        let item : ClassSet := .bracketed ⟨span.start, (← get).pos⟩ negated inner
        bracketed frames (outer.push item) fuel
      | _ => unclosedClass frames
    | some _ =>
      match classOp? cursor with
      | some kind =>
        set (cursor.bumpBy 2)
        let (left, frames) := popOp union.close frames
        bracketed (.op kind left :: frames) { span := (← get).spanHere } fuel
      | none =>
        let item ← classRange frames
        bracketed frames (union.push item) fuel

def flag? : Char → Option Flag
  | 'i' => some .ignoreCase
  | 'm' => some .multiLine
  | 's' => some .dotMatchesLineFeed
  | 'U' => some .swapGreed
  | 'u' => some .unicode
  | 'R' => some .carriageReturns
  | 'x' => some .ignoreSpace
  | _ => none

def flags (items : List FlagItem) : (fuel : Nat) → Parser (List FlagItem)
  | 0 => return items.reverse
  | fuel + 1 => do
    let cursor ← get
    let span := cursor.spanChar
    if cursor.isAt ':' || cursor.isAt ')' then
      match items with
      | ⟨span, none⟩ :: _ => fail .flagDanglingNegation span
      | _ => return items.reverse
    let flag ← match cursor.char? with
      | some '-' => pure none
      | some c =>
        match flag? c with
        | some flag => pure (some flag)
        | none => fail .flagUnrecognized span
      | none => fail .flagUnexpectedEnd span
    match items.find? (·.flag == flag), flag with
    | some first, none => fail (.flagRepeatedNegation first.span) span
    | some first, some _ => fail (.flagDuplicate first.span) span
    | none, _ =>
      modify Cursor.bump
      if (← get).atEnd then fail .flagUnexpectedEnd (← get).spanHere
      flags (⟨span, flag⟩ :: items) fuel

def isNameChar (c : Char) (first : Bool) : Bool :=
  if first then c = '_' || alphabetic.contains c.toNat
  else c = '_' || c = '.' || c = '[' || c = ']' || alphanumeric.contains c.toNat

def groupName (name : List Char) : (fuel : Nat) → Parser String
  | 0 => return String.ofList name.reverse
  | fuel + 1 => do
    let cursor ← get
    match cursor.char? with
    | none => fail .groupNameUnexpectedEnd cursor.spanHere
    | some '>' => return String.ofList name.reverse
    | some c =>
      unless isNameChar c name.isEmpty do fail .groupNameInvalid cursor.spanChar
      modify Cursor.bump
      groupName (c :: name) fuel

def captureName : Parser Unit := do
  let start := (← get).pos
  let name ← groupName [] (← get).fuel
  let span := (← get).since start
  modify Cursor.bump
  if name.isEmpty then fail .groupNameEmpty (Span.point start)
  match (← get).names.find? (·.1 == name) with
  | some first => fail (.groupNameDuplicate first.2) span
  | none => modify fun cursor => { cursor with names := (name, span) :: cursor.names }

inductive Frame where
  | group (outer : Items) (span : Span) (items : List FlagItem) (capturing : Bool)
      (ignoreSpace : Bool)
  | alternation (start : Position) (alternatives : List Pattern)

def openGroup (frames : List Frame) (items : Items) : Parser (List Frame × Items) := do
  let paren := (← get).spanChar
  modify fun cursor => cursor.bump.bumpSpace
  let cursor ← get
  for word in ["?=", "?!", "?<=", "?<!"] do
    if let some cursor := cursor.bumpIf? word then
      fail .lookAround (cursor.since paren.start)
  let ignoreSpace := cursor.ignoreSpace
  match (cursor.bumpIf? "?P<").or (cursor.bumpIf? "?<") with
  | some inner =>
    set inner
    captureName
    return (.group items paren [] true ignoreSpace :: frames, { start := (← get).pos })
  | none =>
    match cursor.bumpIf? "?" with
    | none =>
      return (.group items paren [] true ignoreSpace :: frames, { start := cursor.pos })
    | some inner =>
      set inner
      if inner.atEnd then fail .groupUnclosed paren
      let settings ← flags [] inner.fuel
      let closes := (← get).isAt ')'
      modify Cursor.bump
      let ignoreSpace' := (flagState .ignoreSpace false settings).getD ignoreSpace
      if closes then
        if settings.isEmpty then fail .repetitionMissing cursor.spanHere
        modify fun cursor => { cursor with ignoreSpace := ignoreSpace' }
        return (frames, items.push (.flags ((← get).since paren.start) settings))
      else
        modify fun cursor => { cursor with ignoreSpace := ignoreSpace' }
        return (.group items paren settings false ignoreSpace :: frames, { start := (← get).pos })

def closeGroup (frames : List Frame) (items : Items) : Parser (List Frame × Items) := do
  let cursor ← get
  let last := items.close cursor.pos
  let finish (outer : Items) (span : Span) (settings : List FlagItem) (capturing : Bool)
      (body : Pattern) : Items :=
    outer.push (.group ⟨span.start, cursor.next⟩ settings capturing body)
  match frames with
  | .group outer span settings capturing ignoreSpace :: frames =>
    set { cursor.bump with ignoreSpace }
    return (frames, finish outer span settings capturing last)
  | .alternation start alternatives :: .group outer span settings capturing ignoreSpace :: frames =>
    set { cursor.bump with ignoreSpace }
    let body : Pattern := .alternation ⟨start, cursor.pos⟩ (last :: alternatives).reverse
    return (frames, finish outer span settings capturing body)
  | _ => fail .groupUnopened cursor.spanChar

def nextAlternative (frames : List Frame) (items : Items) : Parser (List Frame × Items) := do
  let cursor ← get
  let last := items.close cursor.pos
  set cursor.bump
  let fresh : Items := { start := cursor.next }
  match frames with
  | .alternation start alternatives :: frames =>
    return (.alternation start (last :: alternatives) :: frames, fresh)
  | frames => return (.alternation items.start [last] :: frames, fresh)

def finish (frames : List Frame) (items : Items) : Parser Pattern := do
  let stop := (← get).pos
  let last := items.close stop
  match frames with
  | [] => return last
  | [.alternation start alternatives] =>
    return .alternation ⟨start, stop⟩ (last :: alternatives).reverse
  | .group _ span _ _ _ :: _ => fail .groupUnclosed span
  | .alternation _ _ :: .group _ span _ _ _ :: _ => fail .groupUnclosed span
  | .alternation _ _ :: .alternation _ _ :: _ => fail .groupUnclosed (Span.point stop)

def patternFrom (frames : List Frame) (items : Items) : (fuel : Nat) → Parser Pattern
  | 0 => finish frames items
  | fuel + 1 => do
    modify Cursor.bumpSpace
    match (← get).char? with
    | none => finish frames items
    | some '(' =>
      let (frames, items) ← openGroup frames items
      patternFrom frames items fuel
    | some ')' =>
      let (frames, items) ← closeGroup frames items
      patternFrom frames items fuel
    | some '|' =>
      let (frames, items) ← nextAlternative frames items
      patternFrom frames items fuel
    | some '[' =>
      let part ← bracketed [] { span := (← get).spanHere } (← get).fuel
      patternFrom frames (items.push part) fuel
    | some '?' =>
      let items ← repetition items 0 (some 1)
      patternFrom frames items fuel
    | some '*' =>
      let items ← repetition items 0 none
      patternFrom frames items fuel
    | some '+' =>
      let items ← repetition items 1 none
      patternFrom frames items fuel
    | some '\x7b' =>
      let items ← countedRepetition items
      patternFrom frames items fuel
    | some _ =>
      let part ← primitive
      patternFrom frames (items.push part.toPattern) fuel

end Parser

def Pattern.parse (source : String) : Except SyntaxError Pattern := do
  let cursor : Cursor := { chars := source.toList.toArray }
  let (pattern, _) ← (Parser.patternFrom [] { start := cursor.pos } cursor.fuel).run cursor
  pattern.checkNesting 0
  return pattern

end StagedLexer.Regex
