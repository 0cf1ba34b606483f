import Mathlib.Data.List.Forall2
import StagedLexer.Dot
import StagedLexer.Text.Quoted

/-! Reading graphs in the dot language. A graph is a list of statements between braces, each with a
semicolon behind it: settings, nodes and edges, the latter two with a list of settings in brackets.
What stands between quotes belongs to one value; there a backslash keeps a quote from ending it. The
lines that the calls of a graph write are read back as its statements. -/
namespace StagedLexer

namespace Dot

/-- Where a character stands: outside of quotes, in quotes, or there behind a backslash. -/
inductive Place where
  | outside
  | quoted
  | escaped
  deriving DecidableEq

def Place.behind (place : Place) (c : Char) : Place :=
  match place with
  | outside => if c = '"' then quoted else outside
  | quoted => if c = '"' then outside else if c = '\\' then escaped else quoted
  | escaped => quoted

/-- Cuts a text at the separators outside of quotes. -/
def pieces (separator : Char) (place : Place) : List Char → List (List Char)
  | [] => [[]]
  | c :: rest =>
    if place = .outside ∧ c = separator then [] :: pieces separator .outside rest
    else (pieces separator (place.behind c) rest).modifyHead (c :: ·)

/-- Whether a text can stand in quotes: there are quotes only behind backslashes, and something
stands behind each of those. -/
def quotable : List Char → Bool
  | [] => true
  | '\\' :: _ :: rest => quotable rest
  | c :: rest => c ≠ '"' && c ≠ '\\' && quotable rest

def isNameChar (c : Char) : Bool := c.isAlphanum || c == '_'

/-- The name at the start of a text, apart from blanks in front of it, and what stands behind. -/
def nameAt (text : List Char) : String × List Char :=
  let text := text.dropWhile Char.isWhitespace
  (String.ofList (text.takeWhile isNameChar), text.dropWhile isNameChar)

def isValue : List Char → Bool
  | '"' :: rest => rest.getLast? = some '"' && quotable rest.dropLast
  | text => !text.isEmpty && text.all isNameChar

def setting? (text : List Char) : Option String :=
  match nameAt text with
  | (name, '=' :: value) => if name ≠ "" && isValue value then some name else none
  | _ => none

def areSettings (text : List Char) : Bool :=
  (pieces ',' .outside text).all fun piece => (setting? piece).isSome

def isAttributes : List Char → Bool
  | '[' :: rest => rest.getLast? = some ']' && areSettings rest.dropLast
  | _ => false

def statement? (piece : List Char) : Option Statement :=
  match nameAt piece with
  | (source, ' ' :: '-' :: '>' :: rest) =>
    match nameAt rest with
    | (target, ' ' :: attributes) =>
      if source ≠ "" && target ≠ "" && isAttributes attributes then some (.edge source target)
      else none
    | _ => none
  | (name, ' ' :: attributes) =>
    if name ≠ "" && isAttributes attributes then some (.node name) else none
  | _ => (setting? piece).map .setting

/-- The statements of a graph. Only the closing brace stands behind the last semicolon. -/
def read? (text : String) : Option (List Statement) :=
  match text.toList with
  | 'd' :: 'i' :: 'g' :: 'r' :: 'a' :: 'p' :: 'h' :: ' ' :: '\x7b' :: rest =>
    let all := pieces ';' .outside rest
    if all.getLast? = some "\n\x7d\n".toList then all.dropLast.mapM statement? else none
  | _ => none

/-- Where what follows a text stands, if the text has no separator outside of quotes. -/
def placeBehind (separator : Char) (place : Place) : List Char → Option Place
  | [] => some place
  | c :: rest =>
    if place = .outside ∧ c = separator then none
    else placeBehind separator (place.behind c) rest

section Pieces

variable {separator : Char}

theorem placeBehind_append {place middle : Place} {front : List Char}
    (passed : placeBehind separator place front = some middle) (last : List Char) :
    placeBehind separator place (front ++ last) = placeBehind separator middle last := by
  induction front generalizing place with
  | nil =>
    cases passed
    rfl
  | cons c rest ih =>
    rw [placeBehind] at passed
    rw [List.cons_append, placeBehind]
    split at passed
    · cases passed
    · next other => rw [if_neg other, ih passed]

/-- A piece ends at the first separator behind it. -/
theorem pieces_of_placeBehind {place : Place} {front : List Char}
    (passed : placeBehind separator place front = some .outside) (last : List Char) :
    pieces separator place (front ++ separator :: last) =
      front :: pieces separator .outside last := by
  induction front generalizing place with
  | nil =>
    cases passed
    simp [pieces]
  | cons c rest ih =>
    rw [placeBehind] at passed
    rw [List.cons_append, pieces]
    split at passed
    · cases passed
    · next other =>
      rw [if_neg other, ih passed]
      rfl

theorem pieces_eq_singleton {place last : Place} {text : List Char}
    (passed : placeBehind separator place text = some last) :
    pieces separator place text = [text] := by
  induction text generalizing place with
  | nil => rfl
  | cons c rest ih =>
    rw [placeBehind] at passed
    rw [pieces]
    split at passed
    · cases passed
    · next other =>
      rw [if_neg other, ih passed]
      rfl

/-- A text with no separator and no open quote outside of its quotes. -/
def Closed (separator : Char) (text : List Char) : Prop :=
  placeBehind separator .outside text = some .outside

instance (text : List Char) : Decidable (Closed separator text) :=
  inferInstanceAs (Decidable (_ = _))

theorem Closed.append {front last : List Char} (first : Closed separator front)
    (second : Closed separator last) : Closed separator (front ++ last) :=
  (placeBehind_append first last).trans second

theorem placeBehind_of_quotable {text : List Char} (fits : quotable text = true) :
    placeBehind separator .quoted text = some .quoted := by
  fun_induction quotable text with
  | case1 => rfl
  | case2 c rest ih => simpa [placeBehind, Place.behind] using ih fits
  | case3 c rest _ ih =>
    simp only [Bool.and_eq_true, decide_eq_true_eq] at fits
    obtain ⟨⟨quote, backslash⟩, others⟩ := fits
    simpa [placeBehind, Place.behind, quote, backslash] using ih others

theorem closed_quoted (other : separator ≠ '"') {text : List Char} (fits : quotable text = true) :
    Closed separator ('"' :: text ++ ['"']) := by
  have opened : placeBehind separator .outside ('"' :: text) = some .quoted := by
    rw [placeBehind, if_neg fun both => other both.2.symm]
    exact placeBehind_of_quotable fits
  exact placeBehind_append opened _

theorem closed_of_plain {text : List Char} (plain : ∀ c ∈ text, c ≠ separator ∧ c ≠ '"') :
    Closed separator text := by
  induction text with
  | nil => rfl
  | cons c rest ih =>
    obtain ⟨⟨apart, quote⟩, others⟩ := List.forall_mem_cons.mp plain
    rw [Closed, placeBehind, if_neg fun both => apart both.2, Place.behind, if_neg quote]
    exact ih others

end Pieces

section Quotable

theorem quotable_append {front last : List Char} (first : quotable front = true)
    (second : quotable last = true) : quotable (front ++ last) = true := by
  fun_induction quotable front with
  | case1 => exact second
  | case2 c rest ih => exact ih first
  | case3 c rest other ih =>
    simp only [Bool.and_eq_true, decide_eq_true_eq] at first
    obtain ⟨⟨quote, backslash⟩, others⟩ := first
    simp [quotable, quote, backslash, ih others]

theorem quotable_flatMap {α : Type} {write : α → List Char} {items : List α}
    (each : ∀ item ∈ items, quotable (write item) = true) :
    quotable (items.flatMap write) = true := by
  induction items with
  | nil => rfl
  | cons item rest ih =>
    rw [List.forall_mem_cons] at each
    exact quotable_append each.1 (ih each.2)

theorem quotable_of_isNameChar {text : List Char} (name : ∀ c ∈ text, isNameChar c = true) :
    quotable text = true := by
  induction text with
  | nil => rfl
  | cons c rest ih =>
    obtain ⟨here, others⟩ := List.forall_mem_cons.mp name
    have quote : c ≠ '"' := by
      rintro rfl
      exact absurd here (by decide)
    have backslash : c ≠ '\\' := by
      rintro rfl
      exact absurd here (by decide)
    simp [quotable, quote, backslash, ih others]

theorem isNameChar_hex (n : Nat) : ∀ c ∈ Nat.toDigits 16 n, isNameChar c = true := by
  have digit : ∀ d < 16, isNameChar d.digitChar = true := by decide
  induction n using Nat.strongRecOn with
  | _ n ih =>
    intro c member
    by_cases small : n < 16
    · rw [Nat.toDigits_of_lt_base small, List.mem_singleton] at member
      exact member ▸ digit n small
    · rw [Nat.toDigits_of_base_le (by decide) (Nat.le_of_not_lt small), List.mem_append,
        List.mem_singleton] at member
      rcases member with front | rfl
      · exact ih (n / 16) (Nat.div_lt_self (by omega) (by decide)) c front
      · exact digit _ (Nat.mod_lt _ (by decide))

theorem isNameChar_of_mem_toString {n : Nat} {c : Char} (member : c ∈ (toString n).toList) :
    isNameChar c = true := by
  rw [Nat.toString_eq_repr, Nat.toList_repr] at member
  have digit := Nat.isDigit_of_mem_toDigits (by decide) (by decide) member
  simp [isNameChar, Char.isAlphanum, digit]

theorem quotable_plainChar (c : Char) : quotable (Text.plainChar c).toList = true := by
  unfold Text.plainChar
  split
  · rfl
  split
  · rfl
  split
  · rfl
  split
  · rfl
  split
  · rfl
  split
  · rfl
  split
  · next notDouble notBackslash _ => simp [quotable, notDouble, notBackslash]
  · have text : (Text.escapeCode c).toList =
        ['\\', 'u', '\x7b'] ++ (Nat.toDigits 16 c.toNat ++ ['\x7d']) := by
      simp [Text.escapeCode, Text.hex]
    rw [text]
    exact quotable_append rfl
      (quotable_append (quotable_of_isNameChar (isNameChar_hex _)) rfl)

/-- Escaped by printable ASCII characters, every text can stand in quotes. -/
theorem quotable_plain (s : String) : quotable (Text.plain s).toList = true := by
  rw [Text.plain, String.toList_join, List.flatMap_map]
  exact quotable_flatMap fun c _ => quotable_plainChar c

end Quotable

structure IsName (name : String) : Prop where
  nonempty : name ≠ ""
  proper : ∀ c ∈ name.toList, isNameChar c = true

theorem not_isWhitespace_of_isNameChar {c : Char} (name : isNameChar c = true) :
    c.isWhitespace = false := by
  rw [Bool.eq_false_iff]
  intro blank
  simp only [Char.isWhitespace, Bool.or_eq_true, decide_eq_true_eq] at blank
  rcases blank with (((rfl | rfl) | rfl) | rfl) <;> exact absurd name (by decide)

theorem IsName.closed {name : String} (isName : IsName name) {separator : Char}
    (other : isNameChar separator = false) : Closed separator name.toList := by
  refine closed_of_plain fun c member => ⟨?_, ?_⟩
  · rintro rfl
    exact absurd (isName.proper _ member) (by simp [other])
  · rintro rfl
    exact absurd (isName.proper _ member) (by decide)

theorem nameAt_name {name : String} (isName : IsName name) {c : Char}
    (other : isNameChar c = false) (rest : List Char) :
    nameAt (name.toList ++ c :: rest) = (name, c :: rest) := by
  have start : (name.toList ++ c :: rest).dropWhile Char.isWhitespace =
      name.toList ++ c :: rest := by
    cases text : name.toList with
    | nil => exact (isName.nonempty (by simpa using text)).elim
    | cons first more =>
      have shown := not_isWhitespace_of_isNameChar (isName.proper first (by simp [text]))
      simp [shown]
  rw [nameAt, start, List.takeWhile_append_of_pos isName.proper,
    List.dropWhile_append_of_pos isName.proper]
  simp [other]

theorem nameAt_blank {c : Char} (blank : c.isWhitespace = true) (text : List Char) :
    nameAt (c :: text) = nameAt text := by
  rw [nameAt, nameAt, List.dropWhile_cons_of_pos blank]

theorem setting?_blank {c : Char} (blank : c.isWhitespace = true) (text : List Char) :
    setting? (c :: text) = setting? text := by
  rw [setting?, setting?, nameAt_blank blank]

theorem statement?_blank {c : Char} (blank : c.isWhitespace = true) (piece : List Char) :
    statement? (c :: piece) = statement? piece := by
  rw [statement?, statement?, nameAt_blank blank, setting?_blank blank]

def quotedSetting (name : String) (text : List Char) : List Char :=
  name.toList ++ '=' :: '"' :: text ++ ['"']

theorem setting?_quoted {name : String} (isName : IsName name) {text : List Char}
    (fits : quotable text = true) : setting? (quotedSetting name text) = some name := by
  rw [setting?, quotedSetting, List.append_assoc, List.cons_append, List.cons_append,
    nameAt_name isName (by decide)]
  simp [isValue, isName.nonempty, fits]

theorem closed_quotedSetting {separator : Char} (sign : separator ∉ ['"', '='])
    (foreign : isNameChar separator = false) {name : String} (isName : IsName name)
    {text : List Char} (fits : quotable text = true) :
    Closed separator (quotedSetting name text) := by
  simp only [List.mem_cons, List.not_mem_nil, or_false, not_or] at sign
  have equals : Closed separator ['='] := closed_of_plain (by simpa using Ne.symm sign.2)
  have whole := ((isName.closed foreign).append equals).append (closed_quoted sign.1 fits)
  simpa [quotedSetting] using whole

theorem areSettings_singleton {piece : List Char} (closed : Closed ',' piece)
    (isSetting : (setting? piece).isSome = true) : areSettings piece = true := by
  rw [areSettings, pieces_eq_singleton closed]
  simp [isSetting]

theorem areSettings_cons {piece : List Char} (closed : Closed ',' piece)
    (isSetting : (setting? piece).isSome = true) {rest : List Char}
    (others : areSettings rest = true) : areSettings (piece ++ ',' :: rest) = true := by
  rw [areSettings, pieces_of_placeBehind closed, List.all_cons, isSetting]
  exact others

/-- A list of settings in brackets that can stand in a statement. -/
structure Attributes (text : List Char) : Prop where
  settings : isAttributes text = true
  closed : Closed ';' text

theorem attributes_of_settings {text : List Char} (settings : areSettings text = true)
    (closed : Closed ';' text) : Attributes ('[' :: text ++ [']']) := by
  refine ⟨by simp [isAttributes, settings], ?_⟩
  have opened : Closed ';' ('[' :: text) := closed
  exact opened.append rfl

theorem isName_label : IsName "label" := ⟨by decide, List.all_eq_true.mp (by decide)⟩

/-- A label has to fit between quotes. -/
def Attribute.Fits : Attribute → Prop
  | label text => quotable text.toList = true
  | _ => True

theorem closed_of_signs {separator : Char} (sign : separator ∉ ['"', '='])
    (foreign : isNameChar separator = false) {text : List Char}
    (plain : (text.all fun c => isNameChar c || c == '=') = true) : Closed separator text := by
  simp only [List.mem_cons, List.not_mem_nil, or_false, not_or] at sign
  simp only [List.all_eq_true, Bool.or_eq_true, beq_iff_eq] at plain
  refine closed_of_plain fun c member => ⟨?_, ?_⟩
  · rintro rfl
    rcases plain _ member with name | equals
    · exact absurd name (by simp [foreign])
    · exact sign.2 equals
  · rintro rfl
    exact absurd (plain _ member) (by decide)

theorem Attribute.closed {separator : Char} (sign : separator ∉ ['"', '='])
    (foreign : isNameChar separator = false) {a : Attribute} (fits : a.Fits) :
    Closed separator a.text.toList := by
  cases a with
  | circle | red | blue => exact closed_of_signs sign foreign rfl
  | penWidth width =>
    have digits : ((toString width).toList.all fun c => isNameChar c || c == '=') = true :=
      List.all_eq_true.mpr fun c member => by rw [isNameChar_of_mem_toString member]; rfl
    have front : ("penwidth=".toList.all fun c => isNameChar c || c == '=') = true := rfl
    refine closed_of_signs sign foreign ?_
    rw [text, String.toList_append, List.all_append, front, digits]
    rfl
  | label text =>
    have whole := closed_quotedSetting sign foreign isName_label fits
    simpa [Attribute.text, quotedSetting] using whole

theorem isValue_toString (n : Nat) : isValue (toString n).toList = true := by
  have digits {c : Char} (member : c ∈ (toString n).toList) := isNameChar_of_mem_toString member
  have filled : (toString n).toList ≠ [] := by
    rw [Nat.toString_eq_repr, Nat.toList_repr]
    exact Nat.toDigits_ne_nil
  generalize (toString n).toList = text at digits filled
  unfold isValue
  split
  · exact absurd (digits (List.mem_cons_self ..)) (by decide)
  · simpa [filled] using fun c => digits

theorem Attribute.isSetting {a : Attribute} (fits : a.Fits) :
    (setting? a.text.toList).isSome = true := by
  cases a with
  | circle | red | blue => decide
  | penWidth width =>
    have isName : IsName "penwidth" := ⟨by decide, List.all_eq_true.mp (by decide)⟩
    have whole : (Attribute.penWidth width).text.toList =
        "penwidth".toList ++ '=' :: (toString width).toList := by simp [Attribute.text]
    rw [whole, setting?, nameAt_name isName (by decide)]
    simp only [isValue_toString]
    decide
  | label text =>
    have whole := setting?_quoted isName_label fits
    simp only [quotedSetting] at whole
    simpa [Attribute.text] using Option.isSome_of_eq_some whole

theorem areSettings_blank (text : List Char) : areSettings (' ' :: text) = areSettings text := by
  rw [areSettings, areSettings, pieces, if_neg (by decide)]
  have behind : Place.behind .outside ' ' = .outside := by decide
  rw [behind]
  cases pieces ',' .outside text with
  | nil => rfl
  | cons piece rest => simp [setting?_blank]

theorem areSettings_joined {attributes : List Attribute} (filled : attributes ≠ [])
    (fits : ∀ a ∈ attributes, a.Fits) : areSettings (joined attributes).toList = true := by
  fun_induction joined attributes with
  | case1 => exact (filled rfl).elim
  | case2 last =>
    have fits := fits last (List.mem_singleton_self _)
    exact areSettings_singleton (Attribute.closed (by decide) rfl fits) (Attribute.isSetting fits)
  | case3 first rest more ih =>
    obtain ⟨here, others⟩ := List.forall_mem_cons.mp fits
    have behind := ih more others
    have whole := areSettings_cons (Attribute.closed (by decide) rfl here)
      (Attribute.isSetting here) ((areSettings_blank _).trans behind)
    simpa using whole

theorem closed_joined {attributes : List Attribute} (fits : ∀ a ∈ attributes, a.Fits) :
    Closed ';' (joined attributes).toList := by
  fun_induction joined attributes with
  | case1 => rfl
  | case2 last => exact Attribute.closed (by decide) rfl (fits last (List.mem_singleton_self _))
  | case3 first rest more ih =>
    obtain ⟨here, others⟩ := List.forall_mem_cons.mp fits
    have front : Closed ';' first.text.toList := Attribute.closed (by decide) rfl here
    have comma : Closed ';' ", ".toList := by decide
    simpa using front.append (comma.append (ih others))

theorem attributes_joined {attributes : List Attribute} (filled : attributes ≠ [])
    (fits : ∀ a ∈ attributes, a.Fits) :
    Attributes ('[' :: (joined attributes).toList ++ [']']) :=
  attributes_of_settings (areSettings_joined filled fits) (closed_joined fits)

theorem statement?_setting {name : String} (isName : IsName name) {text : List Char}
    (fits : quotable text = true) :
    statement? (quotedSetting name text) = some (.setting name) := by
  have whole := setting?_quoted isName fits
  rw [quotedSetting, List.append_assoc, List.cons_append] at whole ⊢
  rw [statement?, nameAt_name isName (by decide), whole]
  rfl

theorem statement?_node {name : String} (isName : IsName name) {attributes : List Char}
    (proper : Attributes attributes) :
    statement? (name.toList ++ ' ' :: attributes) = some (.node name) := by
  obtain ⟨rest, rfl⟩ : ∃ rest, attributes = '[' :: rest := by
    have isList := proper.settings
    unfold isAttributes at isList
    split at isList
    · exact ⟨_, rfl⟩
    · cases isList
  rw [statement?, nameAt_name isName (by decide)]
  simp [isName.nonempty, proper.settings]

theorem statement?_edge {source target : String} (isSource : IsName source)
    (isTarget : IsName target) {attributes : List Char} (proper : Attributes attributes) :
    statement? (source.toList ++ ' ' :: '-' :: '>' :: ' ' :: (target.toList ++ ' ' :: attributes)) =
      some (.edge source target) := by
  have second :
      nameAt (' ' :: (target.toList ++ ' ' :: attributes)) = (target, ' ' :: attributes) := by
    rw [nameAt_blank (by decide), nameAt_name isTarget (by decide)]
  rw [statement?, nameAt_name isSource (by decide)]
  simp [second, isSource.nonempty, isTarget.nonempty, proper.settings]

def Spells (line : String) (statement : Statement) : Prop :=
  ∃ piece, line.toList = piece ++ [';', '\n'] ∧ Closed ';' piece ∧
    statement? piece = some statement

theorem spells_indented {piece : List Char} {statement : Statement} (closed : Closed ';' piece)
    (read : statement? piece = some statement) {line : String}
    (text : line.toList = "  ".toList ++ piece ++ [';', '\n']) : Spells line statement := by
  have front : Closed ';' "  ".toList := by decide
  refine ⟨_, text, front.append closed, ?_⟩
  simpa [statement?_blank] using read

theorem spells_node {name : String} (isName : IsName name) {attributes : List Char}
    (proper : Attributes attributes) {line : String}
    (text : line.toList = "  ".toList ++ (name.toList ++ ' ' :: attributes) ++ [';', '\n']) :
    Spells line (.node name) := by
  have blank : Closed ';' (' ' :: attributes) := proper.closed
  exact spells_indented ((isName.closed rfl).append blank) (statement?_node isName proper) text

theorem spells_edge {source target : String} (isSource : IsName source) (isTarget : IsName target)
    {attributes : List Char} (proper : Attributes attributes) {line : String}
    (text : line.toList = "  ".toList ++ (source.toList ++ (" -> ".toList ++ (target.toList ++
      ' ' :: attributes))) ++ [';', '\n']) : Spells line (.edge source target) := by
  have blank : Closed ';' (' ' :: attributes) := proper.closed
  have arrow : Closed ';' " -> ".toList := by decide
  refine spells_indented ?_ ?_ text
  · exact (isSource.closed rfl).append (arrow.append ((isTarget.closed rfl).append blank))
  · simpa using statement?_edge isSource isTarget proper

/-- What makes the line of a call a statement. -/
def Call.Fits : Call → Prop
  | label text => quotable text.toList = true
  | leftToRight => True
  | node name attributes => IsName name ∧ attributes ≠ [] ∧ ∀ a ∈ attributes, a.Fits
  | edge source target attributes =>
    IsName source ∧ IsName target ∧ attributes ≠ [] ∧ ∀ a ∈ attributes, a.Fits

theorem Call.spells {call : Call} (fits : call.Fits) : Spells call.line call.statement := by
  cases call with
  | label text =>
    refine spells_indented ?_ (statement?_setting isName_label fits) (by simp [line, quotedSetting])
    exact closed_quotedSetting (by decide) rfl isName_label fits
  | leftToRight =>
    have closed : Closed ';' "rankdir=LR".toList := by decide
    exact spells_indented closed (by decide) (by simp [line])
  | node name attributes =>
    obtain ⟨isName, filled, each⟩ := fits
    refine spells_node isName (attributes_joined filled each) ?_
    simp [line, bracketed, filled]
  | edge source target attributes =>
    obtain ⟨isSource, isTarget, filled, each⟩ := fits
    refine spells_edge isSource isTarget (attributes_joined filled each) ?_
    simp [line, bracketed, filled]

theorem pieces_lines {lines : List String} {statements : List Statement}
    (spell : List.Forall₂ Spells lines statements) :
    ∃ front, pieces ';' .outside ('\n' :: (String.join lines).toList ++ "\x7d\n".toList) =
        front ++ ["\n\x7d\n".toList] ∧
      front.mapM statement? = some statements := by
  induction spell with
  | nil => exact ⟨[], by decide, rfl⟩
  | @cons line statement lines statements first _ ih =>
    obtain ⟨piece, text, closed, here⟩ := first
    obtain ⟨front, cut, others⟩ := ih
    have blank : Closed ';' ('\n' :: piece) := closed
    refine ⟨('\n' :: piece) :: front, ?_, ?_⟩
    · have split : '\n' :: (String.join (line :: lines)).toList ++ "\x7d\n".toList =
          ('\n' :: piece) ++ ';' :: ('\n' :: (String.join lines).toList ++ "\x7d\n".toList) := by
        simp [String.join_cons, text]
      rw [split, pieces_of_placeBehind blank, cut, List.cons_append]
    · -- The line break of the line in front is a blank at the start of the piece.
      rw [List.mapM_cons, statement?_blank (by decide), here, others]
      rfl

theorem read?_lines {lines : List String} {statements : List Statement}
    (spell : List.Forall₂ Spells lines statements) :
    read? ("digraph \x7b\n" ++ String.join lines ++ "\x7d\n") = some statements := by
  obtain ⟨front, cut, each⟩ := pieces_lines spell
  have text : ("digraph \x7b\n" ++ String.join lines ++ "\x7d\n").toList =
      'd' :: 'i' :: 'g' :: 'r' :: 'a' :: 'p' :: 'h' :: ' ' :: '\x7b' ::
        ('\n' :: (String.join lines).toList ++ "\x7d\n".toList) := by
    simp
  rw [read?, text]
  simp only [cut, List.getLast?_concat, List.dropLast_concat, if_true, each]

/-- What the writer is told is read back. -/
theorem read?_render {calls : List Call} (fits : ∀ call ∈ calls, call.Fits) :
    read? (render calls) = some (calls.map Call.statement) :=
  read?_lines (List.forall₂_map_left_iff.mpr (List.forall₂_map_right_iff.mpr
    (List.forall₂_same.mpr fun _ member => Call.spells (fits _ member))))

end Dot

end StagedLexer
