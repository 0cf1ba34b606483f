import StagedLexer.Proofs.NumberSearch
import StagedLexer.Proofs.ReaderShapes
import StagedLexer.Proofs.TrieArena

/-! JSON texts that come in chunks. In both stages the first code unit tells which token stands at a
position, and only a number may become longer behind its end: with a point or the letter of an
exponent, neither of which starts a token. -/
namespace StagedLexer

namespace TokenShape

open JsonTokens

def number : TokenShape where
  read rest := .ofStop (NumberState.start.longest rest)
  opens b := b == 0x2d || NumberState.isDigit b.toNat
  joins b := b == 0x2e || b == 0x65 || b == 0x45
  within rest := by
    cases found : NumberState.start.longest rest with
    | none => trivial
    | some n => exact ⟨(NumberState.longest_start found).1, NumberState.longest_le found⟩
  opened {rest} found := by
    cases read : NumberState.start.longest rest with
    | none => simp [read, Reading.ofStop] at found
    | some n =>
      obtain ⟨-, b, first, opens⟩ := NumberState.longest_start read
      exact ⟨b, first, by simpa [← UInt8.toNat_inj] using opens⟩
  settled {rest stop b} found behind apart more := by
    cases read : NumberState.start.longest rest with
    | none => simp [read, Reading.ofStop] at found
    | some n =>
      obtain rfl : n = stop := by simpa [read, Reading.ofStop] using found
      have other : b.toNat ≠ 0x2e ∧ b.toNat ≠ 0x65 ∧ b.toNat ≠ 0x45 := by
        simpa [← UInt8.toNat_inj, and_assoc] using apart
      rw [NumberState.longest_append read behind other.1 other.2 more]
      rfl
  failing {rest code} found := by
    cases read : NumberState.start.longest rest <;> simp [read, Reading.ofStop] at found

def escape : TokenShape where
  read
    | 0x5c :: b :: _ =>
      if (Bytes.ofString "\"\\/bfnrt").contains b then .matched 2 else .failed invalidEscape
    | _ => .noMatch
  opens b := b == 0x5c
  joins _ := false
  within rest := by
    split
    · split
      · exact ⟨by decide, by simp⟩
      · trivial
    · trivial
  opened {rest} found := by
    split at found
    · exact ⟨_, rfl, rfl⟩
    · exact (found rfl).elim
  settled {rest stop b} found _ _ more := by
    split at found
    · simpa using found
    · cases found
  failing {rest code} found more := by
    split at found
    · simpa using found
    · cases found

theorem reads_number (id : Nat) (pattern : String) :
    (Reader.leaf id (.regex ⟨pattern, numberProgram⟩)).Reads () number.read := by
  intro text pos small
  rw [Reader.read, if_neg (Nat.not_lt.mpr small), Leaf.read, Regex.matchAt?,
    matchAt?_numberProgram]
  simp only [number]
  cases NumberState.start.longest (text.toList.drop pos) <;> rfl

theorem reads_escape : JsonTokens.escape.Reads () escape.read := by
  intro text pos small
  rw [JsonTokens.escape, Reader.custom, Reader.read, if_neg (Nat.not_lt.mpr small), Leaf.read,
    readEscape, Bytes.getElem?_eq_head?, Bytes.getElem?_eq_head?, ← List.tail_drop]
  simp only [escape]
  cases text.toList.drop pos with
  | nil => rfl
  | cons a rest =>
    by_cases backslash : a = 0x5c
    · subst backslash
      cases rest with
      | nil => rfl
      | cons b more =>
        simp only [List.head?_cons, List.tail_cons, if_true]
        split <;> rfl
    · simp [backslash, Reading.shift]

end TokenShape

namespace JsonTokens

open TokenShape Bytes

private def word (first : UInt8) (others : List UInt8) : TokenShape :=
  .literal (first :: others) (List.cons_ne_nil first others)

def valueShapes : List (Nat × TokenShape) :=
  [(0, .run (.ofBytes [0x20, 0x09, 0x0d, 0x0a])),
    (1, .number),
    (2, word 0x74 [0x72, 0x75, 0x65]), -- `true`
    (3, word 0x66 [0x61, 0x6c, 0x73, 0x65]), -- `false`
    (4, word 0x6e [0x75, 0x6c, 0x6c]), -- `null`
    (5, word 0x7b []), (6, word 0x7d []), (7, word 0x5b []), (8, word 0x5d []),
    (9, word 0x3a []), (10, word 0x2c []),
    (11, .enclosed [0x2f, 0x2a] [0x2a, 0x2f] (List.cons_ne_nil _ _)),
    (12, word 0x22 [])]

def stringShapes : List (Nat × TokenShape) :=
  [(13, .escape), (14, .run (ByteSet.ofBytes [0x22, 0x5c]).complement), (15, word 0x22 [])]

def shapes (stage : Option String) : List (Nat × TokenShape) :=
  if stage = some valueStage then valueShapes
  else if stage = some stringStage then stringShapes
  else []

def next (rule : Nat) : Option String :=
  if rule = 12 then some stringStage else if rule = 15 then some valueStage else none

private theorem apart_shapes (stage : Option String) : Apart (shapes stage) := by
  unfold shapes
  split
  · exact apart_of_countP (by decide +kernel)
  · split
    · exact apart_of_countP (by decide +kernel)
    · exact .nil

/-- Only numbers may become longer, and what makes them longer starts no token. -/
private theorem joins_shapes {stage : Option String} {entry other : Nat × TokenShape} {b : UInt8}
    (member : entry ∈ shapes stage) (joins : entry.2.joins b = true)
    (among : other ∈ shapes ((next entry.1).or stage)) : other.2.opens b = false := by
  have known : stage = some valueStage ∨ stage = some stringStage := by
    by_contra unknown
    rw [not_or] at unknown
    simp [shapes, unknown] at member
  -- Outside of strings only the shape of a number joins anything, and inside of them no shape does.
  have number : stage = some valueStage ∧ entry = (1, .number) := by
    rcases known with rfl | rfl
    · refine ⟨rfl, ?_⟩
      simp only [shapes, if_true, valueShapes, List.mem_cons, List.not_mem_nil, or_false] at member
      rcases member with rfl | rfl | rfl | rfl | rfl | rfl | rfl | rfl | rfl | rfl | rfl | rfl | rfl <;>
        first | rfl | cases joins
    · have inside : entry ∈ stringShapes := member
      simp only [stringShapes, List.mem_cons, List.not_mem_nil, or_false] at inside
      rcases inside with rfl | rfl | rfl <;> cases joins
  obtain ⟨rfl, rfl⟩ := number
  have unit : b ∈ [0x2e, 0x65, 0x45] := by
    simpa [TokenShape.number, or_assoc] using joins
  have opens : ∀ b ∈ [(0x2e : UInt8), 0x65, 0x45], ∀ other ∈ valueShapes,
      other.2.opens b = false := by
    decide +kernel
  exact opens b unit other among

private def forestOf (value string : List (Branch Unit)) (size : Nat) : Forest Unit :=
  { tries := [(valueStage, value), (stringStage, string)], size }

section Forests

open Forest

variable {value string : List (Branch Unit)} {size index : Nat} {rule : Rule Unit}
  {rest : List (Rule Unit)}

private theorem stringStage_ne_valueStage : stringStage ≠ valueStage := by decide

private theorem roots_forestOf (stage : Option String) : (forestOf value string size).roots stage =
    if stage = some valueStage then value
    else if stage = some stringStage then string else [] := by
  cases stage with
  | none => rfl
  | some name =>
    by_cases first : name = valueStage
    · simp [roots, forestOf, List.lookup_cons, first]
    · by_cases second : name = stringStage
      · simp [roots, forestOf, List.lookup_cons, second, beq_false_of_ne stringStage_ne_valueStage,
          stringStage_ne_valueStage]
      · simp [roots, forestOf, List.lookup_cons, first, second, beq_false_of_ne first,
          beq_false_of_ne second]

/-- Whether no branch starts with the first of the readers. -/
private def isApart (branches : List (Branch Unit)) (steps : List (Reader Unit)) : Bool :=
  branches.all fun branch => Arena.commonCount branch.readers steps == 0

private theorem apart_of_isApart {branches : List (Branch Unit)} {steps : List (Reader Unit)}
    (apart : isApart branches steps = true) :
    ∀ branch ∈ branches, Arena.commonCount branch.readers steps = 0 := by
  simpa [isApart] using apart

private theorem insertRules_value (active : rule.activity = .inStages [valueStage])
    (apart : isApart value rule.reader.steps = true) :
    (insertRules (forestOf value string size) index (rule :: rest)).1 =
      (insertRules (forestOf (value ++ [.complete size rule.reader.steps index]) string (size + 1))
        (index + 1) rest).1 := by
  simp only [insertRules, Forest.insert, active, distinct, List.filter_nil, insertInAll, insertIn,
    roots_forestOf, if_true]
  rw [Branch.insertAll_of_apart (apart_of_isApart apart)]
  simp [forestOf, stringStage_ne_valueStage]

private theorem insertRules_string (active : rule.activity = .inStages [stringStage])
    (apart : isApart string rule.reader.steps = true) :
    (insertRules (forestOf value string size) index (rule :: rest)).1 =
      (insertRules (forestOf value (string ++ [.complete size rule.reader.steps index]) (size + 1))
        (index + 1) rest).1 := by
  simp only [insertRules, Forest.insert, active, distinct, List.filter_nil, insertInAll, insertIn,
    roots_forestOf, Option.some.injEq, stringStage_ne_valueStage, if_true, if_false]
  rw [Branch.insertAll_of_apart (apart_of_isApart apart)]
  simp [forestOf, stringStage_ne_valueStage.symm]

end Forests

/-- The lexicon in which the given leaf reads numbers. -/
private def lexiconWith (number : Leaf Unit) : Lexicon Unit :=
  let rules := rules (.leaf 0 number) escape
  ⟨rules.toArray, .ofRules rules (some valueStage)⟩

section Roots

variable (number : Leaf Unit)

private def valueBranches : List (Branch Unit) :=
  [.complete 0 [.repetition 3 (.leaf 2 (.oneOf (.ofBytes [0x20, 0x09, 0x0d, 0x0a]))) 1 none] 0,
    .complete 1 [.leaf 0 number] 1,
    .complete 2 [.leaf 4 (.text [0x74, 0x72, 0x75, 0x65])] 2,
    .complete 3 [.leaf 5 (.text [0x66, 0x61, 0x6c, 0x73, 0x65])] 3,
    .complete 4 [.leaf 6 (.text [0x6e, 0x75, 0x6c, 0x6c])] 4,
    .complete 5 [.leaf 7 (.text [0x7b])] 5, .complete 6 [.leaf 8 (.text [0x7d])] 6,
    .complete 7 [.leaf 9 (.text [0x5b])] 7, .complete 8 [.leaf 10 (.text [0x5d])] 8,
    .complete 9 [.leaf 11 (.text [0x3a])] 9, .complete 10 [.leaf 12 (.text [0x2c])] 10,
    .complete 11 [.leaf 13 (.text [0x2f, 0x2a]),
      .seek 15 (.leaf 14 (.text [0x2a, 0x2f])) true false] 11,
    .complete 12 [.leaf 17 (.text [0x22])] 12]

private def stringBranches : List (Branch Unit) :=
  [.complete 13 [escape] 13,
    .complete 14 [.repetition 19
      (.leaf 18 (.oneOf (ByteSet.ofBytes [0x22, 0x5c]).complement)) 1 none] 14,
    .complete 15 [.leaf 20 (.text [0x22])] 15]

private theorem ofString_literals :
    ofString " \t\r\n" = [0x20, 0x09, 0x0d, 0x0a] ∧ ofString "true" = [0x74, 0x72, 0x75, 0x65] ∧
    ofString "false" = [0x66, 0x61, 0x6c, 0x73, 0x65] ∧ ofString "null" = [0x6e, 0x75, 0x6c, 0x6c] ∧
    ofString "\x7b" = [0x7b] ∧ ofString "\x7d" = [0x7d] ∧ ofString "[" = [0x5b] ∧
    ofString "]" = [0x5d] ∧ ofString ":" = [0x3a] ∧ ofString "," = [0x2c] ∧
    ofString "/*" = [0x2f, 0x2a] ∧ ofString "*/" = [0x2a, 0x2f] ∧ ofString "\"" = [0x22] ∧
    ofString "\"\\" = [0x22, 0x5c] := by
  decide +kernel

private theorem noneOf_eq (id : Nat) : (Reader.noneOf id [0x22, 0x5c] : Reader Unit) =
    .leaf id (.oneOf (ByteSet.ofBytes [0x22, 0x5c]).complement) := by
  have inhabited : ¬(ByteSet.ofBytes [0x22, 0x5c]).complement.isEmpty = true := by decide +kernel
  rw [Reader.noneOf, Reader.ofSet, if_neg inhabited]

private theorem stages_rules : (rules (.leaf 0 number) escape).flatMap Rule.stages =
    List.replicate 12 valueStage ++ [valueStage, stringStage] ++ List.replicate 3 stringStage ++
      [valueStage] :=
  rfl

private theorem forest_eq :
    (lexiconWith number).forest = forestOf (valueBranches number) stringBranches 16 := by
  have known : Forest.knownStages (rules (.leaf 0 number) escape) (some valueStage) =
      [valueStage, stringStage] := by
    rw [Forest.knownStages, stages_rules]
    decide +kernel
  have start : (lexiconWith number).forest =
      (Forest.insertRules (forestOf [] [] 0) 0 (rules (.leaf 0 number) escape)).1 := by
    rw [lexiconWith, Forest.ofRules, Forest.build, known]
    rfl
  rw [start]
  simp only [rules, ofString_literals, noneOf_eq]
  iterate 13 refine (insertRules_value (by exact rfl) (by exact rfl)).trans ?_
  iterate 3 refine (insertRules_string (by exact rfl) (by exact rfl)).trans ?_
  rfl

private theorem nextStage_eq (rule : Nat) (m : Match) :
    (lexiconWith number).nextStage rule m () = .ok (next rule) := by
  match rule with
  | 0 | 1 | 2 | 3 | 4 | 5 | 6 | 7 | 8 | 9 | 10 | 11 | 12 | 13 | 14 | 15 => rfl
  | _ + 16 => rfl

end Roots

section Readers

variable {number : Leaf Unit} (reads : (Reader.leaf 0 number).Reads () TokenShape.number.read)

include reads

private theorem branches_shapes (stage : Option String) :
    List.Forall₂ (Branch.HasShape ()) ((lexiconWith number).forest.roots stage)
      (shapes stage) := by
  rw [forest_eq, roots_forestOf]
  unfold shapes
  split
  · have literal (id rule : Nat) {units : List UInt8} (nonempty : units ≠ []) :=
      Branch.hasShape_complete (reads_literal () id nonempty) rule rule
    exact .cons (Branch.hasShape_complete (reads_run () 3 2 _) 0 0) <|
      .cons (Branch.hasShape_complete reads 1 1) <|
      .cons (literal 4 2 _) <| .cons (literal 5 3 _) <| .cons (literal 6 4 _) <|
      .cons (literal 7 5 _) <| .cons (literal 8 6 _) <| .cons (literal 9 7 _) <|
      .cons (literal 10 8 _) <| .cons (literal 11 9 _) <| .cons (literal 12 10 _) <|
      .cons (hasShape_enclosed () 11 13 15 14 11 _ (List.cons_ne_nil _ _)) <|
      .cons (literal 17 12 _) .nil
  · split
    · exact .cons (Branch.hasShape_complete reads_escape 13 13) <|
        .cons (Branch.hasShape_complete (reads_run () 19 18 _) 14 14) <|
        .cons (Branch.hasShape_complete (reads_literal () 20 _) 15 15) .nil
    · exact .nil

private theorem shaped : (lexiconWith number).Shaped () shapes next :=
  ⟨branches_shapes reads, nextStage_eq _, apart_shapes, joins_shapes⟩

/-- Whatever reads the numbers, the chunks make no difference. -/
theorem independent_of_number_reader {tokenizer : Tokenizer Unit}
    (built : (settings (.leaf 0 number)).build = .ok tokenizer) {text : Bytes} {chunks : List Bytes}
    (fits : text.size < positionBound) (splits : Tokenizer.joined chunks = text)
    (quiet : ∀ event ∈ (tokenizer.tokenize text ()).events, event.isError = false) :
    (tokenizer.stream () none chunks).events = (tokenizer.tokenize text ()).events ∧
      ∃ streamed whole position,
        (tokenizer.stream () none chunks).result = .ok streamed ∧
        (tokenizer.tokenize text ()).result = .ok whole ∧
        streamed.stage = whole.stage ∧
        streamed.position = .ok position ∧ whole.position = .ok position := by
  have shaped : tokenizer.lexicon.Shaped () shapes next :=
    (Settings.of_build built).1 ▸ shaped reads
  exact Tokenizer.stream_eq_of_calm shaped.firm
    (Tokenizer.calm_of_no_error (shaped.contained text) fits quiet) fits splits

end Readers

private theorem exists_build (number : Leaf Unit) :
    ∃ tokenizer, (settings (.leaf 0 number)).build = .ok tokenizer := by
  have known : (settings (.leaf 0 number)).unknownStage? = none := by
    simp [Settings.unknownStage?, settings, rules, Rule.stages]
  exact Settings.exists_build_iff.mpr known

private theorem tokenizer_eq :
    JsonTokens.tokenizer = (settings (.leaf 0 (.regex ⟨numberPattern, numberProgram⟩))).build := by
  rw [JsonTokens.tokenizer, number_eq]
  rfl

/-- The events of a JSON text that is scanned without an error event, and the state behind it, do not
depend on the chunks in which it comes. A text is shorter than the positions that a stream can
have. -/
theorem independent_of_chunks : ∃ tokenizer, JsonTokens.tokenizer = .ok tokenizer ∧
    ∀ (text : Bytes) (chunks : List Bytes), text.size < positionBound →
      Tokenizer.joined chunks = text →
      (∀ event ∈ (tokenizer.tokenize text ()).events, event.isError = false) →
      (tokenizer.stream () none chunks).events = (tokenizer.tokenize text ()).events ∧
        ∃ streamed whole position,
          (tokenizer.stream () none chunks).result = .ok streamed ∧
          (tokenizer.tokenize text ()).result = .ok whole ∧
          streamed.stage = whole.stage ∧
          streamed.position = .ok position ∧ whole.position = .ok position := by
  obtain ⟨tokenizer, built⟩ := exists_build (.regex ⟨numberPattern, numberProgram⟩)
  exact ⟨tokenizer, tokenizer_eq.trans built, fun _ _ fits splits quiet =>
    independent_of_number_reader (reads_number 0 numberPattern) built fits splits quiet⟩

/-- A number, a comment and a string with an escape sequence, cut in many places. -/
theorem cut_tokens_are_found :
    let chunks := ["-1", ".", "5e", "+", "3/", "*e*", "/", "\"a\\", "n\"]", ".2"]
    ∃ tokenizer, JsonTokens.tokenizer = .ok tokenizer ∧
      let report := tokenizer.stream () none (chunks.map fun chunk => (ofString chunk).toArray)
      report.events = #[.token "Number" ⟨0, 7⟩, .token "Comment" ⟨7, 12⟩,
        .token "Quote" ⟨12, 13⟩, .token "Chars" ⟨13, 14⟩, .token "Escape" ⟨14, 16⟩,
        .token "Quote" ⟨16, 17⟩, .token "RBracket" ⟨17, 18⟩, .unrecognized 18] ∧
        ∃ streamed, report.result = .ok streamed ∧ streamed.stage = some "Value" ∧
          streamed.position = .ok 18 := by
  intro chunks
  obtain ⟨tokenizer, built, same⟩ := independent_of_chunks
  obtain ⟨lexicon, start⟩ := Settings.of_build (tokenizer_eq.symm.trans built)
  let text : Bytes := (ofString "-1.5e+3/*e*/\"a\\n\"].2").toArray
  have scanned : (tokenizer.tokenize text ()).events =
        #[.token "Number" ⟨0, 7⟩, .token "Comment" ⟨7, 12⟩, .token "Quote" ⟨12, 13⟩,
          .token "Chars" ⟨13, 14⟩, .token "Escape" ⟨14, 16⟩, .token "Quote" ⟨16, 17⟩,
          .token "RBracket" ⟨17, 18⟩, .unrecognized 18] ∧
      (tokenizer.tokenize text ()).result.toOption =
        some { chunk := text, offset := 18, stage := some "Value" } := by
    rw [Tokenizer.tokenize, lexicon, start]
    decide +kernel
  obtain ⟨events, streamed, whole, position, result, ended, stage, atPosition, wholePosition⟩ :=
    same text (chunks.map fun chunk => (ofString chunk).toArray) (by decide +kernel)
      (by decide +kernel) (by rw [scanned.1]; decide)
  obtain rfl : whole = { chunk := text, offset := 18, stage := some "Value" } := by
    rw [ended] at scanned
    exact Option.some.inj scanned.2
  refine ⟨tokenizer, built, events.trans scanned.1, streamed, result, stage, ?_⟩
  rw [atPosition, ← wholePosition]
  rfl

end JsonTokens

end StagedLexer
