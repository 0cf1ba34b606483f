import StagedLexer.Proofs.StatementText

/-! The programs of statements are read from their texts. -/
namespace StagedLexer

open Source

theorem Source.Expr.Reads.of_add {expr : Expr} {mark : String} {n : Nat}
    (size : expr.tokens.length + 12 = n) (reads : ∀ more rest, Parser.expr (more + n)
      (expr.tokens ++ Token.mark mark :: rest) = some (expr, .mark mark :: rest)) :
    expr.Reads mark := by
  intro fuel rest enough
  obtain ⟨more, rfl⟩ := Nat.exists_eq_add_of_le' enough
  rw [size]
  exact reads more rest

theorem Source.Pattern.Reads.of_add {pattern : Source.Pattern} {mark : String} {n : Nat}
    (size : pattern.tokens.length + 12 = n) (reads : ∀ more rest, Parser.pattern (more + n)
      (pattern.tokens ++ Token.mark mark :: rest) = Option.some (pattern, .mark mark :: rest)) :
    pattern.Reads mark := by
  intro fuel rest enough
  obtain ⟨more, rfl⟩ := Nat.exists_eq_add_of_le' enough
  rw [size]
  exact reads more rest

namespace Source.Parser

/-- An expression without anything behind it. -/
theorem expr_of_primary {fuel : Nat} {word : String} {tokens rest : List Token}
    {inner : Expr} (first : primary (expr (fuel + 3)) (fuel + 1) (.word word :: tokens) =
      some (inner, .mark ";" :: rest)) :
    expr (fuel + 4) (.word word :: tokens) = some (inner, .mark ";" :: rest) := by
  rw [expr]
  simp [ranged, joined, compared, sum, factor, operand, first, behind, casts, summands,
    comparison?]

end Source.Parser

namespace Probe

variable {chunk : Nat} {place : Place}

open Source.Parser

private theorem range_tokens {range : UInt8 × UInt8} (ordered : range.1 ≤ range.2)
    {rest : List Token} (ends : rest.head? ≠ some (.mark "..=")) :
    Parser.range (Pattern.rangeTokens range ++ rest) = some (range, rest) := by
  obtain ⟨lo, hi⟩ := range
  unfold Pattern.rangeTokens
  split
  · next single =>
    obtain rfl : lo = hi := single
    rw [List.singleton_append, Parser.range]
    rintro hi rest rfl
    exact ends rfl
  · simp [Parser.range, ordered]

theorem ranges_tokens {ranges : List (UInt8 × UInt8)} (filled : ranges ≠ [])
    (ordered : ∀ range ∈ ranges, range.1 ≤ range.2) {fuel : Nat} (enough : ranges.length ≤ fuel)
    (rest : List Token) :
    Parser.ranges fuel (Pattern.rangesTokens ranges ++ Token.mark "," :: rest) =
      some (ranges, .mark "," :: rest) := by
  induction ranges generalizing fuel with
  | nil => exact absurd rfl filled
  | cons range more ih =>
    obtain ⟨fuel, rfl⟩ := Nat.exists_eq_add_of_le' (Nat.le_trans (Nat.succ_pos _) enough)
    have here : range.1 ≤ range.2 := ordered range (by simp)
    cases more with
    | nil =>
      have first := range_tokens here (show (Token.mark "," :: rest).head? ≠ _ by simp)
      simp [Pattern.rangesTokens, Parser.ranges, first]
    | cons next more =>
      have others := ih (by simp) (fun r member => ordered r (List.mem_cons_of_mem _ member))
        (Nat.le_of_succ_le_succ enough)
      have opens : (Token.mark "|" :: (Pattern.rangesTokens (next :: more) ++
          Token.mark "," :: rest)).head? ≠ some (.mark "..=") := by simp
      have first := range_tokens here opens
      simp [Pattern.rangesTokens, Parser.ranges, first, others]

theorem length_rangesTokens (ranges : List (UInt8 × UInt8)) :
    ranges.length ≤ (Pattern.rangesTokens ranges).length := by
  induction ranges with
  | nil => exact Nat.zero_le _
  | cons range more ih =>
    have some : 0 < (Pattern.rangeTokens range).length := by
      unfold Pattern.rangeTokens
      split <;> simp
    cases more with
    | nil => exact some
    | cons next more =>
      simp only [Pattern.rangesTokens, List.length_append, List.length_cons] at ih ⊢
      omega

private theorem reads_startsIn {set : ByteSet} (filled : set.ranges ≠ []) :
    (Pattern.some (.startsIn "rest_" set.ranges)).Reads "=>" := by
  intro fuel rest enough
  have long := length_rangesTokens set.ranges
  simp only [Pattern.tokens, List.length_append, List.length_cons, List.length_nil] at enough
  obtain ⟨fuel, rfl⟩ := Nat.exists_eq_add_of_le' (show 2 ≤ fuel by omega)
  have inside := @ranges_tokens _ filled (ByteSet.lists_ranges set).separated.filled fuel (by omega)
  simp [Pattern.tokens, Parser.pattern, inside]

private theorem reads_oneOf {set : ByteSet} (filled : set.ranges ≠ []) :
    (Probe.expr chunk place (.oneOf set)).Reads ";" := by
  have subject : (Expr.method (.var chunk) "get" [.fromOn place.expr]).Reads "\x7b" := by
    cases place <;> exact .of_add rfl fun _ _ => by rfl
  have value : (behind chunk 1).Reads "," := .of_add rfl fun _ _ => by rfl
  have other : missing.Reads "," := .of_add rfl fun _ _ => by rfl
  intro fuel rest enough
  simp only [expr, arm, Expr.tokens, Arms.tokens, List.length_append, List.length_cons,
    List.length_nil] at enough
  obtain ⟨fuel, rfl⟩ := Nat.exists_eq_add_of_le' (show 6 ≤ fuel by omega)
  have first (rest : List Token) := subject (fuel + 5) rest (by
    simp only [Expr.tokens, List.length_append, List.length_cons, List.length_nil]
    omega)
  have found (rest : List Token) : Parser.arm (Parser.expr (fuel + 5)) (fuel + 3)
      ((Pattern.some (.startsIn "rest_" set.ranges)).tokens ++ Token.mark "=>" ::
        ((behind chunk 1).tokens ++ Token.mark "," :: rest)) =
        some (.plain (.some (.startsIn "rest_" set.ranges)) (behind chunk 1),
          .mark "," :: rest) := by
    have head := reads_startsIn filled (fuel + 3) ((behind chunk 1).tokens ++ Token.mark "," ::
      rest)
      (by omega)
    have last := value (fuel + 5) rest (by omega)
    simp [Parser.arm, head, last]
  have otherwise (rest : List Token) : Parser.arm (Parser.expr (fuel + 5)) (fuel + 3)
      (.word "_" :: .mark "=>" :: (missing.tokens ++ Token.mark "," :: rest)) =
        some (.plain .anything missing, .mark "," :: rest) := by
    have last := other (fuel + 5) rest (by omega)
    simp [Parser.arm, Parser.pattern, last]
  have arms (rest : List Token) : separated (Parser.arm (Parser.expr (fuel + 5)) (fuel + 3)) "\x7d"
      (fuel + 3) ((arm chunk (.oneOf set) (.plain .anything missing .done)).tokens ++
        Token.mark "\x7d" :: rest) =
      some ([.plain (.some (.startsIn "rest_" set.ranges)) (behind chunk 1),
        .plain .anything missing], rest) := by
    simp only [arm, Arms.tokens, List.append_assoc, List.cons_append, List.nil_append]
    rw [separated, found]
    simp [Pattern.tokens, separated, otherwise]
  rw [expr, Expr.tokens]
  simp only [List.append_assoc, List.cons_append, List.nil_append]
  refine expr_of_primary ?_
  simp [primary, first, arms]
  rfl

theorem reads {probe : Probe} (filled : probe.Filled) :
    (Probe.expr chunk place probe).Reads ";" := by
  cases probe with
  | text units => cases place <;> exact .of_add rfl fun _ _ => by rfl
  | textAnyCase units => cases place <;> exact .of_add rfl fun _ _ => by rfl
  | oneOf set => exact reads_oneOf filled
  | atEnd => cases place <;> exact .of_add rfl fun _ _ => by rfl
  | skip count => cases place <;> exact .of_add rfl fun _ _ => by rfl

end Probe

theorem Value.reads {value : Value} (filled : value.Filled) (chunk : Nat) :
    (value.expr chunk).Reads ";" := by
  cases value with
  | probe test place => exact Probe.reads filled
  | noMatch | result | counted | zero | chunkEnd | asPlace | succ =>
    exact .of_add rfl fun _ _ => by rfl
  | position p | place p | call bound p => cases p <;> exact .of_add rfl fun _ _ => by rfl

theorem Cond.reads (cond : Cond) (chunk : Nat) : (cond.expr chunk).Reads "\x7b" := by
  cases cond <;> exact .of_add rfl fun _ _ => by rfl

namespace Source.Expr

theorem opens_var (v : Nat) : (var v).Opens := ⟨.var v, [], rfl, by simp, by simp, by simp⟩

theorem opens_content (n : String) : (content (.name n)).Opens :=
  ⟨.mark "*", [.word n], rfl, by decide, by simp, by simp⟩

theorem opens_handler (method : String) (arguments : List Expr) :
    (Expr.method (.name "handler") method arguments).Opens :=
  ⟨.word "handler", _, rfl, by simp, by simp, by decide⟩

end Source.Expr

namespace Frame

open Command (ReadsAll ReadsBodies)

variable {frame : Frame} {place : Place}

private theorem reads_confirm : frame.confirm.Reads :=
  ⟨.of_add rfl fun _ _ => by rfl, .of_add rfl fun _ _ => by rfl,
    ⟨⟨Expr.opens_handler _ _, .of_add rfl fun _ _ => by rfl⟩, trivial⟩, trivial⟩

private theorem reads_move (rule : Nat) (stop : Place) (move : StageMove) :
    ReadsAll (frame.move rule stop move) := by
  have target : (Expr.content (.name "stage")).Reads "=" := .of_add rfl fun _ _ => by rfl
  cases move with
  | stay => trivial
  | switch stage =>
    exact ⟨⟨Expr.opens_content "stage", target, .of_add rfl fun _ _ => by rfl⟩, trivial⟩
  | computed =>
    refine ⟨⟨.of_add rfl fun _ _ => by rfl, ?_, ⟨⟨Expr.opens_content "stage", target, ?_⟩, trivial⟩,
      trivial⟩, trivial⟩
    · cases stop <;> exact .of_add rfl fun _ _ => by rfl
    · exact .of_add rfl fun _ _ => by rfl

theorem readsAll_append {first second : List Command} (reads : ReadsAll first)
    (reads' : ReadsAll second) : ReadsAll (first ++ second) := by
  induction first with
  | nil => exact reads'
  | cons c first ih => exact ⟨reads.1, ih reads.2⟩

private theorem reads_accept (rule : Nat) (stop : Place) (move : StageMove) :
    ReadsAll (frame.accept rule stop move) := by
  have keep : (Command.bind (.name "prev_stage") (.method (.name "stage") "clone" [])).Reads :=
    ⟨.of_add rfl fun _ _ => by rfl, by simp [Pattern.tokens], .of_add rfl fun _ _ => by rfl⟩
  have pending : (Command.assign (.var frame.pending) (.call ["Some"] [.tuple [.number rule,
        .var frame.cursor, stop.expr, .name "prev_stage"]])).Reads := by
    refine ⟨Expr.opens_var _, .of_add rfl fun _ _ => by rfl, ?_⟩
    cases stop <;> exact .of_add rfl fun _ _ => by rfl
  have cursor : (Command.assign (.var frame.cursor) stop.expr).Reads := by
    refine ⟨Expr.opens_var _, .of_add rfl fun _ _ => by rfl, ?_⟩
    cases stop <;> exact .of_add rfl fun _ _ => by rfl
  exact ⟨reads_confirm, keep,
    readsAll_append (reads_move rule stop move) ⟨pending, cursor, trivial, trivial⟩⟩

private theorem reads_fail (owner r : Nat) : ReadsAll (frame.fail owner r) :=
  ⟨reads_confirm, ⟨Expr.opens_handler _ _, .of_add rfl fun _ _ => by rfl⟩,
    ⟨Expr.opens_content _, .of_add rfl fun _ _ => by rfl, .of_add rfl fun _ _ => by rfl⟩,
    trivial, trivial⟩

end Frame

namespace Stmt

open Command (ReadsAll ReadsBodies)

variable {frame : Frame}

theorem patterns_read (stages : List String) (arms : List Stmt) :
    ∀ pattern ∈ patterns stages arms, pattern.Reads "=>" := by
  have last : Source.Pattern.anything.Reads "=>" := .of_add rfl fun _ _ => by rfl
  induction arms generalizing stages with
  | nil => simpa [patterns] using last
  | cons arm rest ih =>
    cases stages with
    | nil => simpa [patterns] using last
    | cons stage stages =>
      have first : (Source.Pattern.some (.text stage)).Reads "=>" := .of_add rfl fun _ _ => by rfl
      exact List.forall_mem_cons.mpr ⟨first, ih stages⟩

theorem length_patterns (stages : List String) (otherwise : List Command) (arms : List Stmt) :
    (patterns stages arms).length = (programArms frame stages otherwise arms).length := by
  induction arms generalizing stages with
  | nil => simp [patterns, programArms]
  | cons arm rest ih =>
    cases stages with
    | nil => simp [patterns, programArms]
    | cons stage stages => simp [patterns, programArms, ih]

mutual
/-- The program of a statement can be read. -/
theorem reads_program : (stmt : Stmt) → stmt.Filled → ReadsAll (stmt.program frame)
  | declare v, _ => ⟨trivial, trivial⟩
  | assign v value _, filled =>
    ⟨⟨Expr.opens_var v, .of_add rfl fun _ _ => by rfl, value.reads filled frame.chunk⟩, trivial⟩
  | block items, filled => reads_programAll items filled
  | guarded cond body, filled => by
    refine ⟨⟨cond.reads frame.chunk, ?_, reads_program body filled, trivial⟩, trivial⟩
    cases cond <;> simp [Cond.expr, Expr.tokens]
  | onResult r matched failed, filled => by
    refine ⟨⟨.of_add rfl fun _ _ => by rfl, by simp [Expr.tokens], reads_program matched filled.1,
      ⟨.of_add rfl fun _ _ => by rfl, by simp [Expr.tokens], reads_program failed filled.2,
        trivial⟩, trivial⟩, trivial⟩
  | loop body, filled => ⟨reads_program body filled, trivial⟩
  | leave, _ => ⟨trivial, trivial⟩
  | accept rule stop move, _ => by
    refine ⟨⟨?_, ?_, Frame.reads_accept rule stop move, trivial⟩, trivial⟩
    · cases stop <;> exact .of_add rfl fun _ _ => by rfl
    · cases stop <;> simp [Place.expr, Expr.tokens]
  | fail owner r, _ => Frame.reads_fail owner r
  | dispatch stages arms otherwise, filled =>
    ⟨⟨.of_add rfl fun _ _ => by rfl, length_patterns stages _ arms, patterns_read stages arms,
      reads_programArms arms stages filled.1 (reads_program otherwise filled.2)⟩, trivial⟩
theorem reads_programAll : (items : List Stmt) → FilledAll items →
    ReadsAll (programAll frame items)
  | [], _ => trivial
  | item :: rest, filled =>
    Frame.readsAll_append (reads_program item filled.1) (reads_programAll rest filled.2)
theorem reads_programArms {otherwise : List Command} : (arms : List Stmt) →
    (stages : List String) → FilledAll arms → ReadsAll otherwise →
      ReadsBodies (programArms frame stages otherwise arms)
  | [], _, _, last | _ :: _, [], _, last => ⟨last, trivial⟩
  | arm :: rest, _ :: stages, filled, last =>
    ⟨reads_program arm filled.1, reads_programArms rest stages filled.2 last⟩
end

end Stmt

theorem Code.tokens_of_written {code : Code} {tokens : List Token}
    (written : Written code.signs tokens) : code.tokens = tokens := by
  rw [Code.tokens, show Pending.run .nothing code.signs = _ from written]
  simp [Pending.finish]

/-- The text of a statement is read as its program. -/
theorem Stmt.parse?_code {frame : Frame} {stmt : Stmt} (filled : stmt.Filled) :
    parse? (stmt.code frame).tokens = some (stmt.program frame) := by
  rw [Code.tokens_of_written (stmt.written filled)]
  exact parse?_tokensAll (reads_program stmt filled)

namespace Routine

open Command (ReadsAll)

variable {Ctx : Type} {frame : Frame}

private theorem reads_firstCommands : ReadsAll (firstCommands frame) :=
  ⟨⟨.of_add rfl fun _ _ => by rfl, by simp [Pattern.tokens], .of_add rfl fun _ _ => by rfl⟩,
    .of_add rfl fun _ _ => by rfl, .of_add rfl fun _ _ => by rfl, .of_add rfl fun _ _ => by rfl,
    trivial⟩

private theorem reads_lastCommands : ReadsAll (lastCommands frame) := by
  have toField (name : String) {value : Expr} (target : (Expr.content (.name name)).Reads "=")
      (reads : value.Reads ";") : (Command.assign (.content (.name name)) value).Reads :=
    ⟨Expr.opens_content name, target, reads⟩
  have toOffset {value : Expr} := @toField "offset" value (.of_add rfl fun _ _ => by rfl)
  have toStage {value : Expr} := @toField "stage" value (.of_add rfl fun _ _ => by rfl)
  have cursor : (Expr.var frame.cursor).Reads ";" := .of_add rfl fun _ _ => by rfl
  have pending : (Expr.var frame.pending).Reads "\x7b" := .of_add rfl fun _ _ => by rfl
  have held : ReadsAll [.assign (.content (.name "offset")) (.name "p_start"),
      .assign (.content (.name "stage")) (.name "prev_stage")] :=
    ⟨toOffset (.of_add rfl fun _ _ => by rfl), toStage (.of_add rfl fun _ _ => by rfl), trivial⟩
  have confirmed : (Command.perform (.method (.name "handler") "token"
      [Frame.ruleAt (.name "p_rule"), Frame.inStream (.name "p_start"),
        Frame.inStream (.var frame.cursor)])).Reads :=
    ⟨Expr.opens_handler _ _, .of_add rfl fun _ _ => by rfl⟩
  have unmatched : (Command.perform (.method (.name "handler") "unrecognized_token"
      [Frame.inStream (.var frame.cursor)])).Reads :=
    ⟨Expr.opens_handler _ _, .of_add rfl fun _ _ => by rfl⟩
  refine ⟨⟨.of_add rfl fun _ _ => by rfl, by simp [Expr.tokens], ⟨⟨?_, pending, held,
    toOffset cursor, trivial⟩, trivial⟩, ⟨?_, pending, ⟨confirmed, trivial⟩, trivial⟩, ⟨?_,
    by simp [textLeft, Expr.tokens], ⟨unmatched, trivial⟩, trivial⟩, toOffset cursor, trivial⟩,
    trivial⟩
  · exact .of_add rfl fun _ _ => by rfl
  · exact .of_add rfl fun _ _ => by rfl
  · exact .of_add rfl fun _ _ => by rfl

theorem parse?_body (routine : Routine Ctx) (filled : routine.dispatch.Filled) :
    parse? routine.body.tokens = some routine.program := by
  rw [Code.tokens_of_written (written_body routine filled)]
  have round : ReadsAll (routine.dispatch.program routine.frame ++ [Command.leave]) :=
    Frame.readsAll_append (Stmt.reads_program _ filled) ⟨trivial, trivial⟩
  exact parse?_tokensAll (Frame.readsAll_append reads_firstCommands
    ⟨⟨.of_add rfl fun _ _ => by rfl, round⟩, reads_lastCommands⟩)

end Routine

end StagedLexer
