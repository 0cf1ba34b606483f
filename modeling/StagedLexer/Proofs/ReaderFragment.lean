import StagedLexer.Proofs.GeneratedFlow
import StagedLexer.Proofs.GeneratedTypes
import StagedLexer.Proofs.ProgramRun
import StagedLexer.Proofs.Replacement
import StagedLexer.Proofs.StatementParsing

/-! The code of a single reader. Its text is read as a program; run in front of a text, this computes
what the reader reads, whether the code is optimized or not. -/
namespace StagedLexer

open Assembly Code

variable {Ctx : Type}

/-- What the code of a reader refers to: the chunk, the position in `place`, the bound readers and
the context. -/
structure Source.Memory.Prepared (memory : Source.Memory Ctx) (chunk place : Nat)
    (bindings : List (Nat × Reader Ctx)) (text : Bytes) (p : Nat) : Prop where
  chunk : memory.vars[chunk]? = some (.units text.toList)
  place : memory.vars[place]? = some (.size p)
  bound : ∀ binding ∈ bindings, memory.vars[binding.1]? = some (.reader binding.2)
  ctx : memory.names.lookup "ctx" = some .context

namespace Stmt

/-- The code of a statement, optimized or not. -/
def emit (stmt : Stmt) (frame : Frame) (optimize : Bool) : Code :=
  if optimize then (stmt.code frame).optimize else stmt.code frame

section Outside

variable {kinds : Kinds} {frame frame' : Frame}

mutual
/-- Outside of a scan statements refer to the chunk, but to no other shared variable. -/
theorem code_congr (chunk : frame.chunk = frame'.chunk) : (stmt : Stmt) →
    stmt.Typed kinds none → stmt.code frame = stmt.code frame'
  | declare _, _ | leave, _ => rfl
  | assign _ _ _, _ => by rw [code, code, chunk]
  | block items, typed => by rw [code, code, codes_congr chunk items typed]
  | guarded _ body, typed => by rw [code, code, chunk, code_congr chunk body typed.2]
  | onResult _ matched failed, typed => by
    rw [code, code, code_congr chunk matched typed.2.1, code_congr chunk failed typed.2.2]
  | loop body, typed => by rw [code, code, code_congr chunk body typed]
  | accept _ _ _, typed => by
    obtain ⟨⟨count, none, -⟩, -⟩ := typed
    cases none
  | fail _ _, typed => by
    obtain ⟨⟨count, none, -⟩, -⟩ := typed
    cases none
  | dispatch _ _ _, typed => by cases typed.1
theorem codes_congr (chunk : frame.chunk = frame'.chunk) : (items : List Stmt) →
    TypedAll kinds none items → codes frame items = codes frame' items
  | [], _ => rfl
  | item :: rest, typed => by
    rw [codes, codes, code_congr chunk item typed.1, codes_congr chunk rest typed.2]
end

end Outside

section Fragment

/-- The variables that the code of a reader does not change: those given out before, apart from its
result, and those of the bound readers. -/
def Untouched (asm made : Assembler Ctx) (r v : Nat) : Prop :=
  v < asm.nextVar ∧ v ≠ r ∨ v ∈ made.bindings.map (·.1)

/-- The shared variables apart from the chunk do not occur in the code of a reader. -/
def awayFrame (chunk : Nat) (made : Assembler Ctx) : Frame :=
  ⟨chunk, made.nextVar, made.nextVar + 1⟩

/-- The types of the variables given out before. Of those that the code of the reader does not refer
to nothing is asked. -/
private def startKinds (asm : Assembler Ctx) (chunk place r : Nat) : Kinds := fun v =>
  if v = place then some .position
  else if v = r then some .result
  else if v = chunk then some .chunk
  else if v ∈ asm.bindings.map (·.1) then some .reader
  else if v < asm.nextVar then some .pending
  else none

/-- What is known in front of the code of a reader. -/
private def fragmentScope (asm made : Assembler Ctx) (r : Nat) : Scope where
  visible v := Untouched asm made r v ∨ v = r ∨ v = made.nextVar ∨ v = made.nextVar + 1
  ready v := Untouched asm made r v ∨ v = made.nextVar ∨ v = made.nextVar + 1

private def fragmentSetting (asm made : Assembler Ctx) (chunk r : Nat) (kinds : Kinds)
    (host : Source.Host Ctx) (text : Bytes) (memory : Source.Memory Ctx) : Setting Ctx :=
  { s := { lexicon := ⟨host.rules, {}⟩, frame := awayFrame chunk made, bound := made.bindings
           text, base := 0, ctx := host.ctx }
    kinds, rules := none, given := Untouched asm made r, start := memory }

private def fragmentStart (memory : Source.Memory Ctx) (place p : Nat) : Machine :=
  { registers := Std.HashMap.emptyWithCapacity.insert place p, stage := memory.state.stage
    pending := none, events := memory.events }

variable {reader : Reader Ctx} {pool : List (Reader Ctx)} {asm made : Assembler Ctx}
  {chunk place r p : Nat} {text : Bytes} {memory : Source.Memory Ctx} {kinds : Kinds}
  {host : Source.Host Ctx}

structure Apart (asm : Assembler Ctx) (chunk place r : Nat) : Prop where
  chunk : chunk < asm.nextVar ∧ chunk ≠ r
  place : place < asm.nextVar ∧ place ≠ r
  result : r < asm.nextVar
  bound : ∀ binding ∈ asm.bindings, binding.1 ≠ r

private theorem startKinds_fits (apart : Apart asm chunk place r) (fits : asm.Fits pool)
    (prepared : memory.Prepared chunk place asm.bindings text p) :
    (startKinds asm chunk place r).Fits asm := by
  refine ⟨fun v kind known => ?_, fun binding member => ?_⟩
  · unfold startKinds at known
    split at known
    · next same => exact same ▸ apart.place.1
    split at known
    · next same => exact same ▸ apart.result
    split at known
    · next same => exact same ▸ apart.chunk.1
    split at known
    · next among =>
      obtain ⟨binding, member, rfl⟩ := List.mem_map.mp among
      exact fits.vars binding member
    · simp_all
  · have reads := prepared.bound binding member
    have notPlace : binding.1 ≠ place := by
      intro same
      rw [same, prepared.place] at reads
      cases reads
    have notChunk : binding.1 ≠ chunk := by
      intro same
      rw [same, prepared.chunk] at reads
      cases reads
    rw [startKinds, if_neg notPlace, if_neg (apart.bound binding member), if_neg notChunk,
      if_pos (List.mem_map_of_mem member)]

private theorem place_ne_chunk (prepared : memory.Prepared chunk place asm.bindings text p) :
    chunk ≠ place := by
  rintro rfl
  cases prepared.place.symm.trans prepared.chunk

private theorem startKinds_chunk (apart : Apart asm chunk place r)
    (prepared : memory.Prepared chunk place asm.bindings text p) :
    startKinds asm chunk place r chunk = some .chunk := by
  rw [startKinds, if_neg (place_ne_chunk prepared), if_neg apart.chunk.2, if_pos rfl]

private theorem startKinds_result (apart : Apart asm chunk place r) :
    startKinds asm chunk place r r = some .result := by
  rw [startKinds, if_neg apart.place.2.symm, if_pos rfl]

private theorem startKinds_below (chunk place r : Nat) {v : Nat} (below : v < asm.nextVar) :
    ∃ kind, startKinds asm chunk place r v = some kind := by
  unfold startKinds
  repeat' split
  all_goals exact ⟨_, rfl⟩

private theorem fragment_fits (reader : Reader Ctx) (apart : Apart asm chunk place r)
    (fits : asm.Fits pool) (made : (ofReader reader place r asm).2.Fits pool) :
    ((ofReader reader place r asm).1.shape
      (awayFrame chunk (ofReader reader place r asm).2)).Fits
        (Untouched asm (ofReader reader place r asm).2 r)
        (fragmentScope asm (ofReader reader place r asm).2 r) := by
  have laid : Laid (awayFrame chunk (ofReader reader place r asm).2) asm _ place r _ :=
    ofReader_laid reader asm place r
  generalize ofReader reader place r asm = result at made laid ⊢
  obtain ⟨stmt, after⟩ := result
  have grows := laid.declares.grows.vars
  have range := laid.declares.fresh.range
  have unbound : after.Unbound fun v =>
      v = r ∨ v ∈ (stmt.shape (awayFrame chunk after)).declared := by
    refine laid.declares.unbound (fun v low _ => or_iff_right ?_) fun binding member => ?_
    · exact Nat.ne_of_gt (Nat.lt_of_lt_of_le apart.result low)
    · rintro (same | new)
      · exact apart.bound binding member same
      · exact laid.declares.not_mem_of_lt (fits.vars binding member) new
  have touched {v : Nat} (late : ¬ (v < asm.nextVar ∧ v ≠ r))
      (own : v = r ∨ v ∈ (stmt.shape (awayFrame chunk after)).declared ∨ after.nextVar ≤ v) :
      ¬ Untouched asm after r v := by
    rintro (early | bound)
    · exact late early
    · obtain ⟨binding, member, rfl⟩ := List.mem_map.mp bound
      rcases own with same | new | last
      · exact unbound binding member (.inl same)
      · exact unbound binding member (.inr new)
      · exact absurd (made.vars binding member) (Nat.not_lt.mpr last)
  have shares : (fragmentScope asm after r).Shares (Untouched asm after r)
      (awayFrame chunk after) := by
    refine ⟨fun v known => ⟨.inl known, .inl known⟩, .inl apart.chunk,
      ⟨.inr (.inr (.inl rfl)), .inr (.inl rfl)⟩, ⟨.inr (.inr (.inr rfl)), .inr (.inr rfl)⟩,
      touched ?_ (.inr (.inr (Nat.le_refl _))), touched ?_ (.inr (.inr (Nat.le_succ _)))⟩
    · exact fun early => absurd early.1 (Nat.not_lt.mpr grows)
    · exact fun early => absurd early.1 (Nat.not_lt.mpr (Nat.le_succ_of_le grows))
  refine laid.fits (fun binding member => .inr (List.mem_map_of_mem member))
    ⟨shares, ⟨.inl (.inl apart.place), .inl (.inl apart.place)⟩, fun v new => ?_⟩ apart.result
    (touched (fun early => early.2 rfl) (.inl rfl)) (.inr (.inl rfl))
  have own : ¬ Untouched asm after r v :=
    touched (fun early => absurd early.1 (Nat.not_lt.mpr (range v new).1)) (.inr (.inl new))
  refine ⟨own, ?_⟩
  rintro (known | rfl | rfl)
  · exact own known
  · exact absurd (range _ new).2 (Nat.lt_irrefl _)
  · exact absurd (range _ new).2 (Nat.not_lt.mpr (Nat.le_succ _))

private theorem sound_fragment (chunkKind : kinds chunk = some .chunk)
    (prepared : memory.Prepared chunk place made.bindings text p) :
    (fragmentSetting asm made chunk r kinds host text memory).Sound :=
  ⟨chunkKind, prepared.ctx, fun _ none => nomatch none⟩

private theorem represents_fragment (fits : made.Fits pool)
    (grows : asm.Grows made) (prepared : memory.Prepared chunk place made.bindings text p)
    (kinded : kinds.Fits made) (extends' : (startKinds asm chunk place r).Extends kinds) :
    (fragmentSetting asm made chunk r kinds host text memory).Represents
      (fragmentScope asm made r).ready (fragmentStart memory place p) memory := by
  refine ⟨fun v kind known kindOf => ?_, fun _ _ => rfl, rfl, rfl, rfl, fun _ none => nomatch none⟩
  have below := kinded.below v kind kindOf
  rcases known with (⟨early, other⟩ | bound) | last | last
  · obtain ⟨first, typed⟩ := startKinds_below chunk place r early
    obtain rfl : first = kind := Option.some.inj ((extends' v first typed).symm.trans kindOf)
    rw [startKinds, if_neg other, if_pos early] at typed
    split at typed
    · next same =>
      obtain rfl := Option.some.inj typed
      exact ⟨p, by simp [Machine.get, fragmentStart, same], same ▸ prepared.place⟩
    split at typed
    · next same =>
      obtain rfl := Option.some.inj typed
      exact same ▸ prepared.chunk
    split at typed
    · next among =>
      obtain ⟨⟨v, reader⟩, member, rfl⟩ := List.mem_map.mp among
      obtain rfl := Option.some.inj typed
      have member := grows.bindings member
      exact ⟨reader, fits.lookup member, prepared.bound _ member⟩
    · obtain rfl := Option.some.inj typed
      trivial
  · obtain ⟨⟨v, reader⟩, member, rfl⟩ := List.mem_map.mp bound
    obtain rfl : Kind.reader = kind := Option.some.inj ((kinded.bound _ member).symm.trans kindOf)
    exact ⟨reader, fits.lookup member, prepared.bound _ member⟩
  · exact absurd (last ▸ below) (Nat.lt_irrefl _)
  · exact absurd (last ▸ below) (Nat.not_lt.mpr (Nat.le_succ _))

/-- The optimized code and the plain one are codes of statements that can stand in place of that of
the reader. -/
private theorem exists_emitted (reader : Reader Ctx) (apart : Apart asm chunk place r)
    (fits : asm.Fits pool) (optimize : Bool) :
    let made := ofReader reader place r asm
    ∃ other : Stmt, flatten (made.1.emit (awayFrame chunk made.2) optimize) =
        flatten (other.code (awayFrame chunk made.2)) ∧
      Becomes Ctx (· ∈ made.1.binders) (awayFrame chunk made.2) made.1 other := by
  intro made
  cases optimize with
  | false => exact ⟨_, rfl, .refl _⟩
  | true =>
    obtain ⟨fresh, inScope⟩ := ofReader_generated reader asm place r
    have plain (v : Nat) (low : v < asm.nextVar) : v ∉ made.1.binders :=
      fun member => absurd (fresh.range v member).1 (Nat.not_le.mpr low)
    have late (v : Nat) (high : made.2.nextVar ≤ v) : v ∉ made.1.binders :=
      fun member => absurd (fresh.range v member).2 (Nat.not_lt.mpr high)
    have clear : (awayFrame chunk made.2).Clear (· ∈ made.1.binders) :=
      ⟨plain _ apart.chunk.1, late _ (Nat.le_refl _), late _ (Nat.le_succ _)⟩
    have closed : made.1.Scoped (· ∈ made.1.binders) [] :=
      (inScope (fun _ _ _ => Iff.rfl) (fun binding member => plain _ (fits.vars binding member))
        (plain r apart.result) fun temp => absurd temp (plain place apart.place.1)).1
    obtain ⟨other, equal, becomes⟩ := exists_replacement clear closed fresh.distinct steadfast_nil
      steadfast_nil (fun _ _ => rfl) (List.append_nil _).symm
    exact ⟨other, equal.trans (List.append_nil _), becomes⟩

end Fragment

/-- The code of a reader, optimized or not, is run from its text. At a position of the chunk it comes
to an end with the result of reading there in `r`. All other variables given out before are as they
were, among them the chunk and the position, and nothing is reported. -/
theorem emitted_reader_computes_read (readers : List (Reader Ctx))
    (identified : Reader.Identified readers) (reader : Reader Ctx) (member : reader ∈ readers)
    (built : reader.Built) (asm : Assembler Ctx) (fits : asm.Fits (Reader.partsAll readers))
    (frame : Frame) (place r : Nat) (apart : Apart asm frame.chunk place r) (optimize : Bool)
    (host : Source.Host Ctx) (text : Bytes) (calls : reader.CallsWithin text host.ctx) (p : Nat)
    (inside : p ≤ text.size) (memory : Source.Memory Ctx)
    (prepared : memory.Prepared frame.chunk place (ofReader reader place r asm).2.bindings text p)
    (rounds : Nat) (enough : text.size < rounds) :
    ∃ i after, Source.run host rounds ((ofReader reader place r asm).1.emit frame optimize) memory =
        (.next, after) ∧
      (reader.read text host.ctx p).toInt? = some i ∧ after.vars[r]? = some (.signed i) ∧
      (∀ v < asm.nextVar, v ≠ r → after.vars[v]? = memory.vars[v]?) ∧
      after.names = memory.names ∧ after.state = memory.state ∧ after.events = memory.events := by
  let made := ofReader reader place r asm
  have parts : reader.parts ⊆ Reader.partsAll readers := Reader.parts_subset_partsAll member
  obtain ⟨madeFits, grows⟩ := ofReader_sound parts place r asm fits
  have early : memory.Prepared frame.chunk place asm.bindings text p :=
    { prepared with bound := fun binding member => prepared.bound binding (grows.bindings member) }
  -- The types of the variables, and with them another frame in which the code is the same.
  have types : Types none asm made.2 place r made.1 :=
    ofReader_types reader built.filled asm place r
  obtain ⟨kinds, extends', kinded, typed⟩ := types (startKinds asm frame.chunk place r)
    (startKinds_fits apart fits early) (if_pos rfl) (startKinds_result apart)
  have same : made.1.emit frame optimize = made.1.emit (awayFrame frame.chunk made.2) optimize := by
    have same : made.1.code frame = made.1.code (awayFrame frame.chunk made.2) :=
      code_congr (by rfl) made.1 typed
    rw [emit, emit, same]
  obtain ⟨other, spelled, becomes⟩ := exists_emitted reader apart fits optimize
  let setting := fragmentSetting asm made.2 frame.chunk r kinds host text memory
  have represents : setting.Represents (fragmentScope asm made.2 r).ready
      (fragmentStart memory place p) memory :=
    represents_fragment madeFits grows prepared kinded extends'
  have typed : other.Typed setting.kinds setting.rules := becomes.typed typed
  have runs := Setting.runs_exec rounds (sound_fragment (extends' _ _ (startKinds_chunk apart early))
    prepared) other (becomes.fits (fragment_fits reader apart fits madeFits)) typed
    (fun _ none => nomatch none) _ _ represents
  -- What the reader reads is what the steps of its statement yield.
  have linked : setting.s.Linked made.2 := fun binding among => madeFits.lookup among
  have start : (fragmentStart memory place p).get place = p := by simp [Machine.get, fragmentStart]
  obtain ⟨m, run, result, agrees⟩ := ofReader_faithful (s := setting.s) enough identified parts
    built.ordered calls asm place r fits linked apart.place.1 apart.result apart.place.2 _ p start
    inside
  have alike := becomes.runs setting.s rounds (fragmentStart memory place p) rfl
  rw [run] at alike
  generalize setting.s.exec rounds other (fragmentStart memory place p) = ended at alike runs
  generalize ran : Source.execAll setting.s.host rounds (other.program setting.s.frame) memory =
    after at runs
  have flow := alike.flow
  have early (v : Nat) (low : v < asm.nextVar) : v ∉ made.1.binders := fun member =>
    absurd ((ofReader_generated reader asm place r).fresh.range v member).1 (Nat.not_le.mpr low)
  cases runs with
  | @next m' after represents =>
    have kept := agrees.trans (alike.machine.mono fun v kept => .inl (early v kept.1))
    have ready : ((fragmentScope asm made.2 r).behind (other.shape setting.s.frame)).ready r :=
      .inr (becomes.gains (early r apart.result) (ofReader_laid reader asm place r).result)
    have holds := represents.result ready (extends' r _ (startKinds_result apart))
    have value : m'.get r = m.get r := alike.machine.get r (.inl (early r apart.result))
    refine ⟨m.get r, after, ?_, result, value ▸ holds, fun v low other =>
      represents.given v (.inl ⟨low, other⟩), represents.names, ?_, ?_⟩
    · rw [same, Source.run, tokens_congr spelled, parse?_code typed.filled]
      exact ran
    · rw [represents.state, kept.stage]
      rfl
    · rw [represents.events, kept.events]
      rfl
  | leave | again | stop | fault => cases flow

/-- Two letters at most in a counted loop, a search for another letter, and a reader that is
called. -/
theorem emitted_loops_compute_read :
    let letters : Reader Unit := .times 2 (.text 1 [97]) 1 (some 2)
    let other : Reader Unit := .upTo 4 (.text 3 [98]) true false
    let called : Reader Unit := .custom 5 fun _ pos _ => .matched pos
    let reader : Reader Unit := .inOrder 6 [letters, other, called]
    let memory : Source.Memory Unit :=
      { vars := ((Std.HashMap.emptyWithCapacity.insert 0 (.units [97, 97, 99, 98, 97])).insert 1
          (.size 0)).insert 10 (.reader called)
        names := [("ctx", .context)], state := {}, events := #[] }
    ∃ after, Source.run ⟨#[], ()⟩ 6 ((ofReader reader 1 2 { nextVar := 3 }).1.emit ⟨0, 1, 1⟩ true)
        memory = (.next, after) ∧
      after.vars[2]? = some (.signed 4) ∧ after.vars[1]? = some (.size 0) := by
  intro letters other called reader memory
  have built : reader.Built := by
    refine .inOrder 6 _ fun item member => ?_
    simp only [List.mem_cons, List.not_mem_nil, or_false] at member
    rcases member with rfl | rfl | rfl
    · exact .times 2 _ 1 (some 2) (.text 1 [97])
    · exact .upTo 4 _ true false (.text 3 [98])
    · exact .custom 5 _
  have parts : reader.parts =
      [.sequence 6 [letters, other, called],
        .repetition 2 (.leaf 1 (.text [97])) 1 (some 2), .leaf 1 (.text [97]),
        .seek 4 (.leaf 3 (.text [98])) true false, .leaf 3 (.text [98]), called] := rfl
  have identified : Reader.Identified [reader] := by
    intro a inA b inB same
    rw [Reader.partsAll, Reader.partsAll, List.append_nil, parts] at inA inB
    simp only [List.mem_cons, List.not_mem_nil, or_false] at inA inB
    rcases inA with rfl | rfl | rfl | rfl | rfl | rfl <;>
      rcases inB with rfl | rfl | rfl | rfl | rfl | rfl <;> first | rfl | cases same
  have calls : reader.CallsWithin #[97, 97, 99, 98, 97] () := by
    intro id l part isCalled offset inside
    simp only [parts, List.mem_cons, List.not_mem_nil, or_false, reduceCtorEq, false_or, called,
      Reader.custom] at part
    rcases part with part | part | part <;> cases part
    · cases isCalled
    · cases isCalled
    · exact ⟨Nat.le_refl _, inside⟩
  have bindings : (ofReader reader 1 2 { nextVar := 3 }).2.bindings = [(10, called)] := rfl
  have prepared : memory.Prepared 0 1 (ofReader reader 1 2 { nextVar := 3 }).2.bindings
      #[97, 97, 99, 98, 97] 0 := by
    rw [bindings]
    exact ⟨by simp [memory, Std.HashMap.getElem_insert],
      by simp [memory, Std.HashMap.getElem_insert], by simp [memory], rfl⟩
  obtain ⟨i, after, ran, result, holds, kept, -⟩ := emitted_reader_computes_read [reader]
    identified reader (List.mem_singleton_self _) built { nextVar := 3 }
    ⟨by simp, by simp, by simp⟩ ⟨0, 1, 1⟩ 1 2
    ⟨⟨by decide, by decide⟩, ⟨by decide, by decide⟩, by decide, by simp⟩ true ⟨#[], ()⟩
    #[97, 97, 99, 98, 97] calls 0 (Nat.zero_le _) memory prepared 6 (by decide)
  have read : reader.read #[97, 97, 99, 98, 97] () 0 = .matched 4 := rfl
  rw [read] at result
  obtain rfl : 4 = i := Option.some.inj result
  exact ⟨after, ran, holds, (kept 1 (by decide) (by decide)).trans prepared.place⟩

end Stmt

end StagedLexer
