import StagedLexer.Proofs.Confirmation
import StagedLexer.Proofs.EmittedCalls
import StagedLexer.Proofs.EmittedText
import StagedLexer.Proofs.ForestShape
import StagedLexer.Proofs.ReaderBindings
import StagedLexer.Proofs.RoutineRefinement

/-! The bound readers of a tokenizer. They are the readers of the tries that have no form of their
own, each once, and every call in the source of the routine is by the name of the slot that holds the
reader that is to be called. -/
namespace StagedLexer

open Assembler Code

variable {Ctx : Type}

/-- The optimizer keeps all calls of a routine. -/
theorem Lexicon.calls_body (lexicon : Lexicon Ctx) (optimize : Bool) :
    Piece.calls (lexicon.body optimize).pieces = (Routine.ofLexicon lexicon).dispatch.calls := by
  cases optimize with
  | false => exact Routine.calls_body _
  | true =>
    obtain ⟨clear, inScope, distinct⟩ := Routine.scoped_ofLexicon lexicon
    let keeps (other : Stmt) : Prop := other.calls = (Routine.ofLexicon lexicon).dispatch.calls
    have kept (other : Stmt) (same : keeps other) :
        keeps (other.pass (Routine.ofLexicon lexicon).frame) := (Stmt.calls_pass other).trans same
    obtain ⟨other, vars, same, -, equal⟩ := Routine.exists_undeclared clear inScope distinct
      (fun other _ _ => kept other) rfl
    have pieces := congrArg piecesAll equal
    rw [piecesAll_flatten, piecesAll_flatten] at pieces
    rw [Lexicon.body, if_pos rfl, pieces, Routine.calls_body]
    exact (Stmt.calls_undeclare other).trans same

theorem Forest.mem_called {forest : Forest Ctx} {reader : Reader Ctx} :
    reader ∈ forest.called ↔ reader.isCall = true ∧
      ∃ branch ∈ forest.branches, ∃ step ∈ branch.readers, reader ∈ step.parts := by
  have branches (b : Branch Ctx) :
      b ∈ forest.branches ↔ ∃ root ∈ forest.allRoots, b ∈ root.preorder :=
    forest.perm_branches.mem_iff.trans Branch.mem_preorderAll
  simp only [branches, called, Branch.called, Reader.called, List.mem_flatMap, List.mem_filter]
  constructor
  · rintro ⟨root, inRoots, b, below, step, among, inside, call⟩
    exact ⟨call, b, ⟨root, inRoots, below⟩, step, among, inside⟩
  · rintro ⟨call, b, ⟨root, inRoots, below⟩, step, among, inside⟩
    exact ⟨root, inRoots, b, below, step, among, inside, call⟩

/-- The readers of the tries are parts of the readers of the rules. -/
theorem Forest.parts_subset_ofRules (rules : List (Rule Ctx)) (initialStage : Option String) :
    (ofRules rules initialStage).EachReader
      (·.parts ⊆ Reader.partsAll (rules.map (·.reader))) := by
  apply eachReader_ofRules
  intro rule member step among
  exact List.Subset.trans (Reader.parts_subset_of_mem_steps among)
    (Reader.parts_subset_partsAll (List.mem_map_of_mem member))

theorem Forest.called_subset {forest : Forest Ctx} {pool : List (Reader Ctx)}
    (known : forest.EachReader (·.parts ⊆ pool)) : forest.called ⊆ pool := by
  intro reader member
  obtain ⟨root, inRoots, inside⟩ := List.mem_flatMap.mp member
  obtain ⟨b, below, inside⟩ := List.mem_flatMap.mp inside
  obtain ⟨step, among, inside⟩ := List.mem_flatMap.mp inside
  have part := (List.mem_filter.mp inside).1
  rcases List.mem_append.mp inRoots with listed | stageless
  · obtain ⟨trie, inTries, root⟩ := List.mem_flatMap.mp listed
    exact known.tries trie inTries _ root b below step among part
  · exact known.stageless _ stageless b below step among part

/-- The bindings of a routine and its calls belong together. -/
structure Routine.Binds (routine : Routine Ctx) (called : List (Reader Ctx)) : Prop where
  vars : (routine.assembler.bindings.map (·.1)).Nodup
  ids : (routine.assembler.values.map Reader.id).Nodup
  used : ∀ binding ∈ routine.assembler.bindings,
    binding.1 ∈ routine.dispatch.calls ∧ binding.2 ∈ called
  refers : List.Forall₂ (fun v reader => (v, reader) ∈ routine.assembler.bindings)
    routine.dispatch.calls called

theorem Routine.binds_ofLexicon (rules : List (Rule Ctx)) (initialStage : Option String)
    (identified : Reader.Identified (rules.map (·.reader))) :
    (ofLexicon (.ofRules rules initialStage)).Binds (Forest.ofRules rules initialStage).called := by
  let start : Assembler Ctx := { nextVar := 3 }
  let lexicon := Lexicon.ofRules rules initialStage
  have known : lexicon.forest.EachReader (·.parts ⊆ Reader.partsAll (rules.map (·.reader))) :=
    Forest.parts_subset_ofRules rules initialStage
  have fits := (dispatchStmt_sound 1 known start
    ⟨by simp [start], by simp [start], by simp [start]⟩).1
  have emits := emits_dispatchStmt lexicon 1 start
  refine ⟨fits.distinct, emits.distinct List.nodup_nil, fun binding member => ?_, ?_⟩
  · exact (emits.added binding member).resolve_left (by simp [start])
  · refine List.forall₂_of_length_eq_of_get emits.refers.length_eq fun i call callee => ?_
    obtain ⟨⟨v, other⟩, member, rfl, same⟩ := emits.refers.get call callee
    have inside := Forest.called_subset known (List.get_mem lexicon.forest.called ⟨i, callee⟩)
    obtain rfl := identified other (fits.known _ member) _ inside same
    exact member

theorem Routine.Binds.mem_values_iff {routine : Routine Ctx} {called : List (Reader Ctx)}
    (binds : routine.Binds called) {reader : Reader Ctx} :
    reader ∈ routine.assembler.values ↔ reader ∈ called := by
  constructor
  · intro member
    obtain ⟨binding, bound, rfl⟩ := List.mem_map.mp member
    exact (binds.used binding bound).2
  · intro member
    obtain ⟨i, rfl⟩ := List.mem_iff_get.mp member
    have call := Nat.lt_of_lt_of_eq i.isLt binds.refers.length_eq.symm
    exact List.mem_map_of_mem (binds.refers.get call i.isLt)

namespace Tokenizer

/-- The variables of the bound readers, in the order of their slots. -/
def boundVars (tokenizer : Tokenizer Ctx) : List Nat :=
  tokenizer.routine.assembler.bindings.map (·.1)

/-- What the variables in the source of a routine are called. Distinct variables have distinct names,
no name is a reserved word, and the slots and the text of the body are spelled with these names. -/
structure NamedBy (tokenizer : Tokenizer Ctx) (nameOf : Nat → String) : Prop where
  apart : ∀ v ∈ tokenizer.boundVars ++ Piece.vars tokenizer.body.pieces,
    ∀ w ∈ tokenizer.boundVars ++ Piece.vars tokenizer.body.pieces, nameOf v = nameOf w → v = w
  free : ∀ v ∈ tokenizer.boundVars ++ Piece.vars tokenizer.body.pieces, nameOf v ∉ reserved
  slots : tokenizer.slotNames = tokenizer.boundVars.map nameOf
  body : tokenizer.bodyText = Piece.spell nameOf tokenizer.body.pieces

theorem exists_namedBy (tokenizer : Tokenizer Ctx) : ∃ nameOf, tokenizer.NamedBy nameOf := by
  obtain ⟨bound, slots⟩ := Names.nameAll_spec tokenizer.boundVars {}
  obtain ⟨inBody, text⟩ :=
    render_spelled tokenizer.body tokenizer.routine.assembler.boundNames.2
  have covers := bound.append inBody
  refine ⟨(tokenizer.body.render tokenizer.routine.assembler.boundNames.2).2.of, ?_, ?_, ?_, ?_⟩
  · exact fun v inV w inW => covers.injective Names.proper_empty inV inW
  · exact fun v => covers.free Names.proper_empty
  · exact slots _ inBody.keeps
  · exact text _ fun known => known

/-- The name of a bound variable leads to the slot of its reader, and to no other one. -/
theorem NamedBy.slot_iff {tokenizer : Tokenizer Ctx} {nameOf : Nat → String}
    (named : tokenizer.NamedBy nameOf) (distinct : tokenizer.boundVars.Nodup) {v : Nat}
    {reader : Reader Ctx} (bound : (v, reader) ∈ tokenizer.routine.assembler.bindings) :
    ∃ slot : Nat, tokenizer.boundReaders[slot]? = some reader ∧
      ∀ other : Nat, tokenizer.slotNames[other]? = some (nameOf v) ↔ other = slot := by
  obtain ⟨slot, inside, here⟩ := List.mem_iff_getElem.mp bound
  have atSlot : tokenizer.boundVars[slot]? = some v := by
    simp [boundVars, List.getElem?_eq_getElem inside, here]
  refine ⟨slot, ?_, fun other => ?_⟩
  · simp [boundReaders, Assembler.values, List.getElem?_eq_getElem inside, here]
  rw [named.slots, List.getElem?_map]
  constructor
  · intro called
    obtain ⟨w, atOther, same⟩ := Option.map_eq_some_iff.mp called
    have equal : w = v := named.apart w (List.mem_append_left _ (List.mem_of_getElem? atOther)) v
      (List.mem_append_left _ (List.mem_of_getElem? atSlot)) same
    rw [equal, ← atSlot] at atOther
    have short : slot < tokenizer.boundVars.length := by simpa [boundVars] using inside
    exact ((List.getElem?_inj short distinct).mp atOther.symm).symm
  · rintro rfl
    rw [atSlot]
    rfl

end Tokenizer

theorem Settings.routine_of_build {settings : Settings Ctx} {tokenizer : Tokenizer Ctx}
    (built : settings.build = .ok tokenizer) :
    tokenizer.routine = .ofLexicon tokenizer.lexicon ∧
      tokenizer.body = tokenizer.lexicon.body settings.optimize := by
  obtain ⟨rules, initialStage, optimized⟩ := settings
  unfold build buildNoted at built
  split at built
  · cases built
  · cases optimized <;>
    · cases built
      exact ⟨rfl, rfl⟩

namespace Tokenizer

/-- The bound readers of a tokenizer are distinct, they are the readers in the branches of its tries
that have no form of their own, and each of them is called in the body, optimized or not. In the
source, a slot gives its reader to the name by which the body calls it: the calls in the text are,
in order, those of the readers that are called to try the branches, and each is by a name that
belongs to the slot of its reader and to nothing else. This rests on how an assembler gives out
variables: two operations return one variable exactly if they bind readers with one identity, and no
more variables are given out than there are operations. -/
theorem bound_readers_are_called :
    (∀ (settings : Settings Ctx) (tokenizer : Tokenizer Ctx), settings.build = .ok tokenizer →
      Reader.Identified (settings.rules.map (·.reader)) →
      let forest := tokenizer.lexicon.forest
      let readers := tokenizer.boundReaders
      let calls := Piece.calls tokenizer.body.pieces
      (readers.map Reader.id).Nodup ∧
      (∀ reader, reader ∈ readers ↔ reader.isCall = true ∧
        ∃ branch ∈ forest.branches, ∃ step ∈ branch.readers, reader ∈ step.parts) ∧
      (∀ v ∈ tokenizer.boundVars, v ∈ calls) ∧
      (tokenizer.source = if readers.isEmpty then plainScan none tokenizer.bodyText
        else wrappedScan tokenizer.slotNames tokenizer.bodyText) ∧
      ∃ nameOf, tokenizer.NamedBy nameOf ∧ List.Forall₂ (fun v reader => ∃ slot : Nat,
        readers[slot]? = some reader ∧
          ∀ other : Nat, tokenizer.slotNames[other]? = some (nameOf v) ↔ other = slot)
        calls forest.called) ∧
    ∀ ops : List (Assembler.Operation Ctx),
      let ids := (operateAll {} ops).1
      ids.length = ops.length ∧ (∀ id ∈ ids, id < ops.length) ∧
      ∀ i j, i < j → j < ops.length → (ids[i]? = ids[j]? ↔
        ∃ reader other, ops[i]? = some (.bind reader) ∧ ops[j]? = some (.bind other) ∧
          reader.id = other.id) := by
  refine ⟨fun settings tokenizer built identified => ?_, fun ops => ⟨length_operateAll {} ops, ?_,
    fun i j => operateAll_coherent ops⟩⟩
  · have lexicon : tokenizer.lexicon = .ofRules settings.rules settings.initialStage :=
      (Settings.of_build built).1
    obtain ⟨routine, body⟩ := Settings.routine_of_build built
    have binds := Routine.binds_ofLexicon settings.rules settings.initialStage identified
    obtain ⟨nameOf, named⟩ := tokenizer.exists_namedBy
    have calls : Piece.calls tokenizer.body.pieces = tokenizer.routine.dispatch.calls := by
      rw [body, routine, Lexicon.calls_body]
    have tries : tokenizer.lexicon.forest = .ofRules settings.rules settings.initialStage :=
      congrArg Lexicon.forest lexicon
    rw [← lexicon, ← routine, ← tries] at binds
    intro forest readers
    refine ⟨binds.ids, fun reader => binds.mem_values_iff.trans Forest.mem_called, ?_,
      tokenizer.source_eq, nameOf, named, ?_⟩
    · intro v member
      obtain ⟨binding, bound, rfl⟩ := List.mem_map.mp member
      exact calls ▸ (binds.used binding bound).1
    · rw [calls]
      exact binds.refers.imp fun _ _ bound => named.slot_iff binds.vars bound
  · exact fun id => lt_of_mem_operateAll ops

/-- A reader that is called in two rules, inside of a repetition and behind another one, is bound
once. -/
theorem bound_readers_are_called_from_two_rules :
    let first : Reader Unit := .leaf 1 (.custom fun _ offset _ => .matched offset)
    let second : Reader Unit := .leaf 2 (.custom fun _ _ _ => .noMatch)
    let settings : Settings Unit :=
      { rules := [{ tokenType := "a", reader := .repetition 3 first 0 none },
          { tokenType := "b", reader := .sequence 4 [second, first] }] }
    ∃ tokenizer, settings.build = .ok tokenizer ∧ tokenizer.boundReaders = [first, second] ∧
      ∃ nameOf, tokenizer.NamedBy nameOf ∧ ∃ a b, tokenizer.slotNames = [a, b] ∧
        (Piece.calls tokenizer.body.pieces).map nameOf = [a, b, a] := by
  intro first second settings
  have parts : Reader.partsAll (settings.rules.map (·.reader)) =
      [.repetition 3 first 0 none, first, .sequence 4 [second, first], second, first] := rfl
  have within : Reader.partsAll (settings.rules.map (·.reader)) ⊆
      [.repetition 3 first 0 none, first, .sequence 4 [second, first], second] := by
    rw [parts]
    simp
  have identified : Reader.Identified (settings.rules.map (·.reader)) := .of_nodup within (by decide)
  obtain ⟨tokenizer, built, readers, called⟩ : ∃ tokenizer, settings.build = .ok tokenizer ∧
      tokenizer.boundReaders = [first, second] ∧
      tokenizer.lexicon.forest.called = [first, second, first] := ⟨_, rfl, rfl, rfl⟩
  obtain ⟨-, -, -, -, nameOf, named, reaches⟩ :=
    bound_readers_are_called.1 settings tokenizer built identified
  refine ⟨tokenizer, built, readers, nameOf, named, ?_⟩
  obtain ⟨a, b, names⟩ := List.length_eq_two.mp (tokenizer.length_slotNames.trans
    (congrArg List.length readers))
  refine ⟨a, b, names, ?_⟩
  rw [called, names, readers] at reaches
  obtain ⟨u, _, ⟨i, atI, isI⟩, behind, calls⟩ := List.forall₂_cons_right_iff.mp reaches
  obtain ⟨v, _, ⟨j, atJ, isJ⟩, behind', rfl⟩ := List.forall₂_cons_right_iff.mp behind
  obtain ⟨w, _, ⟨k, atK, isK⟩, last, rfl⟩ := List.forall₂_cons_right_iff.mp behind'
  obtain rfl := List.forall₂_nil_right_iff.mp last
  have slot {s id : Nat} {reader : Reader Unit} (here : [first, second][s]? = some reader)
      (known : reader.id = id + 1) : s = id := by
    rcases s with _ | _ | s
    · cases here
      exact Nat.succ.inj known
    · cases here
      exact Nat.succ.inj known
    · cases here
  obtain rfl : i = 0 := slot atI rfl
  obtain rfl : j = 1 := slot atJ rfl
  obtain rfl : k = 0 := slot atK rfl
  have one : a = nameOf u := Option.some.inj ((isI 0).mpr rfl)
  have two : b = nameOf v := Option.some.inj ((isJ 1).mpr rfl)
  have three : a = nameOf w := Option.some.inj ((isK 0).mpr rfl)
  rw [calls, List.map_cons, List.map_cons, List.map_singleton, ← one, ← two, ← three]

end Tokenizer

end StagedLexer
