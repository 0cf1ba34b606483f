import StagedLexer.Proofs.Confirmation
import StagedLexer.Proofs.DotReading
import StagedLexer.Proofs.TrieDrawing

/-! The graphs of the tries of a tokenizer. The text of a graph is read back as what its calls say,
and the graphs together show every branch of the tokenizer. -/
namespace StagedLexer

variable {Ctx : Type}

namespace Branch

theorem isName_nodeName (id : Nat) : Dot.IsName (nodeName id) := by
  refine ⟨by simp [nodeName], fun c member => ?_⟩
  rw [nodeName, String.toList_append, List.mem_append] at member
  rcases member with front | digit
  · exact List.all_eq_true.mp (by decide) c front
  · exact Dot.isNameChar_of_mem_toString digit

theorem isName_root : Dot.IsName "root" := ⟨by decide, List.all_eq_true.mp (by decide)⟩

theorem fits_nodeCall (id : Nat) (rule : Option Nat) : (nodeCall id rule).Fits := by
  have number (n : Nat) : Dot.quotable (toString n).toList = true :=
    Dot.quotable_of_isNameChar fun _ => Dot.isNameChar_of_mem_toString
  cases rule with
  | none =>
    exact ⟨isName_nodeName id, List.cons_ne_nil _ _, List.forall_mem_singleton.mpr (number id)⟩
  | some rule =>
    have label : Dot.quotable (toString id ++ "\\nrule " ++ toString rule).toList = true := by
      rw [String.toList_append, String.toList_append]
      exact Dot.quotable_append (Dot.quotable_append (number id) rfl) (number rule)
    refine ⟨isName_nodeName id, List.cons_ne_nil _ _, ?_⟩
    simp only [List.forall_mem_cons]
    exact ⟨trivial, trivial, trivial, label, nofun⟩

theorem fits_edgeCall {parent : String} (isParent : Dot.IsName parent) (id : Nat)
    (readers : List (Reader Ctx)) : (edgeCall parent id readers).Fits := by
  refine ⟨isParent, isName_nodeName id, List.cons_ne_nil _ _, List.forall_mem_singleton.mpr ?_⟩
  exact Dot.quotable_plain _

private theorem isName_of_mem_hangingAll {roots : List (Branch Ctx)} :
    ∀ drawn ∈ hangingAll "root" roots, Dot.IsName drawn.1 := by
  intro drawn member
  rcases parent_of_mem_hangingAll member with ⟨name, -⟩ | ⟨above, -, name, -⟩
  · exact name ▸ isName_root
  · exact name ▸ isName_nodeName above.id

/-- A graph can be read if its title can stand in quotes. -/
theorem fits_calls {label : String} (fits : Dot.quotable label.toList = true)
    (roots : List (Branch Ctx)) : ∀ call ∈ calls label roots, call.Fits := by
  have drawn : ∀ call ∈ draw (under "root" roots), call.Fits := by
    rw [draw_eq, hangingStack_under, List.forall_mem_flatMap]
    intro branch member
    have name := isName_of_mem_hangingAll branch member
    exact List.forall_mem_cons.mpr ⟨fits_nodeCall _ _, List.forall_mem_singleton.mpr
      (fits_edgeCall name _ _)⟩
  have root : Dot.Call.Fits (.node "root" [.circle, .blue, .penWidth 3, .label ""]) := by
    refine ⟨isName_root, List.cons_ne_nil _ _, ?_⟩
    simp only [List.forall_mem_cons]
    exact ⟨trivial, trivial, trivial, rfl, nofun⟩
  simp only [calls, List.forall_mem_cons]
  exact ⟨fits, trivial, root, drawn⟩

end Branch

/-- The graph of a trie is read back as the calls for it. -/
theorem Dot.read?_graph {label : String} (fits : quotable label.toList = true)
    (roots : List (Branch Ctx)) :
    read? (Branch.graph label roots) =
      some ((Branch.calls label roots).map Call.statement) :=
  read?_render (Branch.fits_calls fits roots)

namespace Folder

variable {folder : Folder}

def Writable (name : String) : Prop := '\x00' ∉ name.toList ∧ name.utf8ByteSize ≤ nameLimit

def put (folder : Folder) (file : String × String) : Folder :=
  folder.filter (·.1 ≠ file.1) ++ [file]

theorem target_flat {name : String} (flat : '/' ∉ name.toList) (named : name ∉ ["", ".", ".."]) :
    folder.target name =
      if '\x00' ∈ name.toList then .error .nameWithNul
      else if nameLimit < name.utf8ByteSize then .error .nameTooLong
      else .ok (.inside name) := by
  simp only [List.mem_cons, List.not_mem_nil, or_false, not_or] at named
  obtain ⟨notEmpty, notDot, notDots⟩ := named
  have relative : name.startsWith "/" = false := by
    rw [String.startsWith_string_eq_false_iff]
    rintro ⟨rest, whole⟩
    exact flat (by simp [← whole])
  have parts : (name.toList.splitOn '/').map String.ofList = [name] := by
    rw [List.splitOn_eq_singleton flat]
    simp
  have limits : nameLimit < pathLimit := by decide
  rw [target, String.contains_char_eq, relative, parts, walk]
  simp only [decide_eq_true_eq, notEmpty, notDot, notDots, tooLong, decide_false, Bool.or_self,
    Bool.false_eq_true, if_false]
  split_ifs <;> first | rfl | omega

theorem write_flat (folder : Folder) {name : String} (flat : '/' ∉ name.toList)
    (named : name ∉ ["", ".", ".."]) (content : String) :
    (Writable name ∧ folder.write name content = .ok (folder.put (name, content))) ∨
      (¬ Writable name ∧ ∃ fault, folder.write name content = .error fault) := by
  rw [write, target_flat flat named]
  by_cases nul : '\x00' ∈ name.toList
  · exact .inr ⟨fun writable => writable.1 nul, _, by rw [if_pos nul]; rfl⟩
  by_cases long : nameLimit < name.utf8ByteSize
  · exact .inr ⟨fun writable => absurd writable.2 (Nat.not_le.mpr long), _,
      by rw [if_neg nul, if_pos long]; rfl⟩
  · exact .inl ⟨⟨nul, Nat.le_of_not_lt long⟩, by rw [if_neg nul, if_neg long]; rfl⟩

theorem writeAll (folder : Folder) {files : List (String × String)}
    (flat : ∀ file ∈ files, '/' ∉ file.1.toList ∧ file.1 ∉ ["", ".", ".."]) :
    ((∀ file ∈ files, Writable file.1) ∧
      files.foldlM (fun folder file => folder.write file.1 file.2) folder =
        .ok (files.foldl put folder)) ∨
    ((∃ file ∈ files, ¬ Writable file.1) ∧
      ∃ fault, files.foldlM (fun folder file => folder.write file.1 file.2) folder =
        .error fault) := by
  induction files generalizing folder with
  | nil => exact .inl ⟨by simp, rfl⟩
  | cons file rest ih =>
    obtain ⟨⟨slash, named⟩, others⟩ := List.forall_mem_cons.mp flat
    rw [List.foldlM_cons]
    rcases folder.write_flat slash named file.2 with
      ⟨writable, done⟩ | ⟨refused, fault, failed⟩
    · rw [done]
      rcases ih (folder.put file) others with
        ⟨all, written⟩ | ⟨⟨other, member, refused⟩, failed⟩
      · exact .inl ⟨List.forall_mem_cons.mpr ⟨writable, all⟩, written⟩
      · exact .inr ⟨⟨other, List.mem_cons_of_mem _ member, refused⟩, failed⟩
    · exact .inr ⟨⟨file, List.mem_cons_self .., refused⟩, fault, by rw [failed]; rfl⟩

theorem foldl_put {files : List (String × String)} (nodup : (files.map (·.1)).Nodup)
    (apart : ∀ file ∈ files, file.1 ∉ folder.map (·.1)) :
    files.foldl put folder = folder ++ files := by
  induction files generalizing folder with
  | nil => simp
  | cons file rest ih =>
    obtain ⟨here, others⟩ := List.forall_mem_cons.mp apart
    obtain ⟨first, behind⟩ := List.nodup_cons.mp nodup
    have kept : folder.filter (·.1 ≠ file.1) = folder := by
      refine List.filter_eq_self.mpr fun old member => decide_eq_true ?_
      intro same
      exact here (List.mem_map.mpr ⟨old, member, same⟩)
    rw [List.foldl_cons, put, kept, ih behind]
    · simp
    · intro other member
      rw [List.map_append, List.mem_append]
      rintro (old | new)
      · exact others other member old
      · rw [List.map_singleton, List.mem_singleton] at new
        exact first (List.mem_map.mpr ⟨other, member, new⟩)

end Folder

namespace Tokenizer

variable {tokenizer : Tokenizer Ctx}

def graphFile (trie : String × List (Branch Ctx)) : String × String :=
  (trie.1 ++ ".dot", Branch.graph trie.1 trie.2)

/-- The tries whose graphs stay: a trie of a stage with the name of the trie without a stage has its
graph replaced. -/
def keptTries (tokenizer : Tokenizer Ctx) : List (String × List (Branch Ctx)) :=
  tokenizer.lexicon.forest.tries.filter (·.1 ≠ "stageless") ++
    [("stageless", tokenizer.lexicon.forest.stageless)]

/-- The longest name of a stage for which a file can be written. -/
def stageLimit : Nat := 251

theorem writable_graphFile (trie : String × List (Branch Ctx)) :
    Folder.Writable (graphFile trie).1 ↔
      '\x00' ∉ trie.1.toList ∧ trie.1.utf8ByteSize ≤ stageLimit := by
  have size : (trie.1 ++ ".dot").utf8ByteSize = trie.1.utf8ByteSize + 4 :=
    String.utf8ByteSize_append
  have nul : '\x00' ∈ (trie.1 ++ ".dot").toList ↔ '\x00' ∈ trie.1.toList := by simp
  rw [Folder.Writable, graphFile, size, nul, Folder.nameLimit, stageLimit]
  exact and_congr_right fun _ => by omega

theorem flat_graphFile {trie : String × List (Branch Ctx)} (flat : '/' ∉ trie.1.toList) :
    '/' ∉ (graphFile trie).1.toList ∧ (graphFile trie).1 ∉ ["", ".", ".."] := by
  refine ⟨by simp [graphFile, flat], fun member => ?_⟩
  have size : 4 ≤ (graphFile trie).1.utf8ByteSize := by
    rw [graphFile, String.utf8ByteSize_append]
    exact Nat.le_add_left _ _
  simp only [List.mem_cons, List.not_mem_nil, or_false] at member
  rcases member with same | same | same <;> rw [same] at size <;> exact absurd size (by decide)

theorem writeGraphs_eq (tokenizer : Tokenizer Ctx) :
    tokenizer.writeGraphs =
      match (tokenizer.labelledTries.map graphFile).foldlM
        (fun folder file => Folder.write folder file.1 file.2) [] with
      | .ok folder => .ok folder
      | .error fault => .error (.file fault) := by
  rw [List.foldlM_map]
  rfl

theorem graphFile_name_inj {first second : String × List (Branch Ctx)} :
    (graphFile first).1 = (graphFile second).1 ↔ first.1 = second.1 :=
  String.append_left_inj ".dot"

/-- The graph of the trie without a stage is written last, in place of another of its name. -/
theorem foldl_put_graphFiles (nodup : tokenizer.stages.Nodup) :
    (tokenizer.labelledTries.map graphFile).foldl Folder.put [] =
      tokenizer.keptTries.map graphFile := by
  have names : ((tokenizer.lexicon.forest.tries.map graphFile).map (·.1)).Nodup := by
    have apart := List.pairwise_map.mp nodup
    rw [List.map_map]
    exact List.pairwise_map.mpr (apart.imp fun different same =>
      different (graphFile_name_inj.mp same))
  have kept : (tokenizer.lexicon.forest.tries.map graphFile).filter
      (·.1 ≠ (graphFile ("stageless", tokenizer.lexicon.forest.stageless)).1) =
        (tokenizer.lexicon.forest.tries.filter (·.1 ≠ "stageless")).map graphFile := by
    rw [List.filter_map]
    congr 1
    refine List.filter_congr fun trie _ => ?_
    simp only [Function.comp_apply, ne_eq, graphFile_name_inj]
  rw [labelledTries, List.map_append, List.foldl_append, Folder.foldl_put names (by simp),
    List.nil_append, List.map_singleton, List.foldl_cons, List.foldl_nil, Folder.put, kept,
    keptTries, List.map_append, List.map_singleton]

theorem writeGraphs_spec (nodup : tokenizer.stages.Nodup)
    (flat : ∀ stage ∈ tokenizer.stages, '/' ∉ stage.toList) :
    ((∀ stage ∈ tokenizer.stages, '\x00' ∉ stage.toList ∧ stage.utf8ByteSize ≤ stageLimit) ∧
      tokenizer.writeGraphs = .ok (tokenizer.keptTries.map graphFile)) ∨
    ((∃ stage ∈ tokenizer.stages, ¬('\x00' ∉ stage.toList ∧ stage.utf8ByteSize ≤ stageLimit)) ∧
      ∃ fault, tokenizer.writeGraphs = .error (.file fault)) := by
  have flatFiles : ∀ file ∈ tokenizer.labelledTries.map graphFile,
      '/' ∉ file.1.toList ∧ file.1 ∉ ["", ".", ".."] := by
    intro file member
    obtain ⟨trie, among, rfl⟩ := List.mem_map.mp member
    apply flat_graphFile
    -- The name of the trie without a stage is fixed and fit for a file.
    rcases List.mem_append.mp among with staged | stageless
    · exact flat trie.1 (List.mem_map_of_mem staged)
    · have own : '/' ∉ "stageless".toList := by decide
      rwa [List.mem_singleton.mp stageless]
  rw [writeGraphs_eq]
  rcases Folder.writeAll [] flatFiles with
    ⟨writable, written⟩ | ⟨⟨file, member, refused⟩, fault, failed⟩
  · left
    refine ⟨fun stage known => ?_, by rw [written, foldl_put_graphFiles nodup]⟩
    obtain ⟨trie, among, rfl⟩ := List.mem_map.mp known
    exact (writable_graphFile trie).mp
      (writable _ (List.mem_map_of_mem (List.mem_append_left _ among)))
  · right
    refine ⟨?_, fault, by rw [failed]⟩
    obtain ⟨trie, among, rfl⟩ := List.mem_map.mp member
    rw [writable_graphFile] at refused
    rcases List.mem_append.mp among with staged | stageless
    · exact ⟨trie.1, List.mem_map_of_mem staged, refused⟩
    · have own : '\x00' ∉ "stageless".toList ∧ "stageless".utf8ByteSize ≤ stageLimit := by decide
      rw [List.mem_singleton.mp stageless] at refused
      exact absurd own refused

/-- What the graphs of a tokenizer show. -/
structure GraphsShowTries (tokenizer : Tokenizer Ctx) : Prop where
  /-- The graphs are written if there can be files with the names of the stages. -/
  written : (∃ folder, tokenizer.writeGraphs = .ok folder) ↔
    ∀ stage ∈ tokenizer.stages, '\x00' ∉ stage.toList ∧ stage.utf8ByteSize ≤ stageLimit
  names : ∀ folder, tokenizer.writeGraphs = .ok folder →
    folder.map (·.1) =
      (tokenizer.stages.filter (· ≠ "stageless") ++ ["stageless"]).map (· ++ ".dot")
  staged : ∀ folder, tokenizer.writeGraphs = .ok folder → ∀ stage ∈ tokenizer.stages,
    stage ≠ "stageless" → folder.lookup (stage ++ ".dot") =
      some (Branch.graph stage (tokenizer.lexicon.forest.roots (some stage)))
  stageless : ∀ folder, tokenizer.writeGraphs = .ok folder → folder.lookup "stageless.dot" =
    some (Branch.graph "stageless" (tokenizer.lexicon.forest.roots none))
  /-- Whatever the text, branches are considered in the order in which they are drawn. -/
  order : ∀ trie ∈ tokenizer.labelledTries, ∀ text ctx start pos,
    (Branch.trackAll text ctx start pos trie.2).2 =
        Branch.attemptAll text ctx start pos trie.2 ∧
      (Branch.trackAll text ctx start pos trie.2).1.Sublist (Branch.preorderAll trie.2)
  /-- A graph shows its trie if its title can stand in quotes. -/
  shown : ∀ trie ∈ tokenizer.labelledTries, Dot.quotable trie.1.toList = true →
    ∃ statements, Dot.read? (Branch.graph trie.1 trie.2) = some statements ∧
      Dot.Shows trie.2 statements
  /-- The graphs together show every branch once. -/
  complete : (tokenizer.labelledTries.flatMap fun trie => Branch.preorderAll trie.2).Perm
    tokenizer.lexicon.forest.branches
  numbered : (tokenizer.lexicon.forest.branches.map Branch.id).Nodup

private theorem flatMap_labelledTries :
    (tokenizer.labelledTries.flatMap fun trie => Branch.preorderAll trie.2) =
      Branch.preorderAll tokenizer.lexicon.forest.allRoots := by
  simp [labelledTries, Forest.allRoots, Branch.preorderAll_eq_flatMap, List.flatMap_assoc]

private theorem lookup_graphFile {tries : List (String × List (Branch Ctx))}
    (nodup : (tries.map (·.1)).Nodup) {trie : String × List (Branch Ctx)} (among : trie ∈ tries) :
    (tries.map graphFile).lookup (trie.1 ++ ".dot") = some (Branch.graph trie.1 trie.2) := by
  obtain ⟨before, behind, rfl⟩ := List.append_of_mem among
  rw [List.map_append, List.map_cons, List.nodup_append] at nodup
  refine List.lookup_eq_some_iff.mpr ⟨before.map graphFile, behind.map graphFile, ?_, ?_⟩
  · rw [List.map_append, List.map_cons]
    rfl
  · intro file member
    obtain ⟨other, earlier, rfl⟩ := List.mem_map.mp member
    refine bne_iff_ne.mpr fun same => ?_
    exact nodup.2.2 _ (List.mem_map_of_mem earlier) _ (List.mem_cons_self ..)
      (graphFile_name_inj.mp same.symm)

private theorem map_fst_keptTries :
    tokenizer.keptTries.map (·.1) =
      tokenizer.stages.filter (· ≠ "stageless") ++ ["stageless"] := by
  rw [keptTries, List.map_append, stages, Forest.stages, List.filter_map]
  rfl

private theorem nodup_keptTries (nodup : tokenizer.stages.Nodup) :
    (tokenizer.keptTries.map (·.1)).Nodup := by
  rw [map_fst_keptTries]
  refine List.nodup_append.mpr ⟨nodup.filter _, by simp, fun stage member other own => ?_⟩
  rw [List.mem_singleton.mp own]
  exact of_decide_eq_true (List.mem_filter.mp member).2

private theorem nodup_numbers (nodup : (Branch.numbers tokenizer.lexicon.forest.allRoots).Nodup)
    {trie : String × List (Branch Ctx)} (among : trie ∈ tokenizer.labelledTries) :
    (Branch.numbers trie.2).Nodup := by
  rw [Branch.numbers, ← flatMap_labelledTries, List.map_flatMap] at nodup
  exact (List.nodup_flatMap.mp nodup).1 trie among

/-- The graphs of a tokenizer show its tries. -/
theorem graphs_show_tries {settings : Settings Ctx} {tokenizer : Tokenizer Ctx}
    (built : settings.build = .ok tokenizer)
    (flat : ∀ stage ∈ tokenizer.stages, '/' ∉ stage.toList) : tokenizer.GraphsShowTries := by
  have forest : tokenizer.lexicon.forest = .ofRules settings.rules settings.initialStage :=
    congrArg Lexicon.forest (Settings.of_build built).1
  have nodup : tokenizer.stages.Nodup := by
    rw [stages, forest]
    exact Forest.nodup_stages_ofRules _ _
  have numbers : (Branch.numbers tokenizer.lexicon.forest.allRoots).Perm
      (List.range tokenizer.lexicon.forest.size) := by
    rw [forest]
    exact Forest.counted_ofRules _ _
  have spec := writeGraphs_spec nodup flat
  have kept : ∀ folder, tokenizer.writeGraphs = .ok folder →
      folder = tokenizer.keptTries.map graphFile := by
    intro folder written
    rcases spec with ⟨-, done⟩ | ⟨-, fault, failed⟩
    · rw [done] at written
      exact (Except.ok.inj written).symm
    · rw [failed] at written
      cases written
  refine ⟨?_, ?_, ?_, ?_, fun _ _ _ _ _ _ => Branch.trackAll_spec _, ?_, ?_, ?_⟩
  · constructor
    · rintro ⟨folder, written⟩
      rcases spec with ⟨writable, -⟩ | ⟨-, fault, failed⟩
      · exact writable
      · rw [failed] at written
        cases written
    · intro writable
      rcases spec with ⟨-, done⟩ | ⟨⟨stage, known, refused⟩, -⟩
      · exact ⟨_, done⟩
      · exact absurd (writable stage known) refused
  · intro folder written
    rw [kept folder written, List.map_map, ← map_fst_keptTries, List.map_map]
    rfl
  · intro folder written stage known other
    obtain ⟨trie, among, rfl⟩ := List.mem_map.mp known
    have inKept : trie ∈ tokenizer.keptTries :=
      List.mem_append_left _ (List.mem_filter.mpr ⟨among, decide_eq_true other⟩)
    rw [kept folder written, lookup_graphFile (nodup_keptTries nodup) inKept,
      Forest.roots_of_mem nodup among]
  · intro folder written
    have inKept : ("stageless", tokenizer.lexicon.forest.stageless) ∈ tokenizer.keptTries :=
      List.mem_append_right _ (List.mem_singleton_self _)
    rw [kept folder written]
    exact lookup_graphFile (nodup_keptTries nodup) inKept
  · intro trie among fits
    exact ⟨_, Dot.read?_graph fits _, Dot.shows_calls _
      (nodup_numbers (numbers.nodup_iff.mpr List.nodup_range) among)⟩
  · rw [flatMap_labelledTries]
    exact tokenizer.lexicon.forest.perm_branches.symm
  · rw [Forest.map_id_branches numbers]
    exact List.nodup_range

theorem graphs_show_letRules : ∃ tokenizer : Tokenizer Unit,
    Settings.build { rules := Forest.letRules } = .ok tokenizer ∧
      (∀ stage ∈ tokenizer.stages, '/' ∉ stage.toList) ∧ tokenizer.GraphsShowTries ∧
      tokenizer.labelledTries.map (fun trie => (trie.1, Branch.numbers trie.2)) =
        [("S", [2, 0, 3]), ("stageless", [4, 1, 5])] := by
  have known : Settings.unknownStage? { rules := Forest.letRules } = none := by decide
  obtain ⟨tokenizer, built⟩ := Settings.exists_build_iff.mpr known
  have forest : tokenizer.lexicon.forest = .ofRules Forest.letRules none :=
    congrArg Lexicon.forest (Settings.of_build built).1
  have flat : ∀ stage ∈ tokenizer.stages, '/' ∉ stage.toList := by
    rw [stages, forest]
    decide +kernel
  refine ⟨tokenizer, built, flat, graphs_show_tries built flat, ?_⟩
  rw [labelledTries, forest]
  decide +kernel

/-- One rule, active in the given stage only. -/
def oneStage (stage : String) : Settings Unit :=
  { rules := [{ tokenType := "A", reader := .leaf 0 .atEnd, activity := .inStages [stage] }] }

/-- The quote ends the title, and no semicolon behind it is outside of quotes. -/
private theorem read?_quoted_title :
    Dot.read? (Branch.graph "a\"b" [(.complete 0 [.leaf 0 .atEnd] 0 : Branch Unit)]) = none := by
  have readers : Text.plain (String.intercalate " " ([(.leaf 0 .atEnd : Reader Unit)].map
      Reader.describe)) = "end" := by
    decide +kernel
  have calls : Branch.calls "a\"b" [(.complete 0 [.leaf 0 .atEnd] 0 : Branch Unit)] =
      [.label "a\"b", .leftToRight, .node "root" [.circle, .blue, .penWidth 3, .label ""],
        .node "branch_0" [.circle, .red, .penWidth 3, .label "0\\nrule 0"],
        .edge "root" "branch_0" [.label "end"]] := by
    rw [Branch.calls, Branch.draw_eq, Branch.hangingStack_under]
    simp only [Branch.complete, Branch.hangingAll, Branch.hanging, List.append_nil,
      List.flatMap_singleton, Branch.callsOf, Branch.edgeCall, readers]
    decide +kernel
  rw [Branch.graph, calls]
  decide +kernel

private theorem exists_build_oneStage (stage : String) : ∃ tokenizer,
    (oneStage stage).build = .ok tokenizer ∧ tokenizer.lexicon.forest =
      .ofRules (oneStage stage).rules none := by
  have known : (oneStage stage).unknownStage? = none := rfl
  obtain ⟨tokenizer, built⟩ := Settings.exists_build_iff.mpr known
  exact ⟨tokenizer, built, congrArg Lexicon.forest (Settings.of_build built).1⟩

/-- The graph of a stage with the name of the trie without a stage is replaced by the graph of that,
which has no branches here; and a quote in the name of a stage ends the title of its graph. -/
theorem graph_replaced_or_unreadable : ∃ replaced quoted : Tokenizer Unit,
    (oneStage "stageless").build = .ok replaced ∧ replaced.stages = ["stageless"] ∧
    (∃ folder, replaced.writeGraphs = .ok folder ∧ ∃ content,
      folder.lookup "stageless.dot" = some content ∧
      ∃ statements, Dot.read? content = some statements ∧
        ¬ Dot.Shows (replaced.lexicon.forest.roots (some "stageless")) statements) ∧
    (oneStage "a\"b").build = .ok quoted ∧ quoted.stages = ["a\"b"] ∧
    Dot.read? (Branch.graph "a\"b" (quoted.lexicon.forest.roots (some "a\"b"))) = none := by
  obtain ⟨replaced, built, forest⟩ := exists_build_oneStage "stageless"
  obtain ⟨quoted, builtQuoted, forestQuoted⟩ := exists_build_oneStage "a\"b"
  have stages : replaced.stages = ["stageless"] := by
    rw [Tokenizer.stages, forest]
    decide +kernel
  have kept : replaced.keptTries = [("stageless", [])] := by
    rw [keptTries, forest]
    rfl
  refine ⟨replaced, quoted, built, stages, ?_, builtQuoted, ?_, ?_⟩
  · have nodup : replaced.stages.Nodup := by simp [stages]
    have flat : ∀ stage ∈ replaced.stages, '/' ∉ stage.toList := by
      rw [stages]
      decide
    rcases writeGraphs_spec nodup flat with ⟨-, written⟩ | ⟨⟨stage, known, refused⟩, -⟩
    · rw [kept] at written
      refine ⟨_, written, Branch.graph "stageless" ([] : List (Branch Unit)),
        by simp [graphFile], _, Dot.read?_graph (by decide) _, fun shows => ?_⟩
      have nodes := shows.nodes
      rw [forest] at nodes
      revert nodes
      decide +kernel
    · rw [stages, List.mem_singleton] at known
      exact absurd (by rw [known]; decide) refused
  · rw [Tokenizer.stages, forestQuoted]
    decide +kernel
  · rw [forestQuoted]
    exact read?_quoted_title

end Tokenizer

end StagedLexer
