import Mathlib.Data.List.Forall2
import Mathlib.Data.List.Perm.Basic
import StagedLexer.Json.Snapshot
import StagedLexer.Proofs.JsonText

/-! Snapshots of spans, events and stream states. What is read from the text of a value is the
value, also if the fields of objects come in another order and unknown fields are added. -/
namespace StagedLexer

namespace Json

mutual
/-- The same value with the fields of objects in another order and with unknown fields added, also
inside of the values of fields. -/
inductive Rearranged : Json → Json → Prop
  | same (json : Json) : Rearranged json json
  | object {fields kept unknown all : List (Option String × Json)}
      (inside : RearrangedFields fields kept)
      (apart : ∀ field ∈ unknown, ∃ name, field.1 = some name ∧ field.1 ∉ fields.map (·.1))
      (order : all.Perm (kept ++ unknown)) : Rearranged (.object fields) (.object all)
inductive RearrangedFields : List (Option String × Json) → List (Option String × Json) → Prop
  | nil : RearrangedFields [] []
  | cons {value other : Json} {fields kept : List (Option String × Json)} (name : Option String)
      (first : Rearranged value other) (rest : RearrangedFields fields kept) :
      RearrangedFields ((name, value) :: fields) ((name, other) :: kept)
end

/-- The same value with what is inside of its fields rearranged. -/
def RearrangedInside (json other : Json) : Prop :=
  ∃ fields kept, json = .object fields ∧ other = .object kept ∧ RearrangedFields fields kept

def named (fields : List (String × Json)) : List (Option String × Json) :=
  fields.map fun field => (some field.1, field.2)

theorem exists_named {fields : List (Option String × Json)}
    (each : ∀ field ∈ fields, ∃ name, field.1 = some name) : ∃ plain, fields = named plain := by
  induction fields with
  | nil => exact ⟨[], rfl⟩
  | cons field rest ih =>
    obtain ⟨⟨name, first⟩, others⟩ := List.forall_mem_cons.mp each
    obtain ⟨plain, rfl⟩ := ih others
    exact ⟨(name, field.2) :: plain, by rw [named, named, List.map_cons, ← first]⟩

theorem mapM_eq_some_map {α β : Type} {f : α → Option β} {g : α → β} {items : List α}
    (each : ∀ item ∈ items, f item = some (g item)) : items.mapM f = some (items.map g) := by
  induction items with
  | nil => rfl
  | cons item rest ih =>
    obtain ⟨first, others⟩ := List.forall_mem_cons.mp each
    rw [List.mapM_cons, first, ih others]
    rfl

theorem mapM_map_of_inverse {α β : Type} {f : β → Option α} {g : α → β}
    (inverse : ∀ item, f (g item) = some item) (items : List α) :
    (items.map g).mapM f = some items := by
  have each := @mapM_eq_some_map _ _ (f ∘ g) _ items fun item _ => inverse item
  rwa [List.map_id', ← List.mapM_map] at each

theorem perm_of_named {fields others : List (String × Json)}
    (order : (named fields).Perm (named others)) : fields.Perm others := by
  have injective : Function.Injective fun field : String × Json => (some field.1, field.2) := by
    rintro ⟨name, value⟩ ⟨other, more⟩ same
    cases same
    rfl
  exact (List.map_perm_map_iff injective).mp order

private theorem filter_unknown {fields : List (String × Json)} {name : String}
    (absent : name ∉ fields.map (·.1)) : fields.filter (·.1 == name) = [] :=
  List.filter_eq_nil_iff.mpr fun _ among same =>
    absent (beq_iff_eq.mp same ▸ List.mem_map_of_mem among)

private theorem filter_known {known : List (String × Json)} (nodup : (known.map (·.1)).Nodup)
    {field : String × Json} (member : field ∈ known) :
    known.filter (·.1 == field.1) = [field] := by
  obtain ⟨before, behind, rfl⟩ := List.append_of_mem member
  rw [List.map_append, List.map_cons, List.nodup_append, List.nodup_cons] at nodup
  obtain ⟨-, ⟨absent, -⟩, apart⟩ := nodup
  have first : field.1 ∉ before.map (·.1) := fun old => apart _ old _ (List.mem_cons_self ..) rfl
  rw [List.filter_append, List.filter_cons, if_pos (beq_self_eq_true _), filter_unknown first,
    filter_unknown absent]
  rfl

/-- Known fields are found in any order and between unknown ones. -/
theorem fields?_named {known others fields : List (String × Json)}
    (nodup : (known.map (·.1)).Nodup) (apart : ∀ field ∈ known, field.1 ∉ others.map (·.1))
    (order : fields.Perm (known ++ others)) :
    fields? (known.map (·.1)) (.object (named fields)) = some (known.map (some ·.2)) := by
  have found : ∀ field ∈ known, fields.filter (·.1 == field.1) = [field] := by
    intro field member
    have kept := order.filter (·.1 == field.1)
    rw [List.filter_append, filter_known nodup member, filter_unknown (apart field member),
      List.append_nil] at kept
    exact List.perm_singleton.mp kept
  have names : (named fields).mapM (fun field => field.1.map (·, field.2)) = some fields :=
    mapM_map_of_inverse (g := fun field => (some field.1, field.2)) (fun _ => rfl) fields
  rw [fields?, names, Option.bind_eq_bind, Option.bind_some, List.mapM_map]
  refine mapM_eq_some_map fun field member => ?_
  rw [Function.comp_apply, found field member, single?]

theorem fields?_of_perm {known : List (String × Json)} (nodup : (known.map (·.1)).Nodup)
    {unknown all : List (Option String × Json)}
    (apart : ∀ field ∈ unknown, ∃ name, field.1 = some name ∧ name ∉ known.map (·.1))
    (order : all.Perm (named known ++ unknown)) :
    fields? (known.map (·.1)) (.object all) = some (known.map (some ·.2)) := by
  obtain ⟨others, rfl⟩ := exists_named fun field member =>
    (apart field member).imp fun name both => both.1
  have whole : named known ++ named others = named (known ++ others) := by
    rw [named, named, named, List.map_append]
  rw [whole] at order
  obtain ⟨fields, rfl⟩ : ∃ fields, all = named fields := by
    refine exists_named fun field member => ?_
    obtain ⟨source, -, rfl⟩ := List.mem_map.mp (order.mem_iff.mp member)
    exact ⟨source.1, rfl⟩
  refine fields?_named nodup (fun field member old => ?_) (perm_of_named order)
  obtain ⟨other, among, same⟩ := List.mem_map.mp old
  obtain ⟨name, equal, new⟩ := apart _ (List.mem_map_of_mem among)
  cases equal
  exact new (same ▸ List.mem_map_of_mem member)

theorem RearrangedFields.refl (fields : List (Option String × Json)) :
    RearrangedFields fields fields := by
  induction fields with
  | nil => exact .nil
  | cons field rest ih => exact .cons field.1 (.same field.2) ih

/-- The field has the name of the other and its value rearranged. -/
def RearrangedField (field other : String × Json) : Prop :=
  field.1 = other.1 ∧ Rearranged field.2 other.2

theorem RearrangedFields.exists_named {known : List (String × Json)}
    {kept : List (Option String × Json)} (inside : RearrangedFields (named known) kept) :
    ∃ plain, kept = named plain ∧ List.Forall₂ RearrangedField known plain := by
  induction known generalizing kept with
  | nil =>
    cases inside
    exact ⟨[], rfl, .nil⟩
  | cons field rest ih =>
    cases inside with
    | @cons value other _ _ name first others =>
      obtain ⟨plain, rfl, each⟩ := ih others
      exact ⟨(field.1, other) :: plain, rfl, .cons ⟨rfl, first⟩ each⟩

private theorem map_fst_of_forall₂ {known plain : List (String × Json)}
    (each : List.Forall₂ RearrangedField known plain) :
    known.map (·.1) = plain.map (·.1) := by
  induction each with
  | nil => rfl
  | cons first _ ih => rw [List.map_cons, List.map_cons, ih, first.1]

/-- The fields of a rearranged object are found, rearranged inside. -/
theorem Rearranged.exists_fields (known : List (String × Json)) {json : Json}
    (nodup : (known.map (·.1)).Nodup) (rearranged : Rearranged (ofFields known) json) :
    ∃ kept : List (String × Json), fields? (known.map (·.1)) json = some (kept.map (some ·.2)) ∧
      List.Forall₂ RearrangedField known kept := by
  have shape : ∃ inside unknown all, json = .object all ∧
      RearrangedFields (named known) inside ∧
      (∀ field ∈ unknown, ∃ name, field.1 = some name ∧ field.1 ∉ (named known).map (·.1)) ∧
      all.Perm (inside ++ unknown) := by
    -- As it was written, the object has no unknown fields.
    cases rearranged with
    | same => exact ⟨_, [], _, rfl, .refl _, by simp, by simp [named]⟩
    | object inside apart order => exact ⟨_, _, _, rfl, inside, apart, order⟩
  obtain ⟨inside, unknown, all, rfl, below, apart, order⟩ := shape
  obtain ⟨kept, rfl, each⟩ := below.exists_named
  refine ⟨kept, ?_, each⟩
  have names := map_fst_of_forall₂ each
  rw [names] at nodup ⊢
  refine fields?_of_perm nodup (fun field member => ?_) order
  obtain ⟨name, equal, new⟩ := apart field member
  refine ⟨name, equal, fun old => new ?_⟩
  obtain ⟨other, among, rfl⟩ := List.mem_map.mp (names ▸ old)
  exact List.mem_map.mpr ⟨_, List.mem_map_of_mem among, equal.symm⟩

theorem toPosition?_ofNat {n : Nat} (small : n < positionBound) :
    (ofNat n).toPosition? = some n := by
  simp [ofNat, toPosition?, small]

theorem toCode?_integer {code : Int} (small : -codeBound ≤ code ∧ code < codeBound) :
    (integer code).toCode? = some code := by
  simp [toCode?, small]

theorem toUnits?_array (units : Bytes) :
    (array (units.toList.map fun b => ofNat b.toNat)).toUnits? = some units := by
  have unit (b : UInt8) : toUnit? (ofNat b.toNat) = some b := by
    have small : (b.toNat : Int) < 256 := Int.ofNat_lt.mpr b.toNat_lt
    simp [ofNat, toUnit?, small]
  rw [toUnits?, mapM_map_of_inverse unit]
  rfl

theorem Rearranged.eq_of_leaf {json other : Json} (rearranged : Rearranged json other)
    (leaf : ∀ fields, json ≠ .object fields) : other = json := by
  cases rearranged with
  | same => rfl
  | object => exact absurd rfl (leaf _)

theorem RearrangedInside.exists_field {name : String} {inner json : Json}
    (rearranged : RearrangedInside (ofFields [(name, inner)]) json) :
    ∃ other, json = .object [(some name, other)] ∧ Rearranged inner other := by
  obtain ⟨fields, kept, whole, rfl, inside⟩ := rearranged
  cases whole
  cases inside with
  | @cons value other _ _ name first others =>
    cases others
    exact ⟨other, rfl, first⟩

end Json

open Json

theorem Span.ofJson?_of_fields {json start stop : Json} {span : Span}
    (found : json.fields? ["start", "end"] = some [some start, some stop])
    (startValue : start.toPosition? = some span.start)
    (stopValue : stop.toPosition? = some span.stop) : Span.ofJson? json = some span := by
  simp [ofJson?, found, startValue, stopValue]

theorem Span.ofJson?_of_rearranged {span : Span}
    (small : span.start < positionBound ∧ span.stop < positionBound) {json : Json}
    (rearranged : Rearranged span.toJson json) : Span.ofJson? json = some span := by
  have names : ["start", "end"].Nodup := by decide
  obtain ⟨kept, found, each⟩ := Rearranged.exists_fields
    [("start", .ofNat span.start), ("end", .ofNat span.stop)] names rearranged
  rcases each with _ | ⟨⟨-, start⟩, _ | ⟨⟨-, stop⟩, ⟨⟩⟩⟩
  refine Span.ofJson?_of_fields found ?_ ?_
  · rw [start.eq_of_leaf nofun, toPosition?_ofNat small.1]
  · rw [stop.eq_of_leaf nofun, toPosition?_ofNat small.2]

theorem StreamState.ofJson?_of_fields {json stage chunk offset chunkOffset : Json}
    {state : StreamState}
    (found : json.fields? ["stage", "chunk", "offset", "chunkOffset"] =
      some [some stage, some chunk, some offset, some chunkOffset])
    (stageValue : stage.toOptionalText? = some state.stage)
    (chunkValue : chunk.toUnits? = some state.chunk)
    (offsetValue : offset.toPosition? = some state.offset)
    (chunkOffsetValue : chunkOffset.toPosition? = some state.chunkOffset) :
    StreamState.ofJson? json = some state := by
  simp [ofJson?, found, stageValue, chunkValue, offsetValue, chunkOffsetValue]

theorem StreamState.ofJson?_of_rearranged {state : StreamState}
    (small : state.offset < positionBound ∧ state.chunkOffset < positionBound) {json : Json}
    (rearranged : Rearranged state.toJson json) : StreamState.ofJson? json = some state := by
  obtain ⟨stage, chunk, offset, chunkOffset⟩ := state
  have names : ["stage", "chunk", "offset", "chunkOffset"].Nodup := by decide
  obtain ⟨kept, found, each⟩ := Rearranged.exists_fields
    [("stage", _), ("chunk", _), ("offset", _), ("chunkOffset", _)] names rearranged
  rcases each with _ | ⟨⟨-, first⟩, _ | ⟨⟨-, second⟩, _ | ⟨⟨-, third⟩, _ | ⟨⟨-, fourth⟩, ⟨⟩⟩⟩⟩⟩
  refine StreamState.ofJson?_of_fields found ?_ ?_ ?_ ?_
  · cases stage with
    | none => rw [first.eq_of_leaf nofun, toOptionalText?]
    | some stage => rw [first.eq_of_leaf nofun, toOptionalText?]
  · rw [second.eq_of_leaf nofun, toUnits?_array]
  · rw [third.eq_of_leaf nofun, toPosition?_ofNat small.1]
  · rw [fourth.eq_of_leaf nofun, toPosition?_ofNat small.2]

/-- The positions and the code of an event have their ranges. -/
def Event.Small : Event → Prop
  | token _ span => span.start < positionBound ∧ span.stop < positionBound
  | error _ offset code => offset < positionBound ∧ -codeBound ≤ code ∧ code < codeBound
  | unrecognized offset => offset < positionBound

theorem Event.ofJson?_token {json tokenType span : Json} {name : String} {place : Span}
    (found : json.fields? ["token_type", "span"] = some [some tokenType, some span])
    (typeValue : tokenType.toText? = some name) (spanValue : Span.ofJson? span = some place) :
    Event.ofJson? (.object [(some "Token", json)]) = some (.token name place) := by
  simp [ofJson?, found, typeValue, spanValue]

theorem Event.ofJson?_error {json tokenType offset code : Json} {name : String} {place : Nat}
    {value : Int} (found : json.fields? ["token_type", "offset", "code"] =
      some [some tokenType, some offset, some code])
    (typeValue : tokenType.toText? = some name) (offsetValue : offset.toPosition? = some place)
    (codeValue : code.toCode? = some value) :
    Event.ofJson? (.object [(some "Error", json)]) = some (.error name place value) := by
  simp [ofJson?, found, typeValue, offsetValue, codeValue]

theorem Event.ofJson?_unrecognized {json offset : Json} {place : Nat}
    (found : json.fields? ["offset"] = some [some offset])
    (offsetValue : offset.toPosition? = some place) :
    Event.ofJson? (.object [(some "Unrecognized", json)]) = some (.unrecognized place) := by
  simp [ofJson?, found, offsetValue]

theorem Event.ofJson?_of_rearranged {event : Event} (small : event.Small) {json : Json}
    (rearranged : RearrangedInside event.toJson json) : Event.ofJson? json = some event := by
  cases event with
  | token tokenType span =>
    have names : ["token_type", "span"].Nodup := by decide
    obtain ⟨inner, rfl, inside⟩ := rearranged.exists_field
    obtain ⟨kept, found, each⟩ := Rearranged.exists_fields
      [("token_type", _), ("span", _)] names inside
    rcases each with _ | ⟨⟨-, first⟩, _ | ⟨⟨-, second⟩, ⟨⟩⟩⟩
    refine Event.ofJson?_token found ?_ (Span.ofJson?_of_rearranged small second)
    rw [first.eq_of_leaf nofun, toText?]
  | error tokenType offset code =>
    have names : ["token_type", "offset", "code"].Nodup := by decide
    obtain ⟨inner, rfl, inside⟩ := rearranged.exists_field
    obtain ⟨kept, found, each⟩ := Rearranged.exists_fields
      [("token_type", _), ("offset", _), ("code", _)] names inside
    rcases each with _ | ⟨⟨-, first⟩, _ | ⟨⟨-, second⟩, _ | ⟨⟨-, third⟩, ⟨⟩⟩⟩⟩
    refine Event.ofJson?_error found ?_ ?_ ?_
    · rw [first.eq_of_leaf nofun, toText?]
    · rw [second.eq_of_leaf nofun, toPosition?_ofNat small.1]
    · rw [third.eq_of_leaf nofun, toCode?_integer small.2]
  | unrecognized offset =>
    have names : ["offset"].Nodup := by decide
    obtain ⟨inner, rfl, inside⟩ := rearranged.exists_field
    obtain ⟨kept, found, each⟩ := Rearranged.exists_fields [("offset", _)] names inside
    rcases each with _ | ⟨⟨-, first⟩, ⟨⟩⟩
    refine Event.ofJson?_unrecognized found ?_
    rw [first.eq_of_leaf nofun, toPosition?_ofNat small]

namespace Json

/-- What a value is read back from: the text that it is written as, every text of a variant of its
JSON, and so, if the numbers in the variant are numbers, the text of the variant without blanks. -/
structure ReadBack {α : Type} (toJson : α → Json) (ofJson? : Json → Option α)
    (variant : Json → Json → Prop) (value : α) : Prop where
  own : (parse? (toJson value).render).bind ofJson? = some value
  variants : ∀ json, variant (toJson value) json → ∀ text, parse? text = some json →
    (parse? text).bind ofJson? = some value
  rendered : ∀ json, variant (toJson value) json → json.Proper →
    (parse? json.render).bind ofJson? = some value

variable {α : Type} {toJson : α → Json} {ofJson? : Json → Option α} {variant : Json → Json → Prop}

theorem ReadBack.of_variants {value : α} (proper : (toJson value).Proper)
    (own : variant (toJson value) (toJson value))
    (read : ∀ json, variant (toJson value) json → ofJson? json = some value) :
    ReadBack toJson ofJson? variant value := by
  have rendered : ∀ json, variant (toJson value) json → json.Proper →
      (parse? json.render).bind ofJson? = some value := by
    intro json related proper
    rw [parse?_render proper, Option.bind_some, read json related]
  refine ⟨rendered _ own proper, fun json related text written => ?_, rendered⟩
  rw [written, Option.bind_some, read json related]

theorem properAll_ofNat (values : List Nat) : ProperAll (values.map ofNat) := by
  induction values with
  | nil => trivial
  | cons value rest ih => exact ⟨trivial, ih⟩

end Json

/-- Stream states, spans and events are read back from their snapshots. The fields of objects may
come in any order, with unknown fields between them; only the object around an event has no other
field than the one that names its kind. -/
theorem snapshots_round_trip :
    (∀ state : StreamState, state.offset < positionBound → state.chunkOffset < positionBound →
      ReadBack StreamState.toJson StreamState.ofJson? Rearranged state) ∧
    (∀ span : Span, span.start < positionBound → span.stop < positionBound →
      ReadBack Span.toJson Span.ofJson? Rearranged span) ∧
    (∀ event : Event, event.Small →
      ReadBack Event.toJson Event.ofJson? RearrangedInside event) := by
  refine ⟨fun state offset chunkOffset => ?_, fun span start stop => ?_, fun event small => ?_⟩
  · refine .of_variants ?_ (.same _) fun json related => ?_
    · have chunk := properAll_ofNat (state.chunk.toList.map UInt8.toNat)
      rw [List.map_map] at chunk
      rw [StreamState.toJson]
      cases state.stage <;> exact ⟨trivial, chunk, trivial, trivial, trivial⟩
    · exact StreamState.ofJson?_of_rearranged ⟨offset, chunkOffset⟩ related
  · refine .of_variants ?_ (.same _) fun json related => ?_
    · simp [Span.toJson, ofFields, Proper, ProperFields, ofNat]
    · exact Span.ofJson?_of_rearranged ⟨start, stop⟩ related
  · refine .of_variants ?_ ?_ fun json related => Event.ofJson?_of_rearranged small related
    · cases event <;> simp [Event.toJson, Span.toJson, ofFields, Proper, ProperFields, ofNat]
    · cases event <;> exact ⟨_, _, rfl, rfl, .refl _⟩

/-- The end stands in front of the start, and a field `x` between them. -/
private theorem rearranged_span (span : Span) (unknown : Json) : Rearranged span.toJson (.object
    [(some "end", .ofNat span.stop), (some "x", unknown), (some "start", .ofNat span.start)]) := by
  refine .object (.refl _) (?_ : ∀ field ∈ [(some "x", unknown)], _) ?_
  · intro field member
    rw [List.mem_singleton.mp member]
    refine ⟨"x", rfl, ?_⟩
    change some "x" ∉ [some "start", some "end"]
    decide
  · exact .trans (.cons _ (.swap ..)) (.swap ..)

theorem snapshots_round_trip_reordered :
    (parse? (StreamState.toJson ⟨some "\"\\\n\x1f🦀", #[0, 255], 0xffffffffffffffff, 0⟩).render).bind
        StreamState.ofJson? = some ⟨some "\"\\\n\x1f🦀", #[0, 255], 0xffffffffffffffff, 0⟩ ∧
      (parse? "\x7b\"end\":7,\"x\":\x7b\"start\":1.5\x7d,\"start\":3\x7d").bind Span.ofJson? =
        some ⟨3, 7⟩ ∧
      (parse? ("\x7b\"Token\":\x7b\"token_type\":\"A\"," ++
          "\"span\":\x7b\"end\":7,\"x\":[null],\"start\":3\x7d\x7d\x7d")).bind Event.ofJson? =
        some (.token "A" ⟨3, 7⟩) := by
  refine ⟨(snapshots_round_trip.1 _ (by decide) (by decide)).own, ?_, ?_⟩
  · have text : render (.object [(some "end", .integer 7),
        (some "x", .object [(some "start", .real "1.5")]), (some "start", .integer 3)]) =
          "\x7b\"end\":7,\"x\":\x7b\"start\":1.5\x7d,\"start\":3\x7d" := by
      decide +kernel
    rw [← text]
    exact (snapshots_round_trip.2.1 ⟨3, 7⟩ (by decide) (by decide)).rendered _
      (rearranged_span ⟨3, 7⟩ _) ⟨trivial, ⟨rfl, trivial⟩, trivial, trivial⟩
  · have text : render (.object [(some "Token", .object [(some "token_type", .string "A"),
        (some "span", .object [(some "end", .integer 7), (some "x", .array [.null]),
          (some "start", .integer 3)])])]) =
          "\x7b\"Token\":\x7b\"token_type\":\"A\"," ++
            "\"span\":\x7b\"end\":7,\"x\":[null],\"start\":3\x7d\x7d\x7d" := by
      decide +kernel
    have small : (Event.token "A" ⟨3, 7⟩).Small := by
      change 3 < positionBound ∧ 7 < positionBound
      decide
    have inside := Rearranged.object (.cons (some "token_type") (.same (.string "A"))
      (.cons (some "span") (rearranged_span ⟨3, 7⟩ (.array [.null])) .nil))
      (fun _ member => absurd member List.not_mem_nil) (.refl _)
    rw [← text]
    exact (snapshots_round_trip.2.2 _ small).rendered _ ⟨_, _, rfl, rfl, .cons _ inside .nil⟩
      ⟨⟨trivial, ⟨trivial, ⟨trivial, trivial⟩, trivial, trivial⟩, trivial⟩, trivial⟩

/-- Beside the field that names the kind of an event, there is no place for another one. -/
theorem unknown_field_beside_kind : ∃ json,
    Rearranged (Event.unrecognized 3).toJson json ∧
      json.render = "\x7b\"Unrecognized\":\x7b\"offset\":3\x7d,\"x\":0\x7d" ∧
      (parse? json.render).bind Event.ofJson? = none := by
  refine ⟨.object [(some "Unrecognized", .object [(some "offset", .integer 3)]),
    (some "x", .integer 0)], ?_, ?_, ?_⟩
  · refine .object (.refl _) (?_ : ∀ field ∈ [(some "x", Json.integer 0)], _) (.refl _)
    intro field member
    rw [List.mem_singleton.mp member]
    refine ⟨"x", rfl, ?_⟩
    change some "x" ∉ [some "Unrecognized"]
    decide
  · decide +kernel
  · rw [parse?_render (by simp [Proper, ProperFields])]
    rfl

end StagedLexer
