/-
# Values survive the wire

What is written is read as it was.  This is the least of it: a codec writes one spelling of a value
and reads all of them as this value (`Codec.Reads`), so a client may order the fields of an object
as it likes, may add fields of its own, and may send arrays instead of objects, at any depth.

Each codec is taken along its own fields.  A record is read from the slots of its fields, and those
are the same for all of its spellings; the records of two fields that have to be there are one
argument (`reads_pair`).
-/
import UsageReport.Proofs.Wire.Spelling

namespace UsageReport
namespace Wire

/-! ## 1. Writing one spelling and reading all -/

/-- The codec writes a value in one of its spellings and reads every one as the value. -/
structure Codec.Reads {α : Type} (c : Codec α) (spelling : α → Json → Prop) : Prop where
  encode : ∀ a, spelling a (c.encode a)
  decode : ∀ a value, spelling a value → c.decode? value = some a

section

variable {α : Type} {c : Codec α} {spelling : α → Json → Prop} {a : α} {slot : Option Json}

theorem Codec.Reads.required (h : c.Reads spelling) (hslot : ∃ x, slot = some x ∧ spelling a x) :
    c.required slot = some a := by
  obtain ⟨x, rfl, hx⟩ := hslot
  exact h.decode a x hx

theorem Codec.Reads.withDefault (h : c.Reads spelling) {default : α}
    (hslot : ∃ x, slot = some x ∧ spelling a x) : c.withDefault default slot = some a := by
  obtain ⟨x, rfl, hx⟩ := hslot
  exact h.decode a x hx

end

/-! ## 2. Plain values and records of two fields -/

theorem reads_word : Codec.word.Reads Spelling.word where
  encode _ := rfl
  decode n _ h := h ▸ Codec.decode?_word n

theorem reads_bool : Codec.bool.Reads Spelling.bool where
  encode _ := rfl
  decode _ _ h := Codec.decode?_bool_eq_some_iff.mpr h

theorem reads_string : Codec.string.Reads Spelling.string where
  encode _ := rfl
  decode _ _ h := Codec.decode?_string_eq_some_iff.mpr h

theorem reads_fileId : fileId.Reads Spelling.fileId where
  encode _ := rfl
  decode id value h := by
    have hword : Codec.word.decode? value = some id.index := reads_word.decode _ _ h
    simp only [fileId, hword, Option.map_some]

/-- **A record of two fields that have to be there** is written and read as its fields are. -/
theorem reads_pair {α β γ : Type} {c : Codec α} {cb : Codec β} {cc : Codec γ}
    {sb : β → Json → Prop} {sc : γ → Json → Prop} {first second : String} {left : α → β}
    {right : α → γ} {make : β → γ → α} (distinct : first ≠ second) (hb : cb.Reads sb)
    (hc : cc.Reads sc)
    (encoded : ∀ a, c.encode a =
      .object [(first, cb.encode (left a)), (second, cc.encode (right a))])
    (decoded : ∀ value, c.decode? value = do
      let r ← value.record? 2
      let x ← cb.required (r.slot? 0 first)
      let y ← cc.required (r.slot? 1 second)
      return make x y)
    (made : ∀ a, make (left a) (right a) = a) :
    c.Reads fun a =>
      Spelling.Record [first, second] [(first, sb (left a)), (second, sc (right a))] where
  encode a := by
    rw [encoded]
    exact .of_fields (.cons ⟨rfl, hb.encode _⟩ (.cons ⟨rfl, hc.encode _⟩ .nil))
  decode a value h := by
    obtain ⟨r, hr, hslot, -⟩ := h.slots (by simp [distinct]) List.prefix_rfl
    have hr : value.record? 2 = some r := hr
    have hleft : cb.required (r.slot? 0 first) = some (left a) := hb.required (hslot 0 _ rfl)
    have hright : cc.required (r.slot? 1 second) = some (right a) := hc.required (hslot 1 _ rfl)
    simp [decoded, hr, hleft, hright, made]

theorem reads_askedPosition : askedPosition.Reads Spelling.askedPosition :=
  reads_pair (by decide) reads_word reads_word (fun _ => rfl) (fun _ => rfl) fun _ => rfl

theorem reads_position : position.Reads Spelling.position :=
  reads_pair (by decide) reads_word reads_word (fun _ => rfl) (fun _ => rfl) fun _ => rfl

theorem reads_span : span.Reads Spelling.span :=
  reads_pair (by decide) reads_position reads_position (fun _ => rfl) (fun _ => rfl) fun _ => rfl

theorem reads_documentPosition : documentPosition.Reads Spelling.documentPosition :=
  reads_pair (by decide) reads_fileId reads_askedPosition (fun _ => rfl) (fun _ => rfl) fun _ => rfl

theorem reads_referenceRequest : referenceRequest.Reads Spelling.referenceRequest :=
  reads_pair (by decide) reads_documentPosition reads_bool (fun _ => rfl) (fun _ => rfl) fun _ => rfl

/-! ## 3. The other records -/

theorem reads_clientCapabilities : clientCapabilities.Reads Spelling.clientCapabilities where
  encode _ := .of_fields (.cons ⟨rfl, rfl⟩ .nil)
  decode c value h := by
    obtain ⟨r, hr, hslot, -⟩ := h.slots (by decide) List.prefix_rfl
    have hr : value.record? 1 = some r := hr
    have hrich := reads_bool.required (hslot 0 _ rfl)
    simp [clientCapabilities, hr, hrich]

theorem reads_locationText : Codec.string.nullable.Reads Spelling.locationText where
  encode text := by cases text <;> rfl
  decode text value h := by
    cases text <;> rw [h] <;> rfl

theorem reads_clientLocation : clientLocation.Reads Spelling.clientLocation where
  encode l := by
    obtain ⟨uri, range, text⟩ := l
    cases text with
    | some text =>
      exact .inl (.of_fields (.cons ⟨rfl, rfl⟩ (.cons ⟨rfl, reads_span.encode _⟩
        (.cons ⟨rfl, rfl⟩ .nil))))
    | none =>
      exact .inr ⟨rfl, .of_fields (.cons ⟨rfl, rfl⟩ (.cons ⟨rfl, reads_span.encode _⟩ .nil))⟩
  decode l value h := by
    have hslots : ∃ r, value.record? 3 = some r ∧
        Codec.string.required (r.slot? 0 "uri") = some l.uri ∧
        span.required (r.slot? 1 "range") = some l.range ∧
        Codec.string.nullable.withDefault none (r.slot? 2 "text") = some l.text := by
      rcases h with h | ⟨hnone, h⟩
      · obtain ⟨r, hr, hslot, -⟩ := h.slots (by decide) List.prefix_rfl
        exact ⟨r, hr, reads_string.required (hslot 0 _ rfl), reads_span.required (hslot 1 _ rfl),
          reads_locationText.withDefault (hslot 2 _ rfl)⟩
      · obtain ⟨r, hr, hslot, hempty⟩ := h.slots (by decide) ⟨["text"], rfl⟩
        have htext : r.slot? 2 "text" = none := hempty 2 "text" rfl (Nat.le_refl 2)
        refine ⟨r, hr, reads_string.required (hslot 0 _ rfl), reads_span.required (hslot 1 _ rfl),
          ?_⟩
        rw [htext, hnone]
        rfl
    obtain ⟨r, hr, huri, hrange, htext⟩ := hslots
    simp [clientLocation, hr, huri, hrange, htext]

theorem reads_searchOptions : searchOptions.Reads Spelling.searchOptions where
  encode _ := .of_fields (.cons ⟨rfl, rfl⟩ (.cons ⟨rfl, rfl⟩ (.cons ⟨rfl, rfl⟩
    (.cons ⟨rfl, rfl⟩ (.cons ⟨rfl, rfl⟩ .nil)))))
  decode o value h := by
    obtain ⟨r, hr, hslot, -⟩ := h.slots (by decide) List.prefix_rfl
    have hr : value.record? 5 = some r := hr
    have hread (i : Nat) (b d : Bool) (name : String)
        (hfield : ∃ x, r.slot? i name = some x ∧ Spelling.bool b x) :
        Codec.bool.withDefault d (r.slot? i name) = some b := reads_bool.withDefault hfield
    simp [searchOptions, hr, hread 0 _ _ _ (hslot 0 _ rfl), hread 1 _ _ _ (hslot 1 _ rfl),
      hread 2 _ _ _ (hslot 2 _ rfl), hread 3 _ _ _ (hslot 3 _ rfl), hread 4 _ _ _ (hslot 4 _ rfl)]

theorem reads_usageOptions : usageOptions.Reads Spelling.usageOptions where
  encode o := .of_fields (.cons ⟨rfl, rfl⟩ (.cons ⟨rfl, reads_searchOptions.encode _⟩ .nil))
  decode o value h := by
    obtain ⟨r, hr, hslot, -⟩ := h.slots (by decide) List.prefix_rfl
    have hr : value.record? 2 = some r := hr
    have hhidden : Codec.bool.withDefault false (r.slot? 0 "includeHiddenLocations") =
        some o.includeHidden := reads_bool.withDefault (hslot 0 _ rfl)
    have hsearch : searchOptions.withDefault {} (r.slot? 1 "search") = some o.search :=
      reads_searchOptions.withDefault (hslot 1 _ rfl)
    simp [usageOptions, hr, hhidden, hsearch]

/-! ## 4. The way there and back -/

/-- A text that is not there and a text that is `null` are read alike. -/
theorem decode?_clientLocation_null_text {before after : List (String × Json)}
    (only : "text" ∉ (before ++ after).map Prod.fst) :
    clientLocation.decode? (.object (before ++ ("text", .null) :: after)) =
      clientLocation.decode? (.object (before ++ after)) := by
  have hother {name : String} (h : name ≠ "text") :
      (before ++ ("text", .null) :: after).lookup name = (before ++ after).lookup name :=
    lookup_insert_of_ne h
  have hnone : (before ++ after).lookup "text" = none := lookup_eq_none_iff_not_mem.mpr only
  have hnull : (before ++ ("text", .null) :: after).lookup "text" = some .null :=
    lookup_insert_self only
  have htext : Codec.string.nullable.withDefault none (some .null) =
    Codec.string.nullable.withDefault none none := rfl
  simp only [clientLocation, Json.record?, Option.bind_eq_bind, Option.bind_some, Record.slot?,
    hother (show "uri" ≠ "text" by decide), hother (show "range" ≠ "text" by decide), hnone, hnull,
    htext]

/-- Values survive being written and read, and reading, writing and reading comes to the same as
reading. -/
structure Codec.RoundTrips {α : Type} (c : Codec α) (spelling : α → Json → Prop) : Prop
    extends Codec.Reads c spelling where
  back : ∀ a, c.decode? (c.encode a) = some a
  again : ∀ value a, c.decode? value = some a → c.decode? (c.encode a) = c.decode? value

theorem Codec.Reads.roundTrips {α : Type} {c : Codec α} {spelling : α → Json → Prop}
    (h : c.Reads spelling) : c.RoundTrips spelling where
  toReads := h
  back a := h.decode a _ (h.encode a)
  again _ a hread := (h.decode a _ (h.encode a)).trans hread.symm

/-- **Every type of the protocol survives the wire**, in any of its spellings.  A location does not
tell a text that is `null` from one that is left out. -/
theorem values_round_trip :
    fileId.RoundTrips Spelling.fileId ∧
    askedPosition.RoundTrips Spelling.askedPosition ∧
    position.RoundTrips Spelling.position ∧
    span.RoundTrips Spelling.span ∧
    documentPosition.RoundTrips Spelling.documentPosition ∧
    referenceRequest.RoundTrips Spelling.referenceRequest ∧
    clientCapabilities.RoundTrips Spelling.clientCapabilities ∧
    clientLocation.RoundTrips Spelling.clientLocation ∧
    searchOptions.RoundTrips Spelling.searchOptions ∧
    usageOptions.RoundTrips Spelling.usageOptions ∧
    (∀ before after : List (String × Json), "text" ∉ (before ++ after).map Prod.fst →
      clientLocation.decode? (.object (before ++ ("text", .null) :: after)) =
        clientLocation.decode? (.object (before ++ after))) ∧
    ∀ uri range : Json,
      clientLocation.decode? (.array [uri, range, .null]) =
        clientLocation.decode? (.array [uri, range]) :=
  ⟨reads_fileId.roundTrips, reads_askedPosition.roundTrips, reads_position.roundTrips,
    reads_span.roundTrips, reads_documentPosition.roundTrips, reads_referenceRequest.roundTrips,
    reads_clientCapabilities.roundTrips, reads_clientLocation.roundTrips,
    reads_searchOptions.roundTrips, reads_usageOptions.roundTrips,
    fun _ _ => decode?_clientLocation_null_text, fun _ _ => rfl⟩

/-- A request whose fields are not in order, with a field of the client's own and a place that is an
array; and a location with `null` for its text. -/
theorem values_round_trip_sample :
    referenceRequest.decode? (.object [("includeDeclaration", .bool true), ("note", .null),
        ("textDocumentPosition",
          .array [.integer 3, .object [("col", .integer 2), ("line", .integer 1)]])]) =
        some ⟨⟨⟨3⟩, ⟨1, 2⟩⟩, true⟩ ∧
      clientLocation.decode? (.object [("uri", .string "a.cs"), ("text", .null),
        ("range", .array [.array [.integer 0, .integer 1], .array [.integer 0, .integer 4]])]) =
      clientLocation.decode? (.object [("uri", .string "a.cs"),
        ("range", .array [.array [.integer 0, .integer 1], .array [.integer 0, .integer 4]])]) := by
  obtain ⟨-, -, -, -, -, hrequest, -, -, -, -, htext, -⟩ := values_round_trip
  have hposition : Spelling.askedPosition ⟨1, 2⟩
      (.object [("col", .integer 2), ("line", .integer 1)]) :=
    @Spelling.Record.object _ _ [("line", .integer 1), ("col", .integer 2)] [] _
      (.cons ⟨rfl, rfl⟩ (.cons ⟨rfl, rfl⟩ .nil)) (List.forall_mem_nil _) (.swap _ _ _)
  have hplace : Spelling.documentPosition ⟨⟨3⟩, ⟨1, 2⟩⟩
      (.array [.integer 3, .object [("col", .integer 2), ("line", .integer 1)]]) :=
    .array (.cons rfl (.cons hposition .nil))
  refine ⟨hrequest.decode _ _ ?_, htext [_] [_] (by decide)⟩
  exact @Spelling.Record.object _ _
    [("textDocumentPosition", _), ("includeDeclaration", .bool true)] [("note", .null)] _
    (.cons ⟨rfl, hplace⟩ (.cons ⟨rfl, rfl⟩ .nil)) (List.forall_mem_singleton.mpr (by decide))
    (@List.perm_middle _ _ [_, _] [])

end Wire
end UsageReport
