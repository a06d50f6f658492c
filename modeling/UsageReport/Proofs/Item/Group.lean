/-
# Items of groups

The item of a group is that of its first member over the union of all members' locations, so what
is known of the union (`SymbolGroup.allLocations`) shows in the item.

What is added to a group and brings no location of its own leaves the item as it is
(`groupDefinition_append`), and so a group can come to nothing more than its first member
(`groupDefinition_eq_classified`).  Members in another order put the spans in another order and
do no more than that, unless one of them has a compiled module (`itemOver_perm`): of compiled
modules the first one decides, and which that is depends on the order.

A location is in the union once.  A place can still be there twice, once to be seen and once
hidden, since these are two locations.  So a group can be shown at one place twice, but only if
hidden locations are wanted, and never more often (`places_groupDefinition`).
-/
import UsageReport.Proofs.Document.Solution
import UsageReport.Proofs.Item.Undisturbed
import UsageReport.Proofs.Symbol.Union

namespace UsageReport

/-! ## 1. Spans in another order -/

/-- The navigation to some other spans; what does not lead into source stays as it is. -/
def Navigation.withSpans (spans : List DocumentSpan) : Navigation → Navigation
  | source _ => source spans
  | metadata moduleName symbol => metadata moduleName symbol
  | unavailable origination => unavailable origination

namespace Host

variable {σ : Type} {host : Host σ} {signal : Signal} {query : DefinitionQuery} {symbol : Symbol}
  {locations : List Location} {s s' : Session σ} {preview : Document → TextRange → Preview}

/-- The order of the spans shows in the navigation and nowhere else. -/
theorem assemble_perm {spans spans' : List DocumentSpan} (h : spans'.Perm spans)
    (query : DefinitionQuery) (definition : Symbol) :
    host.assemble query definition (.source spans') =
      { host.assemble query definition (.source spans) with
        navigation :=
          (host.assemble query definition (.source spans)).navigation.withSpans spans' } := by
  cases spans with
  | nil =>
    cases h.eq_nil
    rfl
  | cons span rest =>
    cases spans' with
    | nil => cases h.symm.eq_nil
    | cons span' rest' => rfl

/-- **Locations in source, in another order**, put the spans in another order. -/
theorem itemOver_perm (host : Host σ) (preview : Document → TextRange → Preview)
    (query : DefinitionQuery) (symbol : Symbol) {locations' : List Location}
    (h : locations'.Perm locations) (hsource : ∀ l ∈ locations, l.moduleName? = none) :
    ∃ spans, spans.Perm (host.itemOver preview query symbol locations).sourceSpans ∧
      host.itemOver preview query symbol locations' =
        { host.itemOver preview query symbol locations with
          navigation :=
            (host.itemOver preview query symbol locations).navigation.withSpans spans } := by
  have hwhereabouts (ls : List Location) (hls : ∀ l ∈ ls, l.moduleName? = none) :
      (host.whereabouts query.includeHidden ls).previewed preview query.previews =
        .source ((ls.filterMap (host.place? query.includeHidden)).map
          (DocumentSpan.previewed preview query.previews)) := by
    rw [whereabouts, List.findSome?_eq_none_iff.mpr hls]
    rfl
  have hsource' : ∀ l ∈ locations', l.moduleName? = none := fun l hl =>
    hsource l (h.mem_iff.mp hl)
  rw [itemOver, itemOver, hwhereabouts locations hsource, hwhereabouts locations' hsource',
    sourceSpans_assemble]
  cases symbol.canonical.kind.isNamespace with
  | true => exact ⟨[], .nil, rfl⟩
  | false =>
    have hspans := (h.filterMap (host.place? query.includeHidden)).map
      (DocumentSpan.previewed preview query.previews)
    exact ⟨_, hspans, assemble_perm hspans query symbol.canonical⟩

/-! ## 2. The union in the item -/

variable {primary includeHidden : Bool} {options : SearchOptions} {g : SymbolGroup}

/-- Members whose locations are there already change nothing. -/
theorem groupDefinition_append {more : List Symbol}
    (h : ∀ s ∈ more, ∀ l ∈ s.locations, l ∈ g.allLocations) :
    host.groupDefinition signal (g.append more) primary includeHidden options =
      host.groupDefinition signal g primary includeHidden options := by
  rw [groupDefinition, groupDefinition, g.allLocations_append h]
  rfl

/-- A group whose members add nothing to the locations of the first, of which none is repeated,
comes to the first. -/
theorem groupDefinition_eq_classified (hdistinct : g.primary.locations.Nodup)
    (h : ∀ s ∈ g.others, ∀ l ∈ s.locations, l ∈ g.primary.locations) :
    host.groupDefinition signal g primary includeHidden options =
      host.classifiedDefinition signal g.primary primary includeHidden options := by
  rw [groupDefinition, classifiedDefinition, g.allLocations_eq_primary hdistinct h]

/-- **The union of a group, in itself and in the item.**

It holds the locations of all members and no other, each one once, in the order in which they
first occur; and the item is the item of the first member over it.  Members that bring no new
location leave the item as it is, and if no member brings one the item is that of the first.  The
order of the others, if all are in source, is that of the spans and shows nowhere else. -/
theorem groupDefinition_union (keeps : host.KeepsCancellation)
    (answers : host.AnswersWith preview) (signal : Signal) (g : SymbolGroup)
    (primary includeHidden : Bool) (options : SearchOptions) :
    (∀ l, l ∈ g.allLocations ↔ ∃ s ∈ g.members, l ∈ s.locations) ∧
    g.allLocations.Nodup ∧
    (g.allLocations.Pairwise fun l l' =>
      (g.members.flatMap Symbol.locations).idxOf l <
        (g.members.flatMap Symbol.locations).idxOf l') ∧
    host.groupDefinition signal g primary includeHidden options =
      host.definitionItem signal ⟨primary, includeHidden, true, options⟩ g.primary
        g.allLocations ∧
    (∀ more : List Symbol, (∀ s ∈ more, ∀ l ∈ s.locations, l ∈ g.allLocations) →
      host.groupDefinition signal (g.append more) primary includeHidden options =
        host.groupDefinition signal g primary includeHidden options) ∧
    (g.primary.locations.Nodup →
      (∀ s ∈ g.others, ∀ l ∈ s.locations, l ∈ g.primary.locations) →
      host.groupDefinition signal g primary includeHidden options =
        host.classifiedDefinition signal g.primary primary includeHidden options) ∧
    ∀ others : List Symbol, others.Perm g.others →
      (∀ s ∈ g.members, ∀ l ∈ s.locations, l.moduleName? = none) →
      ∃ item spans,
        (host.groupDefinition signal g primary includeHidden options).ComesTo signal item ∧
        (host.groupDefinition signal ⟨g.primary, others⟩ primary includeHidden
          options).ComesTo signal
            { item with navigation := item.navigation.withSpans spans } ∧
        spans.Perm item.sourceSpans := by
  refine ⟨fun l => SymbolGroup.mem_allLocations_iff, g.nodup_allLocations,
    g.pairwise_allLocations, rfl, fun more => groupDefinition_append,
    groupDefinition_eq_classified, ?order⟩
  case order =>
    intro others hothers hsource
    have hunion : (⟨g.primary, others⟩ : SymbolGroup).allLocations.Perm g.allLocations :=
      SymbolGroup.perm_allLocations (hothers.cons g.primary)
    have hsourceUnion : ∀ l ∈ g.allLocations, l.moduleName? = none := by
      intro l hl
      obtain ⟨s, hs, hl⟩ := SymbolGroup.mem_allLocations_iff.mp hl
      exact hsource s hs l hl
    obtain ⟨spans, hspans, hitem⟩ := itemOver_perm host preview
      ⟨primary, includeHidden, true, options⟩ g.primary hunion hsourceUnion
    refine ⟨_, spans, comesTo_definitionItem keeps answers, ?_, hspans⟩
    rw [← hitem]
    exact comesTo_definitionItem keeps answers

/-- A part of the sample class. -/
def samplePart (handle : Nat) (locations : List Location) : Symbol :=
  { sampleSymbol with handle, locations }

/-- Three parts of a class at three places, of which one is listed twice.  A fourth part that
lists two of the places changes nothing; a part that lists the place of the first adds nothing to
it; and the second and third part can change places. -/
theorem groupDefinition_union_sample :
    let host : Host Unit := standard (.ofDocument sampleDocument)
    let a : Location := .inSource ⟨⟨0⟩, ⟨6, 12, by decide⟩, false⟩
    let b : Location := .inSource ⟨⟨0⟩, ⟨19, 25, by decide⟩, false⟩
    let c : Location := .inSource ⟨⟨0⟩, ⟨0, 5, by decide⟩, false⟩
    let g : SymbolGroup := ⟨samplePart 0 [a], [samplePart 1 [b, a], samplePart 2 [c]]⟩
    let swapped : SymbolGroup := ⟨samplePart 0 [a], [samplePart 2 [c], samplePart 1 [b, a]]⟩
    let s : Session Unit := ⟨false, ()⟩
    host.groupDefinition .request (g.append [samplePart 3 [c, b]]) true false {} =
      host.groupDefinition .request g true false {} ∧
    host.groupDefinition .request ⟨samplePart 0 [a], [samplePart 1 [a]]⟩ true false {} =
      host.classifiedDefinition .request (samplePart 0 [a]) true false {} ∧
    ∃ item spans s₁ s₂,
      host.groupDefinition .request g true false {} s = .ok item s₁ ∧
      host.groupDefinition .request swapped true false {} s =
        .ok { item with navigation := item.navigation.withSpans spans } s₂ ∧
      spans.Perm item.sourceSpans := by
  intro host a b c g swapped s
  have find (P : Session Unit → Prop) :=
    DocumentSource.maintains_find_ofDocument (P := P) sampleDocument
  have union (g : SymbolGroup) := groupDefinition_union (standard_keepsCancellation (find _))
    (standard_answersWith (.ofDocument sampleDocument)) .request g true false {}
  have hcalm (g : SymbolGroup) :
      ((host.groupDefinition .request g true false {}).finalSession s).Calm .request :=
    (standard_maintains (find _) .request).definitionItem _ _ _ s rfl
  obtain ⟨-, -, -, -, happend, -, horder⟩ := union g
  obtain ⟨-, -, -, -, -, hfirst, -⟩ := union ⟨samplePart 0 [a], [samplePart 1 [a]]⟩
  obtain ⟨item, spans, hitem, hswapped, hspans⟩ := horder swapped.others (.swap _ _ _) (by decide)
  obtain ⟨s₁, h₁⟩ := hitem s (hcalm g)
  obtain ⟨s₂, h₂⟩ := hswapped s (hcalm swapped)
  exact ⟨happend _ (by decide), hfirst (by decide) (by decide), item, spans, s₁, s₂, h₁, h₂,
    hspans⟩

/-! ## 3. Places -/

/-- The host finds documents under their own ids. -/
def FindsById (host : Host σ) : Prop :=
  ∀ {file document}, host.documents.document? file = some document → document.id = file

/-- The documents of a solution are found under their own ids. -/
theorem findsById_of_solution {edits : List Edit}
    (h : host.documents.document? = (Solution.empty.applyAll edits).document?) :
    host.FindsById := by
  intro file document hd
  rw [h] at hd
  exact Solution.id_eq_of_applyAll Solution.coherent_empty.id_eq hd

/-- A location that counts is at the place of its span, to be seen or hidden. -/
theorem eq_inSource_of_place? (finds : host.FindsById) {l : Location} {span : DocumentSpan}
    (h : host.place? includeHidden l = some span) :
    ∃ hidden, l = .inSource ⟨span.file, span.range, hidden⟩ ∧
      (hidden = true → includeHidden = true) := by
  obtain ⟨place, hplace, h⟩ := Option.bind_eq_some_iff.mp h
  split at h
  · rename_i hpass
    obtain ⟨document, hd, rfl⟩ := Option.map_eq_some_iff.mp h
    have hl : l = .inSource place := by
      cases l with
      | inSource other => exact congrArg _ (Option.some_inj.mp hplace)
      | inMetadata moduleName => cases hplace
      | nowhere => cases hplace
    have hfile : document.id = place.file := finds hd
    refine ⟨place.hidden, ?_, fun hhidden => ?_⟩
    · rw [hl, DocumentSpan.file, hfile]
    · rw [SourceLocation.passes, hhidden] at hpass
      exact hpass
  · cases h

/-- The spans of an item are those of locations that count. -/
theorem sublist_sourceSpans_of_ok {item : DefinitionItem}
    (h : host.definitionItem signal query symbol locations s = .ok item s') :
    List.Sublist (item.sourceSpans.map DocumentSpan.withoutPreview)
      (locations.filterMap (host.place? query.includeHidden)) := by
  obtain ⟨w, rfl, hlist⟩ := exists_assemble_of_ok h
  rw [sourceSpans_assemble]
  cases w with
  | metadata moduleName => exact List.nil_sublist _
  | source spans =>
    rw [whereabouts] at hlist
    split at hlist
    · rw [Whereabouts.withoutPreviews, Whereabouts.source.injEq, List.map_eq_nil_iff] at hlist
      rw [hlist]
      exact List.nil_sublist _
    · split at hlist
      · cases hlist
      · rw [Whereabouts.withoutPreviews, Whereabouts.source.injEq] at hlist
        rw [← hlist]
        exact .refl _

/-- Of locations that are not repeated, two at one place differ in being hidden. -/
theorem pairwise_place? (finds : host.FindsById) (hdistinct : locations.Nodup) :
    (locations.filterMap (host.place? includeHidden)).Pairwise fun a b =>
      a.file = b.file → a.range = b.range → includeHidden = true ∧
        .inSource ⟨a.file, a.range, false⟩ ∈ locations ∧
        .inSource ⟨a.file, a.range, true⟩ ∈ locations := by
  refine List.pairwise_filterMap.mpr (hdistinct.imp_of_mem ?_)
  intro l l' hl hl' hne a ha b hb hfile hrange
  obtain ⟨hidden, rfl, hwanted⟩ := eq_inSource_of_place? finds ha
  obtain ⟨hidden', rfl, hwanted'⟩ := eq_inSource_of_place? finds hb
  rw [← hfile, ← hrange] at hl' hne
  cases hidden with
  | false =>
    cases hidden' with
    | false => exact absurd rfl hne
    | true => exact ⟨hwanted' rfl, hl, hl'⟩
  | true =>
    cases hidden' with
    | false => exact ⟨hwanted rfl, hl', hl⟩
    | true => exact absurd rfl hne

/-- Of locations that are not repeated, at most two are at one place. -/
theorem countP_place?_le (finds : host.FindsById) (hdistinct : locations.Nodup) (file : FileId)
    (range : TextRange) :
    (locations.filterMap (host.place? includeHidden)).countP
      (fun span => span.file = file ∧ span.range = range) ≤ 2 := by
  rw [List.countP_filterMap, List.countP_eq_length_filter]
  change _ ≤ ([.inSource ⟨file, range, false⟩, .inSource ⟨file, range, true⟩] :
    List Location).length
  refine ((hdistinct.filter _).subperm fun l hl => ?_).length_le
  obtain ⟨-, hat⟩ := List.mem_filter.mp hl
  cases hplace : host.place? includeHidden l with
  | none => simp [hplace] at hat
  | some span =>
    obtain ⟨hidden, rfl, -⟩ := eq_inSource_of_place? finds hplace
    obtain ⟨rfl, rfl⟩ : span.file = file ∧ span.range = range := by simpa [hplace] using hat
    cases hidden <;> simp

/-- **A group is shown once at a place**, unless hidden locations are wanted and the group has the
place as one to be seen and also as a hidden one.  It is never shown more than twice at a place. -/
theorem places_groupDefinition {edits : List Edit}
    (hdocuments : host.documents.document? = (Solution.empty.applyAll edits).document?)
    {item : DefinitionItem}
    (h : host.groupDefinition signal g primary includeHidden options s = .ok item s') :
    (item.sourceSpans.Pairwise fun a b =>
      a.file = b.file → a.range = b.range → includeHidden = true ∧
        .inSource ⟨a.file, a.range, false⟩ ∈ g.allLocations ∧
        .inSource ⟨a.file, a.range, true⟩ ∈ g.allLocations) ∧
    ∀ file range,
      item.sourceSpans.countP (fun span => span.file = file ∧ span.range = range) ≤ 2 := by
  have finds : host.FindsById := findsById_of_solution hdocuments
  have hspans : List.Sublist (item.sourceSpans.map DocumentSpan.withoutPreview)
      (g.allLocations.filterMap (host.place? includeHidden)) := sublist_sourceSpans_of_ok h
  constructor
  · exact List.pairwise_map.mp ((pairwise_place? finds g.nodup_allLocations).sublist hspans)
  · intro file range
    have hcount := hspans.countP_le.trans
      (countP_place?_le finds g.nodup_allLocations file range)
    rwa [List.countP_map] at hcount

/-- The sample document in a solution. -/
def sampleSolution : Solution :=
  Solution.empty.applyAll [.set sampleDocument.path sampleDocument.text sampleDocument.project]

/-- The sample class in two parts at one place.  The first part is to be seen and the second is
hidden. -/
def sampleGroup (range : TextRange) : SymbolGroup :=
  ⟨samplePart 0 [.inSource ⟨⟨0⟩, range, false⟩], [samplePart 1 [.inSource ⟨⟨0⟩, range, true⟩]]⟩

/-- The standard services over the documents of the sample solution. -/
def sampleHost : Host Unit := standard ⟨sampleSolution.document?, fun _ s => s⟩

theorem maintains_sampleHost (P : Session Unit → Prop) (signal : Signal) :
    sampleHost.Maintains signal P :=
  standard_maintains (fun _ _ h => h) signal

theorem groupDefinition_sampleHost (g : SymbolGroup) (includeHidden : Bool) :
    ∃ s', sampleHost.groupDefinition .request g false includeHidden {} ⟨false, ()⟩ =
      .ok (sampleHost.itemOver Preview.lexical ⟨false, includeHidden, true, {}⟩ g.primary
        g.allLocations) s' :=
  comesTo_definitionItem (maintains_sampleHost _) (standard_answersWith _) _
    ((maintains_sampleHost _ .request).definitionItem _ _ _ ⟨false, ()⟩ rfl)

/-- While hidden locations are not wanted, the group is shown once. -/
theorem places_groupDefinition_sample :
    ∃ item s', sampleHost.groupDefinition .request (sampleGroup ⟨6, 12, by decide⟩) false false {}
        ⟨false, ()⟩ = .ok item s' ∧
      item.sourceSpans.Pairwise fun a b => ¬ (a.file = b.file ∧ a.range = b.range) := by
  obtain ⟨s', h⟩ := groupDefinition_sampleHost (sampleGroup ⟨6, 12, by decide⟩) false
  obtain ⟨hplaces, -⟩ := places_groupDefinition rfl h
  refine ⟨_, s', h, hplaces.imp fun hsame hboth => ?_⟩
  exact Bool.false_ne_true (hsame hboth.1 hboth.2).1

/-- **If hidden locations are wanted it is shown twice** at the one place that it has. -/
theorem groupDefinition_shows_twice :
    sampleHost.documents.document? = sampleSolution.document? ∧
    ∃ item s', sampleHost.groupDefinition .request (sampleGroup ⟨6, 12, by decide⟩) false true {}
        ⟨false, ()⟩ = .ok item s' ∧
      ¬ item.sourceSpans.Pairwise fun a b => ¬ (a.file = b.file ∧ a.range = b.range) := by
  obtain ⟨s', h⟩ := groupDefinition_sampleHost (sampleGroup ⟨6, 12, by decide⟩) true
  refine ⟨rfl, _, s', h, ?_⟩
  have hd : sampleSolution.document? ⟨0⟩ = some sampleDocument :=
    Solution.document?_applyAll_set _ _ _ ⟨0⟩
  have hunion : (sampleGroup ⟨6, 12, by decide⟩).allLocations =
      [.inSource ⟨⟨0⟩, ⟨6, 12, by decide⟩, false⟩,
        .inSource ⟨⟨0⟩, ⟨6, 12, by decide⟩, true⟩] := by decide
  have hplace (hidden : Bool) :
      sampleHost.place? true (.inSource ⟨⟨0⟩, ⟨6, 12, by decide⟩, hidden⟩) =
        some ⟨sampleDocument, ⟨6, 12, by decide⟩, none⟩ := by
    cases hidden <;>
      exact congrArg (Option.map fun d => (⟨d, ⟨6, 12, by decide⟩, none⟩ : DocumentSpan)) hd
  rw [sourceSpans_itemOver, if_neg (by decide), hunion, List.filterMap_cons_some (hplace false),
    List.filterMap_cons_some (hplace true), List.filterMap_nil]
  intro hapart
  exact (List.pairwise_cons.mp hapart).1 _ (List.mem_singleton_self _) ⟨rfl, rfl⟩

end Host
end UsageReport
