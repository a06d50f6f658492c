/-
# Where a definition leads

`Host.destination` says where a definition leads, read off its locations and off nothing else: a
namespace leads nowhere; otherwise the first compiled module among the locations decides,
wherever it stands; otherwise the locations that count are the places, each once for every time
it occurs, in their order; and if none counts the definition leads nowhere and says where it
comes from.

The main statement (`navigation_definitionItem`) is that the item built over the locations leads
there, up to the previews of its spans, whenever nothing disturbs the work.  Nothing disturbs it
if signals that are raised stay raised, the signal is down when the work ends, and the classifier
answers while the signal is down.  That the work then ends well is part of the statement.

The hosts with the standard services meet these conditions (`Host.standard_answers`,
`Host.standard_maintains`) if the lookups of their documents do.
-/
import UsageReport.Host.Standard
import UsageReport.Proofs.Item.Locate

namespace UsageReport

/-! ## 1. Destinations -/

/-- The same navigation, with no previews. -/
def Navigation.withoutPreviews : Navigation → Navigation
  | source spans => source (spans.map DocumentSpan.withoutPreview)
  | metadata moduleName symbol => metadata moduleName symbol
  | unavailable origination => unavailable origination

namespace Host

variable {σ : Type}

/-- Where a definition leads, read off its locations. -/
def destination (host : Host σ) (includeHidden : Bool) (definition : Symbol)
    (locations : List Location) : Navigation :=
  if definition.kind.isNamespace then .unavailable (origination definition)
  else
    match locations.findSome? Location.moduleName? with
    | some moduleName => .metadata moduleName definition
    | none =>
      match locations.filterMap (host.place? includeHidden) with
      | [] => .unavailable (origination definition)
      | spans => .source spans

variable {host : Host σ} {signal : Signal} {query : DefinitionQuery} {symbol : Symbol}
  {locations : List Location} {s : Session σ}

theorem destination_of_namespace {definition : Symbol} {includeHidden : Bool}
    (h : definition.kind.isNamespace = true) :
    host.destination includeHidden definition locations =
      .unavailable (origination definition) := by
  rw [destination, if_pos h]

/-- An assembled item leads where its whereabouts are, and whereabouts that are those of the
list make it lead to the destination. -/
theorem navigation_assemble {w : Whereabouts} {definition : Symbol}
    (hkind : definition.kind.isNamespace = false)
    (hw : w.withoutPreviews = host.whereabouts query.includeHidden locations) :
    (host.assemble query definition w).navigation.withoutPreviews =
      host.destination query.includeHidden definition locations := by
  rw [destination, if_neg (by simp [hkind])]
  rw [whereabouts] at hw
  cases hmod : locations.findSome? Location.moduleName? with
  | some moduleName =>
    rw [hmod] at hw
    cases w with
    | source spans => simp [Whereabouts.withoutPreviews] at hw
    | metadata name =>
      rw [Whereabouts.withoutPreviews, Whereabouts.metadata.injEq] at hw
      rw [hw]
      rfl
  | none =>
    rw [hmod] at hw
    cases w with
    | metadata name => simp [Whereabouts.withoutPreviews] at hw
    | source spans =>
      rw [Whereabouts.withoutPreviews, Whereabouts.source.injEq] at hw
      rw [← hw]
      cases spans <;> rfl

/-! ## 2. The item -/

/-- The policy is asked about the definition, whatever the whereabouts. -/
@[simp] theorem shownUnreferenced_assemble (query : DefinitionQuery) (definition : Symbol)
    (w : Whereabouts) : (host.assemble query definition w).shownUnreferenced =
      host.showsUnreferenced definition query.options false := by
  cases w with
  | metadata moduleName => rfl
  | source spans => cases spans <;> rfl

/-- The signal is heeded before anything else. -/
theorem definitionItem_of_raised (hs : s.Raised signal) :
    host.definitionItem signal query symbol locations s = .error .cancelled s :=
  Work.bind_of_error _ (Work.heed_of_raised hs)

theorem definitionItem_of_namespace (hkind : symbol.canonical.kind.isNamespace = true)
    (hs : s.Calm signal) :
    host.definitionItem signal query symbol locations s =
      .ok (host.assemble query symbol.canonical (.source [])) s := by
  rw [definitionItem, Work.bind_of_ok _ (Work.heed_of_not_raised hs), if_pos hkind]
  rfl

theorem definitionItem_of_not_namespace (hkind : symbol.canonical.kind.isNamespace = false)
    (hs : s.Calm signal) :
    host.definitionItem signal query symbol locations s =
      (do
        let w ← host.locate signal query locations
        return host.assemble query symbol.canonical w : Work σ DefinitionItem) s := by
  rw [definitionItem, Work.bind_of_ok _ (Work.heed_of_not_raised hs), if_neg (by simp [hkind])]

/-- An item is made only if the signal is down at first. -/
theorem calm_of_ok_definitionItem {s' : Session σ} {item : DefinitionItem}
    (h : host.definitionItem signal query symbol locations s = .ok item s') : s.Calm signal := by
  by_contra hraised
  cases (definitionItem_of_raised (Session.not_calm_iff.mp hraised)).symm.trans h

/-- **An item that was made** is assembled from the whereabouts that the list comes to by itself,
up to previews. -/
theorem exists_assemble_of_ok {s' : Session σ} {item : DefinitionItem}
    (h : host.definitionItem signal query symbol locations s = .ok item s') :
    ∃ w, item = host.assemble query symbol.canonical w ∧
      w.withoutPreviews =
        if symbol.canonical.kind.isNamespace then .source []
        else host.whereabouts query.includeHidden locations := by
  have hs : s.Calm signal := calm_of_ok_definitionItem h
  cases hkind : symbol.canonical.kind.isNamespace with
  | true =>
    cases (definitionItem_of_namespace hkind hs).symm.trans h
    exact ⟨.source [], rfl, rfl⟩
  | false =>
    obtain ⟨w, s₁, hw, hitem⟩ :=
      Work.of_bind_ok ((definitionItem_of_not_namespace hkind hs).symm.trans h)
    cases hitem
    exact ⟨w, rfl, withoutPreviews_of_locate hw⟩

/-- An item that was made leads to its destination. -/
theorem navigation_of_ok {s' : Session σ} {item : DefinitionItem}
    (h : host.definitionItem signal query symbol locations s = .ok item s') :
    item.navigation.withoutPreviews =
      host.destination query.includeHidden symbol.canonical locations := by
  obtain ⟨w, rfl, hw⟩ := exists_assemble_of_ok h
  cases hkind : symbol.canonical.kind.isNamespace with
  | true =>
    rw [if_pos hkind] at hw
    rw [destination_of_namespace hkind]
    cases w with
    | metadata moduleName => cases hw
    | source spans =>
      rw [Whereabouts.withoutPreviews, Whereabouts.source.injEq, List.map_eq_nil_iff] at hw
      rw [hw]
      rfl
  | false =>
    rw [hkind, if_neg Bool.false_ne_true] at hw
    exact navigation_assemble hkind hw

/-- An item that is asked for without previews is made in every session whose signal is down. -/
theorem definitionItem_of_no_previews (host : Host σ) (query : DefinitionQuery)
    (hprev : query.previews = false) (symbol : Symbol) (locations : List Location)
    (hs : s.Calm signal) :
    ∃ s', host.definitionItem signal query symbol locations s =
      .ok (host.assemble query symbol.canonical
        (if symbol.canonical.kind.isNamespace then .source []
          else host.whereabouts query.includeHidden locations)) s' := by
  cases hkind : symbol.canonical.kind.isNamespace with
  | true => exact ⟨s, definitionItem_of_namespace hkind hs⟩
  | false =>
    obtain ⟨s', hlocate⟩ : ∃ s', host.locate signal query locations s = .ok _ s' :=
      locate_without_previews hprev locations s
    exact ⟨s', (definitionItem_of_not_namespace hkind hs).trans (Work.bind_of_ok _ hlocate)⟩

/-- What the services keep, the making of an item keeps. -/
theorem Maintains.definitionItem {P : Session σ → Prop} (h : host.Maintains signal P)
    (query : DefinitionQuery) (symbol : Symbol) (locations : List Location) :
    (host.definitionItem signal query symbol locations).Maintains P := by
  refine (Work.maintains_heed signal).bind fun _ => ?_
  dsimp only
  split
  · exact Work.maintains_pure _
  · exact (h.locate query locations).bind fun _ => Work.maintains_pure _

/-- A signal that is down when an item has been asked for was down before. -/
theorem calm_of_calm_definitionItem
    (hcalm : ((host.definitionItem signal query symbol locations).finalSession s).Calm signal) :
    s.Calm signal := by
  by_contra hr
  rw [Work.finalSession_of_error
    (definitionItem_of_raised (Session.not_calm_iff.mp hr))] at hcalm
  exact hr hcalm

/-- An item is made if the signal stays down and the classifier answers while it is down. -/
theorem exists_ok_of_calm (raised : host.Maintains signal (Session.Raised signal))
    (answers : host.Answers signal)
    (hcalm : ((host.definitionItem signal query symbol locations).finalSession s).Calm signal) :
    ∃ item s', host.definitionItem signal query symbol locations s = .ok item s' := by
  have hs : s.Calm signal := calm_of_calm_definitionItem hcalm
  cases hkind : symbol.canonical.kind.isNamespace with
  | true => exact ⟨_, s, definitionItem_of_namespace hkind hs⟩
  | false =>
    have hitem : host.definitionItem signal query symbol locations s = _ :=
      definitionItem_of_not_namespace hkind hs
    rw [Work.finalSession_congr hitem] at hcalm
    obtain ⟨w, s', hw⟩ := locate_of_calm raised answers query locations
      (Work.calm_of_calm_bind (fun _ => Work.maintains_pure _) hcalm)
    exact ⟨_, s', hitem.trans (Work.bind_of_ok _ hw)⟩

/-! ## 3. Standard services -/

/-- The standard classifier answers while its signal is down. -/
theorem standard_answers (documents : DocumentSource σ) (signal : Signal) :
    (standard documents).Answers signal :=
  fun document range s hs =>
    ⟨Preview.lexical document range, s, Work.bind_of_ok _ (Work.heed_of_not_raised hs)⟩

/-- The standard classifier keeps every property of sessions. -/
theorem standard_maintains {documents : DocumentSource σ} {P : Session σ → Prop}
    (find : ∀ file, (documents.find file).Maintains P) (signal : Signal) :
    (standard documents).Maintains signal P where
  find := find
  classify := fun _ _ => (Work.maintains_heed signal).bind fun _ => Work.maintains_pure _

end Host

/-- A source that holds one document.  Lookups leave the session alone. -/
def DocumentSource.ofDocument {σ : Type} (document : Document) : DocumentSource σ where
  document? := fun file => if file = document.id then some document else none
  touch := fun _ s => s

theorem DocumentSource.maintains_find_ofDocument {σ : Type} {P : Session σ → Prop}
    (document : Document) (file : FileId) : ((ofDocument document).find file).Maintains P :=
  fun _ h => h

/-! ## 4. The main statement -/

namespace Host

variable {σ : Type} {host : Host σ} {signal : Signal}

/-- **An undisturbed item leads to its destination.** -/
theorem navigation_definitionItem (raised : host.Maintains signal (Session.Raised signal))
    (answers : host.Answers signal) (query : DefinitionQuery) (symbol : Symbol)
    (locations : List Location) (s : Session σ)
    (hcalm : ((host.definitionItem signal query symbol locations).finalSession s).Calm signal) :
    ∃ item s', host.definitionItem signal query symbol locations s = .ok item s' ∧
      item.navigation.withoutPreviews =
        host.destination query.includeHidden symbol.canonical locations := by
  have hs : s.Calm signal := calm_of_calm_definitionItem hcalm
  cases hkind : symbol.canonical.kind.isNamespace with
  | true =>
    refine ⟨_, _, definitionItem_of_namespace hkind hs, ?_⟩
    rw [destination_of_namespace hkind]
    rfl
  | false =>
    have hitem : host.definitionItem signal query symbol locations s = _ :=
      definitionItem_of_not_namespace hkind hs
    rw [Work.finalSession_congr hitem] at hcalm
    obtain ⟨w, s', hw⟩ := locate_of_calm raised answers query locations
      (Work.calm_of_calm_bind (fun _ => Work.maintains_pure _) hcalm)
    exact ⟨_, s', hitem.trans (Work.bind_of_ok _ hw),
      navigation_assemble hkind (withoutPreviews_of_locate hw)⟩

/-- A class declared twice in a document, and once more in a hidden region of it, in a document
that is not loaded, and nowhere. -/
def sampleLocations : List Location :=
  [.inSource ⟨⟨0⟩, ⟨6, 12, by decide⟩, false⟩, .inSource ⟨⟨0⟩, ⟨20, 26, by decide⟩, true⟩,
    .inSource ⟨⟨7⟩, ⟨0, 5, by decide⟩, false⟩, .nowhere,
    .inSource ⟨⟨0⟩, ⟨6, 12, by decide⟩, false⟩]

def sampleDocument : Document := ⟨⟨0⟩, "Widget.cs", "class Widget {} // widget", none⟩

def sampleSymbol : Symbol := .new 0 "Widget" (.type .classType)

/-- The item of the class leads to its two visible declarations; with a compiled module behind
them, it leads into that module. -/
theorem navigation_definitionItem_sample :
    (∃ item s', (standard (.ofDocument sampleDocument)).definitionItem .request
        ⟨false, false, true, {}⟩ sampleSymbol sampleLocations ⟨false, ()⟩ = .ok item s' ∧
      item.navigation.withoutPreviews =
        .source [⟨sampleDocument, ⟨6, 12, by decide⟩, none⟩,
          ⟨sampleDocument, ⟨6, 12, by decide⟩, none⟩]) ∧
    ∃ item s', (standard (.ofDocument sampleDocument)).definitionItem .request
        ⟨false, false, true, {}⟩ sampleSymbol
        (sampleLocations ++ [.inMetadata "Core.dll", .inMetadata "Other.dll"])
        ⟨false, ()⟩ = .ok item s' ∧
      item.navigation.withoutPreviews = .metadata "Core.dll" sampleSymbol := by
  have keeps (P : Session Unit → Prop) :=
    standard_maintains (P := P) (DocumentSource.maintains_find_ofDocument sampleDocument) .request
  constructor
  · exact navigation_definitionItem (keeps _) (standard_answers _ _) _ _ _ _
      ((keeps (Session.Calm .request)).definitionItem _ _ _ ⟨false, ()⟩ rfl)
  · exact navigation_definitionItem (keeps _) (standard_answers _ _) _ _ _ _
      ((keeps (Session.Calm .request)).definitionItem _ _ _ ⟨false, ()⟩ rfl)

end Host
end UsageReport
