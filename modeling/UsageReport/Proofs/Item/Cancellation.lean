/-
# Requests cancelled between two locations

A signal can be raised while the locations of a definition are read, for instance during the
lookup of a document.  `Host.CutShort` says that this has happened and that more was to come: the
signal was down at first, it is raised once the locations of a front have been read, and a
location that counts still stands behind them, before any compiled module.

Whether the item is then cut short depends on one thing (`cutShort_definitionItem`).  With
previews the signal is heeded before the next preview, so there is no item and the fault says
that the request was cancelled.  Without previews nobody looks at the signal between locations,
and the complete item is made as if nothing had happened.  So the usual ways to ask for an item
fall apart: the classified items of a symbol and of a group are cut short, the unclassified item
is not.

Two things are asked of the services: lookups do not take a cancellation back, and the classifier
fails for no other reason than that the request was cancelled.
-/
import UsageReport.Proofs.Item.Navigation

namespace UsageReport
namespace Host

variable {σ : Type} {host : Host σ} {signal : Signal} {query : DefinitionQuery}
  {symbol : Symbol} {front rest : List Location} {s : Session σ}

/-! ## 1. Cut short -/

/-- The signal is raised once `front` has been read, and in `rest` there is more to come. -/
structure CutShort (host : Host σ) (signal : Signal) (query : DefinitionQuery)
    (front rest : List Location) (s : Session σ) : Prop where
  /-- The signal is down at first. -/
  calm : s.Calm signal
  /-- No compiled module has ended the reading. -/
  noModule : ∀ l ∈ front, l.moduleName? = none
  raised : ((host.locate signal query front).finalSession s).Raised signal
  /-- A location of the rest counts and stands before any compiled module. -/
  counted : host.counted query.includeHidden rest ≠ []

/-- With previews the reading goes no further than to the next location that counts. -/
theorem CutShort.locate (h : host.CutShort signal query front rest s)
    (find : ∀ file, (host.documents.find file).Maintains (Session.Raised signal))
    (faults : host.FailsOnlyCancelled signal) (hprev : query.previews = true) :
    ∃ s', host.locate signal query (front ++ rest) s = .error .cancelled s' := by
  have hraised := h.raised
  rw [locate_append]
  cases hfront : host.locate signal query front s with
  | error fault s₁ =>
    rw [fault_of_locate faults hfront] at hfront
    exact ⟨s₁, Work.bind_of_error _ hfront⟩
  | ok w s₁ =>
    rw [Work.finalSession_of_ok hfront] at hraised
    obtain ⟨spans, rfl⟩ := source_of_locate h.noModule hfront
    obtain ⟨s₂, hrest⟩ := locate_of_raised find hprev hraised h.counted
    refine ⟨s₂, ?_⟩
    rw [Work.bind_of_ok _ hfront]
    exact Work.bind_of_error _ hrest

/-- With previews there is no item. -/
theorem CutShort.definitionItem (h : host.CutShort signal query front rest s)
    (find : ∀ file, (host.documents.find file).Maintains (Session.Raised signal))
    (faults : host.FailsOnlyCancelled signal) (hprev : query.previews = true)
    (hkind : symbol.canonical.kind.isNamespace = false) :
    ∃ s', host.definitionItem signal query symbol (front ++ rest) s = .error .cancelled s' := by
  obtain ⟨s', hlocate⟩ := h.locate find faults hprev
  rw [definitionItem_of_not_namespace hkind h.calm]
  exact ⟨s', Work.bind_of_error _ hlocate⟩

/-- Without previews the item is complete, whatever happens to the signal once the work has
begun. -/
theorem definitionItem_without_previews (hprev : query.previews = false) (symbol : Symbol)
    (locations : List Location) (hs : s.Calm signal) :
    ∃ item s', host.definitionItem signal query symbol locations s = .ok item s' ∧
      item.navigation.withoutPreviews =
        host.destination query.includeHidden symbol.canonical locations := by
  obtain ⟨s', hitem⟩ := definitionItem_of_no_previews host query hprev symbol locations hs
  exact ⟨_, s', hitem, navigation_of_ok hitem⟩

/-! ## 2. The main statement -/

/-- **An item is cut short between locations exactly when it has previews.** -/
theorem cutShort_definitionItem
    (find : ∀ file, (host.documents.find file).Maintains (Session.Raised signal))
    (faults : host.FailsOnlyCancelled signal) :
    (∀ (query : DefinitionQuery) (symbol : Symbol) (front rest : List Location)
        (s : Session σ), symbol.canonical.kind.isNamespace = false →
      host.CutShort signal query front rest s →
      if query.previews then
        ∃ s', host.definitionItem signal query symbol (front ++ rest) s = .error .cancelled s'
      else
        ∃ item s', host.definitionItem signal query symbol (front ++ rest) s = .ok item s' ∧
          item.navigation.withoutPreviews =
            host.destination query.includeHidden symbol.canonical (front ++ rest)) ∧
    (∀ (symbol : Symbol) (primary includeHidden : Bool) (options : SearchOptions)
        (front rest : List Location) (s : Session σ),
      symbol.canonical.kind.isNamespace = false → symbol.locations = front ++ rest →
      host.CutShort signal ⟨primary, includeHidden, true, options⟩ front rest s →
      ∃ s', host.classifiedDefinition signal symbol primary includeHidden options s =
        .error .cancelled s') ∧
    (∀ (group : SymbolGroup) (primary includeHidden : Bool) (options : SearchOptions)
        (front rest : List Location) (s : Session σ),
      group.primary.canonical.kind.isNamespace = false → group.allLocations = front ++ rest →
      host.CutShort signal ⟨primary, includeHidden, true, options⟩ front rest s →
      ∃ s', host.groupDefinition signal group primary includeHidden options s =
        .error .cancelled s') ∧
    ∀ (symbol : Symbol) (includeHidden : Bool) (front rest : List Location) (s : Session σ),
      symbol.canonical.kind.isNamespace = false → symbol.locations = front ++ rest →
      host.CutShort signal ⟨false, includeHidden, false, { unidirectional := true }⟩ front rest
        s →
      ∃ item s', host.unclassifiedDefinition signal symbol includeHidden s = .ok item s' ∧
        item.navigation.withoutPreviews =
          host.destination includeHidden symbol.canonical symbol.locations := by
  refine ⟨?_, ?_, ?_, ?_⟩
  · intro query symbol front rest s hkind h
    split
    · rename_i hprev
      exact h.definitionItem find faults hprev hkind
    · rename_i hprev
      exact definitionItem_without_previews (by simpa using hprev) symbol _ h.calm
  · intro symbol primary includeHidden options front rest s hkind hlocations h
    rw [classifiedDefinition, hlocations]
    exact h.definitionItem find faults rfl hkind
  · intro group primary includeHidden options front rest s hkind hlocations h
    rw [groupDefinition, hlocations]
    exact h.definitionItem find faults rfl hkind
  · intro symbol includeHidden front rest s _ _ h
    exact definitionItem_without_previews rfl symbol symbol.locations h.calm

end Host

/-! ## 3. A lookup that cancels the request -/

/-- A source that holds one document, and whose lookups cancel the request. -/
def DocumentSource.cancelling {σ : Type} (document : Document) : DocumentSource σ where
  document? := fun file => if file = document.id then some document else none
  touch := fun _ s => s.cancel

namespace Host

/-- The standard classifier fails only when the request was cancelled. -/
theorem standard_failsOnlyCancelled {σ : Type} (documents : DocumentSource σ)
    (signal : Signal) : (standard documents).FailsOnlyCancelled signal := by
  intro document range s fault s' h
  rcases Work.of_bind_error h with hheed | ⟨_, s₁, -, h⟩
  · by_cases hs : s.Calm signal
    · cases (Work.heed_of_not_raised hs).symm.trans hheed
    · cases (Work.heed_of_raised (Session.not_calm_iff.mp hs)).symm.trans hheed
      rfl
  · cases h

/-- The first lookup cancels the request and the last location still counts: an item with
previews is cut short, one without previews is made. -/
theorem cutShort_definitionItem_sample :
    (∃ s', (standard (.cancelling sampleDocument)).definitionItem .request
        ⟨false, false, true, {}⟩ sampleSymbol sampleLocations (⟨false, ()⟩ : Session Unit) =
          .error .cancelled s') ∧
    ∃ item s', (standard (.cancelling sampleDocument)).definitionItem .request
        ⟨false, false, false, {}⟩ sampleSymbol sampleLocations (⟨false, ()⟩ : Session Unit) =
          .ok item s' ∧
      item.navigation.withoutPreviews =
        .source [⟨sampleDocument, ⟨6, 12, by decide⟩, none⟩,
          ⟨sampleDocument, ⟨6, 12, by decide⟩, none⟩] := by
  have hcut (previews : Bool) : (standard (.cancelling sampleDocument)).CutShort .request
      ⟨false, false, previews, {}⟩ (sampleLocations.take 1) (sampleLocations.drop 1)
      (⟨false, ()⟩ : Session Unit) :=
    ⟨rfl, by decide, by cases previews <;> rfl, by cases previews <;> decide⟩
  obtain ⟨hitem, -⟩ := @cutShort_definitionItem Unit (standard (.cancelling sampleDocument))
    .request (fun _ _ _ => rfl) (standard_failsOnlyCancelled _ _)
  exact ⟨hitem _ _ _ _ _ rfl (hcut true), hitem _ _ _ _ _ rfl (hcut false)⟩

end Host
end UsageReport
