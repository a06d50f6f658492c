/-
# Hits, case by case

What becomes of a hit is decided in a fixed order: a hit outside of source is a fault; a hit that is
hidden and not wanted gives nothing; if the signal is raised, the fault says so; and otherwise it is
as the classifier says.  There is one equation for each case, so the definition is unfolded here and
nowhere else.

Read backwards, there are few ways to an answer (`of_made_referenceItem?`) and to a fault
(`of_failed_referenceItem?`).  A reference comes of a hit in source, while the signal was down, by
one call of the classifier (`of_referenceItem?`).
-/
import UsageReport.Item.ReferenceOfHit
import UsageReport.Proofs.Item.Locate

namespace UsageReport
namespace Host

variable {σ : Type} {host : Host σ} {signal : Signal} {hit : ReferenceHit}
  {definition : DefinitionItem} {includeHidden : Bool} {place : SourceLocation}
  {s s' : Session σ}

/-! ## 1. The cases -/

theorem referenceItem?_of_not_source (h : hit.location.source? = none) :
    host.referenceItem? signal hit definition includeHidden = throw .notInSource := by
  rw [referenceItem?, h]

theorem referenceItem?_of_unwanted (hplace : hit.location.source? = some place)
    (hpass : ¬ place.passes includeHidden = true) :
    host.referenceItem? signal hit definition includeHidden = pure none := by
  rw [referenceItem?, hplace]
  exact if_neg hpass

theorem referenceItem?_of_wanted (hplace : hit.location.source? = some place)
    (hpass : place.passes includeHidden = true) :
    host.referenceItem? signal hit definition includeHidden = (do
      Work.heed signal
      let preview ← host.classify signal hit.document place.range
      return some ⟨definition, ⟨hit.document, place.range, some preview⟩, hit.usage,
        hit.properties⟩) := by
  rw [referenceItem?, hplace]
  exact if_pos hpass

/-- The signal is heeded before the classifier is called. -/
theorem referenceItem?_of_raised (hplace : hit.location.source? = some place)
    (hpass : place.passes includeHidden = true) (hs : s.Raised signal) :
    host.referenceItem? signal hit definition includeHidden s = .error .cancelled s := by
  rw [referenceItem?_of_wanted hplace hpass]
  exact Work.bind_of_error _ (Work.heed_of_raised hs)

theorem referenceItem?_of_calm (hplace : hit.location.source? = some place)
    (hpass : place.passes includeHidden = true) (hs : s.Calm signal) :
    host.referenceItem? signal hit definition includeHidden s =
      (do
        let preview ← host.classify signal hit.document place.range
        return some ⟨definition, ⟨hit.document, place.range, some preview⟩, hit.usage,
          hit.properties⟩ : Work σ (Option ReferenceItem)) s := by
  rw [referenceItem?_of_wanted hplace hpass]
  exact Work.bind_of_ok _ (Work.heed_of_not_raised hs)

/-! ## 2. Read backwards -/

/-- **What an answer comes of**: a hit in source that is not wanted, or one call of the classifier
while the signal was down. -/
theorem of_made_referenceItem? {reference : Option ReferenceItem}
    (made : host.referenceItem? signal hit definition includeHidden s = .ok reference s') :
    ∃ place, hit.location.source? = some place ∧
      ((¬ place.passes includeHidden = true ∧ reference = none ∧ s' = s) ∨
        (place.passes includeHidden = true ∧ s.Calm signal ∧
          ∃ preview, host.classify signal hit.document place.range s = .ok preview s' ∧
            reference = some ⟨definition, ⟨hit.document, place.range, some preview⟩, hit.usage,
              hit.properties⟩)) := by
  cases hplace : hit.location.source? with
  | none =>
    rw [referenceItem?_of_not_source hplace] at made
    cases made
  | some place =>
    refine ⟨place, rfl, ?_⟩
    by_cases hpass : place.passes includeHidden = true
    · rw [referenceItem?_of_wanted hplace hpass] at made
      obtain ⟨done, s₁, hheed, hclassify⟩ := Work.of_bind_ok made
      obtain ⟨hs, rfl⟩ := Work.of_heed_ok hheed
      obtain ⟨preview, s₂, hpreview, hitem⟩ := Work.of_bind_ok hclassify
      cases hitem
      exact .inr ⟨hpass, hs, preview, hpreview, rfl⟩
    · rw [referenceItem?_of_unwanted hplace hpass] at made
      cases made
      exact .inl ⟨hpass, rfl, rfl⟩

/-- **What a fault comes of**: a hit outside of source, the signal, or the classifier. -/
theorem of_failed_referenceItem? {fault : Fault}
    (failed : host.referenceItem? signal hit definition includeHidden s = .error fault s') :
    (hit.location.source? = none ∧ fault = .notInSource ∧ s' = s) ∨
      ∃ place, hit.location.source? = some place ∧ place.passes includeHidden = true ∧
        ((s.Raised signal ∧ fault = .cancelled ∧ s' = s) ∨
          (s.Calm signal ∧
            host.classify signal hit.document place.range s = .error fault s')) := by
  cases hplace : hit.location.source? with
  | none =>
    rw [referenceItem?_of_not_source hplace] at failed
    cases failed
    exact .inl ⟨rfl, rfl, rfl⟩
  | some place =>
    by_cases hpass : place.passes includeHidden = true
    · refine .inr ⟨place, rfl, hpass, ?_⟩
      by_cases hs : s.Calm signal
      · rw [referenceItem?_of_calm hplace hpass hs] at failed
        rcases Work.of_bind_error failed with hclassify | ⟨preview, s₁, -, hitem⟩
        · exact .inr ⟨hs, hclassify⟩
        · cases hitem
      · have hraised : s.Raised signal := Session.not_calm_iff.mp hs
        rw [referenceItem?_of_raised hplace hpass hraised] at failed
        cases failed
        exact .inl ⟨hraised, rfl, rfl⟩
    · rw [referenceItem?_of_unwanted hplace hpass] at failed
      cases failed

/-- **A reference is made only of a hit in source**, and then its span is that of the hit, with the
preview of the host. -/
theorem of_referenceItem? {item : ReferenceItem}
    (made : host.referenceItem? signal hit definition includeHidden s = .ok (some item) s') :
    ∃ place preview, hit.location.source? = some place ∧ s.Calm signal ∧
      host.classify signal hit.document place.range s = .ok preview s' ∧
      item.span = ⟨hit.document, place.range, some preview⟩ := by
  obtain ⟨place, hplace, ⟨-, hnone, -⟩ | ⟨-, hs, preview, hpreview, hitem⟩⟩ :=
    of_made_referenceItem? made
  · cases hnone
  · cases hitem
    exact ⟨place, preview, hplace, hs, hpreview, rfl⟩

/-! ## 3. What the services keep -/

/-- What the services keep, the making of a reference keeps. -/
theorem Maintains.referenceItem? {P : Session σ → Prop} (h : host.Maintains signal P)
    (hit : ReferenceHit) (definition : DefinitionItem) (includeHidden : Bool) :
    (host.referenceItem? signal hit definition includeHidden).Maintains P := by
  cases hplace : hit.location.source? with
  | none =>
    rw [referenceItem?_of_not_source hplace]
    exact fun _ hs => hs
  | some place =>
    by_cases hpass : place.passes includeHidden = true
    · rw [referenceItem?_of_wanted hplace hpass]
      exact (Work.maintains_heed signal).bind fun _ =>
        (h.classify _ _).bind fun _ => Work.maintains_pure _
    · rw [referenceItem?_of_unwanted hplace hpass]
      exact Work.maintains_pure _

end Host
end UsageReport
