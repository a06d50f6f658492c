/-
# What work leaves behind

A piece of work ends in a session whether it ends well or not (`Work.finalSession`).  Much of
what can be said of it concerns that session alone: a property of sessions which every service
keeps is kept by all that is made of the services (`Work.Maintains`).

Two properties matter most.  That a raised signal stays raised is the law of cancellation: a
request can be cancelled, and never be taken up again.  That a signal which is not raised stays
down says that nobody cancels the request.  Both are kept through `bind` by one argument.

Work that nobody disturbs can be said to come to a value (`Work.ComesTo`): wherever it begins, it
ends well and with this value if the signal is down at the end.  What two pieces of work come to,
one after the other, follows from what each of them comes to.
-/
import UsageReport.Session
import Mathlib.Tactic.ByContra

namespace UsageReport
namespace Work

variable {σ α β : Type}

/-! ## 1. The session at the end -/

/-- The session in which a piece of work ends, well or not. -/
def finalSession (x : Work σ α) (s : Session σ) : Session σ :=
  match x s with
  | .ok _ s' => s'
  | .error _ s' => s'

theorem finalSession_congr {x y : Work σ α} {s t : Session σ} (h : x s = y t) :
    x.finalSession s = y.finalSession t := by
  rw [finalSession, finalSession, h]

theorem finalSession_of_ok {x : Work σ α} {s s' : Session σ} {a : α} (h : x s = .ok a s') :
    x.finalSession s = s' := by
  rw [finalSession, h]

theorem finalSession_of_error {x : Work σ α} {s s' : Session σ} {fault : Fault}
    (h : x s = .error fault s') : x.finalSession s = s' := by
  rw [finalSession, h]

theorem bind_of_ok {x : Work σ α} (f : α → Work σ β) {s s' : Session σ} {a : α}
    (h : x s = .ok a s') : (x >>= f) s = f a s' := by
  rw [bind_apply, h]

theorem bind_of_error {x : Work σ α} (f : α → Work σ β) {s s' : Session σ} {fault : Fault}
    (h : x s = .error fault s') : (x >>= f) s = .error fault s' := by
  rw [bind_apply, h]

/-- Two pieces of work end well only if both do. -/
theorem of_bind_ok {x : Work σ α} {f : α → Work σ β} {s s' : Session σ} {b : β}
    (h : (x >>= f) s = .ok b s') : ∃ a s₁, x s = .ok a s₁ ∧ f a s₁ = .ok b s' := by
  cases hx : x s with
  | ok a s₁ => exact ⟨a, s₁, rfl, (bind_of_ok f hx).symm.trans h⟩
  | error fault s₁ => cases (bind_of_error f hx).symm.trans h

/-- Two pieces of work fail where one of them does. -/
theorem of_bind_error {x : Work σ α} {f : α → Work σ β} {s s' : Session σ} {fault : Fault}
    (h : (x >>= f) s = .error fault s') :
    x s = .error fault s' ∨ ∃ a s₁, x s = .ok a s₁ ∧ f a s₁ = .error fault s' := by
  cases hx : x s with
  | ok a s₁ => exact .inr ⟨a, s₁, rfl, (bind_of_ok f hx).symm.trans h⟩
  | error fault' s₁ =>
    cases (bind_of_error f hx).symm.trans h
    exact .inl rfl

/-- Two pieces of work end where the second one ends, if the first one lets it begin. -/
theorem finalSession_bind_of_ok {x : Work σ α} (f : α → Work σ β) {s s' : Session σ} {a : α}
    (h : x s = .ok a s') : finalSession (x >>= f) s = (f a).finalSession s' := by
  rw [finalSession, finalSession, bind_of_ok f h]

theorem finalSession_bind_of_error {x : Work σ α} (f : α → Work σ β) {s s' : Session σ}
    {fault : Fault} (h : x s = .error fault s') : finalSession (x >>= f) s = s' :=
  finalSession_of_error (bind_of_error f h)

/-! ## 2. Properties of sessions that work keeps -/

/-- Begun in a session with the property `P`, the work ends in one. -/
def Maintains (P : Session σ → Prop) (x : Work σ α) : Prop := ∀ s, P s → P (x.finalSession s)

variable {P : Session σ → Prop}

theorem maintains_pure (a : α) : Maintains P (pure a : Work σ α) := fun _ h => h

/-- Heeding a signal changes nothing. -/
theorem maintains_heed (signal : Signal) : Maintains P (heed signal : Work σ Unit) := by
  intro s h
  cases hr : s.raised signal with
  | true => rwa [finalSession_of_error (heed_of_raised hr)]
  | false => rwa [finalSession_of_ok (heed_of_not_raised hr)]

theorem Maintains.bind {x : Work σ α} {f : α → Work σ β} (hx : Maintains P x)
    (hf : ∀ a, Maintains P (f a)) : Maintains P (x >>= f) := by
  intro s h
  have hs := hx s h
  cases hr : x s with
  | ok a s' =>
    rw [finalSession_of_ok hr] at hs
    rw [finalSession_bind_of_ok f hr]
    exact hf a s' hs
  | error fault s' =>
    rw [finalSession_of_error hr] at hs
    rwa [finalSession_bind_of_error f hr]

end Work

/-! ## 3. Signals that are raised and signals that are not -/

namespace Session

variable {σ : Type}

/-- The signal is raised: whoever heeds it stops. -/
def Raised (signal : Signal) (s : Session σ) : Prop := s.raised signal = true

/-- The signal is not raised. -/
def Calm (signal : Signal) (s : Session σ) : Prop := s.raised signal = false

theorem not_calm_iff {signal : Signal} {s : Session σ} : ¬ s.Calm signal ↔ s.Raised signal := by
  simp [Calm, Raised]

end Session

/-- Whoever gets past a signal finds it down and the session as it was. -/
theorem Work.of_heed_ok {σ : Type} {signal : Signal} {s s' : Session σ} {done : Unit}
    (h : heed signal s = .ok done s') : s.Calm signal ∧ s' = s := by
  by_cases hs : s.Calm signal
  · rw [heed_of_not_raised hs] at h
    cases h
    exact ⟨hs, rfl⟩
  · rw [heed_of_raised (Session.not_calm_iff.mp hs)] at h
    cases h

/-- Where the second part takes no cancellation back, a signal that is down at the end was down
between the parts. -/
theorem Work.calm_of_calm_bind {σ α β : Type} {x : Work σ α} {f : α → Work σ β}
    {signal : Signal} {s : Session σ}
    (hf : ∀ a, (f a).Maintains (Session.Raised signal))
    (h : (Work.finalSession (x >>= f) s).Calm signal) : (x.finalSession s).Calm signal := by
  by_contra hr
  rw [Session.not_calm_iff] at hr
  cases hx : x s with
  | ok a s' =>
    rw [Work.finalSession_of_ok hx] at hr
    rw [Work.finalSession_bind_of_ok f hx] at h
    exact Session.not_calm_iff.mpr (hf a s' hr) h
  | error fault s' =>
    rw [Work.finalSession_of_error hx] at hr
    rw [Work.finalSession_bind_of_error f hx] at h
    exact Session.not_calm_iff.mpr hr h

/-! ## 4. Undisturbed work -/

namespace Work

variable {σ α β : Type} {signal : Signal}

/-- Undisturbed, the work comes to `a`: wherever it begins, it ends well and with `a` if the signal
is down at the end. -/
def ComesTo (signal : Signal) (x : Work σ α) (a : α) : Prop :=
  ∀ s, (x.finalSession s).Calm signal → ∃ s', x s = .ok a s'

theorem comesTo_pure (a : α) : ComesTo signal (pure a : Work σ α) a := fun s _ => ⟨s, rfl⟩

theorem comesTo_heed (signal : Signal) : ComesTo signal (heed signal : Work σ Unit) () := by
  intro s h
  by_cases hs : s.Calm signal
  · exact ⟨s, heed_of_not_raised hs⟩
  · rw [finalSession_of_error (heed_of_raised (Session.not_calm_iff.mp hs))] at h
    exact absurd h hs

/-- Work that takes no cancellation back comes to what it comes to after the work before it. -/
theorem ComesTo.bind {x : Work σ α} {f : α → Work σ β} {a : α} {b : β}
    (hx : x.ComesTo signal a) (raised : ∀ a, (f a).Maintains (Session.Raised signal))
    (hf : (f a).ComesTo signal b) : ComesTo signal (x >>= f) b := by
  intro s h
  obtain ⟨s', hok⟩ := hx s (calm_of_calm_bind raised h)
  rw [finalSession_bind_of_ok f hok] at h
  rw [bind_of_ok f hok]
  exact hf s' h

/-- Work that can be left undisturbed comes to one value only. -/
theorem ComesTo.unique {x : Work σ α} {a b : α} {s : Session σ} (ha : x.ComesTo signal a)
    (hb : x.ComesTo signal b) (hs : (x.finalSession s).Calm signal) : a = b := by
  obtain ⟨s₁, h₁⟩ := ha s hs
  obtain ⟨s₂, h₂⟩ := hb s hs
  cases h₁.symm.trans h₂
  rfl

/-- A signal that is never raised disturbs no work. -/
theorem ComesTo.request_of_never {x : Work σ α} {a : α} (h : x.ComesTo .never a) :
    x.ComesTo .request a := fun s _ => h s rfl

end Work
end UsageReport
