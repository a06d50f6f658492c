/-
# Sessions and the work in them

Everything that answers a request does so within a session: the request may be cancelled on
the way, and the services of the host remember what they like.  Work reads and changes the
session and ends with a value or with a fault.  The session survives a fault, so what happened
before it can still be seen.

An operation is told which signal to heed.  Most heed the cancellation of the request.  One
that must run to its end is given the signal that nobody raises.
-/
import UsageReport.Fault

namespace UsageReport

/-- What happens while a request is answered. -/
structure Session (σ : Type) where
  /-- The request has been cancelled. -/
  cancelled : Bool
  /-- What the services of the host remember. -/
  services : σ

/-- The signal that an operation heeds. -/
inductive Signal where
  /-- The cancellation of the request. -/
  | request
  /-- A signal that is never raised. -/
  | never
deriving DecidableEq

namespace Session

variable {σ : Type}

/-- Whether a signal is raised. -/
def raised (s : Session σ) : Signal → Bool
  | .request => s.cancelled
  | .never => false

/-- The session with its request cancelled. -/
def cancel (s : Session σ) : Session σ := { s with cancelled := true }

end Session

/-- A piece of work within a session, which can fail. -/
abbrev Work (σ α : Type) := EStateM Fault (Session σ) α

namespace Work

variable {σ : Type}

/-- Go on only if the signal is not raised. -/
def heed (signal : Signal) : Work σ Unit := fun s =>
  if s.raised signal then .error .cancelled s else .ok () s

/-! ## Work as a function of its session -/

variable {α β : Type}

@[simp] theorem pure_apply (a : α) (s : Session σ) : (pure a : Work σ α) s = .ok a s := rfl

@[simp] theorem throw_apply (fault : Fault) (s : Session σ) :
    (throw fault : Work σ α) s = .error fault s := rfl

/-- A fault ends the work; otherwise the second part goes on in the session that the first
part leaves. -/
theorem bind_apply (x : Work σ α) (f : α → Work σ β) (s : Session σ) :
    (x >>= f) s = match x s with
      | .ok a s' => f a s'
      | .error fault s' => .error fault s' := by
  change EStateM.bind x f s = _
  unfold EStateM.bind
  cases x s <;> rfl

theorem heed_of_raised {signal : Signal} {s : Session σ} (h : s.raised signal = true) :
    heed signal s = .error .cancelled s := if_pos h

theorem heed_of_not_raised {signal : Signal} {s : Session σ} (h : s.raised signal = false) :
    heed signal s = .ok () s := by
  rw [heed, h]
  exact if_neg Bool.false_ne_true

end Work
end UsageReport
