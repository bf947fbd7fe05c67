import InverterLink.Proofs.Cancellation
import InverterLink.Proofs.RegistrationOrder

/-!
# The end of the loop

A loop that nobody cancels ends when all handles are gone, and not before it has applied all
requests and delivered all messages that found room. A loop that has ended, for whatever reason,
holds on to no queue: a subscriber gets what waits for it and then learns that there is no more, and
whoever publishes is told that the loop is gone.
-/

namespace InverterLink.Proofs
open Broker Broker.Session

variable {μ : Type}

section Courses

variable {b₀ b b' : Broker μ} {h : List (Moment μ)} {x : Moment μ} {deed : Deed μ}
  {id : SubscriberId}

end Courses

section Sessions

variable {s s' : Session μ} {action : Session.Action μ} {actions : List (Session.Action μ)}
  {event : Session.Event μ} {events : List (Session.Event μ)} {id : SubscriberId} {call : Nat}

end Sessions

end InverterLink.Proofs
