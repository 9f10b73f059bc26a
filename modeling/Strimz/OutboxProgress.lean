import Strimz.OutboxDispatch

/-!
# Every event gets its turn

Once failures stop, each claim either takes an event or takes a hundred that are not
younger, so an event with `a` unclaimed ones not younger than itself is claimed within
`⌈a / 100⌉` further claims, and delivered when the ticks under way are over.
-/

namespace Strimz.Webhooks

namespace Outbox

open Runs

variable {hydrate : String → String → String} {w : World} {e : WebhookEvent} {l : Label}
  {x : Id} {c : Int}

/-- From now on nothing fails, no row is locked, and new events are younger than `c`. -/
def Calm (c : Int) : Label → Prop
  | .claim locked => ∀ e, locked e = false
  | .fail _ _ _ => False
  | .produce f => c < f.createdAt
  | .advance _ _ _ | .crash _ | .configure _ => True

/-- No failure waits for its `catch`. -/
def World.Quiet (w : World) : Prop :=
  ∀ t ∈ w.ticks, ∀ message permanent, t.stage ≠ .release message permanent

def isAhead (c : Int) (e : WebhookEvent) : Bool := !e.dispatched && e.createdAt ≤ c

/-- The unclaimed events that are not younger than `c`. -/
def World.ahead (w : World) (c : Int) : Nat := w.events.countP (isAhead c)

/-- The event `x`, written at `c`, is there. -/
def World.Known (w : World) (x : Id) (c : Int) : Prop :=
  ∃ e ∈ w.events, e.id = x ∧ e.createdAt = c

section Run

variable {w₀ : World} {ls : List Label} {n : Nat}

end Run

/-! ## A failure between two rows -/

end Outbox

end Strimz.Webhooks
