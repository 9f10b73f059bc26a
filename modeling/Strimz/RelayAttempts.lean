import Strimz.Relay

/-!
# Relay submissions

`submitPayWithAuthorization` and `submitPermitAndCreateSubscription` (`apps/api`,
`relay.service.ts`) from the look-up of an identical submission to `queue.add`, over the relay
and the attempt pointers in Redis. Calls run side by side and are taken apart at their
`await`s. The checks of the session, the plan, the budget and the simulation can refuse a
call at any point and write nothing that is read here. Redis and the queue share one clock; the
chain has its own.
-/

namespace Strimz.Relay.Attempts

open Runs

/-- `RELAY_ATTEMPT_TTL_SECONDS` -/
def RELAY_ATTEMPT_TTL_SECONDS : Nat := 2 * 60 * 60

structure Pointer where
  key : Key
  expiresAt : Nat

/-- The `await` a call stands at. `read` is the job as `findJob` returned it; a claim keeps it
beside the key it expects. -/
inductive CallStage where
  | existingView
  | simulate
  | current
  | findJob (previous : Key)
  | getState (previous : Key) (read : Job)
  | receiptStatus (previous : Key) (read : Job) (tx : Tx)
  | latestBlockTimestamp (previous : Key) (read : Job) (validBefore : Nat)
  | claim (expected : Option Key) (read : Option Job)
  | consume
  | add
deriving DecidableEq

structure Call where
  callData : CallData
  scope : Scope
  stage : CallStage

structure World where
  relay : Relay.World
  pointers : Scope → Option Pointer
  calls : List Call
  /-- The timestamp of the latest block. -/
  latestBlock : Nat

inductive Label where
  /-- The workers, the chain, the nodes and the clock. -/
  | relay (l : Relay.Label)
  | submit (callData : CallData) (planId : Nat)
  /-- The `await` of the `i`-th call ends; this node is asked, or this timestamp is read. -/
  | advance (i : Nat) (o : Outcome) (node timestamp : Nat)
  | block (timestamp : Nat)

def Call.key (c : Call) : Key := .relay c.callData

def Call.data (c : Call) : RelayJob := .call c.callData c.scope

/-- `paymentAttemptScope` and `subscriptionAttemptScope`; the plan of a payment is not used. -/
def attemptScope (planId : Nat) : CallData → Scope
  | .payWithAuthorization sessionId _ _ => .payment sessionId
  | .permitAndCreateSubscription payer _ => .subscription planId payer

/-! ## Pointers -/

def World.current (w : World) (scope : Scope) : Option Key :=
  match w.pointers scope with
  | some p => if w.relay.now < p.expiresAt then some p.key else none
  | none => none

/-- `SET … NX` and `COMPARE_AND_SET_SCRIPT`; `none`: the pointer is another one by now. -/
def World.claim (w : World) (scope : Scope) (expected : Option Key) (next : Key) : Option World :=
  if w.current scope = expected then
    let p : Pointer := ⟨next, w.relay.now + RELAY_ATTEMPT_TTL_SECONDS⟩
    some { w with pointers := Function.update w.pointers scope (some p) }
  else none

/-! ## A call -/

/-- `claimAttempt` after the pointer is read. -/
def claimAttempt (key : Key) : Option Key → CallStage
  | some current => if current = key then .consume else .findJob current
  | none => .claim none none

/-- `assertAttemptReplaceable` of a failed job; `none`: refused. -/
def replaceFailed (previous : Key) (read : Job) : CallStage :=
  match read.data, read.broadcast with
  | .call _ _, some tx => .receiptStatus previous read tx
  | _, _ => .claim (some previous) (some read)

def replaceBroadcast (previous : Key) (read : Job) : Option TxStatus → Option CallStage
  | some .success => none
  | some .reverted => some (.claim (some previous) (some read))
  | none =>
      match read.data with
      | .call (.payWithAuthorization _ validBefore _) _ =>
          some (.latestBlockTimestamp previous read validBefore)
      | _ => some (.claim (some previous) (some read))

/-- The effect of the `await`, and where the call goes on; `none`: it is over. -/
def World.perform (w : World) (c : Call) (node timestamp : Nat) : World × Option CallStage :=
  match c.stage with
  | .existingView => (w, if (w.relay.jobs c.key).isSome then none else some .simulate)
  | .simulate => (w, some .current)
  | .current => (w, some (claimAttempt c.key (w.current c.scope)))
  | .findJob previous =>
      match w.relay.jobs previous with
      | some job => (w, some (.getState previous job))
      | none => (w, some (.claim (some previous) none))
  | .getState previous read =>
      match (w.relay.jobs previous).map Job.state with
      | some .failed => (w, some (replaceFailed previous read))
      | _ => (w, none)
  | .receiptStatus previous read tx =>
      (w, replaceBroadcast previous read (w.relay.receiptAt (w.relay.nodes node) tx))
  | .latestBlockTimestamp previous read validBefore =>
      (w, if validBefore ≤ min timestamp w.latestBlock then
        some (.claim (some previous) (some read)) else none)
  | .claim expected _ =>
      match w.claim c.scope expected c.key with
      | some w' => (w', some .consume)
      | none => (w, none)
  | .consume => (w, some .add)
  | .add => ({ w with relay := w.relay.enqueue c.data }, none)

/-- The `i`-th call goes on, or is over. -/
def World.putCall (w : World) (i : Nat) (c : Call) : Option CallStage → World
  | some stage => { w with calls := w.calls.set i { c with stage } }
  | none => { w with calls := w.calls.eraseIdx i }

def World.advance (w : World) (i : Nat) (c : Call) (o : Outcome) (node timestamp : Nat) : World :=
  let (w', next) := w.perform c node timestamp
  match o with
  | .done => w'.putCall i c next
  | .lost => w'.putCall i c none
  | .failed => w.putCall i c none

/-! ## Steps -/

/-- Jobs of calls are enqueued by calls only. -/
def World.relayStep (w : World) : Relay.Label → World
  | .enqueue (.call _ _) => w
  | l => { w with relay := Relay.step w.relay l }

def step (w : World) : Label → World
  | .relay l => w.relayStep l
  | .submit callData planId =>
      { w with calls := w.calls ++ [⟨callData, attemptScope planId callData, .existingView⟩] }
  | .advance i o node timestamp =>
      match w.calls[i]? with
      | some c => w.advance i c o node timestamp
      | none => w
  | .block timestamp => { w with latestBlock := max w.latestBlock timestamp }

/-- Nobody has submitted anything. -/
structure World.Launched (w : World) : Prop where
  relay : w.relay.Launched
  pointers : ∀ scope, w.pointers scope = none
  calls : w.calls = []

/-! ## What can take effect -/

/-- A job of this scope that the queue still has, unfinished. -/
def World.Queued (w : World) (scope : Scope) (key : Key) : Prop :=
  ∃ job callData, w.relay.jobs key = some job ∧ job.data = .call callData scope ∧
    job.state.unfinished = true

/-- The token refuses the authorization from now on. -/
def World.Expired (w : World) : Key → Prop
  | .relay (.payWithAuthorization _ validBefore _) => validBefore ≤ w.latestBlock
  | _ => False

/-- A transaction of the key that can be mined and take effect. -/
def World.Pending (w : World) (key : Key) : Prop :=
  ∃ tx ∈ w.relay.sent, tx.key = key ∧ w.relay.confirmed ≤ tx.nonce ∧ ¬ w.Expired key

/-- A job of this scope, in the queue or, for a payment, removed from it. -/
def World.Of (w : World) (key : Key) : Scope → Prop
  | .payment sessionId =>
      ∃ validBefore body, key = .relay (.payWithAuthorization sessionId validBefore body)
  | scope => ∃ job callData, w.relay.jobs key = some job ∧ job.data = .call callData scope

/-- It is unfinished, or one of its transactions is pending. -/
def World.Able (w : World) (scope : Scope) (key : Key) : Prop :=
  w.Queued scope key ∨ w.Of key scope ∧ w.Pending key

end Strimz.Relay.Attempts
