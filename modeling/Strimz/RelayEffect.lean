import Strimz.RelayNonces

/-!
# A job takes effect once

`registerMerchant` has no replay guard on chain, so a job that is mined twice registers twice.
The runner goes on to a fresh nonce when the chain has passed the recorded one and the node
does not know the recorded hash. That is safe exactly when the nonce went to a transaction of
somebody else: a fee bump replaces the recorded hash while the older transaction can still be
mined, and a node may not know a transaction that another one has mined.
-/

namespace Strimz.Relay

open Runs

section Effect

variable {w w₀ : World} {ls : List Label} {key : Key} {job : Job} {n : Nat}

/-- Some node holds it, or may be given it again. -/
def World.CanBeMined (w : World) (tx : Tx) : Prop := tx ∈ w.sent ∧ w.confirmed ≤ tx.nonce

/-- Of the transactions signed for one job at most one is mined successfully, and a fresh
nonce is signed only when none of them was or can be mined. -/
structure AtMostOnce (w : World) : Prop where
  mined : ∀ tx tx', (tx, .success) ∈ w.mined → (tx', .success) ∈ w.mined → tx.job = tx'.job →
    tx = tx'
  fresh : ∀ key job nonce price, w.active = some (key, .sign nonce price) →
    w.jobs key = some job → (∀ recorded, job.broadcast = some recorded → recorded.nonce ≠ nonce) →
      ∀ tx, tx.job = job.number → ¬ w.CanBeMined tx ∧ ∀ status, (tx, status) ∉ w.mined

/-- The nonce that the chain is found to have passed did not go to the job's own transaction. -/
def PassedByOther (w : World) (l : Label) : Prop :=
  ∀ node fee tip key job recorded, l = .advance .done node fee tip →
    w.active = some (key, .confirmed recorded) → w.jobs key = some job →
      recorded.nonce < (w.nodes node).latest → ∀ e ∈ w.mined, e.1.job ≠ job.number

theorem Inv.step_counted {l : Label} (h : Inv true w) (hother : PassedByOther w l) :
    Inv true (Relay.step w l) := by
  refine h.step l fun node fee tip key stage job hl hactive hjob => ?_
  rintro recorded rfl hpassed tx htx hnumber hlive
  obtain ⟨job', hjob', -, hok⟩ := h.active key _ hactive
  obtain rfl : job = job' := Option.some.inj (hjob.symm.trans hjob')
  rcases hlive with hlive | ⟨-, status, hmined⟩
  · obtain ⟨recorded', hbroadcast, hnonce⟩ :=
      h.base.recorded key job hjob tx htx hnumber (.inl hlive)
    rw [show job.broadcast = some recorded from hok] at hbroadcast
    cases hbroadcast
    have hlatest := h.base.latest node
    omega
  · exact hother node fee tip key job recorded hl hactive hjob hpassed _ hmined hnumber

theorem Inv.atMostOnce (h : Inv true w) : AtMostOnce w where
  mined tx tx' hmined hmined' hjob := by
    have hlive : ∀ {tx : Tx}, (tx, TxStatus.success) ∈ w.mined → w.Live true tx :=
      fun hmined => .inr ⟨rfl, _, hmined⟩
    have hnonce := h.base.same tx (h.base.mined _ hmined).1 tx' (h.base.mined _ hmined').1 hjob
      (hlive hmined) (hlive hmined')
    have honce : (w.mined.map fun e => e.1.nonce).Nodup := List.pairwise_map.mpr h.base.minedOnce
    have heq := List.inj_on_of_nodup_map honce hmined hmined' hnonce
    exact (Prod.mk.inj heq).1
  fresh key job nonce price hactive hjob hfresh tx hnumber := by
    obtain ⟨job', hjob', -, hok⟩ := h.active key _ hactive
    obtain rfl : job = job' := Option.some.inj (hjob.symm.trans hjob')
    rcases hok with ⟨recorded, hbroadcast, hnonce⟩ | hspent
    · exact absurd hnonce (hfresh recorded hbroadcast)
    · refine ⟨fun hcan => hspent tx hcan.1 hnumber (.inl hcan.2), fun status hmined => ?_⟩
      exact hspent tx (h.base.mined _ hmined).1 hnumber (.inr ⟨rfl, status, hmined⟩)

theorem effect_at_most_once (w₀ : World) (ls : List Label) (hlaunched : w₀.Launched)
    (hother : ∀ n l, ls[n]? = some l → PassedByOther (stateAt step w₀ ls n) l) (n : Nat) :
    AtMostOnce (stateAt step w₀ ls n) := by
  have hinv : Inv true (stateAt step w₀ ls n) :=
    stateAt_induct (m := 0) hlaunched.inv
      (fun n l _ hl hinv => hinv.step_counted (hother n l hl)) (Nat.zero_le n)
  exact hinv.atMostOnce

/-! ## Samples -/

def launched : World where
  jobs := fun _ => none
  nextNumber := 0
  active := none
  counter := none
  confirmed := 0
  mined := []
  sent := []
  nodes := fun _ => ⟨0, []⟩
  merchants := fun _ => ⟨false, none, true⟩
  now := 0

theorem launched_launched : launched.Launched :=
  ⟨fun _ => rfl, rfl, rfl, rfl, fun _ => rfl, rfl⟩

/-- The next `await`s answer, from this node. -/
def answers (count node : Nat) : List Label :=
  List.replicate count (.advance .done node 30000000000 1)

def registration : RelayJob := .registerMerchant 7

/-- The transaction of attempt `i`. -/
def registrationTx (nonce maxFeePerGas maxPriorityFeePerGas : Nat) : Tx :=
  ⟨0, .merchantRegister 7, nonce, ⟨maxFeePerGas, maxPriorityFeePerGas⟩⟩

/-- Sent and not mined in time; sent again, to another node, with higher fees. The first one
is mined after all, and its node is asked about the second. -/
def bumpedOnce : List Label :=
  [.enqueue registration, .start (.merchantRegister 7)] ++ answers 9 0 ++
    [.start (.merchantRegister 7)] ++ answers 10 1 ++
    [.mine (registrationTx 0 60000000000 0) 0 .success, .start (.merchantRegister 7)] ++
    answers 13 0 ++ [.mine (registrationTx 1 60000000001 1) 0 .success]

/-- The merchant is registered twice. -/
theorem fee_bump_registers_twice :
    ¬ ∀ (w₀ : World) (ls : List Label), w₀.Launched →
      ∀ n, AtMostOnce (stateAt step w₀ ls n) := by
  intro hclaim
  have honce := hclaim launched bumpedOnce launched_launched bumpedOnce.length
  rw [stateAt_length] at honce
  have hfirst : (registrationTx 0 60000000000 0, .success) ∈
      (exec step launched bumpedOnce).mined := by
    decide +kernel
  have hsecond : (registrationTx 1 60000000001 1, .success) ∈
      (exec step launched bumpedOnce).mined := by
    decide +kernel
  have heq := honce.mined _ _ hfirst hsecond rfl
  exact absurd heq (by decide)

/-- A node that has not heard of the first transaction gives its nonce to another job, which
is mined with it; the first job goes on to the next nonce. -/
def nonceLost : List Label :=
  [.enqueue registration, .start (.merchantRegister 7)] ++ answers 9 0 ++
    [.enqueue (.registerMerchant 8), .start (.merchantRegister 8)] ++ answers 3 1 ++
    [.advance .failed 1 0 0, .start (.merchantRegister 8)] ++ answers 10 1 ++
    [.mine ⟨1, .merchantRegister 8, 0, ⟨60000000001, 1⟩⟩ 1 .success] ++ answers 2 1 ++
    [.start (.merchantRegister 7)] ++ answers 13 1 ++
    [.mine (registrationTx 1 60000000001 1) 1 .success] ++ answers 2 1

theorem effect_at_most_once_nonceLost :
    AtMostOnce (stateAt step launched nonceLost nonceLost.length) := by
  refine effect_at_most_once launched nonceLost launched_launched (fun n l hl => ?_) _
  rintro node fee tip key job recorded - hactive hjob - e he
  have hother : ∀ n ≤ nonceLost.length,
      ((stateAt step launched nonceLost n).active.all fun attempt =>
        ((stateAt step launched nonceLost n).jobs attempt.1).all fun job =>
          match attempt.2 with
          | .confirmed _ =>
              (stateAt step launched nonceLost n).mined.all fun e => e.1.job ≠ job.number
          | _ => true) = true := by
    decide +kernel
  have hn := hother n (Nat.le_of_lt (List.getElem?_eq_some_iff.mp hl).1)
  rw [hactive, Option.all_some, hjob, Option.all_some] at hn
  exact of_decide_eq_true (List.all_eq_true.mp hn e he)

end Effect

end Strimz.Relay
