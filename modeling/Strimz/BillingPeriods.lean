import Strimz.BillingRows
import Strimz.BillingSweep

/-!
# Which ids a period can use

Every attempt id that was sent carries the due time its job found on chain. The invariant
says of each that the period end it was derived from lies no later than that due time, or is
the first one of a subscription that started at once; a row that shows the last charge then
shares its ids with no earlier period.
-/

namespace Strimz.Billing

open Tx Runs Subscriptions Indexer

section Periods

variable {ξ δ : Type} {S : Setup ξ δ} {w w' : World ξ} {l : Label ξ} {s s' : Subscriptions.Storage}
  {id k : Nat} {e : Int} {period : Uint64} {attempt : Bytes32}

/-! ## Ids on their way -/

/-- A period end that a job used when the chain was due at `period`. -/
structure Timely (s : Subscriptions.Storage) (id : Nat) (e : Int) (period : Uint64) : Prop where
  bounded : id < 2 ^ 31
  known : id < s.nextSubscriptionId
  nonneg : 0 ≤ e
  small : e < 2 ^ 63
  ends : e ≤ unix period ∨ ∃ l ∈ s.logs, ∃ interval startAt,
    enrolmentOf id l = some (interval, startAt) ∧ StartsAtOnce l startAt ∧
      e = unix startAt + interval.toNat
  started : ∀ l ∈ s.logs, ∀ interval startAt, enrolmentOf id l = some (interval, startAt) →
    startAt.toNat ≤ period.toNat
  due : period.toNat ≤ (s.subscriptions id).nextChargeAt.toNat
  past : period.toNat < 2 ^ 62

theorem Timely.mono (h : Timely s id e period) (hg : Grows s s') : Timely s' id e period where
  bounded := h.bounded
  known := Nat.lt_of_lt_of_le h.known hg.nextId
  nonneg := h.nonneg
  small := h.small
  ends := h.ends.imp_right fun ⟨l, hl, hrest⟩ => ⟨l, hg.mem hl, hrest⟩
  started l hl interval startAt henrol :=
    h.started l (hg.enrolments id h.known l hl (by rw [henrol]; exact Option.some_ne_none _))
      interval startAt henrol
  due := Nat.le_trans h.due (hg.due_le h.known)
  past := h.past

def Sent (S : Setup ξ δ) (s : Subscriptions.Storage) (id : Nat) (attempt : Bytes32)
    (period : Uint64) : Prop :=
  ∃ e k, k < MAX_ATTEMPTS_PER_PERIOD ∧ attempt = deriveChargeAttemptId S.keccak256 id e k ∧
    Timely s id e period

theorem Sent.mono (h : Sent S s id attempt period) (hg : Grows s s') :
    Sent S s' id attempt period := by
  obtain ⟨e, k, hk, heq, htimely⟩ := h
  exact ⟨e, k, hk, heq, htimely.mono hg⟩

def JobOk (S : Setup ξ δ) (s : Subscriptions.Storage) (wk : Worker) : Prop :=
  match wk.stage with
  | .due sub => wk.subscriptionId < 2 ^ 31 ∧ KeyOk s wk.subscriptionId sub.currentPeriodEndAt
  | .pick sub period => Timely s wk.subscriptionId sub.currentPeriodEndAt period
  | .send attempt period => Sent S s wk.subscriptionId attempt period
  | _ => True

theorem JobOk.mono {wk : Worker} (h : JobOk S s wk) (inv : KeysInv s) (hg : Grows s s') :
    JobOk S s' wk := by
  unfold JobOk at h ⊢
  split at h
  · exact ⟨h.1, h.2.mono inv hg⟩
  · exact h.mono hg
  · exact h.mono hg
  · trivial

structure Inv (S : Setup ξ δ) (w : World ξ) : Prop where
  bill : BillingInv w.chain.storage
  keys : KeysInv w.chain.storage
  projected : w.projected ≤ w.chain.storage.logs.length
  rows : ∀ id : Nat, ends w.db id = periodEnd id (w.chain.storage.logs.take w.projected)
  bounded : ∀ id : Nat, ends w.db id ≠ none → id < 2 ^ 31
  jobs : ∀ wk ∈ w.workers, JobOk S w.chain.storage wk
  sent : ∀ b ∈ w.broadcasts, Sent S w.chain.storage b.subscriptionId b.chargeAttemptId b.period
  used : ∀ a, w.chain.storage.usedAttempts a = true → ∃ b ∈ w.broadcasts, b.chargeAttemptId = a

theorem World.Launched.inv (h : w.Launched) : Inv S w := by
  obtain ⟨hasRole, registry, feeCollector, tokenWhitelist, hchain⟩ := h.chain
  refine ⟨?_, ?_, ?_, fun id => ?_, fun id hid => ?_, ?_, ?_, fun a ha => ?_⟩
  · rw [hchain]
    exact BillingInv.deployed hasRole registry feeCollector tokenWhitelist
  · rw [hchain]
    exact KeysInv.deployed ..
  · rw [h.projected]
    exact Nat.zero_le _
  · rw [h.projected, ends, h.subscriptions]
    rfl
  · rw [ends, h.subscriptions] at hid
    exact absurd rfl hid
  · rw [h.workers]
    exact fun _ hwk => absurd hwk List.not_mem_nil
  · rw [h.broadcasts]
    exact fun _ hb => absurd hb List.not_mem_nil
  · rw [hchain] at ha
    cases ha

/-! ## Steps of the chain and of the indexer -/

theorem toNat_timestamp (hnow : w.now < 2 ^ 62) : (BitVec.ofNat 64 w.now).toNat = w.now := by
  rw [BitVec.toNat_ofNat]
  omega

theorem Inv.transact {sender : Address} {a : Subscriptions.Action ξ} (inv : Inv S w)
    (hnow : w.now < 2 ^ 62)
    (hattempts : ∀ b ∈ a.attempts, ∃ sent ∈ w.broadcasts, sent.chargeAttemptId = b) :
    Inv S (w.transact S sender a) := by
  have ht : (BitVec.ofNat 64 w.now).toNat < 2 ^ 62 := by rwa [toNat_timestamp hnow]
  obtain ⟨hkeys, hgrows⟩ : KeysInv (Subscriptions.step S.outside S.subscriptions w.chain
      ⟨⟨sender, BitVec.ofNat 64 w.now⟩, a⟩).storage ∧ Grows w.chain.storage
        (Subscriptions.step S.outside S.subscriptions w.chain
          ⟨⟨sender, BitVec.ofNat 64 w.now⟩, a⟩).storage :=
    KeysInv.step inv.keys inv.bill ht
  have hbill : BillingInv (Subscriptions.step S.outside S.subscriptions w.chain
      ⟨⟨sender, BitVec.ofNat 64 w.now⟩, a⟩).storage :=
    inv.bill.step (Nat.lt_of_lt_of_le ht (by norm_num))
  have happends := step_appends S.outside S.subscriptions w.chain
    ⟨⟨sender, BitVec.ofNat 64 w.now⟩, a⟩
  obtain ⟨new, hlogs⟩ := hgrows.logs
  refine ⟨hbill, hkeys, ?_, fun id => ?_, inv.bounded, fun wk hwk => ?_, fun b hb => ?_, ?_⟩
  · have hle := congrArg List.length hlogs
    rw [List.length_append] at hle
    have hprojected := inv.projected
    simp only [World.transact]
    omega
  · simp only [World.transact]
    rw [hlogs, List.take_append_of_le_length inv.projected]
    exact inv.rows id
  · exact (inv.jobs wk hwk).mono inv.keys hgrows
  · exact (inv.sent b hb).mono hgrows
  · intro x hx
    exact (happends.used x hx).elim (inv.used x) (hattempts x)

theorem Inv.call {sender : Address} {a : Subscriptions.Action ξ} (inv : Inv S w)
    (hnow : w.now < 2 ^ 62) : Inv S (w.call S sender a) := by
  have hother : a.attempts = [] → Inv S (w.transact S sender a) := by
    intro hnone
    refine inv.transact hnow fun b hb => ?_
    rw [hnone] at hb
    exact absurd hb List.not_mem_nil
  cases a with
  | batchCharge ids attempts => exact inv
  | _ => exact hother rfl

theorem Inv.mine {b : Broadcast} (inv : Inv S w) (hnow : w.now < 2 ^ 62) (hb : b ∈ w.broadcasts) :
    Inv S (w.mine S b) := by
  refine inv.transact hnow fun a ha => ?_
  exact ⟨b, hb, (List.mem_singleton.mp ha).symm⟩

theorem KeysInv.fits (inv : KeysInv s) (hids : s.nextSubscriptionId ≤ 2 ^ 63)
    {l : Subscriptions.Log} (hl : l ∈ s.logs) : Fits l where
  enrolled id henrol := by
    by_contra hge
    exact henrol (inv.known l hl id (by omega)).1
  charged id charge hcharge := by
    refine ⟨?_, inv.small l hl id charge hcharge⟩
    by_contra hge
    rw [(inv.known l hl id (by omega)).2] at hcharge
    exact nomatch hcharge

theorem Inv.project {txHash : Bytes32} {blockNumber index : Nat} (inv : Inv S w)
    (hids : w.chain.storage.nextSubscriptionId ≤ 2 ^ 63) :
    Inv S (w.project S txHash blockNumber index) := by
  unfold World.project
  split
  next l hl =>
    split
    next db happly =>
      have hfits := KeysInv.fits inv.keys hids (List.mem_of_getElem? hl)
      have hlt := (List.getElem?_eq_some_iff.mp hl).1
      refine ⟨inv.bill, inv.keys, hlt, fun id => ?_, fun id hnew => ?_, inv.jobs, inv.sent, inv.used⟩
      · rw [apply_ends hfits happly, inv.rows, List.take_add_one, hl, periodEnd_append]
        rfl
      · by_cases hold : ends w.db id = none
        · exact apply_bounded hfits happly hnew hold
        · exact inv.bounded id hold
    next => exact inv
  next => exact inv

theorem Inv.write {db : Db} {edit : RowEdit} (inv : Inv S w) : Inv S (w.write db edit) := by
  have hends : ∀ id, ends (w.write db edit).db id = ends w.db id := by
    intro id
    rw [ends, ends, World.write, Option.map_map]
    exact congrFun (congrArg Option.map (funext edit.keeps)) _
  refine ⟨inv.bill, inv.keys, inv.projected, fun id => ?_, fun id hid => ?_, inv.jobs, inv.sent,
    inv.used⟩
  · rw [hends]
    exact inv.rows id
  · exact inv.bounded id (hends id ▸ hid)

/-! ## Steps of the worker -/

theorem mem_putWorker {next : Option Worker} {wk : Worker}
    (h : wk ∈ (w.putWorker k next).workers) : wk ∈ w.workers ∨ next = some wk := by
  rw [World.putWorker, List.mem_append, List.mem_append] at h
  rcases h with (hpre | hnext) | hpost
  · exact .inl (List.mem_of_mem_take hpre)
  · exact .inr (by simpa using hnext)
  · exact .inl (List.mem_of_mem_drop hpost)

theorem Inv.putWorker (inv : Inv S w) {next : Option Worker}
    (hnext : ∀ wk, next = some wk → JobOk S w.chain.storage wk) : Inv S (w.putWorker k next) :=
  ⟨inv.bill, inv.keys, inv.projected, inv.rows, inv.bounded,
    fun wk hwk => (mem_putWorker hwk).elim (inv.jobs wk) (hnext wk), inv.sent, inv.used⟩

theorem Inv.send (inv : Inv S w) {b : Broadcast}
    (hb : Sent S w.chain.storage b.subscriptionId b.chargeAttemptId b.period) :
    Inv S (w.send b) := by
  refine ⟨inv.bill, inv.keys, inv.projected, inv.rows, inv.bounded, inv.jobs, fun b' hb' => ?_,
    fun a ha => ?_⟩
  · rcases List.mem_append.mp hb' with hb' | hb'
    · exact inv.sent b' hb'
    · rwa [List.mem_singleton.mp hb']
  · obtain ⟨b', hb', heq⟩ := inv.used a ha
    exact ⟨b', List.mem_append_left _ hb', heq⟩

theorem row_keyOk (inv : Inv S w) {sub : SubscriptionRow} (hrow : w.row id = some sub) :
    id < 2 ^ 31 ∧ KeyOk w.chain.storage id sub.currentPeriodEndAt := by
  have hend : ends w.db id = some sub.currentPeriodEndAt := by
    unfold World.row at hrow
    rw [ends, hrow]
    rfl
  refine ⟨inv.bounded id (by rw [hend]; exact Option.some_ne_none _), ?_⟩
  exact inv.keys.older _ (List.take_prefix _ _) id _ (inv.rows id ▸ hend)

/-- What a job read before its period was due is timely. -/
theorem timely_of_due (inv : Inv S w) (hnow : w.now < 2 ^ 62) (hid : id < 2 ^ 31)
    (hkey : KeyOk w.chain.storage id e) (hdue : w.isChargeDue id = true) :
    Timely w.chain.storage id e (w.chain.storage.subscriptions id).nextChargeAt := by
  have hpast : (w.chain.storage.subscriptions id).nextChargeAt.toNat ≤ w.now := by
    simp only [World.isChargeDue, Bool.and_eq_true, decide_eq_true_eq] at hdue
    exact hdue.2
  have hknown := hkey.lt inv.keys
  obtain ⟨l, hl, interval, startAt, henrol, hle, hend⟩ := hkey
  have hstart := inv.keys.started l hl id interval startAt henrol
  have hunix : unix startAt = startAt.toNat := unix_of_lt (by omega)
  have hunix' : unix (w.chain.storage.subscriptions id).nextChargeAt =
      (w.chain.storage.subscriptions id).nextChargeAt.toNat := unix_of_lt (by omega)
  have hinterval := interval.isLt
  refine ⟨hid, hknown, ?_, ?_, ?_, fun l' hl' => inv.keys.started l' hl' id, Nat.le_refl _, by omega⟩
  · omega
  · rcases hend with hend | ⟨-, hend⟩ <;> omega
  · exact hend.imp_right fun hend => ⟨l, hl, interval, startAt, henrol, hend.1, hend.2⟩

theorem pick_eq_some {sub : SubscriptionRow} (h : w.pick S id sub = some attempt) :
    ∃ k < MAX_ATTEMPTS_PER_PERIOD,
      attempt = deriveChargeAttemptId S.keccak256 id sub.currentPeriodEndAt k := by
  obtain ⟨k, hk, heq⟩ := List.mem_map.mp (List.mem_of_find?_eq_some h)
  exact ⟨k, List.mem_range.mp hk, heq.symm⟩

theorem Inv.advance {wk : Worker} {ok : Bool} (inv : Inv S w) (hnow : w.now < 2 ^ 62)
    (hwk : wk ∈ w.workers) : Inv S (w.advance S k wk ok) := by
  have hjob := inv.jobs wk hwk
  have hfree : ∀ wk' : Worker, some (⟨wk.subscriptionId, .releaseLock⟩ : Worker) = some wk' →
      JobOk S w.chain.storage wk' := by
    intro wk' heq
    cases heq
    trivial
  have hnone : ∀ wk' : Worker, none = some wk' → JobOk S w.chain.storage wk' :=
    fun _ heq => nomatch heq
  obtain ⟨id, stage⟩ := wk
  cases ok with
  | false =>
      cases stage with
      | send attempt period => exact inv.putWorker hfree
      | _ => exact inv.putWorker hnone
  | true =>
      cases stage with
      | load =>
          refine inv.putWorker fun wk' heq => ?_
          obtain ⟨stage, hload, rfl⟩ := Option.map_eq_some_iff.mp heq
          obtain ⟨sub, hrow, rfl⟩ := Option.map_eq_some_iff.mp hload
          unfold JobOk
          split
          next sub' hstage =>
            dsimp only at hstage
            split at hstage
            · exact nomatch hstage
            · cases hstage
              exact row_keyOk inv hrow
          next hstage => split at hstage <;> exact nomatch hstage
          next hstage => split at hstage <;> exact nomatch hstage
          next => trivial
      | due sub =>
          refine inv.putWorker fun wk' heq => ?_
          cases heq
          dsimp only
          by_cases hdue : w.isChargeDue id = true
          · rw [if_pos hdue]
            exact timely_of_due inv hnow hjob.1 hjob.2 hdue
          · rw [if_neg hdue]
            trivial
      | pick sub period =>
          refine inv.putWorker fun wk' heq => ?_
          cases heq
          dsimp only
          cases hpick : w.pick S id sub with
          | none => trivial
          | some attempt =>
              obtain ⟨k, hk, rfl⟩ := pick_eq_some hpick
              exact ⟨_, k, hk, rfl, hjob⟩
      | send attempt period => exact (inv.send (b := ⟨id, attempt, period⟩) hjob).putWorker hfree
      | releaseLock =>
          exact ⟨inv.bill, inv.keys, inv.projected, inv.rows, inv.bounded,
            fun wk' hwk' => (mem_putWorker hwk').elim (inv.jobs wk') (hnone wk'), inv.sent, inv.used⟩

theorem Inv.step (inv : Inv S w) (hnow : w.now < 2 ^ 62)
    (hids : w.chain.storage.nextSubscriptionId ≤ 2 ^ 63) : Inv S (step S w l) := by
  cases l with
  | call sender a => exact inv.call hnow
  | mine i =>
      simp only [Billing.step]
      split
      next b hb => exact inv.mine hnow (List.mem_of_getElem? hb)
      next => exact inv
  | project txHash blockNumber index => exact inv.project hids
  | write db edit => exact inv.write
  | sweep candidates =>
      simp only [Billing.step, World.sweep]
      split
      · exact ⟨inv.bill, inv.keys, inv.projected, inv.rows, inv.bounded, inv.jobs, inv.sent, inv.used⟩
      · exact inv
  | take i =>
      simp only [Billing.step]
      split
      next id hq =>
        refine ⟨inv.bill, inv.keys, inv.projected, inv.rows, inv.bounded, fun wk hwk => ?_, inv.sent,
          inv.used⟩
        rcases List.mem_append.mp hwk with hwk | hwk
        · exact inv.jobs wk hwk
        · rw [List.mem_singleton.mp hwk]
          trivial
      next => exact inv
  | advance k ok =>
      simp only [Billing.step]
      split
      next wk hk => exact inv.advance hnow (List.mem_of_getElem? hk)
      next => exact inv
  | answerLost k =>
      simp only [Billing.step]
      split
      next id attempt period hk =>
        have hjob := inv.jobs _ (List.mem_of_getElem? hk)
        refine (inv.send (b := ⟨id, attempt, period⟩) hjob).putWorker fun wk' heq => ?_
        cases heq
        trivial
      next => exact inv
  | crash k => exact inv.putWorker fun _ heq => by cases heq
  | lapse => exact inv.write
  | elapse seconds =>
      exact ⟨inv.bill, inv.keys, inv.projected, inv.rows, inv.bounded, inv.jobs, inv.sent, inv.used⟩

/-! ## Periods that jobs have found due -/

/-- The subscription is due on chain, at this due time. -/
structure World.PeriodDue (w : World ξ) (id : Nat) (period : Uint64) : Prop where
  due : w.isChargeDue id = true
  next : (w.chain.storage.subscriptions id).nextChargeAt = period

def Worker.foundDue (wk : Worker) : Option (Nat × Uint64) :=
  match wk.stage with
  | .pick _ period | .send _ period => some (wk.subscriptionId, period)
  | _ => none

/-- The periods of the jobs past their due check and of the ids that were sent. -/
def World.periods (w : World ξ) : List (Nat × Uint64) :=
  w.broadcasts.map (fun b => (b.subscriptionId, b.period)) ++ w.workers.filterMap Worker.foundDue

end Periods

end Strimz.Billing
