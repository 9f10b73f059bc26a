import Strimz.SubscriptionSteps

/-!
# What a transaction writes to the log

`step_writes`: the logs one transaction adds, with what the book is afterwards. Unlike
`step_change`, it says of every log that is added what it is, which is what an indexer that
applies the log one entry after the other needs to know.
-/

namespace Strimz.Subscriptions

open Tx

variable {ξ δ : Type} {O : Outside ξ δ} {this : Address} {c c' : Ctx Storage ξ} {l : Label ξ}
  {s s' : Storage}

/-- An event that is about no subscription. -/
def Event.Config : Event → Prop
  | .tokensRescued _ _ _ _ => True
  | .dependencyUpdated name _ =>
      name = "registry" ∨ name = "feeCollector" ∨ name = "tokenWhitelist"
  | _ => False

/-- What an indexer can see of a storage, and what decides what it sees next. -/
structure Book where
  nextSubscriptionId : Nat
  subscriptions : Nat → Subscription
  usedAttempts : Bytes32 → Bool
  logs : List Log

def Storage.book (s : Storage) : Book :=
  ⟨s.nextSubscriptionId, s.subscriptions, s.usedAttempts, s.logs⟩

@[simps]
def Book.log (b : Book) (l : Log) : Book := { b with logs := b.logs ++ [l] }

@[simps]
def Book.putSubscription (b : Book) (id : Nat) (sub : Subscription) : Book :=
  { b with subscriptions := Function.update b.subscriptions id sub }

@[simps]
def Book.useAttempt (b : Book) (attempt : Bytes32) : Book :=
  { b with usedAttempts := Function.update b.usedAttempts attempt true }

/-- A subscription is handed out. -/
@[simps]
def Book.enrol (b : Book) (msg : Msg) (payer : Address) (p : Terms) : Book :=
  { b with
    nextSubscriptionId := b.nextSubscriptionId + 1
    subscriptions := Function.update b.subscriptions b.nextSubscriptionId
      (newSubscription msg payer p) }

/-- What one transaction does to the book. -/
inductive Writes (O : Outside ξ δ) (this : Address) (l : Label ξ) (c : Ctx Storage ξ) :
    Book → Prop
  | config (new : List Log) (hnew : ∀ x ∈ new, x.timestamp = l.msg.timestamp ∧ x.event.Config) :
      Writes O this l c { c.storage.book with logs := c.storage.logs ++ new }
  | enrolled (payer : Address) (p : Terms) (hp : Checked l.msg p) :
      Writes O this l c ((c.storage.book.enrol l.msg payer p).log ⟨l.msg.timestamp,
        .subscriptionCreated c.storage.nextSubscriptionId p.merchantId payer p.token p.amount
          p.interval (firstChargeAt l.msg p)⟩)
  | cancelled (id : Nat) (hknown : (c.storage.subscriptions id).payer ≠ 0)
      (hlive : (c.storage.subscriptions id).cancelled = false) :
      Writes O this l c ((c.storage.book.putSubscription id
        { c.storage.subscriptions id with cancelled := true }).log
          ⟨l.msg.timestamp, .subscriptionCancelled id l.msg.sender⟩)
  | reinstated (id : Nat) (haction : l.action = .reinstate id) (b : Book) : Writes O this l c b
  | charged (rows : List (Nat × Bytes32)) (outcomes : List ChargeOutcome) (c₁ : Ctx Storage ξ)
      (hrows : Rows O this l.msg rows outcomes ⟨c.storage.setEntered true, c.ext⟩ c₁) :
      Writes O this l c c₁.storage.book

theorem Writes.refl : Writes O this l c c.storage.book := by
  have h : Writes O this l c { c.storage.book with logs := c.storage.logs ++ [] } :=
    .config [] (by simp)
  rwa [List.append_nil] at h

/-- One event about no subscription, and nothing else. -/
theorem Writes.of_config {e : Event} (he : e.Config)
    (hbook : s'.book = c.storage.book.log ⟨l.msg.timestamp, e⟩) :
    Writes O this l c s'.book := by
  rw [hbook]
  refine .config [⟨l.msg.timestamp, e⟩] fun x hx => ?_
  obtain rfl := List.mem_singleton.mp hx
  exact ⟨rfl, he⟩

theorem setDependency_writes {name : String} {write : Address → Storage → Storage} {v : Address}
    (hname : name = "registry" ∨ name = "feeCollector" ∨ name = "tokenWhitelist")
    (hwrite : ∀ s, (write v s).book = s.book)
    (h : setDependency l.msg name write v c = .ok ((), c')) :
    Writes O this l c c'.storage.book := by
  simp only [setDependency, emit, bind_eq_ok, sload_eq_ok, onlyRole_eq_ok, whenPaused_eq_ok,
    revertIf_eq_ok, sstore_eq_ok, Prod.mk.injEq, existsAndEq, exists_const, true_and, and_true] at h
  obtain ⟨-, -, -, rfl⟩ := h
  refine .of_config (e := .dependencyUpdated name v) hname ?_
  rw [← hwrite c.storage]
  rfl

theorem enrol_writes {payer : Address} {p : Terms} {s₀ : Storage} {x : ξ} {id : Nat}
    (hp : Checked l.msg p) (h₀ : s₀.book = c.storage.book)
    (h : enrol l.msg payer p ⟨s₀, x⟩ = .ok (id, c')) : Writes O this l c c'.storage.book := by
  obtain ⟨-, -, -, rfl⟩ := enrol_eq_ok.mp h
  have hbook : (s₀.enrolled l.msg payer p).book = (s₀.book.enrol l.msg payer p).log
      ⟨l.msg.timestamp, .subscriptionCreated s₀.nextSubscriptionId p.merchantId payer p.token
        p.amount p.interval (firstChargeAt l.msg p)⟩ := rfl
  rw [hbook, show s₀.nextSubscriptionId = c.storage.nextSubscriptionId from
    congrArg Book.nextSubscriptionId h₀, h₀]
  exact .enrolled payer p hp

/-- Every transaction is one of these. -/
theorem step_writes (O : Outside ξ δ) (this : Address) (c : Ctx Storage ξ) (l : Label ξ) :
    Writes O this l c (step O this c l).storage.book := by
  refine commit_cases (P := fun c' : Ctx Storage ξ => Writes O this l c c'.storage.book) .refl
    fun _ c' h => ?_
  cases haction : l.action with
  | createSubscription p =>
      simp only [haction, dispatch, bind_eq_ok, pure_eq_ok, Prod.mk.injEq, existsAndEq, true_and,
        and_true] at h
      obtain ⟨id, h⟩ := h
      obtain ⟨-, hp, -, -, h⟩ := createSubscription_eq_ok.mp h
      exact enrol_writes hp rfl h
  | permitAndCreateSubscription p nonce permitData permitSig intentSig =>
      simp only [haction, dispatch, bind_eq_ok, pure_eq_ok, Prod.mk.injEq, existsAndEq, true_and,
        and_true] at h
      obtain ⟨id, h⟩ := h
      obtain ⟨-, hp, -, -, -, -, -, -, permit, x, -, -, h⟩ :=
        permitAndCreateSubscription_eq_ok.mp h
      have hbook : (c.storage.useIntentNonce permitData.owner nonce).book = c.storage.book := rfl
      exact enrol_writes hp hbook h
  | cancel id =>
      rw [haction] at h
      obtain ⟨hknown, m, -, -, hlive, ⟨-, rfl⟩ | ⟨-, rfl⟩⟩ := cancel_eq_ok.mp h
      · exact .cancelled id hknown hlive
      · exact .cancelled id hknown hlive
  | reinstate id => exact .reinstated id haction _
  | batchCharge ids attempts =>
      simp only [haction, dispatch, bind_eq_ok, pure_eq_ok, Prod.mk.injEq, existsAndEq, true_and,
        and_true] at h
      obtain ⟨outcomes, h⟩ := h
      obtain ⟨-, -, -, -, -, c₁, hrows, rfl⟩ := batchCharge_eq_ok.mp h
      exact .charged _ outcomes c₁ (chargeRows_ok hrows)
  | settleCharge payer token collector merchantId feeAmount payout netAmount =>
      rw [haction] at h
      obtain ⟨-, x, -, rfl⟩ := settleCharge_ok h
      exact .refl
  | pause =>
      simp only [haction, dispatch, pause, bind_eq_ok, sload_eq_ok, onlyRole_eq_ok,
        whenNotPaused_eq_ok, sstore_eq_ok, Prod.mk.injEq, existsAndEq, exists_const, true_and,
        and_true] at h
      obtain ⟨-, -, rfl⟩ := h
      exact .refl
  | unpause =>
      simp only [haction, dispatch, unpause, bind_eq_ok, sload_eq_ok, onlyRole_eq_ok,
        whenPaused_eq_ok, sstore_eq_ok, Prod.mk.injEq, existsAndEq, exists_const, true_and,
        and_true] at h
      obtain ⟨-, -, rfl⟩ := h
      exact .refl
  | setRegistry v =>
      simp only [haction, dispatch, setRegistry] at h
      exact setDependency_writes (.inl rfl) (fun _ => rfl) h
  | setFeeCollector v =>
      simp only [haction, dispatch, setFeeCollector] at h
      exact setDependency_writes (.inr (.inl rfl)) (fun _ => rfl) h
  | setTokenWhitelist v =>
      simp only [haction, dispatch, setTokenWhitelist] at h
      exact setDependency_writes (.inr (.inr rfl)) (fun _ => rfl) h
  | rescue token to_ amount =>
      simp only [haction, dispatch, rescue, nonReentrant, emit, bind_eq_ok, sload_eq_ok,
        onlyRole_eq_ok, guarded_eq_ok, revertIf_eq_ok, call_eq_ok, sstore_eq_ok, Prod.mk.injEq,
        existsAndEq, exists_const, true_and, and_true] at h
      obtain ⟨-, -, x, -, rfl⟩ := h
      exact .of_config (e := .tokensRescued token to_ amount l.msg.sender) trivial rfl
  | setRoles hasRole =>
      simp only [haction, dispatch, sstore_eq_ok, Prod.mk.injEq, true_and] at h
      subst h
      exact .refl
  | external f =>
      simp only [haction, dispatch, modify_eq_ok, Prod.mk.injEq, true_and] at h
      subst h
      exact .refl

/-! ## One row of a batch, as the book sees it -/

/-- The periods before the one that is paid are passed over, and that is logged. -/
def Book.skipTo (b : Book) (msg : Msg) (id : Nat) (sub : Subscription) (start : Uint64) : Book :=
  if 0 < periodsSkipped msg sub then
    (b.putSubscription id { sub with nextChargeAt := start }).log
      ⟨msg.timestamp, .subscriptionPeriodsSkipped id (periodsSkipped msg sub) start⟩
  else b

/-- What one row does to the book: a skip is logged, with the attempt id burned or not, or the
skipped periods and the charge. -/
inductive RowWrites (msg : Msg) (id : Nat) (attempt : Bytes32) (b : Book) : Book → Prop
  | skipped (outcome : ChargeOutcome) (hcharged : outcome ≠ .charged) :
      RowWrites msg id attempt b
        (b.log ⟨msg.timestamp, .subscriptionChargeSkipped id attempt outcome⟩)
  | failed :
      RowWrites msg id attempt b ((b.useAttempt attempt).log
        ⟨msg.timestamp, .subscriptionChargeSkipped id attempt .transferFailed⟩)
  | charged (sub : Subscription) (start : Uint64) (feeAmount netAmount : Uint256)
      (hsub : b.subscriptions id = sub) (hfresh : b.usedAttempts attempt = false)
      (hpayer : sub.payer ≠ 0) (hlive : sub.cancelled = false)
      (hdue : sub.nextChargeAt ≤ msg.timestamp)
      (hstart : start = BitVec.ofNat 64 (paidPeriodStart msg sub)) :
      RowWrites msg id attempt b ((((b.useAttempt attempt).skipTo msg id sub start).putSubscription
        id { sub with nextChargeAt := start + sub.interval.setWidth 64 }).log ⟨msg.timestamp,
          .subscriptionCharged id attempt sub.amount feeAmount netAmount
            (start + sub.interval.setWidth 64)⟩)

theorem advanced_book {msg : Msg} {id : Nat} {attempt : Bytes32} {sub : Subscription}
    {feeAmount netAmount : Uint256} {start : Uint64} :
    (s.advanced msg id attempt sub feeAmount netAmount start).book =
      ((s.book.skipTo msg id sub start).putSubscription
        id { sub with nextChargeAt := start + sub.interval.setWidth 64 }).log ⟨msg.timestamp,
          .subscriptionCharged id attempt sub.amount feeAmount netAmount
            (start + sub.interval.setWidth 64)⟩ := by
  unfold Storage.advanced Storage.logSkipped Book.skipTo
  split
  · simp [Storage.book, Storage.log, Storage.putSubscription, Book.log, Book.putSubscription]
  · simp [Storage.book, Storage.log, Storage.putSubscription, Book.log, Book.putSubscription]

theorem row_writes {msg : Msg} {id : Nat} {attempt : Bytes32} {outcome : ChargeOutcome}
    (h : Row O this msg id attempt c c' outcome) :
    RowWrites msg id attempt c.storage.book c'.storage.book := by
  cases h with
  | skipped hcharged _ h =>
      subst h
      exact .skipped outcome hcharged
  | failed m _ h =>
      subst h
      exact .failed
  | charged m hdue x _ h =>
      subst h
      rw [advanced_book]
      exact .charged _ _ _ _ rfl hdue.fresh hdue.known hdue.live hdue.due rfl

end Strimz.Subscriptions
