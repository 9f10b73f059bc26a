import Strimz.RelayAttempts
import Strimz.RelayQueue

/-!
# The pointer names whatever is live

A call that is about to enqueue, an unfinished job and a payment that can still be mined are
all named by the pointer of their scope. Every step keeps that, as long as no pointer is taken
over or runs out while what it names is live.
-/

namespace Strimz.Relay.Attempts

open Runs

section Steps

variable {w w' : World} {l : Label} {scope : Scope} {key previous : Key} {job read : Job}
  {c : Call} {i node timestamp : Nat} {o : Outcome}

/-! ## What is live -/

/-- A call is past its claim and has not enqueued yet. -/
def World.Holds (w : World) (scope : Scope) (key : Key) : Prop :=
  ∃ c ∈ w.calls, c.scope = scope ∧ c.key = key ∧ (c.stage = .consume ∨ c.stage = .add)

/-- A job is unfinished or, for a payment, a transaction is pending. -/
def World.Blocks (w : World) (scope : Scope) (key : Key) : Prop :=
  w.Queued scope key ∨ (∃ sessionId, scope = .payment sessionId) ∧ w.Of key scope ∧ w.Pending key

/-- The job that the check read is still the one in the queue, with the same broadcast. -/
def World.AsRead (w : World) (previous : Key) (read : Option Job) : Prop :=
  ∃ job job', read = some job ∧ w.relay.jobs previous = some job' ∧ job'.number = job.number ∧
    job'.broadcast = job.broadcast

/-- No pointer is lost while what it names is live. -/
structure Careful (w : World) (l : Label) : Prop where
  /-- A claim replaces a key that no call is about to enqueue, and whose job is as it was read
  or can no longer take effect. -/
  takeover : ∀ i o node timestamp c previous read, l = .advance i o node timestamp →
    o ≠ .failed → w.calls[i]? = some c → c.stage = .claim (some previous) read →
      w.current c.scope = some previous →
        ¬ w.Holds c.scope previous ∧ (w.AsRead previous read ∨ ¬ w.Blocks c.scope previous)
  /-- A payment whose job was removed is not enqueued again while it is pending. -/
  renewal : ∀ i o node timestamp c, l = .advance i o node timestamp → o ≠ .failed →
    w.calls[i]? = some c → c.stage = .add → w.relay.jobs c.key = none →
      ∀ sessionId, c.scope = .payment sessionId → ¬ w.Pending c.key
  /-- A pointer does not run out before what it names is over. -/
  expiry : ∀ seconds scope key, l = .relay (.elapse seconds) → w.current scope = some key →
    (step w l).current scope = none → ¬ w.Holds scope key ∧ ¬ w.Blocks scope key

/-! ## The invariant -/

/-- Since the check the job has been in the failed state, or is gone. -/
def World.FailedSince (w : World) (previous : Key) (read : Job) : Prop :=
  read.number < w.relay.nextNumber ∧ read.data.idempotencyKey = previous ∧
    ∀ job, w.relay.jobs previous = some job → job.number = read.number → job.state = .failed

/-- The recorded broadcast of a payment can no longer take effect. -/
def World.Settled (w : World) (previous : Key) (read : Job) : Prop :=
  ∀ sessionId validBefore body, previous = .relay (.payWithAuthorization sessionId validBefore body) →
    read.broadcast = none ∨ (∃ tx, read.broadcast = some tx ∧ (tx, .reverted) ∈ w.relay.mined) ∨
      w.Expired previous

def CallOk (w : World) (c : Call) : Prop :=
  match c.stage with
  | .getState previous read =>
      read.number < w.relay.nextNumber ∧ read.data.idempotencyKey = previous
  | .receiptStatus previous read tx => w.FailedSince previous read ∧ read.broadcast = some tx
  | .latestBlockTimestamp previous read validBefore => w.FailedSince previous read ∧
      ∃ sessionId body scope,
        read.data = .call (.payWithAuthorization sessionId validBefore body) scope
  | .claim (some previous) (some read) => w.FailedSince previous read ∧ w.Settled previous read
  | _ => True

def Scoped (callData : CallData) (scope : Scope) : Prop :=
  ∃ planId, scope = attemptScope planId callData

structure Inv (w : World) : Prop where
  relay : Relay.Inv false w.relay
  scopes : ∀ key job callData scope, w.relay.jobs key = some job →
    job.data = .call callData scope → Scoped callData scope
  calls : ∀ c ∈ w.calls, Scoped c.callData c.scope ∧ CallOk w c
  pointed : ∀ scope key, w.Holds scope key ∨ w.Blocks scope key → w.current scope = some key
  /-- What is pending of a payment is of the job in the queue. -/
  own : ∀ key job, w.relay.jobs key = some job → (∃ sessionId, w.Of key (.payment sessionId)) →
    ∀ tx ∈ w.relay.sent, tx.key = key → w.relay.confirmed ≤ tx.nonce → ¬ w.Expired key →
      tx.job = job.number

theorem World.Launched.inv (h : w.Launched) : Inv w := by
  have hnone : ∀ {key : Key} {job : Job} {P : Prop}, w.relay.jobs key = some job → P := by
    intro key job P hjob
    rw [h.relay.jobs] at hjob
    exact nomatch hjob
  refine ⟨h.relay.inv, fun _ _ _ _ => hnone, ?_, fun scope key hlive => ?_, fun _ _ => hnone⟩
  · simp [h.calls]
  · rcases hlive with ⟨c, hc, -⟩ | ⟨job, -, hjob, -⟩ | ⟨-, -, tx, htx, -⟩
    · rw [h.calls] at hc
      exact absurd hc List.not_mem_nil
    · exact hnone hjob
    · rw [h.relay.sent] at htx
      exact absurd htx List.not_mem_nil

/-- A payment's key is that of a job with its session's scope. -/
theorem Inv.queued_of_payment (h : Inv w) {sessionId : Nat} (hof : w.Of key (.payment sessionId))
    (hjob : w.relay.jobs key = some job) (hunfinished : job.state.unfinished = true) :
    w.Queued (.payment sessionId) key := by
  obtain ⟨validBefore, body, rfl⟩ := hof
  have hkey := h.relay.base.keys _ job hjob
  cases hdata : job.data with
  | registerMerchant merchantId =>
      rw [hdata] at hkey
      exact nomatch hkey
  | call callData scope =>
      rw [hdata] at hkey
      have hcall : callData = .payWithAuthorization sessionId validBefore body := Key.relay.inj hkey
      obtain ⟨planId, hscope⟩ := h.scopes _ job callData scope hjob hdata
      rw [hcall] at hscope
      rw [show scope = .payment sessionId from hscope] at hdata
      exact ⟨job, callData, hjob, hdata, hunfinished⟩

/-! ## Facts that last -/

/-- What a call has learnt stays true. -/
structure Later (w w' : World) : Prop where
  nextNumber : w.relay.nextNumber ≤ w'.relay.nextNumber
  jobs : ∀ key job', w'.relay.jobs key = some job' → job'.number < w.relay.nextNumber →
    ∃ job, w.relay.jobs key = some job ∧ job'.number = job.number ∧
      (job.state = .failed → job'.state = .failed)
  mined : ∀ e ∈ w.relay.mined, e ∈ w'.relay.mined
  latestBlock : w.latestBlock ≤ w'.latestBlock

theorem Later.expired (h : Later w w') (hexpired : w.Expired key) : w'.Expired key := by
  unfold World.Expired at *
  split at hexpired
  · exact Nat.le_trans hexpired h.latestBlock
  · exact hexpired.elim

theorem Later.failedSince (h : Later w w') (hfailed : w.FailedSince previous read) :
    w'.FailedSince previous read := by
  obtain ⟨hnumber, hkey, hstate⟩ := hfailed
  refine ⟨Nat.lt_of_lt_of_le hnumber h.nextNumber, hkey, fun job' hjob' heq => ?_⟩
  obtain ⟨job, hjob, hsame, hkeeps⟩ := h.jobs previous job' hjob' (heq ▸ hnumber)
  exact hkeeps (hstate job hjob (hsame.symm.trans heq))

theorem Later.settled (h : Later w w') (hsettled : w.Settled previous read) :
    w'.Settled previous read := by
  intro sessionId validBefore body hkey
  rcases hsettled sessionId validBefore body hkey with hnone | ⟨tx, htx, hmined⟩ | hexpired
  · exact .inl hnone
  · exact .inr (.inl ⟨tx, htx, h.mined _ hmined⟩)
  · exact .inr (.inr (h.expired hexpired))

theorem Later.callOk (h : Later w w') (hok : CallOk w c) : CallOk w' c := by
  unfold CallOk at *
  split at hok
  · exact ⟨Nat.lt_of_lt_of_le hok.1 h.nextNumber, hok.2⟩
  · exact ⟨h.failedSince hok.1, hok.2⟩
  · exact ⟨h.failedSince hok.1, hok.2⟩
  · exact ⟨h.failedSince hok.1, h.settled hok.2⟩
  · trivial

theorem Later.refl_of_eq (hrelay : w'.relay = w.relay) (hblock : w.latestBlock ≤ w'.latestBlock) :
    Later w w' := by
  refine ⟨Nat.le_of_eq (by rw [hrelay]), fun k j hj _ => ⟨j, hrelay ▸ hj, rfl, id⟩, ?_, hblock⟩
  rw [hrelay]
  exact fun _ he => he

/-! ## Calls -/

/-- No call is added that holds anything. -/
theorem holds_of_calls (hcalls : ∀ c ∈ w'.calls, c.stage = .consume ∨ c.stage = .add →
    ∃ c₀ ∈ w.calls, c₀.scope = c.scope ∧ c₀.key = c.key ∧ (c₀.stage = .consume ∨ c₀.stage = .add))
    (h : w'.Holds scope key) : w.Holds scope key := by
  obtain ⟨c, hc, hscope, hkey, hstage⟩ := h
  obtain ⟨c₀, hc₀, hscope₀, hkey₀, hstage₀⟩ := hcalls c hc hstage
  exact ⟨c₀, hc₀, hscope₀.trans hscope, hkey₀.trans hkey, hstage₀⟩

/-- What a call leaves behind: the others, and itself at its next stage. -/
theorem mem_putCall {next : Option CallStage} {c' : Call} (h : c' ∈ (w.putCall i c next).calls) :
    c' ∈ w.calls ∨ ∃ stage, next = some stage ∧ c' = { c with stage } := by
  cases next with
  | none => exact .inl (List.mem_of_mem_eraseIdx h)
  | some stage =>
      rcases List.mem_or_eq_of_mem_set h with h | h
      · exact .inl h
      · exact .inr ⟨stage, rfl, h⟩

@[simp] theorem putCall_relay (next : Option CallStage) : (w.putCall i c next).relay = w.relay := by
  cases next <;> rfl

@[simp] theorem putCall_pointers (next : Option CallStage) :
    (w.putCall i c next).pointers = w.pointers := by
  cases next <;> rfl

@[simp] theorem putCall_latestBlock (next : Option CallStage) :
    (w.putCall i c next).latestBlock = w.latestBlock := by
  cases next <;> rfl

theorem current_of_eq (hrelay : w'.relay.now = w.relay.now) (hpointers : w'.pointers = w.pointers) :
    w'.current scope = w.current scope := by
  rw [World.current, World.current, hrelay, hpointers]

/-- What blocks a scope depends on the relay and the latest block only. -/
theorem blocks_of_eq (hrelay : w'.relay = w.relay) (hblock : w.latestBlock ≤ w'.latestBlock)
    (h : w'.Blocks scope key) : w.Blocks scope key := by
  have hlater : Later w w' := .refl_of_eq hrelay hblock
  rcases h with ⟨job, callData, hjob, hdata, hunfinished⟩ | ⟨hpayment, hof, tx, htx, hkey, hcan, hexpired⟩
  · exact .inl ⟨job, callData, hrelay ▸ hjob, hdata, hunfinished⟩
  · obtain ⟨sessionId, rfl⟩ := hpayment
    exact .inr ⟨⟨sessionId, rfl⟩, hof, tx, hrelay ▸ htx, hkey, hrelay ▸ hcan,
      fun h => hexpired (hlater.expired h)⟩

/-- The relay and the pointers stay; no call gets further than its claim. -/
theorem Inv.calls_only (h : Inv w) (hrelay : w'.relay = w.relay)
    (hpointers : w'.pointers = w.pointers) (hblock : w.latestBlock ≤ w'.latestBlock)
    (hcalls : ∀ c ∈ w'.calls, c ∈ w.calls ∨ Scoped c.callData c.scope ∧ CallOk w c ∧
      (c.stage = .consume ∨ c.stage = .add → w.current c.scope = some c.key)) : Inv w' where
  relay := hrelay ▸ h.relay
  scopes := hrelay ▸ h.scopes
  calls c hc := by
    have hlater : Later w w' := .refl_of_eq hrelay hblock
    rcases hcalls c hc with hold | ⟨hscoped, hok, -⟩
    · exact ⟨(h.calls c hold).1, hlater.callOk (h.calls c hold).2⟩
    · exact ⟨hscoped, hlater.callOk hok⟩
  pointed scope key hlive := by
    rw [current_of_eq (by rw [hrelay]) hpointers]
    rcases hlive with ⟨c, hc, rfl, rfl, hstage⟩ | hblocks
    · rcases hcalls c hc with hold | ⟨-, -, hcurrent⟩
      · exact h.pointed _ _ (.inl ⟨c, hold, rfl, rfl, hstage⟩)
      · exact hcurrent hstage
    · exact h.pointed scope key (.inr (blocks_of_eq hrelay hblock hblocks))
  own key job hjob hof tx htx hkey hcan hexpired := by
    have hlater : Later w w' := .refl_of_eq hrelay hblock
    exact h.own key job (hrelay ▸ hjob) hof tx (hrelay ▸ htx) hkey (hrelay ▸ hcan)
      fun h => hexpired (hlater.expired h)

/-! ## The relay -/

/-- The workers, the chain and the nodes take a step. -/
theorem Inv.relay_kept (h : Inv w) {l : Relay.Label} (hl : ∀ data, l ≠ .enqueue data)
    (hpointed : ∀ scope key, w.Holds scope key ∨ w.Blocks scope key →
      ({ w with relay := Relay.step w.relay l } : World).current scope = some key) :
    Inv { w with relay := Relay.step w.relay l } := by
  have hkept := step_kept h.relay hl
  have hlater : Later w { w with relay := Relay.step w.relay l } := by
    refine ⟨Nat.le_of_eq hkept.nextNumber.symm, fun k j hj _ => ?_, hkept.mined, Nat.le_refl _⟩
    obtain ⟨job, hjob, hcarries⟩ := hkept.jobs k j hj
    exact ⟨job, hjob, hcarries.number, hcarries.failed⟩
  -- what blocks after the step has blocked before
  have hblocks : ∀ scope key, ({ w with relay := Relay.step w.relay l } : World).Blocks scope key →
      w.Blocks scope key := by
    intro scope key hblocks
    rcases hblocks with ⟨job', callData, hjob', hdata, hunfinished⟩ | ⟨⟨sessionId, rfl⟩, hof, tx, htx,
      rfl, hcan, hexpired⟩
    · obtain ⟨job, hjob, hcarries⟩ := hkept.jobs key job' hjob'
      exact .inl ⟨job, callData, hjob, hcarries.data ▸ hdata, hcarries.unfinished hunfinished⟩
    · rcases hkept.sent tx htx with htx | ⟨job, hjob, hunfinished, -⟩
      · exact .inr ⟨⟨sessionId, rfl⟩, hof, tx, htx, rfl, Nat.le_trans hkept.confirmed hcan, hexpired⟩
      · exact .inl (h.queued_of_payment hof hjob hunfinished)
  refine ⟨h.relay.step_mineable l, fun k j callData scope hj hdata => ?_, fun c hc => ?_,
    fun scope key hlive => ?_, fun k j hj hof tx htx hkey hcan hexpired => ?_⟩
  · obtain ⟨job, hjob, hcarries⟩ := hkept.jobs k j hj
    exact h.scopes k job callData scope hjob (hcarries.data ▸ hdata)
  · exact ⟨(h.calls c hc).1, hlater.callOk (h.calls c hc).2⟩
  · exact hpointed scope key (hlive.imp_right (hblocks scope key))
  · obtain ⟨job, hjob, hcarries⟩ := hkept.jobs k j hj
    rcases hkept.sent tx htx with htx | ⟨job', hjob', -, hnumber⟩
    · exact (h.own k job hjob hof tx htx hkey (Nat.le_trans hkept.confirmed hcan) hexpired).trans
        hcarries.number.symm
    · rw [hkey, hjob] at hjob'
      cases hjob'
      exact hnumber.trans hcarries.number.symm

theorem Inv.enqueue (h : Inv w) (data : RelayJob)
    (hscoped : ∀ callData scope, data = .call callData scope → Scoped callData scope)
    (hnamed : ∀ callData scope, data = .call callData scope →
      w.current scope = some data.idempotencyKey)
    (hspent : w.relay.jobs data.idempotencyKey = none → ∀ callData sessionId,
      data = .call callData (.payment sessionId) → ¬ w.Pending data.idempotencyKey) :
    Inv { w with relay := w.relay.enqueue data } := by
  have hrelay : Relay.Inv false (w.relay.enqueue data) := h.relay.step_mineable (.enqueue data)
  unfold Relay.World.enqueue at hrelay ⊢
  split at hrelay
  · exact h
  next hnone =>
    have hjobs : ∀ k j, Function.update w.relay.jobs data.idempotencyKey
        (some ⟨w.relay.nextNumber, data, none, 0, .waiting, 0⟩) k = some j →
          w.relay.jobs k = some j ∨ k = data.idempotencyKey ∧
            j = ⟨w.relay.nextNumber, data, none, 0, .waiting, 0⟩ := by
      intro k j hj
      by_cases hk : k = data.idempotencyKey
      · subst hk
        rw [Function.update_self] at hj
        exact .inr ⟨rfl, (Option.some.inj hj).symm⟩
      · rw [Function.update_of_ne hk] at hj
        exact .inl hj
    refine ⟨hrelay, fun k j callData scope hj hdata => ?_, fun c hc => ⟨(h.calls c hc).1, ?_⟩,
      fun scope key hlive => ?_, fun k j hj hof tx htx hkey hcan hexpired => ?_⟩
    · rcases hjobs k j hj with hj | ⟨-, rfl⟩
      · exact h.scopes k j callData scope hj hdata
      · exact hscoped callData scope hdata
    · refine Later.callOk ⟨Nat.le_succ _, fun k j hj hnumber => ?_, fun _ he => he, Nat.le_refl _⟩
        (h.calls c hc).2
      rcases hjobs k j hj with hj | ⟨-, rfl⟩
      · exact ⟨j, hj, rfl, id⟩
      · exact absurd hnumber (Nat.lt_irrefl _)
    · have hcurrent : w.current scope = some key := by
        rcases hlive with hholds | ⟨job, callData, hjob, hdata, hunfinished⟩ | hpending
        · exact h.pointed scope key (.inl hholds)
        · rcases hjobs key job hjob with hjob | ⟨rfl, rfl⟩
          · exact h.pointed scope key (.inr (.inl ⟨job, callData, hjob, hdata, hunfinished⟩))
          · exact hnamed callData scope hdata
        · obtain ⟨⟨sessionId, rfl⟩, hpending⟩ := hpending
          exact h.pointed _ key (.inr (.inr ⟨⟨sessionId, rfl⟩, hpending⟩))
      exact hcurrent
    · rcases hjobs k j hj with hj | ⟨rfl, rfl⟩
      · exact h.own k j hj hof tx htx hkey hcan hexpired
      · -- a job that comes back finds nothing pending
        obtain ⟨sessionId, validBefore, body, hpay⟩ := hof
        cases data with
        | registerMerchant merchantId => exact nomatch hpay
        | call callData scope =>
            obtain rfl : callData = .payWithAuthorization sessionId validBefore body :=
              Key.relay.inj hpay
            obtain ⟨planId, hscope⟩ := hscoped _ scope rfl
            obtain rfl : scope = .payment sessionId := hscope
            exact absurd ⟨tx, htx, hkey, hcan, hexpired⟩ (hspent hnone _ sessionId rfl)

/-! ## A call goes on -/

theorem Inv.putCall (h : Inv w) (hc : c ∈ w.calls) {next : Option CallStage}
    (hok : ∀ stage, next = some stage → CallOk w { c with stage })
    (hheld : ∀ stage, next = some stage → stage = .consume ∨ stage = .add →
      w.current c.scope = some c.key) : Inv (w.putCall i c next) := by
  refine h.calls_only (putCall_relay next) (putCall_pointers next)
    (Nat.le_of_eq (putCall_latestBlock next).symm) fun c' hc' => ?_
  rcases mem_putCall hc' with hold | ⟨stage, hnext, rfl⟩
  · exact .inl hold
  · exact .inr ⟨(h.calls c hc).1, hok stage hnext, hheld stage hnext⟩

/-- Nothing else of the scope is live, so the pointer may name this call. -/
theorem Inv.claimed (h : Inv w) (hc : c ∈ w.calls)
    (hfree : ∀ key, ¬ w.Holds c.scope key ∧ ¬ w.Blocks c.scope key) (hrelay : w'.relay = w.relay)
    (hblock : w'.latestBlock = w.latestBlock) (hown : w'.current c.scope = some c.key)
    (hothers : ∀ scope, scope ≠ c.scope → w'.current scope = w.current scope)
    (hcalls : ∀ c' ∈ w'.calls, c' ∈ w.calls ∨ c' = { c with stage := .consume }) : Inv w' where
  relay := hrelay ▸ h.relay
  scopes := hrelay ▸ h.scopes
  calls c' hc' := by
    have hlater : Later w w' := .refl_of_eq hrelay (Nat.le_of_eq hblock.symm)
    rcases hcalls c' hc' with hold | rfl
    · exact ⟨(h.calls c' hold).1, hlater.callOk (h.calls c' hold).2⟩
    · exact ⟨(h.calls c hc).1, trivial⟩
  pointed scope key hlive := by
    by_cases hscope : scope = c.scope
    · rw [hscope] at hlive ⊢
      rcases hlive with ⟨c', hc', hscope', hkey', hstage⟩ | hblocks
      · rcases hcalls c' hc' with hold | rfl
        · exact absurd ⟨c', hold, hscope', hkey', hstage⟩ (hfree key).1
        · exact hkey' ▸ hown
      · exact absurd (blocks_of_eq hrelay (Nat.le_of_eq hblock.symm) hblocks) (hfree key).2
    · rw [hothers scope hscope]
      refine h.pointed scope key (hlive.imp ?_ (blocks_of_eq hrelay (Nat.le_of_eq hblock.symm)))
      rintro ⟨c', hc', hscope', hkey', hstage⟩
      rcases hcalls c' hc' with hold | rfl
      · exact ⟨c', hold, hscope', hkey', hstage⟩
      · exact absurd hscope'.symm hscope
  own key job hjob hof tx htx hkey hcan hexpired := by
    have hlater : Later w w' := .refl_of_eq hrelay (Nat.le_of_eq hblock.symm)
    exact h.own key job (hrelay ▸ hjob) hof tx (hrelay ▸ htx) hkey (hrelay ▸ hcan)
      fun h => hexpired (hlater.expired h)

/-- A failed job that is as the check read it can no longer take effect. -/
theorem Inv.not_blocks_asRead (h : Inv w) {read : Option Job}
    (hok : ∀ job, read = some job → w.FailedSince previous job ∧ w.Settled previous job)
    (hread : w.AsRead previous read) : ¬ w.Blocks scope previous := by
  obtain ⟨job, job', rfl, hjob', hnumber, hbroadcast⟩ := hread
  obtain ⟨⟨-, -, hfailed⟩, hsettled⟩ := hok job rfl
  have hstate := hfailed job' hjob' hnumber
  rintro (⟨queued, callData, hqueued, -, hunfinished⟩ | ⟨⟨sessionId, rfl⟩, hof, tx, htx, hkey, hcan,
    hexpired⟩)
  · rw [hjob'] at hqueued
    cases hqueued
    rw [hstate] at hunfinished
    exact nomatch hunfinished
  · have hown := h.own previous job' hjob' ⟨sessionId, hof⟩ tx htx hkey hcan hexpired
    obtain ⟨recorded, hrecorded, hnonce⟩ :=
      h.relay.base.recorded previous job' hjob' tx htx hown (.inl hcan)
    rw [hbroadcast] at hrecorded
    obtain ⟨validBefore, body, hpay⟩ := hof
    rcases hsettled sessionId validBefore body hpay with hnone | ⟨tx', htx', hmined⟩ | hpast
    · rw [hnone] at hrecorded
      exact nomatch hrecorded
    · -- the recorded nonce is used up, and nothing of the job has a later one
      rw [htx'] at hrecorded
      cases hrecorded
      have hpassed := (h.relay.base.mined _ hmined).2
      simp only at hpassed
      omega
    · exact hexpired hpast

theorem claim_eq_some {expected : Option Key} (h : w.claim scope expected key = some w') :
    w.current scope = expected ∧ w'.relay = w.relay ∧ w'.latestBlock = w.latestBlock ∧
      w'.calls = w.calls ∧ w'.current scope = some key ∧
        ∀ other, other ≠ scope → w'.current other = w.current other := by
  unfold World.claim at h
  split at h
  next hcurrent =>
    cases h
    refine ⟨hcurrent, rfl, rfl, rfl, ?_, fun other hother => ?_⟩
    · have hexpires : w.relay.now < w.relay.now + RELAY_ATTEMPT_TTL_SECONDS :=
        Nat.lt_add_of_pos_right (by decide)
      simp only [World.current, Function.update_self]
      exact if_pos hexpires
    · simp only [World.current, Function.update_of_ne hother]
  · exact nomatch h

end Steps

end Strimz.Relay.Attempts
