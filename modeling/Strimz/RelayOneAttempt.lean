import Strimz.RelayAttemptSteps
import Strimz.RelayEffect

/-!
# One live attempt per checkout

`assertAttemptReplaceable` is right about the job it has read: a failed job that recorded
nothing, whose recorded transaction reverted or whose authorization has run out can no longer
take effect. What it cannot see is a job that is not in the queue: one that the call ahead has
claimed and not added yet, or one that was removed while its transaction waits. A failed permit
job is replaced while its transaction is pending; that is by design, and the permits share a
nonce.
-/

namespace Strimz.Relay.Attempts

open Runs

section OneAttempt

variable {w w' w₀ : World} {ls : List Label} {l : Label} {scope : Scope} {key previous : Key}
  {job read : Job} {c : Call} {i n node timestamp : Nat} {o : Outcome}

theorem receiptAt_mem {w : Relay.World} {n : Node} {tx : Tx} {status : TxStatus}
    (h : w.receiptAt n tx = some status) : (tx, status) ∈ w.mined := by
  unfold Relay.World.receiptAt at h
  split at h
  · obtain ⟨e, he, rfl⟩ := Option.map_eq_some_iff.mp h
    have htx := List.find?_some he
    have hmem := List.mem_of_find?_eq_some he
    rwa [← of_decide_eq_true htx]
  · exact nomatch h

/-- The payment of a failed job whose key it is. -/
theorem data_of_payment (hkey : read.data.idempotencyKey = previous) {callData : CallData}
    (hprevious : previous = .relay callData) : ∃ scope, read.data = .call callData scope := by
  rw [hprevious] at hkey
  cases hdata : read.data with
  | registerMerchant merchantId =>
      rw [hdata] at hkey
      exact nomatch hkey
  | call callData' scope =>
      rw [hdata] at hkey
      exact ⟨scope, by rw [Key.relay.inj hkey]⟩

theorem replaceFailed_ok (h : w.FailedSince previous read) :
    CallOk w { c with stage := replaceFailed previous read } := by
  unfold replaceFailed
  split
  next hbroadcast => exact ⟨h, hbroadcast⟩
  next hother =>
    refine ⟨h, fun sessionId validBefore body hprevious => .inl ?_⟩
    obtain ⟨scope, hdata⟩ := data_of_payment h.2.1 hprevious
    cases hbroadcast : read.broadcast with
    | none => rfl
    | some tx => exact absurd hbroadcast (hother _ _ tx hdata)

theorem replaceBroadcast_ok (h : w.FailedSince previous read) {tx : Tx}
    (hbroadcast : read.broadcast = some tx) {receipt : Option TxStatus}
    (hreceipt : ∀ status, receipt = some status → (tx, status) ∈ w.relay.mined) {stage : CallStage}
    (hstage : replaceBroadcast previous read receipt = some stage) :
    CallOk w { c with stage } := by
  unfold replaceBroadcast at hstage
  split at hstage
  · exact nomatch hstage
  · cases hstage
    exact ⟨h, fun _ _ _ _ => .inr (.inl ⟨tx, hbroadcast, hreceipt _ rfl⟩)⟩
  · split at hstage
    next hdata =>
      cases hstage
      exact ⟨h, _, _, _, hdata⟩
    next hother =>
      cases hstage
      refine ⟨h, fun sessionId validBefore body hprevious => ?_⟩
      obtain ⟨scope, hdata⟩ := data_of_payment h.2.1 hprevious
      exact absurd hdata (hother _ _ _ _)

/-- Where a call goes from an `await` that writes nothing. -/
theorem perform_ok (h : Inv w) (hc : c ∈ w.calls)
    (hread : c.stage ≠ .add ∧ ∀ expected job, c.stage ≠ .claim expected job) {stage : CallStage}
    (hstage : (w.perform c node timestamp).2 = some stage) :
    CallOk w { c with stage } ∧
      (stage = .consume ∨ stage = .add → w.current c.scope = some c.key) := by
  have hok := (h.calls c hc).2
  obtain ⟨callData, scope, from_⟩ := c
  have hbefore : ∀ {stage : CallStage}, stage ≠ .consume → stage ≠ .add →
      (stage = .consume ∨ stage = .add → w.current scope = some (.relay callData)) :=
    fun hconsume hadd hheld => absurd hheld (by simp [hconsume, hadd])
  cases from_ with
  | existingView =>
      simp only [World.perform] at hstage
      split at hstage
      · exact nomatch hstage
      · cases hstage
        exact ⟨trivial, hbefore (by decide) (by decide)⟩
  | simulate =>
      cases hstage
      exact ⟨trivial, hbefore (by decide) (by decide)⟩
  | current =>
      obtain rfl := Option.some.inj hstage
      unfold claimAttempt
      split
      next current hcurrent =>
        split
        next heq => exact ⟨trivial, fun _ => heq ▸ hcurrent⟩
        · exact ⟨trivial, hbefore (by simp) (by simp)⟩
      · exact ⟨trivial, hbefore (by simp) (by simp)⟩
  | findJob previous =>
      simp only [World.perform] at hstage
      split at hstage
      next job hjob =>
        cases hstage
        exact ⟨⟨h.relay.base.numbers previous job hjob, h.relay.base.keys previous job hjob⟩,
          hbefore (by simp) (by simp)⟩
      · cases hstage
        exact ⟨trivial, hbefore (by simp) (by simp)⟩
  | getState previous read =>
      simp only [World.perform] at hstage
      split at hstage
      next hstate =>
        obtain rfl := Option.some.inj hstage
        obtain ⟨job, hjob, hfailed⟩ := Option.map_eq_some_iff.mp hstate
        have hsince : w.FailedSince previous read := by
          refine ⟨hok.1, hok.2, fun job' hjob' _ => ?_⟩
          rw [hjob] at hjob'
          cases hjob'
          exact hfailed
        refine ⟨replaceFailed_ok hsince, ?_⟩
        unfold replaceFailed
        split <;> exact hbefore (by simp) (by simp)
      · exact nomatch hstage
  | receiptStatus previous read tx =>
      refine ⟨replaceBroadcast_ok hok.1 hok.2 (fun status => receiptAt_mem) hstage, ?_⟩
      simp only [World.perform, replaceBroadcast] at hstage
      split at hstage
      · exact nomatch hstage
      · cases hstage
        exact hbefore (by simp) (by simp)
      · split at hstage <;> cases hstage <;> exact hbefore (by simp) (by simp)
  | latestBlockTimestamp previous read validBefore =>
      simp only [World.perform] at hstage
      split at hstage
      next hpast =>
        cases hstage
        obtain ⟨hsince, sessionId, body, scope', hdata⟩ := hok
        refine ⟨⟨hsince, fun _ _ _ _ => .inr (.inr ?_)⟩, hbefore (by simp) (by simp)⟩
        have hkey := hsince.2.1
        rw [hdata] at hkey
        rw [← hkey]
        exact Nat.le_trans hpast (Nat.min_le_right _ _)
      · exact nomatch hstage
  | claim expected job => exact absurd rfl (hread.2 expected job)
  | consume =>
      cases hstage
      exact ⟨trivial, fun _ => h.pointed _ _ (.inl ⟨_, hc, rfl, rfl, .inl rfl⟩)⟩
  | add => exact absurd rfl hread.1

theorem perform_reads (hread : c.stage ≠ .add ∧ ∀ expected job, c.stage ≠ .claim expected job) :
    (w.perform c node timestamp).1 = w := by
  unfold World.perform
  split
  case h_8 expected job heq => exact absurd heq (hread.2 expected job)
  case h_10 heq => exact absurd heq hread.1
  all_goals first
    | rfl
    | (split <;> rfl)

/-- A claim that succeeds finds nothing else of its scope live. -/
theorem claim_free (h : Inv w) (hi : w.calls[i]? = some c) (hcareful : Careful w l)
    (hl : l = .advance i o node timestamp) (ho : o ≠ .failed) {expected : Option Key}
    {read : Option Job} (hstage : c.stage = .claim expected read)
    (hcurrent : w.current c.scope = expected) (key : Key) :
    ¬ w.Holds c.scope key ∧ ¬ w.Blocks c.scope key := by
  have hnamed : ∀ {key : Key}, w.Holds c.scope key ∨ w.Blocks c.scope key →
      expected = some key :=
    fun hlive => hcurrent.symm.trans (h.pointed c.scope _ hlive)
  cases expected with
  | none =>
      refine ⟨fun hlive => ?_, fun hlive => ?_⟩
      · exact nomatch hnamed (.inl hlive)
      · exact nomatch hnamed (.inr hlive)
  | some previous =>
      obtain ⟨hholds, hjob⟩ := hcareful.takeover i o node timestamp c previous read hl ho hi hstage
        hcurrent
      have hok : ∀ job, read = some job → w.FailedSince previous job ∧ w.Settled previous job := by
        rintro job rfl
        have hcall := (h.calls c (List.mem_of_getElem? hi)).2
        unfold CallOk at hcall
        rw [hstage] at hcall
        exact hcall
      have hblocks : ¬ w.Blocks c.scope previous := hjob.elim (h.not_blocks_asRead hok) id
      refine ⟨fun hlive => ?_, fun hlive => ?_⟩
      · cases hnamed (.inl hlive)
        exact hholds hlive
      · cases hnamed (.inr hlive)
        exact hblocks hlive

/-- The `await` of a call ends, and the call goes on or is over. -/
theorem Inv.perform (h : Inv w) (hi : w.calls[i]? = some c) (hcareful : Careful w l)
    (hl : l = .advance i o node timestamp) (ho : o ≠ .failed) {next : Option CallStage}
    (hnext : next = none ∨ next = (w.perform c node timestamp).2) :
    Inv ((w.perform c node timestamp).1.putCall i c next) := by
  have hc : c ∈ w.calls := List.mem_of_getElem? hi
  by_cases hread : c.stage ≠ .add ∧ ∀ expected job, c.stage ≠ .claim expected job
  · have hstage : ∀ stage, next = some stage → CallOk w { c with stage } ∧
        (stage = .consume ∨ stage = .add → w.current c.scope = some c.key) := by
      rintro stage rfl
      rcases hnext with hnone | hnext
      · exact nomatch hnone
      · exact perform_ok h hc hread hnext.symm
    rw [perform_reads hread]
    exact h.putCall hc (fun stage heq => (hstage stage heq).1) fun stage heq => (hstage stage heq).2
  by_cases hadd : c.stage = .add
  · -- the job is enqueued, and the call is over
    have hperform : w.perform c node timestamp = ({ w with relay := w.relay.enqueue c.data }, none) := by
      rw [World.perform, hadd]
    have hnone : next = none := hnext.elim id fun heq => heq.trans (by rw [hperform])
    have hnamed : w.current c.scope = some c.key :=
      h.pointed c.scope c.key (.inl ⟨c, hc, rfl, rfl, .inr hadd⟩)
    have hinv : Inv { w with relay := w.relay.enqueue c.data } := by
      refine h.enqueue c.data (fun callData scope heq => ?_) (fun callData scope heq => ?_)
        fun habsent callData sessionId heq => ?_
      · obtain ⟨rfl, rfl⟩ := RelayJob.call.inj heq
        exact (h.calls c hc).1
      · obtain ⟨-, rfl⟩ := RelayJob.call.inj heq
        exact hnamed
      · obtain ⟨-, hscope⟩ := RelayJob.call.inj heq
        exact hcareful.renewal i o node timestamp c hl ho hi hadd habsent sessionId hscope
    rw [hperform, hnone]
    exact hinv.putCall hc (fun stage heq => nomatch heq) fun stage heq => nomatch heq
  · have hclaim : ∃ expected read, c.stage = .claim expected read := by
      by_contra hnever
      exact hread ⟨hadd, fun expected job heq => hnever ⟨expected, job, heq⟩⟩
    obtain ⟨expected, read, hstage⟩ := hclaim
    cases hw : w.claim c.scope expected c.key with
    | none =>
        have hperform : w.perform c node timestamp = (w, none) := by
          rw [World.perform, hstage]
          simp only [hw]
        have hnone : next = none := hnext.elim id fun heq => heq.trans (by rw [hperform])
        rw [hperform, hnone]
        exact h.putCall hc (fun stage heq => nomatch heq) fun stage heq => nomatch heq
    | some w' =>
        have hperform : w.perform c node timestamp = (w', some .consume) := by
          rw [World.perform, hstage]
          simp only [hw]
        obtain ⟨hcurrent, hrelay, hblock, hcalls, hown, hothers⟩ := claim_eq_some hw
        rw [hperform] at hnext ⊢
        have hput : ∀ scope, (w'.putCall i c next).current scope = w'.current scope := fun scope =>
          current_of_eq (by rw [putCall_relay]) (putCall_pointers next)
        refine h.claimed hc (claim_free h hi hcareful hl ho hstage hcurrent)
          ((putCall_relay next).trans hrelay) ((putCall_latestBlock next).trans hblock)
          ((hput _).trans hown) (fun scope hscope => (hput scope).trans (hothers scope hscope))
          fun c' hc' => ?_
        rcases mem_putCall hc' with hold | ⟨stage, heq, rfl⟩
        · exact .inl (hcalls ▸ hold)
        · rcases hnext with rfl | rfl
          · exact nomatch heq
          · cases heq
            exact .inr rfl

theorem Inv.relayStep (h : Inv w) {l' : Relay.Label} (hcareful : Careful w (.relay l')) :
    Inv (w.relayStep l') := by
  have hkept : (∀ data, l' ≠ .enqueue data) → (∀ seconds, l' ≠ .elapse seconds) →
      Inv { w with relay := Relay.step w.relay l' } := by
    intro hl helapse
    refine h.relay_kept hl fun scope key hlive => ?_
    rw [← h.pointed scope key hlive]
    exact current_of_eq (step_now helapse) rfl
  cases l' with
  | enqueue data =>
      cases data with
      | call callData scope => exact h
      | registerMerchant merchantId =>
          exact h.enqueue (.registerMerchant merchantId) (fun _ _ heq => by cases heq)
            (fun _ _ heq => by cases heq) fun _ _ _ heq => by cases heq
  | elapse seconds =>
      refine h.relay_kept (fun _ heq => by cases heq) fun scope key hlive => ?_
      have hcurrent := h.pointed scope key hlive
      by_contra hlost
      -- the pointer is the one it was, or has run out
      have hnone : (step w (.relay (.elapse seconds))).current scope = none := by
        simp only [World.current] at hcurrent hlost
        change ({ w with relay := Relay.step w.relay (.elapse seconds) } : World).current scope = none
        simp only [World.current]
        split at hcurrent
        next p hp =>
          split at hcurrent
          · rw [hp] at hlost
            by_cases hlater : (Relay.step w.relay (.elapse seconds)).now < p.expiresAt
            · exact absurd ((if_pos hlater).trans hcurrent) hlost
            · exact if_neg hlater
          · cases hcurrent
        · cases hcurrent
      obtain ⟨hholds, hblocks⟩ := hcareful.expiry seconds scope key rfl hcurrent hnone
      exact hlive.elim hholds hblocks
  | start key => exact hkept (fun _ heq => by cases heq) fun _ heq => by cases heq
  | advance o node fee tip => exact hkept (fun _ heq => by cases heq) fun _ heq => by cases heq
  | crash givenUp => exact hkept (fun _ heq => by cases heq) fun _ heq => by cases heq
  | age key => exact hkept (fun _ heq => by cases heq) fun _ heq => by cases heq
  | gossip tx node => exact hkept (fun _ heq => by cases heq) fun _ heq => by cases heq
  | drop tx node => exact hkept (fun _ heq => by cases heq) fun _ heq => by cases heq
  | sync node => exact hkept (fun _ heq => by cases heq) fun _ heq => by cases heq
  | mine tx node status => exact hkept (fun _ heq => by cases heq) fun _ heq => by cases heq
  | editMerchant merchantId linked complete =>
      exact hkept (fun _ heq => by cases heq) fun _ heq => by cases heq

theorem Inv.step (h : Inv w) (hcareful : Careful w l) : Inv (Attempts.step w l) := by
  cases l with
  | relay l' => exact h.relayStep hcareful
  | submit callData planId =>
      refine h.calls_only rfl rfl (Nat.le_refl _) fun c hc => ?_
      rcases List.mem_append.mp hc with hc | hc
      · exact .inl hc
      · rw [List.mem_singleton.mp hc]
        exact .inr ⟨⟨planId, rfl⟩, trivial, by simp⟩
  | advance i o node timestamp =>
      simp only [Attempts.step]
      split
      next c hi =>
        have hc := List.mem_of_getElem? hi
        cases o with
        | done => exact h.perform hi hcareful rfl (by decide) (.inr rfl)
        | lost => exact h.perform hi hcareful rfl (by decide) (.inl rfl)
        | failed =>
            have hover : Inv (w.putCall i c none) :=
              h.putCall hc (fun stage heq => nomatch heq) fun stage heq => nomatch heq
            exact hover
      · exact h
  | block timestamp =>
      exact h.calls_only rfl rfl (Nat.le_max_left _ _) fun c hc => .inl hc

/-! ## Runs -/

/-- Of a session at most one payment can take effect, and of a plan and payer at most one
enrolment is waiting, active or delayed. -/
structure OneLiveAttempt (w : World) : Prop where
  payment : ∀ sessionId key key', w.Able (.payment sessionId) key →
    w.Able (.payment sessionId) key' → key = key'
  subscription : ∀ planId payer key key', w.Queued (.subscription planId payer) key →
    w.Queued (.subscription planId payer) key' → key = key'

theorem one_live_attempt (w₀ : World) (ls : List Label) (hlaunched : w₀.Launched)
    (hcareful : ∀ n l, ls[n]? = some l → Careful (stateAt step w₀ ls n) l) (n : Nat) :
    OneLiveAttempt (stateAt step w₀ ls n) := by
  have hinv : Inv (stateAt step w₀ ls n) :=
    stateAt_induct (m := 0) hlaunched.inv
      (fun n l _ hl hinv => hinv.step (hcareful n l hl)) (Nat.zero_le n)
  have hone : ∀ {scope : Scope} {key key' : Key}, (stateAt step w₀ ls n).Blocks scope key →
      (stateAt step w₀ ls n).Blocks scope key' → key = key' := by
    intro scope key key' h h'
    have hcurrent := hinv.pointed scope key (.inr h)
    rw [hinv.pointed scope key' (.inr h')] at hcurrent
    exact (Option.some.inj hcurrent).symm
  refine ⟨fun sessionId key key' h h' => ?_, fun planId payer key key' h h' =>
    hone (.inl h) (.inl h')⟩
  exact hone (h.imp_right fun hpending => ⟨⟨sessionId, rfl⟩, hpending⟩)
    (h'.imp_right fun hpending => ⟨⟨sessionId, rfl⟩, hpending⟩)

/-! ## Samples -/

def launched : World where
  relay := Relay.launched
  pointers := fun _ => none
  calls := []
  latestBlock := 100000

theorem launched_launched : launched.Launched :=
  ⟨Relay.launched_launched, fun _ => rfl, rfl⟩

/-- The next `await`s of the `i`-th call answer. -/
def goesOn (i count : Nat) : List Label := List.replicate count (.advance i .done 0 100000)

/-- The next `await`s of the running job answer. -/
def works (count : Nat) : List Label := (answers count 0).map .relay

def payment (body : Nat) : CallData := .payWithAuthorization 1 100300 body

def permit (body : Nat) : CallData := .permitAndCreateSubscription 300 body

/-- Both calls claim before either has enqueued. -/
def twoWallets : List Label :=
  [.submit (payment 1) 0, .submit (payment 2) 0] ++ goesOn 0 4 ++ goesOn 1 5 ++ goesOn 0 4

/-- The permit's job runs out of attempts with its transaction in the pool, and another
permit of the payer is submitted. -/
def twoPermits : List Label :=
  [.submit (permit 1) 5] ++ goesOn 0 6 ++
    [.relay (.start (.relay (permit 1)))] ++ works 7 ++
    (List.replicate 4 (.relay (.start (.relay (permit 1))) :: works 3)).flatten ++
    [.submit (permit 2) 5] ++ goesOn 0 9

/-- For a payment the claim of a call that has not enqueued yet is taken for a dead one; a
pending permit is replaced by design. -/
theorem two_attempts_live :
    (¬ ∀ (w₀ : World) (ls : List Label), w₀.Launched → ∀ n sessionId key key',
      (stateAt step w₀ ls n).Able (.payment sessionId) key →
        (stateAt step w₀ ls n).Able (.payment sessionId) key' → key = key') ∧
    ¬ ∀ (w₀ : World) (ls : List Label), w₀.Launched → ∀ n planId payer key key',
      (stateAt step w₀ ls n).Able (.subscription planId payer) key →
        (stateAt step w₀ ls n).Able (.subscription planId payer) key' → key = key' := by
  constructor
  · intro hclaim
    have hwaiting : ∀ body, body = 1 ∨ body = 2 →
        (exec step launched twoWallets).Able (.payment 1) (.relay (payment body)) := by
      rintro body (rfl | rfl)
      · exact .inl ⟨⟨0, .call (payment 1) (.payment 1), none, 0, .waiting, 0⟩, payment 1,
          by decide +kernel, rfl, rfl⟩
      · exact .inl ⟨⟨1, .call (payment 2) (.payment 1), none, 0, .waiting, 0⟩, payment 2,
          by decide +kernel, rfl, rfl⟩
    have heq := hclaim launched twoWallets launched_launched twoWallets.length 1
      (.relay (payment 1)) (.relay (payment 2))
    rw [stateAt_length] at heq
    exact absurd (heq (hwaiting 1 (.inl rfl)) (hwaiting 2 (.inr rfl))) (by decide)
  · intro hclaim
    have heq := hclaim launched twoPermits launched_launched twoPermits.length 5 300
      (.relay (permit 1)) (.relay (permit 2))
    rw [stateAt_length] at heq
    have hpending : (exec step launched twoPermits).Able (.subscription 5 300)
        (.relay (permit 1)) := by
      refine .inr ⟨⟨⟨0, .call (permit 1) (.subscription 5 300),
        some ⟨0, .relay (permit 1), 0, ⟨60000000000, 0⟩⟩, 5, .failed, 0⟩, permit 1,
        by decide +kernel, rfl⟩, ⟨0, .relay (permit 1), 0, ⟨60000000000, 0⟩⟩, by decide +kernel,
        rfl, by decide +kernel, not_false⟩
    have hwaiting : (exec step launched twoPermits).Able (.subscription 5 300)
        (.relay (permit 2)) :=
      .inl ⟨⟨1, .call (permit 2) (.subscription 5 300), none, 0, .waiting, 0⟩, permit 2,
        by decide +kernel, rfl, rfl⟩
    exact absurd (heq hpending hwaiting) (by decide)

/-- The first payment's job is given up before it has sent, and the second replaces it. -/
def replacedPayment : List Label :=
  [.submit (payment 1) 0] ++ goesOn 0 6 ++
    [.relay (.start (.relay (payment 1))), .relay (.crash true), .submit (payment 2) 0] ++
    goesOn 0 8

/-- The claims of this state replace a job that is as it was read, and nothing was sent. -/
def plain (w : World) : Bool :=
  w.relay.sent.isEmpty && w.calls.all fun c =>
    match c.stage with
    | .claim (some previous) read =>
        (w.calls.all fun c' => c'.stage ≠ .consume ∧ c'.stage ≠ .add) &&
          (read.isSome && w.relay.jobs previous = read.map fun job => { job with state := .failed })
    | _ => true

theorem one_live_attempt_replacedPayment :
    OneLiveAttempt (stateAt step launched replacedPayment replacedPayment.length) := by
  have hplain : ∀ n ≤ replacedPayment.length, plain (stateAt step launched replacedPayment n) := by
    decide +kernel
  have hclock : (replacedPayment.all fun l => match l with
      | .relay (.elapse _) => false
      | _ => true) = true := by
    decide
  refine one_live_attempt launched replacedPayment launched_launched (fun n l hl => ?_) _
  have hn := hplain n (Nat.le_of_lt (List.getElem?_eq_some_iff.mp hl).1)
  simp only [plain, Bool.and_eq_true, List.all_eq_true] at hn
  obtain ⟨hsent, hcalls⟩ := hn
  refine ⟨fun i o node timestamp c previous read _ _ hi hstage _ => ?_,
    fun i o node timestamp c _ _ _ _ _ sessionId _ hpending => ?_, fun seconds scope key heq => ?_⟩
  · have hc := hcalls c (List.mem_of_getElem? hi)
    rw [hstage] at hc
    simp only [Bool.and_eq_true, List.all_eq_true] at hc
    obtain ⟨hothers, hsome, hjob⟩ := hc
    obtain ⟨job, rfl⟩ := Option.isSome_iff_exists.mp hsome
    refine ⟨?_, .inl ⟨job, _, rfl, of_decide_eq_true hjob, rfl, rfl⟩⟩
    rintro ⟨c', hc', -, -, hheld⟩
    have hfree := of_decide_eq_true (hothers c' hc')
    exact hheld.elim hfree.1 hfree.2
  · obtain ⟨tx, htx, -⟩ := hpending
    rw [List.isEmpty_iff.mp hsent] at htx
    exact absurd htx List.not_mem_nil
  · have hnever := List.all_eq_true.mp hclock l (List.mem_of_getElem? hl)
    rw [heq] at hnever
    exact nomatch hnever

end OneAttempt

end Strimz.Relay.Attempts
