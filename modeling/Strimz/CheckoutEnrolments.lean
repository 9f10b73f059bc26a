import Strimz.PermitEnrolment
import Strimz.TypedIntents

/-!
# Enrolments by checkout

Who can put a payer's name on a subscription: the payer, by `createSubscription`, or anybody
with an intent signature of the payer, by `permitAndCreateSubscription`. The intent the SDK
builds, and the checkout has the payer sign, lacks the two fields `permitValue` and `nonce` of
the contract's type, so its signature is no such intent signature.
-/

namespace Strimz.Subscriptions

open Tx Runs
open TypedIntents (Deployment Request)
open ReferenceToken (sampleSig)

variable {ξ δ : Type} {O : Outside ξ δ} {this : Address} {c c' : Ctx Storage ξ} {l : Label ξ}
  {s s' : Storage}

/-! ## Who pays -/

/-- The intent a permit enrolment presents, with the owner whose signature it needs. -/
def Label.intent (l : Label ξ) : Option (Address × SubscriptionIntent) :=
  match l.action with
  | .permitAndCreateSubscription p nonce permitData _ _ =>
      some (permitData.owner, subscriptionIntent p nonce permitData)
  | _ => none

/-- Every subscription keeps its payer. -/
def SamePayers (s s' : Storage) : Prop :=
  ∀ id, (s'.subscriptions id).payer = (s.subscriptions id).payer

theorem SamePayers.put {id : Nat} {sub : Subscription}
    (hsub : sub.payer = (s.subscriptions id).payer) : SamePayers s (s.putSubscription id sub) := by
  intro other
  by_cases h : other = id
  · rw [h, ← hsub]
    simp
  · simp [h]

theorem SamePayers.rows {msg : Msg} {rows : List (Nat × Bytes32)} {outcomes : List ChargeOutcome}
    (h : Rows O this msg rows outcomes c c') : SamePayers c.storage c'.storage := by
  induction h with
  | nil => exact fun _ => rfl
  | cons hrow _ ih =>
      intro id
      rw [ih id]
      cases hrow with
      | skipped _ _ h => subst h; rfl
      | failed _ _ h => subst h; rfl
      | charged m _ x _ h =>
          subst h
          rw [(advanced_views ..).1]
          split
          · next heq => rw [heq]
          · rfl

/-- What one transaction does to the payers. -/
inductive Pays (O : Outside ξ δ) (l : Label ξ) (c c' : Ctx Storage ξ) : Prop
  | same (h : SamePayers c.storage c'.storage)
  | own (p : Terms) (haction : l.action = .createSubscription p)
      (h : ∀ id, (c'.storage.subscriptions id).payer =
        if id = c.storage.nextSubscriptionId then l.msg.sender
        else (c.storage.subscriptions id).payer)
  | signed (owner : Address) (i : SubscriptionIntent) (intentSig : Bytes)
      (hintent : l.intent = some (owner, i)) (hid : i.merchantId ≤ MAX_MERCHANT_ID)
      (hvalid : PayerSignature.isValid O.toSignatures owner (O.subscriptionIntentDigest i)
        intentSig c.ext = true)
      (h : ∀ id, (c'.storage.subscriptions id).payer =
        if id = c.storage.nextSubscriptionId then owner else (c.storage.subscriptions id).payer)

theorem payer_enrolled {payer : Address} {p : Terms} (msg : Msg) (s : Storage) (id : Nat) :
    ((s.enrolled msg payer p).subscriptions id).payer =
      if id = s.nextSubscriptionId then payer else (s.subscriptions id).payer := by
  rw [(enrolled_views ..).1]
  split
  · rfl
  · rfl

theorem setDependency_pays {name : String} {write : Address → Storage → Storage} {v : Address}
    (hwrite : ∀ s, SamePayers s (write v s))
    (h : setDependency l.msg name write v c = .ok ((), c')) : Pays O l c c' := by
  simp only [setDependency, emit, bind_eq_ok, sload_eq_ok, onlyRole_eq_ok, whenPaused_eq_ok,
    revertIf_eq_ok, sstore_eq_ok, Prod.mk.injEq, existsAndEq, exists_const, true_and, and_true] at h
  obtain ⟨-, -, -, rfl⟩ := h
  exact .same fun id => hwrite _ id

theorem step_pays (O : Outside ξ δ) (this : Address) (c : Ctx Storage ξ) (l : Label ξ) :
    Pays O l c (step O this c l) := by
  refine commit_cases (.same fun _ => rfl) fun _ c' h => ?_
  cases haction : l.action with
  | createSubscription p =>
      simp only [haction, dispatch, bind_eq_ok, pure_eq_ok, Prod.mk.injEq, existsAndEq, true_and,
        and_true] at h
      obtain ⟨id, h⟩ := h
      obtain ⟨-, -, -, -, h⟩ := createSubscription_eq_ok.mp h
      obtain ⟨-, -, -, rfl⟩ := enrol_eq_ok.mp h
      exact .own p haction (payer_enrolled l.msg c.storage)
  | permitAndCreateSubscription p nonce permitData permitSig intentSig =>
      simp only [haction, dispatch, bind_eq_ok, pure_eq_ok, Prod.mk.injEq, existsAndEq, true_and,
        and_true] at h
      obtain ⟨id, h⟩ := h
      obtain ⟨-, hp, -, -, -, -, hvalid, -, permit, x, -, -, h⟩ :=
        permitAndCreateSubscription_eq_ok.mp h
      obtain ⟨-, -, -, rfl⟩ := enrol_eq_ok.mp h
      refine .signed permitData.owner (subscriptionIntent p nonce permitData) intentSig ?_
        (Nat.not_lt.mp hp.merchantId) hvalid (payer_enrolled l.msg _)
      rw [Label.intent, haction]
  | cancel id =>
      rw [haction] at h
      obtain ⟨-, m, -, -, -, ⟨-, rfl⟩ | ⟨-, rfl⟩⟩ := cancel_eq_ok.mp h
      · exact .same (SamePayers.put rfl)
      · exact .same (SamePayers.put rfl)
  | reinstate id =>
      rw [haction] at h
      obtain ⟨-, -, -, -, rfl⟩ := reinstate_eq_ok.mp h
      exact .same (SamePayers.put rfl)
  | batchCharge ids attempts =>
      simp only [haction, dispatch, bind_eq_ok, pure_eq_ok, Prod.mk.injEq, existsAndEq, true_and,
        and_true] at h
      obtain ⟨outcomes, h⟩ := h
      obtain ⟨-, -, -, -, -, c₁, hrows, rfl⟩ := batchCharge_eq_ok.mp h
      exact .same fun id => SamePayers.rows (chargeRows_ok hrows) id
  | settleCharge payer token collector merchantId feeAmount payout netAmount =>
      rw [haction] at h
      obtain ⟨-, x, -, rfl⟩ := settleCharge_ok h
      exact .same fun _ => rfl
  | pause =>
      rw [haction] at h
      simp only [dispatch, pause, bind_eq_ok, sload_eq_ok, onlyRole_eq_ok, whenNotPaused_eq_ok,
        sstore_eq_ok, Prod.mk.injEq, existsAndEq, exists_const, true_and, and_true] at h
      obtain ⟨-, -, rfl⟩ := h
      exact .same fun _ => rfl
  | unpause =>
      rw [haction] at h
      simp only [dispatch, unpause, bind_eq_ok, sload_eq_ok, onlyRole_eq_ok, whenPaused_eq_ok,
        sstore_eq_ok, Prod.mk.injEq, existsAndEq, exists_const, true_and, and_true] at h
      obtain ⟨-, -, rfl⟩ := h
      exact .same fun _ => rfl
  | setRegistry v =>
      simp only [haction, dispatch, setRegistry] at h
      exact setDependency_pays (fun _ _ => rfl) h
  | setFeeCollector v =>
      simp only [haction, dispatch, setFeeCollector] at h
      exact setDependency_pays (fun _ _ => rfl) h
  | setTokenWhitelist v =>
      simp only [haction, dispatch, setTokenWhitelist] at h
      exact setDependency_pays (fun _ _ => rfl) h
  | rescue token to_ amount =>
      rw [haction] at h
      simp only [dispatch, rescue, nonReentrant, emit, bind_eq_ok, sload_eq_ok, onlyRole_eq_ok,
        guarded_eq_ok, revertIf_eq_ok, call_eq_ok, sstore_eq_ok, Prod.mk.injEq, existsAndEq,
        exists_const, true_and, and_true] at h
      obtain ⟨-, -, x, -, rfl⟩ := h
      exact .same fun _ => rfl
  | setRoles hasRole =>
      simp only [haction, dispatch, sstore_eq_ok, Prod.mk.injEq, true_and] at h
      subst h
      exact .same fun _ => rfl
  | external f =>
      simp only [haction, dispatch, modify_eq_ok, Prod.mk.injEq, true_and] at h
      subst h
      exact .same fun _ => rfl

/-! ## A payer of the checkout -/

/-- The payer signs typed data of the SDK's builders only (`signed`), and the hash tells the
texts in `T` apart. -/
structure CheckoutPayer (O : Outside ξ Bytes32) (deployment : Deployment)
    (keccak : List UInt8 → Bytes32) (T : Set (List UInt8)) (Accepts : Address → Bytes32 → Prop)
    (signed : Set Request) (payer : Address) : Prop where
  injective : Set.InjOn keccak T
  digest : O.subscriptionIntentDigest = TypedIntents.subscriptionIntentDigest keccak deployment
  sound : PayerSignature.Sound O.toSignatures Accepts
  accepts : ∀ digest, Accepts payer digest →
    ∃ r ∈ signed, Eip712.hashTypedData keccak r.typedData = some digest
  built : ∀ r ∈ signed, r.kind ≠ .onchainSubscription
  hashes : ∀ r ∈ signed, r.Hashes keccak T

section Checkout

variable {O : Outside ξ Bytes32} {deployment : Deployment} {keccak : List UInt8 → Bytes32}
  {T : Set (List UInt8)} {Accepts : Address → Bytes32 → Prop} {signed : Set Request}
  {payer : Address} {c : Ctx Storage ξ}

/-- No signature of the payer passes for one over a contract's intent. -/
theorem CheckoutPayer.invalid (h : CheckoutPayer O deployment keccak T Accepts signed payer)
    {i : SubscriptionIntent} (hid : i.merchantId ≤ MAX_MERCHANT_ID)
    (hi : (Request.onchainSubscription deployment i).Hashes keccak T) {signature : Bytes} {y : ξ} :
    PayerSignature.isValid O.toSignatures payer (O.subscriptionIntentDigest i) signature y ≠
      true := by
  intro hvalid
  have haccepts := PayerSignature.isValid_accepts h.sound hvalid
  rw [h.digest] at haccepts
  obtain ⟨r, hr, hhash⟩ := h.accepts _ haccepts
  have hchain : Eip712.hashTypedData keccak (Request.onchainSubscription deployment i).typedData =
      some (TypedIntents.subscriptionIntentDigest keccak deployment i) :=
    TypedIntents.hashTypedData_onchainSubscription (hid.trans_lt (by decide))
  obtain rfl := TypedIntents.digest_inj h.injective (h.hashes r hr) hi hhash hchain
  exact h.built _ hr rfl

theorem CheckoutPayer.reverts (h : CheckoutPayer O deployment keccak T Accepts signed payer)
    {l : Label ξ} {i : SubscriptionIntent} (hintent : l.intent = some (payer, i))
    (hi : (Request.onchainSubscription deployment i).Hashes keccak T) : step O this c l = c := by
  cases hdispatch : dispatch O this l.msg l.action c with
  | error e => exact commit_of_error hdispatch
  | ok r =>
      exfalso
      cases haction : l.action with
      | permitAndCreateSubscription p nonce permitData permitSig intentSig =>
          rw [Label.intent, haction] at hintent
          obtain ⟨rfl, rfl⟩ := Prod.mk.inj (Option.some.inj hintent)
          simp only [haction, dispatch, bind_eq_ok] at hdispatch
          obtain ⟨id, c', hcall, -⟩ := hdispatch
          obtain ⟨-, hp, -, -, -, -, hvalid, -⟩ := permitAndCreateSubscription_eq_ok.mp hcall
          exact h.invalid (Nat.not_lt.mp hp.merchantId) hi hvalid
      | _ =>
          rw [Label.intent, haction] at hintent
          cases hintent

/-- In any run, with anybody submitting any intents: no permit enrolment of the payer ever goes
through, and each of the payer's subscriptions was opened by its own `createSubscription`. -/
theorem checkout_never_enrols (h : CheckoutPayer O deployment keccak T Accepts signed payer)
    (hpayer : payer ≠ 0) (this : Address) (hasRole : RoleTable)
    (registry feeCollector tokenWhitelist : Address) (x : ξ) (ls : List (Label ξ))
    (htexts : ∀ l ∈ ls, ∀ owner i, l.intent = some (owner, i) →
      (Request.onchainSubscription deployment i).Hashes keccak T) :
    let c := runAt O this hasRole registry feeCollector tokenWhitelist x ls
    (∀ n l i, ls[n]? = some l → l.intent = some (payer, i) → c (n + 1) = c n) ∧
    ∀ n id, ((c n).storage.subscriptions id).payer = payer → ∃ m l p, m < n ∧ ls[m]? = some l ∧
      l.msg.sender = payer ∧ l.action = .createSubscription p ∧
      (c m).storage.nextSubscriptionId = id := by
  intro c
  refine ⟨fun n l i hl hintent => ?_, fun n id => ?_⟩
  · exact (stateAt_succ _ _ hl).trans
      (h.reverts hintent (htexts l (List.mem_of_getElem? hl) payer i hintent))
  · induction n with
    | zero => exact fun hzero => absurd hzero.symm hpayer
    | succ n ih =>
        intro hid
        have hearlier : ((c n).storage.subscriptions id).payer = payer → ∃ m l p, m < n + 1 ∧
            ls[m]? = some l ∧ l.msg.sender = payer ∧ l.action = .createSubscription p ∧
            (c m).storage.nextSubscriptionId = id := by
          intro hbefore
          obtain ⟨m, l, p, hm, hrest⟩ := ih hbefore
          exact ⟨m, l, p, Nat.lt_succ_of_lt hm, hrest⟩
        cases hl : ls[n]? with
        | none =>
            rw [show c (n + 1) = c n from stateAt_of_none _ _ hl] at hid
            exact hearlier hid
        | some l =>
            rw [show c (n + 1) = step O this (c n) l from stateAt_succ _ _ hl] at hid
            cases step_pays O this (c n) l with
            | same hsame => exact hearlier ((hsame id).symm.trans hid)
            | own p haction hpays =>
                rw [hpays id] at hid
                split at hid
                · next hnew => exact ⟨n, l, p, Nat.lt_succ_self n, hl, hid, haction, hnew.symm⟩
                · exact hearlier hid
            | signed owner i intentSig hintent hmerchant hvalid hpays =>
                rw [hpays id] at hid
                split at hid
                · -- the new subscription would be the payer's by its signature
                  subst hid
                  exact absurd hvalid (h.invalid hmerchant
                    (htexts l (List.mem_of_getElem? hl) owner i hintent))
                · exact hearlier hid

end Checkout

open TypedIntents (sampleKeccak sampleTexts sampleRequest sampleDeployment sampleDigest)

/-- Payer 300 has signed what the checkout showed it. -/
def checkoutKit : Kit ReferenceToken.State Bytes32 where
  toToken := (ReferenceToken.kit ReferenceToken.silent).toToken
  codeLength _ _ := 0
  isValidERC1271SignatureNow _ _ _ _ := false
  tryRecover digest _ r _ :=
    if ReferenceToken.signer r = 300 ∧ digest = sampleDigest then some 300 else none
  isWhitelisted _ token s := .ok (s.whitelisted token)
  supportsCapability _ _ _ _ := .ok true
  subscriptionIntentDigest := TypedIntents.subscriptionIntentDigest sampleKeccak sampleDeployment
  payIntentDigest := TypedIntents.payIntentDigest sampleKeccak sampleDeployment

theorem checkoutKit_payer : CheckoutPayer (Peers.outside checkoutKit) sampleDeployment sampleKeccak
    {text | text ∈ sampleTexts} (fun a digest => a = 300 ∧ digest = sampleDigest) {sampleRequest}
    300 where
  injective := TypedIntents.sampleTexts_inj
  digest := rfl
  sound := {
    recover := fun digest v r s a h => by
      simp only [Peers.outside, checkoutKit, Option.ite_none_right_eq_some, Option.some.injEq] at h
      exact ⟨h.2.symm, h.1.2⟩
    erc1271 := fun a digest signature x h => by cases h }
  accepts digest h := ⟨sampleRequest, rfl, h.2 ▸ TypedIntents.sampleRequest_digest⟩
  built r hr := by
    rw [Set.mem_singleton_iff.mp hr]
    decide
  hashes r hr := by
    rw [Set.mem_singleton_iff.mp hr]
    exact TypedIntents.hashes_sampleRequest

/-- The submission of the checkout's signature reverts. -/
theorem checkout_never_enrols_sample :
    let c := runAt (Peers.outside checkoutKit) 101 ReferenceToken.sampleRoles 103 102 104
      ReferenceToken.samplePeers sampleEnrolment
    c 1 = c 0 := by
  have h := checkout_never_enrols checkoutKit_payer (by decide) 101 ReferenceToken.sampleRoles 103
    102 104 ReferenceToken.samplePeers sampleEnrolment ?_
  · exact h.1 0 ⟨⟨9, 50⟩, .permitAndCreateSubscription samplePlan 7 samplePermit sampleSig sampleSig⟩
      (subscriptionIntent samplePlan 7 samplePermit) rfl rfl
  · intro l hl owner i hintent
    obtain rfl := List.mem_singleton.mp hl
    obtain ⟨rfl, rfl⟩ := Prod.mk.inj (Option.some.inj hintent)
    exact TypedIntents.hashes_sampleIntent

end Strimz.Subscriptions
