import Strimz.ReferenceToken
import Strimz.SubscriptionSteps

/-!
# Permit enrolment

`permitAndCreateSubscription` takes two signatures in two nonce spaces. The
intent, which the contract checks and whose nonce it burns, decides the
subscription and makes the call single-use; the permit only has to leave the
allowance behind, so a permit that somebody else has already submitted is as good
as one that goes through.
-/

namespace Strimz.Subscriptions

open Tx Runs
open ReferenceToken (sampleSig)

variable {ξ δ : Type} {O : Outside ξ δ} {this : Address}

/-! ## Nonces -/

theorem Rows.usedIntentNonces {msg : Msg} {rows : List (Nat × Bytes32)}
    {outcomes : List ChargeOutcome} {c c' : Ctx Storage ξ}
    (h : Rows O this msg rows outcomes c c') :
    c'.storage.usedIntentNonces = c.storage.usedIntentNonces := by
  induction h with
  | nil => rfl
  | cons hrow _ ih =>
      rw [ih]
      cases hrow with
      | skipped _ _ h => subst h; rfl
      | failed _ _ h => subst h; rfl
      | charged _ _ _ _ h => subst h; rfl

/-- A used nonce stays used. -/
theorem step_usedIntentNonces (c : Ctx Storage ξ) (l : Label ξ) {owner : Address} {nonce : Bytes32}
    (h : c.storage.usedIntentNonces owner nonce = true) :
    (step O this c l).storage.usedIntentNonces owner nonce = true := by
  cases step_change O this c l with
  | config hsame => rw [hsame.usedIntentNonces]; exact h
  | enrolled payer p hp used hused heq => rw [heq]; exact hused owner nonce h
  | partyCancelled _ _ _ _ _ _ _ heq => rw [heq]; exact h
  | operatorCancelled _ _ _ _ _ _ _ _ heq => rw [heq]; exact h
  | reinstated _ _ _ _ _ _ heq => rw [heq]; exact h
  | charged rows outcomes c₁ hrows heq =>
      rw [heq]
      show c₁.storage.usedIntentNonces owner nonce = true
      rw [hrows.usedIntentNonces]
      exact h

/-! ## One call -/

/-- What an intent signature is worth: digests forget no field, and an owner accepts
the digest of an intent only if it signed one with that digest. -/
structure SignsIntents (O : Outside ξ δ) (Accepts : Address → δ → Prop)
    (Signed : Address → SubscriptionIntent → Prop) : Prop where
  sound : PayerSignature.Sound O.toSignatures Accepts
  signed : ∀ a i, Accepts a (O.subscriptionIntentDigest i) →
    ∃ j, Signed a j ∧ O.subscriptionIntentDigest j = O.subscriptionIntentDigest i
  injective : Function.Injective O.subscriptionIntentDigest

theorem SignsIntents.of_isValid {Accepts : Address → δ → Prop}
    {Signed : Address → SubscriptionIntent → Prop} (h : SignsIntents O Accepts Signed)
    {owner : Address} {i : SubscriptionIntent} {signature : Bytes} {x : ξ}
    (hvalid : PayerSignature.isValid O.toSignatures owner (O.subscriptionIntentDigest i)
      signature x = true) : Signed owner i := by
  obtain ⟨j, hj, heq⟩ := h.signed owner i (PayerSignature.isValid_accepts h.sound hvalid)
  rwa [h.injective heq] at hj

theorem permitCall_permits {msg : Msg} {token : Address} {permitData : PermitData}
    {permitSig : Bytes} {permit : ξ → Except Revert ξ} {x y y' : ξ}
    (hcall : permitCall O this msg token permitData permitSig x = some permit)
    (h : permit y = .ok y') :
    Permits O.toToken token permitData.owner this permitData.value y y' := by
  unfold permitCall at hcall
  split at hcall
  · obtain rfl := Option.some.inj hcall
    exact Or.inr ⟨_, _, _, h⟩
  · obtain ⟨vrs, -, rfl⟩ := Option.map_eq_some_iff.mp hcall
    exact Or.inl ⟨_, _, _, h⟩

/-- Past the permit, the allowance covers its value. -/
theorem Permitted.allowance {token : Address} {permitData : PermitData} {msg : Msg}
    {permitSig : Bytes} {permit : ξ → Except Revert ξ} {x x' y : ξ} (hO : Erc2612 O)
    (hcall : permitCall O this msg token permitData permitSig y = some permit)
    (h : Permitted O this token permitData permit x x') :
    ∃ a, O.allowance token permitData.owner this x' = .ok a ∧ permitData.value ≤ a := by
  cases h with
  | granted h => exact ⟨_, hO.grants (permitCall_permits hcall h), BitVec.le_refl _⟩
  | standing _ ha hle => exact ⟨_, ha, BitVec.not_lt.mp hle⟩

/-- After any permit of the same value, the permit step goes through. -/
theorem exists_permitted {token owner : Address} {permitData : PermitData} {x x' : ξ}
    (hO : Erc2612 O) (howner : owner = permitData.owner)
    (h : Permits O.toToken token owner this permitData.value x x') (permit : ξ → Except Revert ξ) :
    ∃ x'', Permitted O this token permitData permit x' x'' := by
  cases hpermit : permit x' with
  | ok x'' => exact ⟨x'', .granted hpermit⟩
  | error e => exact ⟨x', .standing hpermit (howner ▸ hO.grants h) (BitVec.lt_irrefl _)⟩

/-- The subscription a successful call creates, and nothing else of the book. -/
structure Enrols (O : Outside ξ δ) (this : Address) (msg : Msg) (owner : Address)
    (i : SubscriptionIntent) (c c' : Ctx Storage ξ) : Prop where
  fresh : c.storage.usedIntentNonces owner i.nonce = false
  burned : c'.storage.usedIntentNonces owner i.nonce = true
  one : c'.storage.nextSubscriptionId = c.storage.nextSubscriptionId + 1
  created : c'.storage.subscriptions c.storage.nextSubscriptionId =
    ⟨owner, if i.startAt = 0 then msg.timestamp else i.startAt, i.interval, i.token, i.merchantId,
      i.amount, i.endAt, false⟩
  others : ∀ id, id ≠ c.storage.nextSubscriptionId →
    c'.storage.subscriptions id = c.storage.subscriptions id
  value : i.amount ≤ i.permitValue
  allowance : ∃ a, O.allowance i.token owner this c'.ext = .ok a ∧ i.permitValue ≤ a

theorem permitAndCreate_enrols {msg : Msg} {p : Terms} {nonce : Bytes32} {permitData : PermitData}
    {permitSig intentSig : Bytes} {id : Nat} {c c' : Ctx Storage ξ} (hO : Erc2612 O)
    (h : permitAndCreateSubscription O this msg p nonce permitData permitSig intentSig c =
      .ok (id, c')) :
    Enrols O this msg permitData.owner (subscriptionIntent p nonce permitData) c c' := by
  obtain ⟨-, -, -, -, -, hvalue, -, hfresh, permit, x, hcall, hpermitted, h⟩ :=
    permitAndCreateSubscription_eq_ok.mp h
  obtain ⟨-, -, -, rfl⟩ := enrol_eq_ok.mp h
  exact {
    fresh := hfresh
    burned := by simp [Storage.enrolled, subscriptionIntent]
    one := rfl
    created := (enrolled_views ..).1.trans (if_pos rfl)
    others := fun id hid => by simp [Storage.enrolled, hid]
    value := BitVec.not_lt.mp hvalue
    allowance := hpermitted.allowance hO hcall }

/-- A permit of the same value submitted first does not make an enrolment fail. -/
theorem permitAndCreate_front_run {msg : Msg} {p : Terms} {nonce : Bytes32}
    {permitData : PermitData} {permitSig intentSig : Bytes} {id : Nat} {c c' : Ctx Storage ξ}
    {x : ξ} (hO : Erc2612 O)
    (h : permitAndCreateSubscription O this msg p nonce permitData permitSig intentSig c =
      .ok (id, c'))
    (hfront : Permits O.toToken p.token permitData.owner this permitData.value c.ext x) :
    ∃ x', permitAndCreateSubscription O this msg p nonce permitData permitSig intentSig
      ⟨c.storage, x⟩ = .ok (id, ⟨c'.storage, x'⟩) := by
  obtain ⟨hpaused, hp, hwhitelisted, hsupported, ⟨m, hm⟩, hvalue, hvalid, hfresh, permit, y, hcall,
    -, henrol⟩ := permitAndCreateSubscription_eq_ok.mp h
  obtain ⟨hend, hid96, rfl, rfl⟩ := enrol_eq_ok.mp henrol
  have hsame := hO.frame hfront
  obtain ⟨x', hpermitted⟩ := exists_permitted hO rfl hfront permit
  refine ⟨x', permitAndCreateSubscription_eq_ok.mpr ⟨hpaused, hp, ?_, ?_, ⟨m, ?_⟩, hvalue, ?_,
    hfresh, permit, x', ?_, hpermitted, enrol_eq_ok.mpr ⟨hend, hid96, rfl, rfl⟩⟩⟩
  · exact (hsame.isWhitelisted _ _).trans hwhitelisted
  · exact (hsame.supportsCapability _ _ _).trans hsupported
  · exact (hsame.requireActiveMerchant _ _).trans hm
  · simp only [PayerSignature.isValid] at hvalid ⊢
    rw [hsame.codeLength, hsame.erc1271]
    exact hvalid
  · simp only [permitCall] at hcall ⊢
    rw [hsame.codeLength]
    exact hcall

/-! ## Runs -/

theorem runAt_usedIntentNonces {hasRole : RoleTable}
    {registry feeCollector tokenWhitelist : Address} {x : ξ} {ls : List (Label ξ)} {m n : Nat}
    {owner : Address} {nonce : Bytes32} (hmn : m ≤ n)
    (h : (runAt O this hasRole registry feeCollector tokenWhitelist x ls m).storage.usedIntentNonces
      owner nonce = true) :
    (runAt O this hasRole registry feeCollector tokenWhitelist x ls n).storage.usedIntentNonces
      owner nonce = true :=
  stateAt_invariant (P := fun c : Ctx Storage ξ => c.storage.usedIntentNonces owner nonce = true)
    hmn h fun c l _ => step_usedIntentNonces c l

/-- Call `n` of the run is a permit enrolment that went through. -/
def EnrolledAt (O : Outside ξ δ) (this : Address) (c : Nat → Ctx Storage ξ) (ls : List (Label ξ))
    (n : Nat) (msg : Msg) (p : Terms) (nonce : Bytes32) (permitData : PermitData) : Prop :=
  ∃ permitSig intentSig id c',
    ls[n]? = some ⟨msg, .permitAndCreateSubscription p nonce permitData permitSig intentSig⟩ ∧
    permitAndCreateSubscription O this msg p nonce permitData permitSig intentSig (c n) =
      .ok (id, c')

theorem EnrolledAt.enrols {hasRole : RoleTable} {registry feeCollector tokenWhitelist : Address}
    {x : ξ} {ls : List (Label ξ)} {n : Nat} {msg : Msg} {p : Terms} {nonce : Bytes32}
    {permitData : PermitData} (hO : Erc2612 O)
    (h : EnrolledAt O this (runAt O this hasRole registry feeCollector tokenWhitelist x ls) ls n msg
      p nonce permitData) :
    Enrols O this msg permitData.owner (subscriptionIntent p nonce permitData)
      (runAt O this hasRole registry feeCollector tokenWhitelist x ls n)
      (runAt O this hasRole registry feeCollector tokenWhitelist x ls (n + 1)) := by
  obtain ⟨permitSig, intentSig, id, c', hl, h⟩ := h
  have hnext : runAt O this hasRole registry feeCollector tokenWhitelist x ls (n + 1) = c' := by
    refine (stateAt_succ _ _ hl).trans (commit_of_ok (a := ()) ?_)
    simp only [dispatch, bind_eq_ok, pure_eq_ok, Prod.mk.injEq, existsAndEq, true_and, and_true]
    exact ⟨id, h⟩
  rw [hnext]
  exact permitAndCreate_enrols hO h

/-- Permit enrolment over any run from deployment, with any calls to the token and
the rest of the outside in between. A call that goes through enrols its owner in a
subscription the owner signed for, exactly one and with the allowance there; no two
of them share an owner and a nonce; a call that reverts changes nothing; and a
permit submitted first, by anyone, does not make an enrolment fail. -/
theorem permit_enrolment_authorised_single_use_atomic {ξ δ : Type} (O : Outside ξ δ)
    (this : Address) (Accepts : Address → δ → Prop)
    (Signed : Address → SubscriptionIntent → Prop) (hsigns : SignsIntents O Accepts Signed)
    (hO : Erc2612 O) (hasRole : RoleTable) (registry feeCollector tokenWhitelist : Address) (x : ξ)
    (ls : List (Label ξ)) :
    let c := runAt O this hasRole registry feeCollector tokenWhitelist x ls
    (∀ n msg p nonce permitData, EnrolledAt O this c ls n msg p nonce permitData →
      Signed permitData.owner (subscriptionIntent p nonce permitData) ∧
        Enrols O this msg permitData.owner (subscriptionIntent p nonce permitData) (c n)
          (c (n + 1))) ∧
    (∀ m n msg msg' p p' nonce permitData permitData',
      EnrolledAt O this c ls m msg p nonce permitData →
      EnrolledAt O this c ls n msg' p' nonce permitData' →
      permitData.owner = permitData'.owner → m = n) ∧
    (∀ n l e, ls[n]? = some l → dispatch O this l.msg l.action (c n) = .error e →
      c (n + 1) = c n) ∧
    ∀ n msg p nonce permitData permitSig intentSig id c' x',
      permitAndCreateSubscription O this msg p nonce permitData permitSig intentSig (c n) =
        .ok (id, c') →
      Permits O.toToken p.token permitData.owner this permitData.value (c n).ext x' →
      ∃ x'', permitAndCreateSubscription O this msg p nonce permitData permitSig intentSig
        ⟨(c n).storage, x'⟩ = .ok (id, ⟨c'.storage, x''⟩) := by
  intro c
  refine ⟨fun n msg p nonce permitData h => ⟨?_, h.enrols hO⟩, ?_, fun n l e hl h => ?_,
    fun n msg p nonce permitData permitSig intentSig id c' x' h hfront =>
      permitAndCreate_front_run hO h hfront⟩
  · obtain ⟨_, _, _, _, -, h⟩ := h
    obtain ⟨-, -, -, -, -, -, hvalid, -⟩ := permitAndCreateSubscription_eq_ok.mp h
    exact hsigns.of_isValid hvalid
  · intro m n msg msg' p p' nonce permitData permitData' h h' howner
    have he := h.enrols hO
    have he' := h'.enrols hO
    -- the later call would find its nonce burned by the earlier one
    rcases Nat.lt_trichotomy m n with hlt | heq | hlt
    · have hburned := runAt_usedIntentNonces hlt he.burned
      rw [howner] at hburned
      exact absurd (hburned.symm.trans he'.fresh) (by decide)
    · exact heq
    · have hburned := runAt_usedIntentNonces hlt he'.burned
      rw [← howner] at hburned
      exact absurd (hburned.symm.trans he.fresh) (by decide)
  · exact (stateAt_succ _ _ hl).trans (commit_of_error h)

def samplePlan : Terms := ⟨1, 200, 1000, 3600, 0, 0⟩

def samplePermit : PermitData := ⟨300, 5000, 99⟩

/-- The payer 300 signed one intent, with nonce 7. -/
def sampleSigned : ReferenceToken.Config where
  accepts a digest := a = 300 ∧ digest = .subscription (subscriptionIntent samplePlan 7 samplePermit)
  authorized _ _ := false

/-- A stranger submits the enrolment. -/
def sampleEnrolment : List (Label (Peers ReferenceToken.State)) :=
  [⟨⟨9, 50⟩, .permitAndCreateSubscription samplePlan 7 samplePermit sampleSig sampleSig⟩]

theorem sampleSigned_signs : SignsIntents (ReferenceToken.outside sampleSigned)
    (fun a digest => sampleSigned.accepts a digest = true)
    fun a i => sampleSigned.accepts a (.subscription i) = true where
  sound := ReferenceToken.sound sampleSigned
  signed _ i h := ⟨i, h, rfl⟩
  injective _ _ h := ReferenceToken.Digest.subscription.inj h

theorem sampleEnrolment_enrols :
    let O := ReferenceToken.outside sampleSigned
    let c := runAt O 101 ReferenceToken.sampleRoles 103 102 104 ReferenceToken.samplePeers
      sampleEnrolment
    Enrols O 101 ⟨9, 50⟩ 300 (subscriptionIntent samplePlan 7 samplePermit) (c 0) (c 1) := by
  intro O c
  have h := permit_enrolment_authorised_single_use_atomic O 101
    (fun a digest => sampleSigned.accepts a digest = true)
    (fun a i => sampleSigned.accepts a (.subscription i) = true) sampleSigned_signs
    (ReferenceToken.erc2612 sampleSigned) ReferenceToken.sampleRoles 103 102 104
    ReferenceToken.samplePeers sampleEnrolment
  obtain ⟨id, c', hok⟩ := exists_of_isOk (m := permitAndCreateSubscription O 101 ⟨9, 50⟩ samplePlan 7
    samplePermit sampleSig sampleSig) (s := c 0) (by decide +kernel)
  exact (h.1 0 ⟨9, 50⟩ samplePlan 7 samplePermit ⟨sampleSig, sampleSig, id, c', rfl, hok⟩).2

end Strimz.Subscriptions
