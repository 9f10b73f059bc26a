import Strimz.PaymentSteps
import Strimz.ReferenceToken

/-!
# Gasless payments settle once

`payWithAuthorization` takes two signatures of the payer. The token checks the
EIP-3009 authorisation and burns its nonce, which makes a payment single-use on
that token; the contract checks the intent, which pins the merchant, the token, the
amount and the reference. The nonce space is the token's own: the same nonce on
another token is another payment.
-/

namespace Strimz.Payments

open Tx Runs
open ReferenceToken (sampleSig)

variable {ξ δ : Type} {O : Outside ξ δ} {this : Address}

/-- What an intent signature is worth: digests forget no field, and a payer accepts
the digest of an intent only if it signed one with that digest. -/
structure SignsIntents (O : Outside ξ δ) (Accepts : Address → δ → Prop)
    (Signed : Address → PayIntent → Prop) : Prop where
  sound : PayerSignature.Sound O.toSignatures Accepts
  signed : ∀ a i, Accepts a (O.payIntentDigest i) →
    ∃ j, Signed a j ∧ O.payIntentDigest j = O.payIntentDigest i
  injective : Function.Injective O.payIntentDigest

theorem SignsIntents.of_isValid {Accepts : Address → δ → Prop}
    {Signed : Address → PayIntent → Prop} (h : SignsIntents O Accepts Signed) {payer : Address}
    {i : PayIntent} {signature : Bytes} {x : ξ}
    (hvalid : PayerSignature.isValid O.toSignatures payer (O.payIntentDigest i) signature x =
      true) : Signed payer i := by
  obtain ⟨j, hj, heq⟩ := h.signed payer i (PayerSignature.isValid_accepts h.sound hvalid)
  rwa [h.injective heq] at hj

/-! ## Nonces -/

section Nonces

variable {used : ξ → Address → Address → Bytes32 → Bool}
  {Authorized : Address → ReceiveAuthorization → Prop} {msg : Msg} {c c' : Ctx Storage ξ}

/-- A payment by authorisation passed an unused nonce, and leaves it used. -/
theorem PaysAuthorized.nonce (hO : Erc3009 O used Authorized) {merchantId : Nat}
    {token : Address} {auth : PayAuthorization} {ref : Bytes32} {intentSig : Bytes} {m : Merchant}
    (h : PaysAuthorized O this msg merchantId token auth ref intentSig m c c') :
    Authorized token (toReceive this auth) ∧ used c.ext token auth.from_ auth.nonce = false ∧
      used c'.ext token auth.from_ auth.nonce = true ∧ KeepsUsed used c.ext c'.ext := by
  obtain ⟨x₁, x₃, x, hreceives, hfee, hnet, rfl⟩ := h.settles
  have hkeeps : KeepsUsed used x₁ x := by
    rcases hfee with ⟨-, x₂, htransfer, haccrue⟩ | ⟨-, rfl⟩
    · exact ((hO.safeTransfer htransfer).trans (hO.accrue haccrue)).trans (hO.safeTransfer hnet)
    · exact hO.safeTransfer hnet
  exact ⟨hO.authorized hreceives, hO.unused hreceives, hkeeps _ _ _ (hO.burns hreceives),
    (hO.receives hreceives).trans hkeeps⟩

theorem setDependency_ext {name : String} {write : Address → Storage → Storage} {v : Address}
    (h : setDependency msg name write v c = .ok ((), c')) : c'.ext = c.ext := by
  simp only [setDependency, emit, bind_eq_ok, sload_eq_ok, onlyRole_eq_ok, whenPaused_eq_ok,
    revertIf_eq_ok, sstore_eq_ok, Prod.mk.injEq, existsAndEq, exists_const, true_and, and_true] at h
  obtain ⟨-, -, -, rfl⟩ := h
  rfl

/-- A used nonce stays used, as long as what happens outside keeps it so. -/
theorem step_keepsUsed (hO : Erc3009 O used Authorized) {l : Label ξ}
    (hexternal : ∀ f, l.action = .external f → ∀ x, KeepsUsed used x (f x)) (c : Ctx Storage ξ) :
    KeepsUsed used c.ext (step O this c l).ext := by
  refine commit_cases (P := fun c' : Ctx Storage ξ => KeepsUsed used c.ext c'.ext)
    (fun _ _ _ h => h) fun _ c' h => ?_
  cases haction : l.action with
  | pay merchantId token amount ref =>
      rw [haction] at h
      obtain ⟨m, hpays⟩ := pay_ok h
      obtain ⟨x, hsettles, rfl⟩ := hpays.settles
      exact hsettles.keepsUsed hO
  | payWithAuthorization merchantId token auth ref authSig intentSig =>
      rw [haction] at h
      obtain ⟨m, hpays⟩ := payWithAuthorization_ok h
      exact (hpays.nonce hO).2.2.2
  | pause =>
      simp only [haction, dispatch, pause, bind_eq_ok, sload_eq_ok, onlyRole_eq_ok,
        whenNotPaused_eq_ok, sstore_eq_ok, Prod.mk.injEq, existsAndEq, exists_const, true_and,
        and_true] at h
      obtain ⟨-, -, rfl⟩ := h
      exact fun _ _ _ h => h
  | unpause =>
      simp only [haction, dispatch, unpause, bind_eq_ok, sload_eq_ok, onlyRole_eq_ok,
        whenPaused_eq_ok, sstore_eq_ok, Prod.mk.injEq, existsAndEq, exists_const, true_and,
        and_true] at h
      obtain ⟨-, -, rfl⟩ := h
      exact fun _ _ _ h => h
  | setRegistry v =>
      simp only [haction, dispatch, setRegistry] at h
      rw [setDependency_ext h]
      exact fun _ _ _ h => h
  | setFeeCollector v =>
      simp only [haction, dispatch, setFeeCollector] at h
      rw [setDependency_ext h]
      exact fun _ _ _ h => h
  | setTokenWhitelist v =>
      simp only [haction, dispatch, setTokenWhitelist] at h
      rw [setDependency_ext h]
      exact fun _ _ _ h => h
  | rescue token to_ amount =>
      simp only [haction, dispatch, rescue, nonReentrant, emit, bind_eq_ok, sload_eq_ok,
        onlyRole_eq_ok, guarded_eq_ok, revertIf_eq_ok, call_eq_ok, sstore_eq_ok, Prod.mk.injEq,
        existsAndEq, exists_const, true_and, and_true] at h
      obtain ⟨-, -, x, ⟨-, -, htransfer⟩, rfl⟩ := h
      exact hO.safeTransfer htransfer
  | setRoles hasRole =>
      simp only [haction, dispatch, sstore_eq_ok, Prod.mk.injEq, true_and] at h
      subst h
      exact fun _ _ _ h => h
  | external f =>
      simp only [haction, dispatch, modify_eq_ok, Prod.mk.injEq, true_and] at h
      subst h
      exact hexternal f haction c.ext

end Nonces

/-! ## Runs -/

/-- Call `n` of the run is a payment by authorisation that went through. -/
def PaidAt (O : Outside ξ δ) (this : Address) (c : Nat → Ctx Storage ξ) (ls : List (Label ξ))
    (n merchantId : Nat) (token : Address) (auth : PayAuthorization) (ref : Bytes32) : Prop :=
  ∃ msg authSig intentSig c',
    ls[n]? = some ⟨msg, .payWithAuthorization merchantId token auth ref authSig intentSig⟩ ∧
    payWithAuthorization O this msg merchantId token auth ref authSig intentSig (c n) =
      .ok ((), c')

section Run

variable {used : ξ → Address → Address → Bytes32 → Bool}
  {Authorized : Address → ReceiveAuthorization → Prop} {hasRole : RoleTable}
  {registry feeCollector tokenWhitelist : Address} {x : ξ} {ls : List (Label ξ)}

theorem runAt_used (hO : Erc3009 O used Authorized)
    (hexternal : ∀ l ∈ ls, ∀ f, l.action = .external f → ∀ x, KeepsUsed used x (f x))
    {m n : Nat} (hmn : m ≤ n) {token payer : Address} {nonce : Bytes32}
    (h : used (runAt O this hasRole registry feeCollector tokenWhitelist x ls m).ext token payer
      nonce = true) :
    used (runAt O this hasRole registry feeCollector tokenWhitelist x ls n).ext token payer
      nonce = true :=
  stateAt_invariant (P := fun c : Ctx Storage ξ => used c.ext token payer nonce = true) hmn h
    fun c l hl h => step_keepsUsed hO (hexternal l hl) c token payer nonce h

/-- What a payment by authorisation leaves in the run: its event, and its nonce used
from then on. -/
theorem PaidAt.spec (hO : Erc3009 O used Authorized)
    (hexternal : ∀ l ∈ ls, ∀ f, l.action = .external f → ∀ x, KeepsUsed used x (f x))
    {n merchantId : Nat} {token : Address} {auth : PayAuthorization} {ref : Bytes32}
    (h : PaidAt O this (runAt O this hasRole registry feeCollector tokenWhitelist x ls) ls n
      merchantId token auth ref) :
    let c := runAt O this hasRole registry feeCollector tokenWhitelist x ls
    (∃ fee net, (c (n + 1)).storage.logs =
      (c n).storage.logs ++ [.paymentExecuted merchantId auth.from_ token auth.amount fee net ref]) ∧
    used (c n).ext token auth.from_ auth.nonce = false ∧
    ∀ k, n < k → used (c k).ext token auth.from_ auth.nonce = true := by
  intro c
  obtain ⟨msg, authSig, intentSig, c', hl, h⟩ := h
  have hnext : c (n + 1) = c' := (stateAt_succ _ _ hl).trans (commit_of_ok h)
  obtain ⟨m, hpays⟩ := payWithAuthorization_ok h
  obtain ⟨-, hunused, hused, -⟩ := hpays.nonce hO
  obtain ⟨x₁, x₃, x', -, -, -, heq⟩ := hpays.settles
  refine ⟨⟨feeOf auth.amount m.feeBps, auth.amount - feeOf auth.amount m.feeBps, ?_⟩, hunused,
    fun k hk => runAt_used hO hexternal hk ?_⟩
  · rw [hnext, heq]
    rfl
  · rw [show runAt O this hasRole registry feeCollector tokenWhitelist x ls (n + 1) = c' from hnext]
    exact hused

end Run

/-- Gasless payments over any run from deployment, anyone submitting anything. One
that goes through was signed twice by the payer, the intent naming exactly its
merchant, token, amount, reference, nonce and validity, and emits exactly one event;
a nonce of a payer settles at most once on a token; a submission that matches no
signed intent, or no authorisation, or whose nonce has already settled there,
reverts; and a call that reverts changes nothing. -/
theorem authorization_settles_once {ξ δ : Type} (O : Outside ξ δ) (this : Address)
    (Accepts : Address → δ → Prop) (Signed : Address → PayIntent → Prop)
    (hsigns : SignsIntents O Accepts Signed) (used : ξ → Address → Address → Bytes32 → Bool)
    (Authorized : Address → ReceiveAuthorization → Prop) (hO : Erc3009 O used Authorized)
    (hasRole : RoleTable) (registry feeCollector tokenWhitelist : Address) (x : ξ)
    (ls : List (Label ξ))
    (hexternal : ∀ l ∈ ls, ∀ f, l.action = .external f → ∀ x, KeepsUsed used x (f x)) :
    let c := runAt O this hasRole registry feeCollector tokenWhitelist x ls
    (∀ n merchantId token auth ref, PaidAt O this c ls n merchantId token auth ref →
      Signed auth.from_ (payIntent merchantId token auth ref) ∧
        Authorized token (toReceive this auth) ∧
        ∃ fee net, (c (n + 1)).storage.logs = (c n).storage.logs ++
          [.paymentExecuted merchantId auth.from_ token auth.amount fee net ref]) ∧
    (∀ m n merchantId merchantId' token auth auth' ref ref',
      PaidAt O this c ls m merchantId token auth ref →
      PaidAt O this c ls n merchantId' token auth' ref' →
      auth.from_ = auth'.from_ → auth.nonce = auth'.nonce → m = n) ∧
    (∀ n msg merchantId token auth ref authSig intentSig,
      (¬ Signed auth.from_ (payIntent merchantId token auth ref) ∨
        ¬ Authorized token (toReceive this auth) ∨
        ∃ m, m < n ∧ ∃ merchantId' auth' ref', PaidAt O this c ls m merchantId' token auth' ref' ∧
          auth'.from_ = auth.from_ ∧ auth'.nonce = auth.nonce) →
      ∃ e, payWithAuthorization O this msg merchantId token auth ref authSig intentSig (c n) =
        .error e) ∧
    ∀ n l e, ls[n]? = some l → dispatch O this l.msg l.action (c n) = .error e →
      c (n + 1) = c n := by
  intro c
  refine ⟨fun n merchantId token auth ref h => ⟨?_, ?_, (h.spec hO hexternal).1⟩, ?_, ?_,
    fun n l e hl h => (stateAt_succ _ _ hl).trans (commit_of_error h)⟩
  · obtain ⟨_, _, _, _, -, h⟩ := h
    obtain ⟨m, hpays⟩ := payWithAuthorization_ok h
    exact hsigns.of_isValid hpays.intent
  · obtain ⟨_, _, _, _, -, h⟩ := h
    obtain ⟨m, hpays⟩ := payWithAuthorization_ok h
    exact (hpays.nonce hO).1
  · intro m n merchantId merchantId' token auth auth' ref ref' h h' hfrom hnonce
    obtain ⟨-, hunused, hused⟩ := h.spec hO hexternal
    obtain ⟨-, hunused', hused'⟩ := h'.spec hO hexternal
    rw [← hfrom, ← hnonce] at hunused' hused'
    -- the later call would find its nonce burned by the earlier one
    rcases Nat.lt_trichotomy m n with hlt | heq | hlt
    · exact absurd ((hused n hlt).symm.trans hunused') (by decide)
    · exact heq
    · exact absurd ((hused' m hlt).symm.trans hunused) (by decide)
  · intro n msg merchantId token auth ref authSig intentSig hbad
    cases h : payWithAuthorization O this msg merchantId token auth ref authSig intentSig (c n) with
    | error e => exact ⟨e, rfl⟩
    | ok r =>
        obtain ⟨_, c'⟩ := r
        obtain ⟨m, hpays⟩ := payWithAuthorization_ok h
        obtain ⟨hauthorized, hunused, -, -⟩ := hpays.nonce hO
        rcases hbad with hbad | hbad | ⟨k, hk, merchantId', auth', ref', hpaid, hfrom, hnonce⟩
        · exact absurd (hsigns.of_isValid hpays.intent) hbad
        · exact absurd hauthorized hbad
        · have hused := (hpaid.spec hO hexternal).2.2 n hk
          rw [hfrom, hnonce] at hused
          exact absurd (hused.symm.trans hunused) (by decide)

def sampleAuth : PayAuthorization := ⟨300, 1000, 0, 99, 7⟩

/-- The payer 300 authorised 1000 units with nonce 7 on two tokens, and signed an
intent for each. -/
def sampleSigned : ReferenceToken.Config where
  accepts a digest := a = 300 ∧
    (digest = .pay (payIntent 1 200 sampleAuth 5) ∨ digest = .pay (payIntent 1 201 sampleAuth 5))
  authorized _ auth := auth = toReceive 100 sampleAuth

/-- A stranger submits both. -/
def samplePayments : List (Label (Peers ReferenceToken.State)) :=
  [⟨⟨9, 50⟩, .payWithAuthorization 1 200 sampleAuth 5 sampleSig sampleSig⟩,
   ⟨⟨9, 51⟩, .payWithAuthorization 1 201 sampleAuth 5 sampleSig sampleSig⟩]

theorem sampleSigned_signs : SignsIntents (ReferenceToken.outside sampleSigned)
    (fun a digest => sampleSigned.accepts a digest = true)
    fun a i => sampleSigned.accepts a (.pay i) = true where
  sound := ReferenceToken.sound sampleSigned
  signed _ i h := ⟨i, h, rfl⟩
  injective _ _ h := ReferenceToken.Digest.pay.inj h

/-- One payer and nonce, two payments: the nonce is burned on each token by itself. -/
theorem authorization_settles_on_each_token :
    let O := ReferenceToken.outside sampleSigned
    let c := runAt O 100 ReferenceToken.sampleRoles 103 102 104 ReferenceToken.samplePeers
      samplePayments
    PaidAt O 100 c samplePayments 0 1 200 sampleAuth 5 ∧
      PaidAt O 100 c samplePayments 1 1 201 sampleAuth 5 := by
  intro O c
  obtain ⟨_, c₁, h⟩ := exists_of_isOk (m := payWithAuthorization O 100 ⟨9, 50⟩ 1 200 sampleAuth 5
    sampleSig sampleSig) (s := c 0) (by decide +kernel)
  obtain ⟨_, c₂, h'⟩ := exists_of_isOk (m := payWithAuthorization O 100 ⟨9, 51⟩ 1 201 sampleAuth 5
    sampleSig sampleSig) (s := c 1) (by decide +kernel)
  exact ⟨⟨_, _, _, c₁, rfl, h⟩, _, _, _, c₂, rfl, h'⟩

/-- The first of the two cannot be submitted again. -/
theorem samplePayment_once :
    let O := ReferenceToken.outside sampleSigned
    let c := runAt O 100 ReferenceToken.sampleRoles 103 102 104 ReferenceToken.samplePeers
      samplePayments
    ∃ e, payWithAuthorization O 100 ⟨9, 52⟩ 1 200 sampleAuth 5 sampleSig sampleSig (c 2) =
      .error e := by
  intro O c
  have h := authorization_settles_once O 100 (fun a digest => sampleSigned.accepts a digest = true)
    (fun a i => sampleSigned.accepts a (.pay i) = true) sampleSigned_signs ReferenceToken.used
    (fun token auth => sampleSigned.authorized token auth = true)
    (ReferenceToken.erc3009 sampleSigned) ReferenceToken.sampleRoles 103 102 104
    ReferenceToken.samplePeers samplePayments
    (fun l hl f hf => by
      simp only [samplePayments, List.mem_cons, List.not_mem_nil, or_false] at hl
      rcases hl with rfl | rfl <;> cases hf)
  obtain ⟨_, c₁, hpaid⟩ := exists_of_isOk (m := payWithAuthorization O 100 ⟨9, 50⟩ 1 200 sampleAuth 5
    sampleSig sampleSig) (s := c 0) (by decide +kernel)
  exact h.2.2.1 2 ⟨9, 52⟩ 1 200 sampleAuth 5 sampleSig sampleSig (Or.inr (Or.inr ⟨0, by decide, 1,
    sampleAuth, 5, ⟨_, _, _, c₁, rfl, hpaid⟩, rfl, rfl⟩))

end Strimz.Payments
