import Strimz.TokenLaws
import Strimz.FeeCollector
import Strimz.RegistrySteps

/-!
# The deployed outside

`Outside` with the repository's own contracts in it: every registry address
holds a `Registry.Storage` and every collector address a `FeeCollector.Storage`,
and calls to them run the contracts' own code. Tokens, the whitelist and
signatures stay arbitrary (`Kit`), over a state `τ` of their own.
-/

namespace Strimz

/-- What is outside the repository's contracts. -/
structure Kit (τ δ : Type) extends Token τ, Signatures τ δ where
  isWhitelisted : Address → Address → τ → Except Revert Bool
  supportsCapability : Address → Address → UInt8 → τ → Except Revert Bool
  subscriptionIntentDigest : SubscriptionIntent → δ
  payIntentDigest : PayIntent → δ

/-- The registries and fee collectors by address, and the rest. -/
structure Peers (τ : Type) where
  registries : Address → Registry.Storage
  collectors : Address → FeeCollector.Storage
  tokens : τ

namespace Peers

variable {τ δ α : Type}

/-- A call that only the token world sees. -/
def onTokens (f : τ → Except Revert τ) (p : Peers τ) : Except Revert (Peers τ) :=
  match f p.tokens with
  | .ok t => .ok { p with tokens := t }
  | .error e => .error e

/-- A view of the registry at an address. -/
def ofRegistry (registry : Address) (view : Registry.Call α) (p : Peers τ) : Except Revert α :=
  match view (p.registries registry) with
  | .ok (a, _) => .ok a
  | .error e => .error e

/-- A call to the collector at an address. -/
def onCollector (collector : Address) (f : Tx Revert FeeCollector.Storage Unit) (p : Peers τ) :
    Except Revert (Peers τ) :=
  match f (p.collectors collector) with
  | .ok (_, s) => .ok { p with collectors := Function.update p.collectors collector s }
  | .error e => .error e

def outside (K : Kit τ δ) : Outside (Peers τ) δ where
  balanceOf token a p := K.balanceOf token a p.tokens
  allowance token owner spender p := K.allowance token owner spender p.tokens
  safeTransfer msg token to_ amount := onTokens (K.safeTransfer msg token to_ amount)
  safeTransferFrom msg token from_ to_ amount :=
    onTokens (K.safeTransferFrom msg token from_ to_ amount)
  permit msg token owner spender value deadline vrs :=
    onTokens (K.permit msg token owner spender value deadline vrs)
  permitBytes msg token owner spender value deadline signature :=
    onTokens (K.permitBytes msg token owner spender value deadline signature)
  receiveWithAuthorization msg token auth vrs :=
    onTokens (K.receiveWithAuthorization msg token auth vrs)
  receiveWithAuthorizationBytes msg token auth signature :=
    onTokens (K.receiveWithAuthorizationBytes msg token auth signature)
  codeLength a p := K.codeLength a p.tokens
  isValidERC1271SignatureNow a digest signature p :=
    K.isValidERC1271SignatureNow a digest signature p.tokens
  tryRecover := K.tryRecover
  isWhitelisted w token p := K.isWhitelisted w token p.tokens
  supportsCapability w token capability p := K.supportsCapability w token capability p.tokens
  getMerchant registry id := ofRegistry registry (Registry.getMerchant id)
  requireActiveMerchant registry id := ofRegistry registry (Registry.requireActiveMerchant id)
  accrue msg collector token merchantId amount :=
    onCollector collector (FeeCollector.accrue msg token merchantId amount)
  subscriptionIntentDigest := K.subscriptionIntentDigest
  payIntentDigest := K.payIntentDigest

theorem onTokens_eq_ok {f : τ → Except Revert τ} {p p' : Peers τ} :
    onTokens f p = .ok p' ↔ ∃ t, f p.tokens = .ok t ∧ p' = { p with tokens := t } := by
  unfold onTokens
  cases f p.tokens <;> simp [eq_comm]

theorem ofRegistry_eq_ok {registry : Address} {view : Registry.Call α} {p : Peers τ} {a : α} :
    ofRegistry registry view p = .ok a ↔ ∃ s, view (p.registries registry) = .ok (a, s) := by
  unfold ofRegistry
  cases view (p.registries registry) <;> simp [Prod.ext_iff]

theorem onCollector_eq_ok {collector : Address} {f : Tx Revert FeeCollector.Storage Unit}
    {p p' : Peers τ} :
    onCollector collector f p = .ok p' ↔ ∃ s, f (p.collectors collector) = .ok ((), s) ∧
      p' = { p with collectors := Function.update p.collectors collector s } := by
  unfold onCollector
  cases f (p.collectors collector) <;> simp [eq_comm, Prod.ext_iff]

theorem receives_outside {K : Kit τ δ} {msg : Msg} {token : Address}
    {auth : ReceiveAuthorization} {p p' : Peers τ}
    (h : Receives (outside K).toToken msg token auth p p') :
    ∃ t, Receives K.toToken msg token auth p.tokens t ∧ p' = { p with tokens := t } := by
  rcases h with ⟨vrs, h⟩ | ⟨signature, h⟩
  · obtain ⟨t, ht, hp⟩ := onTokens_eq_ok.mp h
    exact ⟨t, Or.inl ⟨vrs, ht⟩, hp⟩
  · obtain ⟨t, ht, hp⟩ := onTokens_eq_ok.mp h
    exact ⟨t, Or.inr ⟨signature, ht⟩, hp⟩

theorem permits_outside {K : Kit τ δ} {token owner spender : Address} {value : Uint256}
    {p p' : Peers τ} (h : Permits (outside K).toToken token owner spender value p p') :
    ∃ t, Permits K.toToken token owner spender value p.tokens t ∧ p' = { p with tokens := t } := by
  rcases h with ⟨msg, deadline, vrs, h⟩ | ⟨msg, deadline, signature, h⟩
  · obtain ⟨t, ht, hp⟩ := onTokens_eq_ok.mp h
    exact ⟨t, Or.inl ⟨msg, deadline, vrs, ht⟩, hp⟩
  · obtain ⟨t, ht, hp⟩ := onTokens_eq_ok.mp h
    exact ⟨t, Or.inr ⟨msg, deadline, signature, ht⟩, hp⟩

/-- Exactness of the token world is exactness of the deployment. -/
theorem exactToken {K : Kit τ δ} {balance : τ → Address → Address → Nat}
    (h : ExactToken K.toToken balance) :
    ExactToken (outside K).toToken fun p => balance p.tokens where
  balanceOf token a p := h.balanceOf token a p.tokens
  safeTransfer hx := by
    obtain ⟨t, ht, rfl⟩ := onTokens_eq_ok.mp hx
    obtain ⟨henough, hmoved⟩ := h.safeTransfer ht
    exact ⟨henough, hmoved⟩
  safeTransferFrom hx := by
    obtain ⟨t, ht, rfl⟩ := onTokens_eq_ok.mp hx
    obtain ⟨henough, hmoved⟩ := h.safeTransferFrom ht
    exact ⟨henough, hmoved⟩
  receives hx := by
    obtain ⟨t, ht, rfl⟩ := receives_outside hx
    obtain ⟨hto, henough, hmoved⟩ := h.receives ht
    exact ⟨hto, henough, hmoved⟩

end Peers

end Strimz
