import Strimz.PayerSignature
import Strimz.Peers

/-!
# A token that meets the laws

A plain ERC-20 with EIP-2612 permits and EIP-3009 authorisations, a whitelist
and a signature scheme, as a `Kit`: the laws of `TokenLaws` are about something.
A signature names its signer in `r`; what each account signed is the
configuration's.
-/

namespace Strimz.ReferenceToken

/-- Digests: EIP-712 hashing that forgets nothing. -/
inductive Digest where
  | subscription (i : SubscriptionIntent)
  | pay (i : PayIntent)
deriving DecidableEq

structure State where
  balances : Address → Address → Uint256
  allowances : Address → Address → Address → Uint256
  authorizationState : Address → Address → Bytes32 → Bool
  whitelisted : Address → Bool

/-- What the accounts have signed. -/
structure Config where
  accepts : Address → Digest → Bool
  authorized : Address → ReceiveAuthorization → Bool

def reverted : Revert := .external []

def State.approve (s : State) (token owner spender : Address) (value : Uint256) : State :=
  let spenders := Function.update (s.allowances token owner) spender value
  let owners := Function.update (s.allowances token) owner spenders
  { s with allowances := Function.update s.allowances token owners }

def State.useNonce (s : State) (token payer : Address) (nonce : Bytes32) : State :=
  let nonces := Function.update (s.authorizationState token payer) nonce true
  let payers := Function.update (s.authorizationState token) payer nonces
  { s with authorizationState := Function.update s.authorizationState token payers }

def transfer (token src dst : Address) (value : Uint256) (s : State) : Except Revert State :=
  let b := s.balances token
  if b src < value then .error reverted
  else
    let debited := Function.update b src (b src - value)
    if 2 ^ 256 ≤ (debited dst).toNat + value.toNat then .error reverted
    else
      let credited := Function.update debited dst (debited dst + value)
      .ok { s with balances := Function.update s.balances token credited }

def transferFrom (spender token src dst : Address) (value : Uint256) (s : State) :
    Except Revert State :=
  if s.allowances token src spender < value then .error reverted
  else transfer token src dst value
    (s.approve token src spender (s.allowances token src spender - value))

/-- The account a signature names. -/
def signer (r : Bytes32) : Address := r.setWidth 160

def permit (msg : Msg) (token owner spender : Address) (value deadline : Uint256)
    (vrs : UInt8 × Bytes32 × Bytes32) (s : State) : Except Revert State :=
  if deadline < msg.timestamp.setWidth 256 ∨ signer vrs.2.1 ≠ owner then .error reverted
  else .ok (s.approve token owner spender value)

def receiveWithAuthorization (cfg : Config) (msg : Msg) (token : Address)
    (auth : ReceiveAuthorization) (vrs : UInt8 × Bytes32 × Bytes32) (s : State) :
    Except Revert State :=
  if auth.to_ ≠ msg.sender ∨ msg.timestamp.setWidth 256 ≤ auth.validAfter ∨
      auth.validBefore ≤ msg.timestamp.setWidth 256 ∨ signer vrs.2.1 ≠ auth.from_ ∨
      cfg.authorized token auth = false ∨
      s.authorizationState token auth.from_ auth.nonce = true then .error reverted
  else transfer token auth.from_ auth.to_ auth.value (s.useNonce token auth.from_ auth.nonce)

/-- Accounts have no code here, so the `bytes` overloads never accept. -/
def kit (cfg : Config) : Kit State Digest where
  balanceOf token a s := .ok (s.balances token a)
  allowance token owner spender s := .ok (s.allowances token owner spender)
  safeTransfer msg token dst value := transfer token msg.sender dst value
  safeTransferFrom msg token src dst value := transferFrom msg.sender token src dst value
  permit := permit
  permitBytes _ _ _ _ _ _ _ _ := .error reverted
  receiveWithAuthorization := receiveWithAuthorization cfg
  receiveWithAuthorizationBytes _ _ _ _ _ := .error reverted
  codeLength _ _ := 0
  isValidERC1271SignatureNow _ _ _ _ := false
  tryRecover digest _ r _ := if cfg.accepts (signer r) digest then some (signer r) else none
  isWhitelisted _ token s := .ok (s.whitelisted token)
  supportsCapability _ _ _ _ := .ok true
  subscriptionIntentDigest := .subscription
  payIntentDigest := .pay

def balance (s : State) (token a : Address) : Nat := (s.balances token a).toNat

variable {token src dst : Address} {value : Uint256} {s s' : State}

theorem transfer_moved (h : transfer token src dst value s = .ok s') :
    Moved balance s s' token src dst value ∧ s'.authorizationState = s.authorizationState := by
  simp only [transfer] at h
  split at h
  · cases h
  · rename_i henough
    split at h
    · cases h
    · rename_i hrange
      obtain rfl := Except.ok.inj h
      have hle := BitVec.le_def.mp (BitVec.not_lt.mp henough)
      refine ⟨⟨hle, ?_⟩, rfl⟩
      funext t a
      by_cases ht : t = token
      · subst ht
        simp only [balance, Function.update_self, Ledger.move, Ledger.at_]
        have hsub := BitVec.toNat_sub_of_le (BitVec.not_lt.mp henough)
        rw [Nat.not_le] at hrange
        by_cases hdst : a = dst
        · subst hdst
          by_cases hsrc : a = src
          · subst hsrc
            rw [Function.update_self] at hrange ⊢
            rw [Function.update_self, BitVec.toNat_add_of_lt hrange, hsub]
            simp
          · rw [Function.update_of_ne hsrc] at hrange ⊢
            rw [Function.update_self, BitVec.toNat_add_of_lt hrange]
            simp [Ne.symm hsrc]
        · rw [Function.update_of_ne hdst]
          by_cases hsrc : a = src
          · subst hsrc
            simp [hsub, Ne.symm hdst]
          · simp [hsrc, Ne.symm hsrc, Ne.symm hdst]
      · simp [balance, ht]

theorem exact (cfg : Config) : ExactToken (kit cfg).toToken balance where
  balanceOf token a s := ⟨_, rfl, rfl⟩
  safeTransfer h := (transfer_moved h).1
  safeTransferFrom {msg token src dst value x x'} h := by
    simp only [kit, transferFrom] at h
    split at h
    · cases h
    · obtain ⟨henough, hmoved⟩ := (transfer_moved h).1
      exact ⟨henough, hmoved⟩
  receives {msg token auth x x'} h := by
    rcases h with ⟨vrs, h⟩ | ⟨_, h⟩
    · simp only [kit, receiveWithAuthorization] at h
      split at h
      · cases h
      · rename_i hchecks
        obtain ⟨henough, hmoved⟩ := (transfer_moved h).1
        exact ⟨not_not.mp (not_or.mp hchecks).1, henough, hmoved⟩
    · cases h

/-! ## The deployment around it -/

abbrev outside (cfg : Config) : Outside (Peers State) Digest := Peers.outside (kit cfg)

theorem sound (cfg : Config) : PayerSignature.Sound (outside cfg).toSignatures
    fun a digest => cfg.accepts a digest = true where
  recover digest v r s a h := by
    simp only [Peers.outside, kit] at h
    split at h
    · rename_i haccepts
      rwa [← Option.some.inj h]
    · cases h
  erc1271 a digest signature x h := by cases h

theorem permits_approve {cfg : Config} {owner spender : Address} {s s' : State}
    (h : Permits (kit cfg).toToken token owner spender value s s') :
    s' = s.approve token owner spender value := by
  rcases h with ⟨msg, deadline, vrs, h⟩ | ⟨_, _, _, h⟩
  · simp only [kit, permit] at h
    split at h
    · cases h
    · exact (Except.ok.inj h).symm
  · cases h

theorem erc2612 (cfg : Config) : Erc2612 (outside cfg) where
  grants h := by
    obtain ⟨t, ht, rfl⟩ := Peers.permits_outside h
    obtain rfl := permits_approve ht
    simp [Peers.outside, kit, State.approve]
  frame h := by
    obtain ⟨t, ht, rfl⟩ := Peers.permits_outside h
    obtain rfl := permits_approve ht
    exact ⟨fun _ => rfl, fun _ _ _ => rfl, fun _ _ => rfl, fun _ _ _ => rfl, fun _ _ => rfl⟩

/-- Whether an authorisation nonce is used. -/
def used (p : Peers State) : Address → Address → Bytes32 → Bool := p.tokens.authorizationState

theorem useNonce_keeps (s : State) (t payer : Address) (nonce : Bytes32) (token a : Address)
    (n : Bytes32) (h : s.authorizationState token a n = true) :
    (s.useNonce t payer nonce).authorizationState token a n = true := by
  by_cases ht : token = t
  · subst ht
    by_cases ha : a = payer
    · subst ha
      by_cases hn : n = nonce <;> simp [State.useNonce, hn, h]
    · simp [State.useNonce, ha, h]
  · simp [State.useNonce, ht, h]

/-- What a received authorisation passed and did. -/
theorem receives_spec {cfg : Config} {msg : Msg} {auth : ReceiveAuthorization} {s s' : State}
    (h : Receives (kit cfg).toToken msg token auth s s') :
    cfg.authorized token auth = true ∧
      s.authorizationState token auth.from_ auth.nonce = false ∧
      s'.authorizationState = (s.useNonce token auth.from_ auth.nonce).authorizationState := by
  rcases h with ⟨vrs, h⟩ | ⟨_, h⟩
  · simp only [kit, receiveWithAuthorization] at h
    split at h
    · cases h
    · rename_i hchecks
      simp only [not_or, Bool.not_eq_false, Bool.not_eq_true] at hchecks
      exact ⟨hchecks.2.2.2.2.1, hchecks.2.2.2.2.2, (transfer_moved h).2⟩
  · cases h

theorem erc3009 (cfg : Config) :
    Erc3009 (outside cfg) used fun token auth => cfg.authorized token auth = true where
  unused h := by
    obtain ⟨t, ht, rfl⟩ := Peers.receives_outside h
    exact (receives_spec ht).2.1
  burns h := by
    obtain ⟨t, ht, rfl⟩ := Peers.receives_outside h
    simp [used, (receives_spec ht).2.2, State.useNonce]
  authorized h := by
    obtain ⟨t, ht, rfl⟩ := Peers.receives_outside h
    exact (receives_spec ht).1
  receives h := by
    obtain ⟨t, ht, rfl⟩ := Peers.receives_outside h
    intro token a n hused
    simp only [used, (receives_spec ht).2.2]
    exact useNonce_keeps _ _ _ _ _ _ _ hused
  safeTransfer h := by
    obtain ⟨t, ht, rfl⟩ := Peers.onTokens_eq_ok.mp h
    intro token a n hused
    simp only [used, (transfer_moved ht).2]
    exact hused
  safeTransferFrom h := by
    obtain ⟨t, ht, rfl⟩ := Peers.onTokens_eq_ok.mp h
    simp only [kit, transferFrom] at ht
    split at ht
    · cases ht
    · intro token a n hused
      simp only [used, (transfer_moved ht).2]
      exact hused
  accrue h := by
    obtain ⟨s, -, rfl⟩ := Peers.onCollector_eq_ok.mp h
    exact fun _ _ _ hused => hused

/-! ## A deployment to run -/

/-- Account 1 runs the system, the contracts at 100 and 101 may accrue. -/
def sampleRoles : RoleTable := fun role account =>
  account = 1 ∨ role = .feeAccruer ∧ (account = 100 ∨ account = 101)

/-- Merchant 1 (owner 7, payout 8, fee 1%), and a payer 300 with a million units
of every token and an allowance for the contracts. -/
def samplePeers : Peers State where
  registries := fun _ =>
    { Registry.deployed sampleRoles with
      nextMerchantId := 2
      merchants := Function.update (fun _ => Registry.noMerchant) 1 ⟨7, 100, true, 8, 0, 0, 0, 0, 500⟩ }
  collectors := fun _ => FeeCollector.deployed sampleRoles
  tokens :=
    { balances := fun _ a => if a = 300 then 1000000 else 0
      allowances := fun _ owner _ => if owner = 300 then 1000000 else 0
      authorizationState := fun _ _ _ => false
      whitelisted := fun _ => true }

/-- A 65-byte signature that names account 300. -/
def sampleSig : Bytes := List.replicate 30 0 ++ [1, 44] ++ List.replicate 32 0 ++ [27]

/-- Nobody signed anything. -/
def silent : Config := ⟨fun _ _ => false, fun _ _ => false⟩

end Strimz.ReferenceToken
