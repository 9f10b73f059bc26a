import Strimz.Ledger
import Strimz.Interfaces

/-!
# What the contracts rely on tokens for

The documented behaviour of the token standards, as properties of a `Token` over
the states it acts on: transfers that move exactly what they were asked or
revert (`ExactToken`), EIP-2612 permits (`Erc2612`), EIP-3009 authorisations
(`Erc3009`). `balance` and `used` are how a result looks at the token's state.
-/

namespace Strimz

variable {ξ δ : Type}

/-- The balances after `value` of `token` moved from `src` to `dst`. -/
structure Moved (balance : ξ → Address → Address → Nat) (x x' : ξ) (token src dst : Address)
    (value : Uint256) : Prop where
  enough : value.toNat ≤ balance x token src
  moved : balance x' = Function.update (balance x) token
    (Ledger.move (balance x token) src dst value.toNat)

theorem Moved.add {balance : ξ → Address → Address → Nat} {x x' : ξ} {token src dst : Address}
    {value : Uint256} (h : Moved balance x x' token src dst value) (a : Address) :
    balance x' token a + Ledger.at_ src a value.toNat =
      balance x token a + Ledger.at_ dst a value.toNat := by
  rw [h.moved, Function.update_self]
  exact Ledger.move_add h.enough dst a

theorem Moved.other {balance : ξ → Address → Address → Nat} {x x' : ξ} {token src dst : Address}
    {value : Uint256} (h : Moved balance x x' token src dst value) {t : Address} (ht : t ≠ token) :
    balance x' t = balance x t := by
  rw [h.moved, Function.update_of_ne ht]

/-! ## EIP-3009 and EIP-2612 calls, either overload -/

/-- A permit of `owner` for `spender` went through. -/
def Permits (T : Token ξ) (token owner spender : Address) (value : Uint256) (x x' : ξ) : Prop :=
  (∃ msg deadline vrs, T.permit msg token owner spender value deadline vrs x = .ok x') ∨
    ∃ msg deadline signature, T.permitBytes msg token owner spender value deadline signature x =
      .ok x'

/-- `receiveWithAuthorization` went through. -/
def Receives (T : Token ξ) (msg : Msg) (token : Address) (auth : ReceiveAuthorization)
    (x x' : ξ) : Prop :=
  (∃ vrs, T.receiveWithAuthorization msg token auth vrs x = .ok x') ∨
    ∃ signature, T.receiveWithAuthorizationBytes msg token auth signature x = .ok x'

/-! ## The laws -/

/-- A token whose transfers move exactly the asked value or revert. -/
structure ExactToken (T : Token ξ) (balance : ξ → Address → Address → Nat) : Prop where
  balanceOf : ∀ token a x, ∃ b, T.balanceOf token a x = .ok b ∧ b.toNat = balance x token a
  safeTransfer : ∀ {msg token dst value x x'},
    T.safeTransfer msg token dst value x = .ok x' → Moved balance x x' token msg.sender dst value
  safeTransferFrom : ∀ {msg token src dst value x x'},
    T.safeTransferFrom msg token src dst value x = .ok x' → Moved balance x x' token src dst value
  receives : ∀ {msg token auth x x'}, Receives T msg token auth x x' →
    auth.to_ = msg.sender ∧ Moved balance x x' token auth.from_ auth.to_ auth.value

/-- The views of `x'` are the views of `x`, but for the token's own. -/
structure SameAnswers (O : Outside ξ δ) (x x' : ξ) : Prop where
  codeLength : ∀ a, O.codeLength a x' = O.codeLength a x
  erc1271 : ∀ a digest signature,
    O.isValidERC1271SignatureNow a digest signature x' =
      O.isValidERC1271SignatureNow a digest signature x
  isWhitelisted : ∀ w token, O.isWhitelisted w token x' = O.isWhitelisted w token x
  supportsCapability : ∀ w token capability,
    O.supportsCapability w token capability x' = O.supportsCapability w token capability x
  requireActiveMerchant : ∀ r id, O.requireActiveMerchant r id x' = O.requireActiveMerchant r id x

/-- EIP-2612: a permit sets the allowance to its value and changes nothing that
other contracts answer. -/
structure Erc2612 (O : Outside ξ δ) : Prop where
  grants : ∀ {token owner spender value x x'},
    Permits O.toToken token owner spender value x x' →
      O.allowance token owner spender x' = .ok value
  frame : ∀ {token owner spender value x x'},
    Permits O.toToken token owner spender value x x' → SameAnswers O x x'

/-- Everything recorded as used before is recorded as used after. -/
def KeepsUsed (used : ξ → Address → Address → Bytes32 → Bool) (x x' : ξ) : Prop :=
  ∀ token payer nonce, used x token payer nonce = true → used x' token payer nonce = true

theorem KeepsUsed.trans {used : ξ → Address → Address → Bytes32 → Bool} {x y z : ξ} (h : KeepsUsed used x y) (h' : KeepsUsed used y z) :
    KeepsUsed used x z :=
  fun token payer nonce hused => h' token payer nonce (h token payer nonce hused)

/-- EIP-3009: an authorisation goes through only if `Authorized` and unused, and
is used from then on. -/
structure Erc3009 (O : Outside ξ δ) (used : ξ → Address → Address → Bytes32 → Bool)
    (Authorized : Address → ReceiveAuthorization → Prop) : Prop where
  unused : ∀ {msg token auth x x'}, Receives O.toToken msg token auth x x' →
    used x token auth.from_ auth.nonce = false
  burns : ∀ {msg token auth x x'}, Receives O.toToken msg token auth x x' →
    used x' token auth.from_ auth.nonce = true
  authorized : ∀ {msg token auth x x'}, Receives O.toToken msg token auth x x' →
    Authorized token auth
  receives : ∀ {msg token auth x x'}, Receives O.toToken msg token auth x x' → KeepsUsed used x x'
  safeTransfer : ∀ {msg token dst value x x'},
    O.safeTransfer msg token dst value x = .ok x' → KeepsUsed used x x'
  safeTransferFrom : ∀ {msg token src dst value x x'},
    O.safeTransferFrom msg token src dst value x = .ok x' → KeepsUsed used x x'
  accrue : ∀ {msg collector token merchantId amount x x'},
    O.accrue msg collector token merchantId amount x = .ok x' → KeepsUsed used x x'

theorem Settles.keepsUsed {O : Outside ξ δ}
    {used : ξ → Address → Address → Bytes32 → Bool}
    {Authorized : Address → ReceiveAuthorization → Prop} (hO : Erc3009 O used Authorized) {self : Msg}
    {payer token feeCollector payout : Address} {merchantId : Nat} {fee net : Uint256} {x x' : ξ}
    (h : Settles O self payer token feeCollector merchantId fee payout net x x') :
    KeepsUsed used x x' := by
  obtain ⟨x₂, ⟨-, x₁, htransfer, haccrue⟩ | ⟨-, rfl⟩, hnet⟩ := h
  · exact ((hO.safeTransferFrom htransfer).trans (hO.accrue haccrue)).trans
      (hO.safeTransferFrom hnet)
  · exact hO.safeTransferFrom hnet

end Strimz
