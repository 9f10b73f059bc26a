import Strimz.Interfaces

/-!
# PayerSignature

`libraries/PayerSignature.sol`: a payer without code signs with a key, one
with code answers through ERC-1271. Both branches come down to `Sound`: what
the two primitives vouch for, `isValid` vouches for.
-/

namespace Strimz.PayerSignature

variable {ξ δ : Type}

/-- `bytes32` of a slice, most significant byte first. -/
def toBytes32 (bytes : Bytes) : Bytes32 :=
  bytes.foldl (fun acc b => (acc <<< 8) ||| b.toBitVec.setWidth 256) 0

/-- The `v, r, s` of a 65-byte signature; some wallets return `v` as 0/1. -/
def split (signature : Bytes) : Option (UInt8 × Bytes32 × Bytes32) :=
  if signature.length = 65 then
    let r := toBytes32 (signature.take 32)
    let s := toBytes32 ((signature.drop 32).take 32)
    let v := (signature.drop 64).headD 0
    some (if v < 27 then v + 27 else v, r, s)
  else none

def isValid (S : Signatures ξ δ) (signer : Address) (digest : δ) (signature : Bytes) (x : ξ) :
    Bool :=
  if S.codeLength signer x ≠ 0 then S.isValidERC1271SignatureNow signer digest signature x
  else
    match split signature with
    | none => false
    | some (v, r, s) => S.tryRecover digest v r s == some signer

/-- An account vouches for a digest (`Accepts`) whenever one of the two
primitives says that it does. -/
structure Sound (S : Signatures ξ δ) (Accepts : Address → δ → Prop) : Prop where
  recover : ∀ digest v r s a, S.tryRecover digest v r s = some a → Accepts a digest
  erc1271 : ∀ a digest signature x, S.isValidERC1271SignatureNow a digest signature x = true →
    Accepts a digest

theorem isValid_accepts {S : Signatures ξ δ} {Accepts : Address → δ → Prop}
    (hS : Sound S Accepts) {signer : Address} {digest : δ} {signature : Bytes} {x : ξ}
    (h : isValid S signer digest signature x = true) : Accepts signer digest := by
  unfold isValid at h
  split at h
  · exact hS.erc1271 _ _ _ _ h
  · split at h
    · cases h
    · rename_i v r s _
      exact hS.recover digest v r s signer (eq_of_beq h)

end Strimz.PayerSignature
