import Mathlib.Data.Nat.Digits.Lemmas
import Strimz.Evm

/-!
# Charge attempt ids

`deriveChargeAttemptId` (`apps/scheduler`, `subscription-due.worker.ts`): the hash of three
padded hex numbers. The digits are kept as numbers, the most significant first, and the hash
is a parameter. Equal ids come from equal triples as long as the three numbers fit their
widths and the hash does not collide on them.
-/

namespace Strimz.Billing

/-- Hard cap on charge retries per period before we stop deriving ids. -/
def MAX_ATTEMPTS_PER_PERIOD : Nat := 8

/-- `n.toString(16).padStart(width, '0')` -/
def hexPad (width n : Nat) : List Nat := List.leftpad width 0 (Nat.digits 16 n).reverse

def packed (onchainSubscriptionId ts attempt : Nat) : List Nat :=
  hexPad 64 onchainSubscriptionId ++ hexPad 16 ts ++ hexPad 8 attempt

/-- Times are whole seconds, so the division by 1000 is gone. -/
def deriveChargeAttemptId (keccak256 : List Nat → Bytes32) (onchainSubscriptionId : Nat)
    (periodEndAt : Int) (attempt : Nat) : Bytes32 :=
  keccak256 (packed onchainSubscriptionId periodEndAt.toNat attempt)

/-! ## Fixed widths -/

/-- The three numbers a worker packs: an `integer`, a date and an attempt. -/
structure Packable (onchainSubscriptionId ts attempt : Nat) : Prop where
  subscription : onchainSubscriptionId < 2 ^ 32
  ts : ts < 2 ^ 64
  attempt : attempt < MAX_ATTEMPTS_PER_PERIOD

/-- No two of the texts a worker hashes collide. -/
def CollisionFree (keccak256 : List Nat → Bytes32) : Prop :=
  ∀ s t a s' t' a', Packable s t a → Packable s' t' a' →
    keccak256 (packed s t a) = keccak256 (packed s' t' a') → packed s t a = packed s' t' a'

end Strimz.Billing
