import Strimz.Interfaces

/-!
# FeeCollector

`fees/FeeCollector.sol`: the contracts push fees in and book them with
`accrue`; the treasury takes them out with `withdraw`. `totalAccrued` only
counts what was booked; a withdrawal leaves it alone.
-/

namespace Strimz.FeeCollector

open Tx

inductive Event where
  | feeAccrued (token : Address) (merchantId : Nat) (amount : Uint256)
  | feeWithdrawn (token to_ : Address) (amount : Uint256)
deriving Repr, DecidableEq

structure Storage where
  hasRole : RoleTable
  entered : Bool
  totalAccrued : Address → Uint256
  logs : List Event

/-- The storage `initialize` leaves behind, whatever roles were granted. -/
def deployed (hasRole : RoleTable) : Storage := ⟨hasRole, false, fun _ => 0, []⟩

@[simps]
def Storage.setEntered (entered : Bool) (s : Storage) : Storage := { s with entered := entered }

@[simps]
def Storage.log (s : Storage) (e : Event) : Storage := { s with logs := s.logs ++ [e] }

@[simps]
def Storage.addAccrued (s : Storage) (token : Address) (amount : Uint256) : Storage :=
  { s with totalAccrued := Function.update s.totalAccrued token (s.totalAccrued token + amount) }

/-- `accrue` calls nothing, so it runs over the storage alone. -/
def accrue (msg : Msg) (token : Address) (merchantId : Nat) (amount : Uint256) :
    Tx Revert Storage Unit := do
  let s ← get
  onlyRole s.hasRole .feeAccruer msg.sender
  revertIf (amount = 0) (.feeCollector .zeroAmount)
  modify (·.addAccrued token amount)
  modify (·.log (.feeAccrued token merchantId amount))

variable {ξ : Type}

def withdraw (T : Token ξ) (this : Address) (msg : Msg) (token to_ : Address)
    (amount : Uint256) : Tx Revert (Ctx Storage ξ) Unit := do
  let s ← sload
  onlyRole s.hasRole .treasury msg.sender
  guarded Storage.entered Storage.setEntered do
    revertIf (amount = 0) (.feeCollector .zeroAmount)
    let bal ← staticcall (T.balanceOf token this)
    revertIf (bal < amount) (.feeCollector .insufficientBalance)
    call (T.safeTransfer ⟨this, msg.timestamp⟩ token to_ amount)
    sstore (·.log (.feeWithdrawn token to_ amount))

variable {msg : Msg} {token : Address} {amount : Uint256}

theorem accrue_eq_ok {merchantId : Nat} {s s' : Storage} :
    accrue msg token merchantId amount s = .ok ((), s') ↔
      s.hasRole .feeAccruer msg.sender = true ∧ ¬ amount = 0 ∧
      s' = (s.addAccrued token amount).log (.feeAccrued token merchantId amount) := by
  simp only [accrue, bind_eq_ok, get_eq_ok, onlyRole_eq_ok, revertIf_eq_ok, modify_eq_ok,
    Prod.mk.injEq, existsAndEq, exists_const, true_and, and_true]

/-- Taking the lock and giving it back leaves only the entry. -/
theorem Storage.setEntered_log {s : Storage} (h : s.entered = false) (e : Event) :
    ((s.setEntered true).log e).setEntered false = s.log e := by
  cases s
  simp_all [Storage.setEntered, Storage.log]

theorem withdraw_eq_ok {T : Token ξ} {this to_ : Address} {c c' : Ctx Storage ξ} :
    withdraw T this msg token to_ amount c = .ok ((), c') ↔
      c.storage.hasRole .treasury msg.sender = true ∧ c.storage.entered = false ∧
      ¬ amount = 0 ∧ ∃ bal x, T.balanceOf token this c.ext = .ok bal ∧ ¬ bal < amount ∧
        T.safeTransfer ⟨this, msg.timestamp⟩ token to_ amount c.ext = .ok x ∧
        c' = ⟨c.storage.log (.feeWithdrawn token to_ amount), x⟩ := by
  simp only [withdraw, bind_eq_ok, sload_eq_ok, onlyRole_eq_ok, guarded_eq_ok, revertIf_eq_ok,
    staticcall_eq_ok, call_eq_ok, sstore_eq_ok, Prod.mk.injEq, existsAndEq, exists_const, true_and,
    and_true]
  constructor
  · rintro ⟨hrole, hentered, bal, x, ⟨hamount, hbal, hle, htransfer⟩, rfl⟩
    rw [Storage.setEntered_log hentered]
    exact ⟨hrole, hentered, hamount, bal, x, hbal, hle, htransfer, rfl⟩
  · rintro ⟨hrole, hentered, hamount, bal, x, hbal, hle, htransfer, rfl⟩
    rw [← Storage.setEntered_log hentered]
    exact ⟨hrole, hentered, bal, x, ⟨hamount, hbal, hle, htransfer⟩, rfl⟩

end Strimz.FeeCollector
