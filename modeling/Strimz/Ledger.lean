import Mathlib.Tactic

/-!
# Ledgers of balances

A ledger gives each account a natural number. `move` takes `n` out of one
account and puts it into another; the two may be the same account. The rule for
reasoning about it is `move_add`: per account, what it has now plus what went
out is what it had plus what came in. It needs no case split and no
subtraction, and chains of moves add up.
-/

namespace Ledger

variable {α : Type} [DecidableEq α]

/-- `n` if the account is the one asked about. -/
def at_ (a b : α) (n : Nat) : Nat := if a = b then n else 0

@[simp] theorem at_self (a : α) (n : Nat) : at_ a a n = n := if_pos rfl

theorem at_of_ne {a b : α} (h : a ≠ b) (n : Nat) : at_ a b n = 0 := if_neg h

@[simp] theorem at_zero (a b : α) : at_ a b 0 = 0 := ite_self 0

theorem at_add (a b : α) (m n : Nat) : at_ a b (m + n) = at_ a b m + at_ a b n := by
  unfold at_
  split <;> rfl

theorem at_le (a b : α) (n : Nat) : at_ a b n ≤ n := by
  unfold at_
  split
  · exact Nat.le_refl n
  · exact Nat.zero_le n

/-- Move `n` from `src` to `dst`. -/
def move (b : α → Nat) (src dst : α) (n : Nat) : α → Nat := fun a =>
  b a - at_ src a n + at_ dst a n

/-- What an account has after a move plus what it paid is what it had plus what
it got. -/
theorem move_add {b : α → Nat} {src : α} {n : Nat} (h : n ≤ b src) (dst a : α) :
    move b src dst n a + at_ src a n = b a + at_ dst a n := by
  have hle : at_ src a n ≤ b a := by
    by_cases ha : src = a
    · rw [ha, at_self]
      exact ha ▸ h
    · rw [at_of_ne ha]
      exact Nat.zero_le _
  unfold move
  omega

theorem move_of_ne {b : α → Nat} {src dst a : α} (n : Nat) (hsrc : src ≠ a) (hdst : dst ≠ a) :
    move b src dst n a = b a := by
  simp [move, at_of_ne hsrc, at_of_ne hdst]

end Ledger
