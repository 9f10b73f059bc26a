import Strimz.EscrowCalls

/-!
# A token that calls back

A token for the escrow's laws to be about: its balances have a bounded supply, and after
each transfer it lets others make the calls it was built with.
-/

namespace Strimz.AgentEscrow

open Tx Ledger Runs

/-- Balances of a bounded supply. -/
structure Wallets where
  balances : Address → Address → Nat
  supply : ∀ token (S : Finset Address), ∑ a ∈ S, balances token a < 2 ^ 256

namespace Wallets

def balance (w : Wallets) (token a : Address) : Nat := w.balances token a

theorem sum_move {b : Address → Nat} {src dst : Address} {n : Nat} (h : n ≤ b src)
    {S : Finset Address} (hsrc : src ∈ S) (hdst : dst ∈ S) :
    ∑ a ∈ S, move b src dst n a = ∑ a ∈ S, b a := by
  have hsum : ∀ {d : Address}, d ∈ S → ∑ a ∈ S, at_ d a n = n := by
    intro d hd
    unfold at_
    rw [Finset.sum_ite_eq, if_pos hd]
  have hadd : ∑ a ∈ S, (move b src dst n a + at_ src a n) = ∑ a ∈ S, (b a + at_ dst a n) :=
    Finset.sum_congr rfl fun a _ => move_add h dst a
  rw [Finset.sum_add_distrib, Finset.sum_add_distrib, hsum hsrc, hsum hdst] at hadd
  exact Nat.add_right_cancel hadd

/-- Move `value` of `token`. -/
def moved (w : Wallets) (token src dst : Address) (value : Nat)
    (h : value ≤ w.balances token src) : Wallets where
  balances := Function.update w.balances token (move (w.balances token) src dst value)
  supply t S := by
    by_cases ht : t = token
    · subst ht
      rw [Function.update_self]
      have hsub : S ⊆ insert src (insert dst S) := fun a ha => by simp [ha]
      refine Nat.lt_of_le_of_lt (Finset.sum_le_sum_of_subset hsub) ?_
      rw [sum_move h (by simp) (by simp)]
      exact w.supply t _
    · rw [Function.update_of_ne ht]
      exact w.supply t S

/-- A token that runs `calls` after each transfer. -/
def transfer (calls : Uint64 → Ctx Storage Wallets → Ctx Storage Wallets) (timestamp : Uint64)
    (token src dst : Address) (value : Uint256) (c : Ctx Storage Wallets) :
    Except Revert (Ctx Storage Wallets) :=
  if h : value.toNat ≤ c.ext.balances token src then
    .ok (calls timestamp ⟨c.storage, c.ext.moved token src dst value.toNat h⟩)
  else .error (.external [])

def outside (calls : Uint64 → Ctx Storage Wallets → Ctx Storage Wallets) : Outside Wallets where
  isWhitelisted _ _ _ := .ok true
  balanceOf token a w := .ok (BitVec.ofNat 256 (w.balances token a))
  safeTransfer msg token dst value := transfer calls msg.timestamp token msg.sender dst value
  safeTransferFrom msg token src dst value := transfer calls msg.timestamp token src dst value

/-- The calls others make of the escrow while it waits. -/
def hook (this : Address) (actions : List (Address × Action Wallets)) (timestamp : Uint64)
    (c : Ctx Storage Wallets) : Ctx Storage Wallets :=
  exec (step (outside fun _ c => c) this) c (actions.map fun a => ⟨⟨a.1, timestamp⟩, a.2⟩)

/-- The token whose transfers let `actions` run. -/
def callback (this : Address) (actions : List (Address × Action Wallets)) : Outside Wallets :=
  outside (hook this actions)

variable {this : Address} {actions : List (Address × Action Wallets)}

/-- The unguarded functions call no token. -/
theorem step_unguarded {l : Label Wallets} (hl : l.action.guards = none) (c : Ctx Storage Wallets) :
    step (callback this actions) this c l = step (outside fun _ c => c) this c l := by
  obtain ⟨msg, action⟩ := l
  cases action <;> first | (cases hl; done) | rfl

theorem hook_eq (hactions : ∀ a ∈ actions, a.2.guards = none) (timestamp : Uint64)
    (c : Ctx Storage Wallets) :
    hook this actions timestamp c = exec (step (callback this actions) this) c
      (actions.map fun a => ⟨⟨a.1, timestamp⟩, a.2⟩) := by
  refine List.foldl_ext _ _ _ fun c l hl => ?_
  obtain ⟨a, ha, rfl⟩ := List.mem_map.mp hl
  exact (step_unguarded (hactions a ha) c).symm

/-- Calls that keep their hands off the escrow's balance. -/
def Harmless (this : Address) (a : Address × Action Wallets) : Prop :=
  a.1 ≠ this ∧ a.2.guards = none ∧ ∀ f, a.2 ≠ .external f

theorem Harmless.foreign {R : Nat → Nat → Prop} {a : Address × Action Wallets}
    (h : Harmless this a) (timestamp : Uint64) :
    Foreign R this balance ⟨⟨a.1, timestamp⟩, a.2⟩ :=
  ⟨h.1, fun f hf => absurd hf (h.2.2 f)⟩

theorem transfer_transfers {R : Nat → Nat → Prop} (hactions : ∀ a ∈ actions, Harmless this a)
    {timestamp : Uint64} {token src dst : Address} {value : Uint256} {c c' : Ctx Storage Wallets}
    (h : transfer (hook this actions) timestamp token src dst value c = .ok c') :
    Transfers R (callback this actions) this balance timestamp token src dst value c c' := by
  unfold transfer at h
  split at h
  · rename_i henough
    obtain rfl := Except.ok.inj h
    refine ⟨[], actions.map fun a => ⟨⟨a.1, timestamp⟩, a.2⟩,
      c.ext.moved token src dst value.toNat henough, fun l hl => ?_, ⟨henough, rfl⟩,
      hook_eq (fun a ha => (hactions a ha).2.1) _ _⟩
    rw [List.nil_append] at hl
    obtain ⟨a, ha, rfl⟩ := List.mem_map.mp hl
    exact ⟨(hactions a ha).foreign timestamp, rfl⟩
  · cases h

theorem callbackToken {R : Nat → Nat → Prop} (hactions : ∀ a ∈ actions, Harmless this a) :
    CallbackToken R (callback this actions) this balance where
  balanceOf token a w := by
    refine ⟨_, rfl, ?_⟩
    have hlt := w.supply token {a}
    rw [Finset.sum_singleton] at hlt
    rw [BitVec.toNat_ofNat, Nat.mod_eq_of_lt hlt]
    rfl
  safeTransfer h := transfer_transfers hactions h
  safeTransferFrom h := transfer_transfers hactions h

/-- One account holding everything. -/
def ofOwner (owner : Address) (n : Nat) (h : n < 2 ^ 256) : Wallets where
  balances _ a := at_ owner a n
  supply _ S := by
    unfold at_
    rw [Finset.sum_ite_eq]
    split
    · exact h
    · exact Nat.two_pow_pos 256

end Wallets

end Strimz.AgentEscrow
