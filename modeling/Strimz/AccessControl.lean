import Strimz.Runs
import Strimz.Tx

/-!
# Role-based access control

The generic layer under contracts that check roles: OpenZeppelin's `AccessControl`, over
arbitrary roles and accounts. A role is granted and revoked by the holders of its admin role and
renounced by its holder.

The development rests on `Closed`: a set of roles of several such contracts whose admin roles are
in the set again, and held by trusted accounts only. Whatever the others call, in whatever order,
no account gains a role of a closed set (`Closed.of_hasRole`), and what only its holders can do is
never done by another (`Closed.unauthorized`).
-/

/-- Who holds which role, and the role whose holders grant it. -/
structure AccessControl (ρ α : Type) where
  hasRole : ρ → α → Bool
  getRoleAdmin : ρ → ρ

namespace AccessControl

open Tx Runs

variable {ρ α ε : Type}

/-- Why a call is refused. -/
inductive Denied (ρ α : Type) where
  | accessControlUnauthorizedAccount (account : α) (neededRole : ρ)
  | accessControlBadConfirmation
deriving Repr, DecidableEq

section Operations

variable [DecidableEq ρ] [DecidableEq α]

/-- Nobody holds a role yet, and every role has the same admin role. -/
def init (defaultAdmin : ρ) : AccessControl ρ α := ⟨fun _ _ => false, fun _ => defaultAdmin⟩

/-- `_grantRole` -/
def grant (role : ρ) (account : α) (t : AccessControl ρ α) : AccessControl ρ α :=
  { t with hasRole := fun r a => decide (r = role ∧ a = account) || t.hasRole r a }

/-- `_revokeRole` -/
def revoke (role : ρ) (account : α) (t : AccessControl ρ α) : AccessControl ρ α :=
  { t with hasRole := fun r a => !decide (r = role ∧ a = account) && t.hasRole r a }

/-- `_setRoleAdmin` -/
def setRoleAdmin (role adminRole : ρ) (t : AccessControl ρ α) : AccessControl ρ α :=
  { t with getRoleAdmin := fun r => if r = role then adminRole else t.getRoleAdmin r }

variable (denied : Denied ρ α → ε)

def onlyRole (role : ρ) (sender : α) : Tx ε (AccessControl ρ α) Unit := do
  let t ← get
  revertIf (t.hasRole role sender = false) (denied (.accessControlUnauthorizedAccount sender role))

def grantRole (sender : α) (role : ρ) (account : α) : Tx ε (AccessControl ρ α) Unit := do
  let t ← get
  onlyRole denied (t.getRoleAdmin role) sender
  modify (grant role account)

def revokeRole (sender : α) (role : ρ) (account : α) : Tx ε (AccessControl ρ α) Unit := do
  let t ← get
  onlyRole denied (t.getRoleAdmin role) sender
  modify (revoke role account)

def renounceRole (sender : α) (role : ρ) (callerConfirmation : α) :
    Tx ε (AccessControl ρ α) Unit := do
  revertIf (callerConfirmation ≠ sender) (denied .accessControlBadConfirmation)
  modify (revoke role callerConfirmation)

/-! ## What a call can do -/

variable {denied} {t t' : AccessControl ρ α} {sender : α}

theorem hasRole_grant {role r : ρ} {account a : α} :
    (t.grant role account).hasRole r a = true ↔
      r = role ∧ a = account ∨ t.hasRole r a = true := by
  rw [grant, Bool.or_eq_true, decide_eq_true_eq]

theorem hasRole_revoke {role r : ρ} {account a : α} :
    (t.revoke role account).hasRole r a = true ↔
      ¬ (r = role ∧ a = account) ∧ t.hasRole r a = true := by
  rw [revoke, Bool.and_eq_true, Bool.not_eq_true', decide_eq_false_iff_not]

omit [DecidableEq ρ] [DecidableEq α] in
theorem onlyRole_eq_ok {role : ρ} {r : Unit × AccessControl ρ α} :
    onlyRole denied role sender t = .ok r ↔ t.hasRole role sender = true ∧ r = ((), t) := by
  simp [onlyRole, bind_eq_ok, get_eq_ok, revertIf_eq_ok]

theorem grantRole_eq_ok {role : ρ} {account : α} {r : Unit × AccessControl ρ α} :
    grantRole denied sender role account t = .ok r ↔
      t.hasRole (t.getRoleAdmin role) sender = true ∧ r = ((), t.grant role account) := by
  simp [grantRole, bind_eq_ok, get_eq_ok, onlyRole_eq_ok, modify_eq_ok]

theorem revokeRole_eq_ok {role : ρ} {account : α} {r : Unit × AccessControl ρ α} :
    revokeRole denied sender role account t = .ok r ↔
      t.hasRole (t.getRoleAdmin role) sender = true ∧ r = ((), t.revoke role account) := by
  simp [revokeRole, bind_eq_ok, get_eq_ok, onlyRole_eq_ok, modify_eq_ok]

theorem renounceRole_eq_ok {role : ρ} {callerConfirmation : α} {r : Unit × AccessControl ρ α} :
    renounceRole denied sender role callerConfirmation t = .ok r ↔
      callerConfirmation = sender ∧ r = ((), t.revoke role callerConfirmation) := by
  simp [renounceRole, bind_eq_ok, revertIf_eq_ok, modify_eq_ok]

end Operations

/-- A step by `sender`: the admin roles stay, and a role grows in the hands of its admin only. -/
structure Step (t t' : AccessControl ρ α) (sender : α) : Prop where
  getRoleAdmin : t'.getRoleAdmin = t.getRoleAdmin
  grows : ∀ role account, t'.hasRole role account = true →
    t.hasRole role account = true ∨ t.hasRole (t.getRoleAdmin role) sender = true

variable {t t' : AccessControl ρ α} {sender : α}

theorem Step.refl (t : AccessControl ρ α) (sender : α) : Step t t sender :=
  ⟨rfl, fun _ _ h => Or.inl h⟩

section Steps

variable [DecidableEq ρ] [DecidableEq α]

theorem Step.grant {role : ρ} (account : α)
    (h : t.hasRole (t.getRoleAdmin role) sender = true) : Step t (t.grant role account) sender := by
  refine ⟨rfl, fun r a hr => ?_⟩
  rcases hasRole_grant.mp hr with ⟨rfl, -⟩ | hold
  · exact Or.inr h
  · exact Or.inl hold

theorem Step.revoke (role : ρ) (account : α) : Step t (t.revoke role account) sender :=
  ⟨rfl, fun _ _ h => Or.inl (hasRole_revoke.mp h).2⟩

end Steps

/-! ## Closed sets of roles -/

/-- The roles that are not `loose` are closed: so are their admin roles, and only the trusted hold
these. -/
structure Closed {ι : Type} (table : ι → AccessControl ρ α) (trusted : α → Prop)
    (loose : ι → ρ → Prop) : Prop where
  admin : ∀ i role, ¬ loose i role → ¬ loose i ((table i).getRoleAdmin role)
  holders : ∀ i role, ¬ loose i role → ∀ account,
    (table i).hasRole ((table i).getRoleAdmin role) account = true → trusted account

section Closed

variable {ι σ ℓ : Type} {trusted : α → Prop} {loose : ι → ρ → Prop}

/-- A step of another account lets no closed role grow. -/
theorem Closed.not_grows {T T' : ι → AccessControl ρ α} (h : Closed T trusted loose)
    (hstep : ∀ i, Step (T i) (T' i) sender) (hsender : ¬ trusted sender) {i : ι} {role : ρ}
    {account : α} (hrole : ¬ loose i role) (hheld : (T' i).hasRole role account = true) :
    (T i).hasRole role account = true := by
  rcases (hstep i).grows role account hheld with hold | hadmin
  · exact hold
  · exact absurd (h.holders i role hrole sender hadmin) hsender

theorem Closed.step {T T' : ι → AccessControl ρ α} (h : Closed T trusted loose)
    (hstep : ∀ i, Step (T i) (T' i) sender) (hsender : ¬ trusted sender) :
    Closed T' trusted loose where
  admin i role hrole := by
    rw [(hstep i).getRoleAdmin]
    exact h.admin i role hrole
  holders i role hrole account hheld := by
    rw [(hstep i).getRoleAdmin] at hheld
    exact h.holders i role hrole account (h.not_grows hstep hsender (h.admin i role hrole) hheld)

variable {table : σ → ι → AccessControl ρ α} {step : σ → ℓ → σ} {from_ : ℓ → α} {s : σ} {ls : List ℓ}

/-- Every label of the run is a step of its sender, and none of the senders is trusted. -/
structure Outsiders (table : σ → ι → AccessControl ρ α) (step : σ → ℓ → σ) (from_ : ℓ → α)
    (trusted : α → Prop) (s : σ) (ls : List ℓ) : Prop where
  steps : ∀ (n : ℕ) (l : ℓ), ls[n]? = some l → ∀ i,
    Step (table (stateAt step s ls n) i) (table (stateAt step s ls (n + 1)) i) (from_ l)
  senders : ∀ (n : ℕ) (l : ℓ), ls[n]? = some l → ¬ trusted (from_ l)

theorem Closed.stateAt (h : Closed (table s) trusted loose)
    (hrun : Outsiders table step from_ trusted s ls) (n : ℕ) :
    Closed (table (Runs.stateAt step s ls n)) trusted loose := by
  refine stateAt_induct (P := fun s => Closed (table s) trusted loose) (m := 0) h ?_ (Nat.zero_le n)
  intro n l _ hl ih
  have hstep := hrun.steps n l hl
  rw [stateAt_succ step s hl] at hstep
  exact ih.step hstep (hrun.senders n l hl)

/-- Whoever holds a closed role has held it all along. -/
theorem Closed.of_hasRole (h : Closed (table s) trusted loose)
    (hrun : Outsiders table step from_ trusted s ls) {i : ι} {role : ρ} {account : α}
    (hrole : ¬ loose i role) {m n : ℕ} (hmn : m ≤ n)
    (hheld : (table (Runs.stateAt step s ls n) i).hasRole role account = true) :
    (table (Runs.stateAt step s ls m) i).hasRole role account = true := by
  induction n, hmn using Nat.le_induction with
  | base => exact hheld
  | succ n hmn ih =>
      cases hl : ls[n]? with
      | none =>
          rw [stateAt_of_none step s hl] at hheld
          exact ih hheld
      | some l =>
          exact ih ((h.stateAt hrun n).not_grows (hrun.steps n l hl) (hrun.senders n l hl) hrole
            hheld)

/-- No sender of the run holds a closed role that only the trusted held. -/
theorem Closed.unauthorized (h : Closed (table s) trusted loose)
    (hrun : Outsiders table step from_ trusted s ls) {i : ι} {role : ρ} (hrole : ¬ loose i role)
    (hheld : ∀ account, (table s i).hasRole role account = true → trusted account) {n : ℕ} {l : ℓ}
    (hl : ls[n]? = some l) :
    (table (Runs.stateAt step s ls n) i).hasRole role (from_ l) = false := by
  rw [← Bool.not_eq_true]
  intro hnow
  exact hrun.senders n l hl (hheld _ (h.of_hasRole hrun hrole (Nat.zero_le n) hnow))

end Closed

end AccessControl
