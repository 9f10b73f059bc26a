import Strimz.AdminContracts

/-!
# What a call can change

`Guarded` says for each part of a contract's administrative state who can change it; a call of any
function, and so a run of calls, changes nothing beyond that.
-/

namespace Strimz.AdminHandoff

open Tx Runs

def pointers (s : ContractState) : Address × Address × Address :=
  (s.registry, s.feeCollector, s.tokenWhitelist)

def whitelist (s : ContractState) : (Address → Bool) × (Address → BitVec 8) :=
  (s.whitelisted, s.capabilities)

/-- The step of an initialised contract under a call of `sender`. -/
structure Guarded (s s' : ContractState) (sender : Address) : Prop where
  access : AccessControl.Step s.access s'.access sender
  initialized : s'.initialized = s.initialized
  implementation : s'.implementation = s.implementation ∨
    s.access.hasRole (roleId .upgrader) sender = true
  pointers : pointers s' = pointers s ∨ s.access.hasRole (roleId .defaultAdmin) sender = true
  whitelist : whitelist s' = whitelist s ∨ s.access.hasRole (roleId .tokenManager) sender = true

variable {s s' : ContractState} {sender : Address} {t : Contract}

theorem Guarded.refl (s : ContractState) (sender : Address) : Guarded s s sender :=
  ⟨.refl _ _, rfl, Or.inl rfl, Or.inl rfl, Or.inl rfl⟩

/-- A step of the role table alone. -/
theorem Guarded.of_access {access : AccessControl Bytes32 Address}
    (h : AccessControl.Step s.access access sender) :
    Guarded s { s with access := access } sender :=
  ⟨h, rfl, Or.inl rfl, Or.inl rfl, Or.inl rfl⟩

theorem accessCall_eq_ok {m : Tx AdminRevert (AccessControl Bytes32 Address) Unit} {u : Unit} :
    accessCall m s = .ok (u, s') ↔
      ∃ access, m s.access = .ok ((), access) ∧ s' = { s with access := access } :=
  zoom_eq_ok

theorem requires_role {role : Role} {u : Unit} :
    onlyRole role sender s = .ok (u, s') ↔
      s.access.hasRole (roleId role) sender = true ∧ s' = s := by
  rw [onlyRole, accessCall_eq_ok]
  constructor
  · rintro ⟨access, h, rfl⟩
    obtain ⟨hrole, heq⟩ := AccessControl.onlyRole_eq_ok.mp h
    obtain ⟨-, rfl⟩ := Prod.mk.inj heq
    exact ⟨hrole, rfl⟩
  · rintro ⟨hrole, rfl⟩
    exact ⟨s'.access, AccessControl.onlyRole_eq_ok.mpr ⟨hrole, rfl⟩, rfl⟩

theorem requires_paused {u : Unit} :
    whenPaused s = .ok (u, s') ↔ s.paused = true ∧ s' = s := by
  simp [whenPaused, bind_eq_ok, get_eq_ok, revertIf_eq_ok, and_comm]

theorem requires_unpaused {u : Unit} :
    whenNotPaused s = .ok (u, s') ↔ s.paused = false ∧ s' = s := by
  simp [whenNotPaused, bind_eq_ok, get_eq_ok, revertIf_eq_ok, and_comm]

theorem requires_uninitialized {u : Unit} :
    initializer s = .ok (u, s') ↔ s.initialized = false ∧ s' = { s with initialized := true } := by
  simp [initializer, bind_eq_ok, get_eq_ok, revertIf_eq_ok, modify_eq_ok]

/-! ## Functions -/

/-- No contract is set up twice. -/
theorem construct_fails (args : DeployArgs) (hinit : s.initialized = true) :
    ¬ construct args t s = .ok ((), s') := by
  intro h
  have hfirst : ∃ (f : Unit → ContractTx Unit), construct args t = initializer >>= f := by
    cases t <;> exact ⟨_, rfl⟩
  obtain ⟨f, hf⟩ := hfirst
  rw [hf] at h
  obtain ⟨u, s₁, h₁, -⟩ := bind_eq_ok.mp h
  rw [(requires_uninitialized.mp h₁).1] at hinit
  cases hinit

theorem pause_guarded (h : pause sender s = .ok ((), s')) : Guarded s s' sender := by
  simp only [pause, bind_eq_ok, requires_role, requires_unpaused, modify_eq_ok] at h
  obtain ⟨_, _, ⟨-, rfl⟩, _, _, ⟨-, rfl⟩, h⟩ := h
  obtain ⟨-, rfl⟩ := Prod.mk.inj h
  exact ⟨.refl _ _, rfl, Or.inl rfl, Or.inl rfl, Or.inl rfl⟩

theorem unpause_guarded (h : unpause sender s = .ok ((), s')) : Guarded s s' sender := by
  simp only [unpause, bind_eq_ok, requires_role, requires_paused, modify_eq_ok] at h
  obtain ⟨_, _, ⟨-, rfl⟩, _, _, ⟨-, rfl⟩, h⟩ := h
  obtain ⟨-, rfl⟩ := Prod.mk.inj h
  exact ⟨.refl _ _, rfl, Or.inl rfl, Or.inl rfl, Or.inl rfl⟩

theorem setRegistry_guarded {v : Address} (h : setRegistry sender v s = .ok ((), s')) :
    Guarded s s' sender := by
  simp only [setRegistry, bind_eq_ok, requires_role, requires_paused, revertIf_eq_ok,
    modify_eq_ok, Prod.mk.injEq] at h
  obtain ⟨_, _, ⟨hrole, rfl⟩, _, _, ⟨-, rfl⟩, _, _, ⟨-, -, rfl⟩, -, rfl⟩ := h
  exact ⟨.refl _ _, rfl, Or.inl rfl, Or.inr hrole, Or.inl rfl⟩

theorem setFeeCollector_guarded {v : Address} (h : setFeeCollector sender v s = .ok ((), s')) :
    Guarded s s' sender := by
  simp only [setFeeCollector, bind_eq_ok, requires_role, requires_paused, revertIf_eq_ok,
    modify_eq_ok, Prod.mk.injEq] at h
  obtain ⟨_, _, ⟨hrole, rfl⟩, _, _, ⟨-, rfl⟩, _, _, ⟨-, -, rfl⟩, -, rfl⟩ := h
  exact ⟨.refl _ _, rfl, Or.inl rfl, Or.inr hrole, Or.inl rfl⟩

theorem setTokenWhitelist_guarded {v : Address}
    (h : setTokenWhitelist sender v s = .ok ((), s')) : Guarded s s' sender := by
  simp only [setTokenWhitelist, bind_eq_ok, requires_role, requires_paused, revertIf_eq_ok,
    modify_eq_ok, Prod.mk.injEq] at h
  obtain ⟨_, _, ⟨hrole, rfl⟩, _, _, ⟨-, rfl⟩, _, _, ⟨-, -, rfl⟩, -, rfl⟩ := h
  exact ⟨.refl _ _, rfl, Or.inl rfl, Or.inr hrole, Or.inl rfl⟩

theorem upgradeToAndCall_guarded {v : Address} (h : upgradeToAndCall sender v s = .ok ((), s')) :
    Guarded s s' sender := by
  simp only [upgradeToAndCall, bind_eq_ok, requires_role, modify_eq_ok, Prod.mk.injEq] at h
  obtain ⟨_, _, ⟨hrole, rfl⟩, -, rfl⟩ := h
  exact ⟨.refl _ _, rfl, Or.inr hrole, Or.inl rfl, Or.inl rfl⟩

theorem add_guarded {token : Address} (h : add sender token s = .ok ((), s')) :
    Guarded s s' sender := by
  simp only [add, bind_eq_ok, requires_role, revertIf_eq_ok, get_eq_ok, modify_eq_ok,
    Prod.mk.injEq] at h
  obtain ⟨_, _, ⟨hrole, rfl⟩, _, _, ⟨-, -, rfl⟩, _, _, ⟨rfl, rfl⟩, _, _, ⟨-, -, rfl⟩, -, rfl⟩ := h
  exact ⟨.refl _ _, rfl, Or.inl rfl, Or.inl rfl, Or.inr hrole⟩

theorem remove_guarded {token : Address} (h : remove sender token s = .ok ((), s')) :
    Guarded s s' sender := by
  simp only [remove, bind_eq_ok, requires_role, revertIf_eq_ok, get_eq_ok, modify_eq_ok,
    Prod.mk.injEq] at h
  obtain ⟨_, _, ⟨hrole, rfl⟩, _, _, ⟨rfl, rfl⟩, _, _, ⟨-, -, rfl⟩, -, rfl⟩ := h
  exact ⟨.refl _ _, rfl, Or.inl rfl, Or.inl rfl, Or.inr hrole⟩

theorem setCapabilities_guarded {token : Address} {capabilities : BitVec 8}
    (h : setCapabilities sender token capabilities s = .ok ((), s')) : Guarded s s' sender := by
  simp only [setCapabilities, bind_eq_ok, requires_role, revertIf_eq_ok, get_eq_ok, modify_eq_ok,
    Prod.mk.injEq] at h
  obtain ⟨_, _, ⟨hrole, rfl⟩, _, _, ⟨rfl, rfl⟩, _, _, ⟨-, -, rfl⟩, _, _, ⟨-, -, rfl⟩, -, rfl⟩ := h
  exact ⟨.refl _ _, rfl, Or.inl rfl, Or.inl rfl, Or.inr hrole⟩

/-- One case per function; the initializers fail, and what is not named writes nothing. -/
theorem execute_guarded {f : Fn} (hinit : s.initialized = true)
    (h : execute t sender f s = .ok ((), s')) : Guarded s s' sender := by
  cases f with
  | initialize_ admin tokenWhitelist => exact absurd h (construct_fails _ hinit)
  | grantRole role account =>
      obtain ⟨access, hm, rfl⟩ := accessCall_eq_ok.mp h
      obtain ⟨hadmin, heq⟩ := AccessControl.grantRole_eq_ok.mp hm
      obtain ⟨-, rfl⟩ := Prod.mk.inj heq
      exact .of_access (.grant account hadmin)
  | revokeRole role account =>
      obtain ⟨access, hm, rfl⟩ := accessCall_eq_ok.mp h
      obtain ⟨-, heq⟩ := AccessControl.revokeRole_eq_ok.mp hm
      obtain ⟨-, rfl⟩ := Prod.mk.inj heq
      exact .of_access (.revoke role account)
  | renounceRole role callerConfirmation =>
      obtain ⟨access, hm, rfl⟩ := accessCall_eq_ok.mp h
      obtain ⟨-, heq⟩ := AccessControl.renounceRole_eq_ok.mp hm
      obtain ⟨-, rfl⟩ := Prod.mk.inj heq
      exact .of_access (.revoke role callerConfirmation)
  | upgradeToAndCall newImplementation => exact upgradeToAndCall_guarded h
  | pause => exact pause_guarded h
  | unpause => exact unpause_guarded h
  | setRegistry v => exact setRegistry_guarded h
  | setFeeCollector v => exact setFeeCollector_guarded h
  | setTokenWhitelist v => exact setTokenWhitelist_guarded h
  | add token => exact add_guarded h
  | remove token => exact remove_guarded h
  | setCapabilities token capabilities => exact setCapabilities_guarded h
  | other =>
      obtain ⟨-, rfl⟩ := Prod.mk.inj (pure_eq_ok.mp h)
      exact .refl _ _

/-! ## Runs -/

def Initialized (w : World) : Prop := ∀ t, (w t).initialized = true

/-- A call writes one contract, as its sender may. -/
theorem step_guarded {w : World} (hw : Initialized w) (k : Call) (t : Contract) :
    Guarded (w t) (step w k t) k.sender := by
  rw [step]
  by_cases ht : t = k.target
  · subst ht
    rw [Function.update_self]
    refine commit_cases (P := fun s' => Guarded (w k.target) s' k.sender) (.refl _ _)
      fun u s' h => ?_
    rw [Contract.call, bind_eq_ok] at h
    obtain ⟨_, _, hexposes, h⟩ := h
    obtain ⟨-, rfl⟩ := Prod.mk.inj (revertIf_eq_ok.mp hexposes).2
    exact execute_guarded (hw _) h
  · rw [Function.update_of_ne ht]
    exact .refl _ _

theorem step_initialized {w : World} (hw : Initialized w) (k : Call) : Initialized (step w k) :=
  fun t => ((step_guarded hw k t).initialized).trans (hw t)

theorem stateAt_initialized {w : World} (hw : Initialized w) (ks : List Call) (n : Nat) :
    Initialized (stateAt step w ks n) :=
  stateAt_induct (P := Initialized) (m := 0) hw (fun _ k _ _ h => step_initialized h k)
    (Nat.zero_le n)

end Strimz.AdminHandoff
