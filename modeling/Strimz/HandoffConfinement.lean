import Strimz.HandoffRun

/-!
# Confinement after the handoff

The roles that `run` leaves behind form a closed set. Without the timelock that is every role but
the four service roles, which the holders of `ADMIN_ROLE` administer; without the safe as well it is
every role. So nobody else comes by a role, an upgrade, a pointer or a whitelist entry, in whatever
order the contracts are called (`handoff_confines`). A role that none of the contracts declares is
left out of the table: a deployer that granted itself one keeps it (`undeclared_role_stays`).
-/

namespace Strimz.AdminHandoff

open Tx Runs

/-- Same implementation, pointers and whitelist. -/
structure Fixed (s s' : ContractState) : Prop where
  implementation : s'.implementation = s.implementation
  pointers : pointers s' = pointers s
  whitelist : whitelist s' = whitelist s

section Confinement

variable {w : World} {ks : List Call} {trusted : Address → Prop} {loose : Contract → Bytes32 → Prop}

def roleTables (w : World) (t : Contract) : AccessControl Bytes32 Address := (w t).access

theorem outsiders (hw : Initialized w) (hsenders : ∀ k ∈ ks, ¬ trusted k.sender) :
    AccessControl.Outsiders roleTables step Call.sender trusted w ks where
  steps n k hk t := by
    rw [stateAt_succ step w hk]
    exact (step_guarded (stateAt_initialized hw ks n) k t).access
  senders n k hk := hsenders k (List.mem_of_getElem? hk)

/-- Where the keys to them are in trusted hands, the implementations, pointers and the whitelist
stay. -/
theorem fixed_of_closed (hw : Initialized w)
    (hclosed : AccessControl.Closed (roleTables w) trusted loose)
    (hsenders : ∀ k ∈ ks, ¬ trusted k.sender)
    (hkeys : ∀ role ∈ [Role.defaultAdmin, .upgrader, .tokenManager], ∀ t,
      ¬ loose t (roleId role) ∧
        ∀ account, (w t).access.hasRole (roleId role) account = true → trusted account)
    (n : Nat) (t : Contract) : Fixed (w t) (stateAt step w ks n t) := by
  have hrun := outsiders hw hsenders
  refine stateAt_induct (P := fun w' : World => Fixed (w t) (w' t)) (m := 0) ⟨rfl, rfl, rfl⟩ ?_
    (Nat.zero_le n)
  intro n k _ hk ih
  have hguarded := step_guarded (stateAt_initialized hw ks n) k t
  have hnone : ∀ role ∈ [Role.defaultAdmin, .upgrader, .tokenManager],
      ¬ (stateAt step w ks n t).access.hasRole (roleId role) k.sender = true := by
    intro role hrole
    obtain ⟨hloose, hheld⟩ := hkeys role hrole t
    rw [Bool.not_eq_true]
    exact hclosed.unauthorized hrun hloose hheld hk
  exact ⟨(hguarded.implementation.resolve_right (hnone _ (by simp))).trans ih.implementation,
    (hguarded.pointers.resolve_right (hnone _ (by simp))).trans ih.pointers,
    (hguarded.whitelist.resolve_right (hnone _ (by simp))).trans ih.whitelist⟩

variable {c : Contracts} {h : Holders} {timelock : TimelockController}

theorem not_serviceRole_defaultAdmin (t : Contract) : ¬ ServiceRole t (roleId .defaultAdmin) := by
  cases t <;> simp [ServiceRole]

/-- Without the timelock, all roles but the service roles are closed. -/
theorem HandedOver.closed (hw : HandedOver c h timelock w) :
    AccessControl.Closed (roleTables w) (· = timelock.address) ServiceRole where
  admin t role hrole := by
    rw [roleTables, (hw.setUp t).others role hrole]
    exact not_serviceRole_defaultAdmin t
  holders t role hrole account hheld := by
    rw [roleTables, (hw.setUp t).others role hrole] at hheld
    exact hw.eq_timelock (by simp) hheld

/-- Without the safe as well, all are. -/
theorem HandedOver.all_closed (hw : HandedOver c h timelock w) :
    AccessControl.Closed (roleTables w) (fun a => a = h.safe ∨ a = timelock.address)
      fun _ _ => False where
  admin _ _ _ := id
  holders t role _ account hheld := by
    by_cases hservice : ServiceRole t role
    · rw [roleTables, (hw.setUp t).service role hservice] at hheld
      exact (hw.eq_safe hheld).symm
    · rw [roleTables, (hw.setUp t).others role hservice] at hheld
      exact Or.inr (hw.eq_timelock (by simp) hheld)

theorem not_serviceRole_key {role : Role}
    (hrole : role ∈ [Role.defaultAdmin, .upgrader, .tokenManager]) (t : Contract) :
    ¬ ServiceRole t (roleId role) := by
  simp only [List.mem_cons, List.not_mem_nil, or_false] at hrole
  rcases hrole with rfl | rfl | rfl <;> cases t <;> simp [ServiceRole]

end Confinement

/-- After the handoff nobody but the safe and the timelock can let a role grow, and nobody but the
timelock one that is not a service role, an implementation, a pointer or the whitelist. -/
theorem handoff_confines {env : Env} {sender : Address} {c : Contracts} {h : Holders}
    {minDelay : Nat} {address : Address} {timelock : TimelockController} {w w' : World}
    (hprior : Prior w) (hgranted : GrantedOnlyTo c h address w)
    (hrun : run env sender c h minDelay address w = .ok (timelock, w')) (ks : List Call) :
    ((∀ k ∈ ks, k.sender ≠ h.safe ∧ k.sender ≠ timelock.address) →
      (∀ m n, m ≤ n → ∀ t role account,
        (stateAt step w' ks n t).access.hasRole role account = true →
          (stateAt step w' ks m t).access.hasRole role account = true) ∧
      (∀ n t, Fixed (w' t) (stateAt step w' ks n t)) ∧
      (∀ n t role, (stateAt step w' ks n t).access.hasRole (roleId role) h.deployer = false) ∧
      ∀ role, timelock.access.hasRole role h.deployer = false) ∧
    ((∀ k ∈ ks, k.sender ≠ timelock.address) →
      (∀ m n, m ≤ n → ∀ t role account,
        (stateAt step w' ks n t).access.hasRole role account = true →
          (stateAt step w' ks m t).access.hasRole role account = true ∨ ServiceRole t role) ∧
      ∀ n t, Fixed (w' t) (stateAt step w' ks n t)) := by
  have hw := run_handedOver hprior hgranted hrun
  have hinit : Initialized w' := fun t => (hw.setUp t).initialized
  constructor
  · intro hsenders
    have hout : ∀ k ∈ ks, ¬ (k.sender = h.safe ∨ k.sender = timelock.address) :=
      fun k hk => not_or.mpr (hsenders k hk)
    have hheld : ∀ m n, m ≤ n → ∀ t role account,
        (stateAt step w' ks n t).access.hasRole role account = true →
          (stateAt step w' ks m t).access.hasRole role account = true :=
      fun m n hmn t role account hnow =>
        hw.all_closed.of_hasRole (outsiders hinit hout) id hmn hnow
    refine ⟨hheld, fixed_of_closed hinit hw.all_closed hout fun role hrole t =>
      ⟨id, fun account hkey => Or.inr (hw.eq_timelock hrole hkey)⟩, fun n t role => ?_,
      hw.timelock⟩
    rw [← Bool.not_eq_true]
    intro hnow
    have hstart := hheld 0 n (Nat.zero_le n) t _ _ hnow
    rw [stateAt_zero, hw.deployer t role] at hstart
    cases hstart
  · intro hsenders
    refine ⟨fun m n hmn t role account hnow => ?_, fixed_of_closed hinit hw.closed hsenders
      fun role hrole t => ⟨not_serviceRole_key hrole t,
        fun account hkey => hw.eq_timelock hrole hkey⟩⟩
    by_cases hservice : ServiceRole t role
    · exact Or.inr hservice
    · exact Or.inl (hw.closed.of_hasRole (outsiders hinit hsenders) hservice hmn hnow)

/-! ## A handoff on the main network -/

def sampleContracts : Contracts := ⟨0xc1, 0xc2, 0xc3, 0xc4, 0xc5, 0xc6, 0xc7⟩

def sampleHolders : Holders where
  safe := 0x5afe
  guardian := 0x6a2d
  relayer := 0x7e1a
  scheduler := 0x5c4e
  deployer := 0xde01

def sampleEnv : Env where
  chainId := ARC_MAINNET_CHAIN_ID
  codeLength a := if a = sampleHolders.safe then 171 else 0
  getThreshold a := if a = sampleHolders.safe then .ok 2 else .error .unknownFunction

def sampleArgs : DeployArgs := ⟨sampleHolders.deployer, 0x11, 0xc1, 0xc3, 0xc2⟩

def sampleTimelock : Address := 0x71

/-- What the deployment scripts leave behind. -/
def sampleWorld : World := fun t =>
  match construct sampleArgs t (blank sampleArgs.implementation) with
  | .ok (_, s) => s
  | .error _ => blank 0

theorem sampleWorld_deployed : Deployed sampleWorld := by
  intro t
  refine ⟨sampleArgs, ?_⟩
  cases t <;> rfl

theorem sampleWorld_held {t : Contract} {role : Bytes32} {account : Address}
    (hheld : (sampleWorld t).access.hasRole role account = true) :
    account = sampleHolders.deployer := by
  have hconstruct : construct sampleArgs t (blank sampleArgs.implementation) =
      .ok ((), sampleWorld t) := by cases t <;> rfl
  exact (construct_setUp hconstruct).2 role account hheld

theorem sampleDeployer_lookedAt :
    LookedAt sampleContracts sampleHolders sampleTimelock sampleHolders.deployer := by
  unfold LookedAt
  decide

def sampleRun (w : World) : Except AdminRevert (TimelockController × World) :=
  run sampleEnv sampleHolders.deployer sampleContracts sampleHolders 172800 sampleTimelock w

/-- The deployer tries to get its admin role back. -/
def sampleCalls : List Call :=
  [⟨sampleHolders.deployer, .registry, .grantRole (roleId .defaultAdmin) sampleHolders.deployer⟩,
   ⟨sampleHolders.scheduler, .payments, .setRegistry 0xbad⟩]

theorem handoff_confines_sample : ∃ timelock w', sampleRun sampleWorld = .ok (timelock, w') ∧
    ∀ n t, Fixed (w' t) (stateAt step w' sampleCalls n t) := by
  have hok : (sampleRun sampleWorld).isOk = true := by decide +kernel
  obtain ⟨timelock, w', hrun⟩ := exists_of_isOk hok
  have hprior : Prior sampleWorld :=
    ⟨sampleWorld, [], sampleWorld_deployed, fun k hk => absurd hk List.not_mem_nil, rfl⟩
  have hgranted : GrantedOnlyTo sampleContracts sampleHolders sampleTimelock sampleWorld := by
    intro t role account hheld
    rw [sampleWorld_held hheld]
    exact sampleDeployer_lookedAt
  have haddress : timelock.address = sampleTimelock := run_address hrun
  refine ⟨timelock, w', hrun, ?_⟩
  refine ((handoff_confines hprior hgranted hrun sampleCalls).1 ?_).2.1
  rw [haddress]
  decide

/-! ## A role that is not in the table -/

def strayRole : Bytes32 := 0x01#256

def strayCall : Call :=
  ⟨sampleHolders.deployer, .registry, .grantRole strayRole sampleHolders.deployer⟩

def strayWorld : World := step sampleWorld strayCall

theorem strayWorld_granted :
    GrantedOnlyTo sampleContracts sampleHolders sampleTimelock strayWorld := by
  intro t role account hheld
  have hregistry : (strayWorld .registry).access =
      (sampleWorld .registry).access.grant strayRole sampleHolders.deployer := rfl
  have hdeployer : account = sampleHolders.deployer := by
    by_cases ht : t = .registry
    · subst ht
      rw [hregistry] at hheld
      rcases AccessControl.hasRole_grant.mp hheld with ⟨-, heq⟩ | hold
      · exact heq
      · exact sampleWorld_held hold
    · have hother : strayWorld t = sampleWorld t := Function.update_of_ne ht _ _
      rw [hother] at hheld
      exact sampleWorld_held hheld
  rw [hdeployer]
  exact sampleDeployer_lookedAt

/-- A deployer that granted itself a role of its own making before the handoff still holds it
after it. -/
theorem undeclared_role_stays : Prior strayWorld ∧
    GrantedOnlyTo sampleContracts sampleHolders sampleTimelock strayWorld ∧
    ∃ timelock w', sampleRun strayWorld = .ok (timelock, w') ∧
      (w' .registry).access.hasRole strayRole sampleHolders.deployer = true := by
  refine ⟨⟨sampleWorld, [strayCall], sampleWorld_deployed, ?_, rfl⟩, strayWorld_granted, ?_⟩
  · intro k hk v
    rw [List.mem_singleton.mp hk, strayCall]
    exact fun h => by cases h
  · have hheld : (match sampleRun strayWorld with
        | .ok (_, w') => (w' .registry).access.hasRole strayRole sampleHolders.deployer
        | .error _ => false) = true := by decide +kernel
    cases hrun : sampleRun strayWorld with
    | error e =>
        rw [hrun] at hheld
        cases hheld
    | ok r =>
        rw [hrun] at hheld
        exact ⟨r.1, r.2, rfl, hheld⟩

end Strimz.AdminHandoff
