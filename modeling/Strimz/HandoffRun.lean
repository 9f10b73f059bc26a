import Strimz.AdminHandoff

/-!
# What the handoff establishes

`run_handedOver`: when `run` returns, the roles of the seven contracts are those of the table as far
as `verify` looks, the deployer holds none of them, and the admin roles are still the ones that the
constructors set.
-/

namespace Strimz.AdminHandoff

open Tx Runs

/-! ## Admin roles -/

/-- The roles whose admin role is `ADMIN_ROLE`. -/
def ServiceRole : Contract → Bytes32 → Prop
  | .registry, role => role = roleId .feeManager ∨ role = roleId .merchantRegistrar
  | .subscriptions, role => role = roleId .charger ∨ role = roleId .subscriptionCanceller
  | _, _ => False

/-- What a constructor or `initialize` settles for good. -/
structure SetUp (t : Contract) (s : ContractState) : Prop where
  initialized : s.initialized = true
  service : ∀ role, ServiceRole t role → s.access.getRoleAdmin role = roleId .admin
  others : ∀ role, ¬ ServiceRole t role → s.access.getRoleAdmin role = roleId .defaultAdmin

theorem SetUp.of_eq {t : Contract} {s s' : ContractState} (h : SetUp t s)
    (hinit : s'.initialized = s.initialized)
    (hadmin : s'.access.getRoleAdmin = s.access.getRoleAdmin) : SetUp t s' where
  initialized := hinit.trans h.initialized
  service role hrole := by rw [hadmin, h.service role hrole]
  others role hrole := by rw [hadmin, h.others role hrole]

theorem getRoleAdmin_grants (admin : Address) (granted : List Role)
    (access : AccessControl Bytes32 Address) :
    (granted.foldl (fun t role => t.grant (roleId role) admin) access).getRoleAdmin =
      access.getRoleAdmin := by
  induction granted generalizing access with
  | nil => rfl
  | cons role granted ih => exact ih _

theorem hasRole_grants {admin : Address} {granted : List Role}
    {access : AccessControl Bytes32 Address} {role : Bytes32} {account : Address}
    (h : (granted.foldl (fun t role => t.grant (roleId role) admin) access).hasRole role account =
      true) : account = admin ∨ access.hasRole role account = true := by
  induction granted generalizing access with
  | nil => exact Or.inr h
  | cons r granted ih =>
      rcases ih h with hadmin | hgrant
      · exact Or.inl hadmin
      · rcases AccessControl.hasRole_grant.mp hgrant with ⟨-, hadmin⟩ | hold
        · exact Or.inl hadmin
        · exact Or.inr hold

theorem hasRole_administered (serviceRoles : List Role) (access : AccessControl Bytes32 Address) :
    (serviceRoles.foldl (fun t role => t.setRoleAdmin (roleId role) (roleId .admin))
      access).hasRole = access.hasRole := by
  induction serviceRoles generalizing access with
  | nil => rfl
  | cons role serviceRoles ih => exact ih _

/-- A contract that was just set up: its admin holds every role there is. -/
theorem construct_setUp {args : DeployArgs} {t : Contract} {s : ContractState}
    (h : construct args t (blank args.implementation) = .ok ((), s)) :
    SetUp t s ∧ ∀ role account, s.access.hasRole role account = true → account = args.admin := by
  have hblank : ∀ (granted : List Role) (role : Bytes32) (account : Address),
      (granted.foldl (fun (t : AccessControl Bytes32 Address) role =>
        t.grant (roleId role) args.admin) (.init (roleId .defaultAdmin))).hasRole role account =
          true → account = args.admin := by
    intro granted role account hheld
    rcases hasRole_grants hheld with hadmin | hinit
    · exact hadmin
    · exact absurd hinit Bool.false_ne_true
  cases t with
  | registry =>
      simp only [construct, StrimzRegistry.initialize_, bind_eq_ok, requires_uninitialized,
        revertIf_eq_ok, grantTo, administer, modify_eq_ok, Prod.mk.injEq] at h
      obtain ⟨_, _, ⟨-, rfl⟩, _, _, ⟨-, -, rfl⟩, _, _, ⟨-, rfl⟩, -, rfl⟩ := h
      refine ⟨⟨rfl, ?_, ?_⟩, fun role account hheld => ?_⟩
      · rintro role (rfl | rfl)
        · rfl
        · rfl
      · intro role hrole
        obtain ⟨hfee, hregistrar⟩ := not_or.mp hrole
        show (if role = roleId .merchantRegistrar then _ else if role = roleId .feeManager then _
          else _) = _
        rw [if_neg hregistrar, if_neg hfee, getRoleAdmin_grants]
        rfl
      · rw [hasRole_administered] at hheld
        exact hblank _ role account hheld
  | tokenWhitelist =>
      simp only [construct, TokenWhitelist.initialize_, bind_eq_ok, requires_uninitialized,
        revertIf_eq_ok, grantTo, modify_eq_ok, Prod.mk.injEq] at h
      obtain ⟨_, _, ⟨-, rfl⟩, _, _, ⟨-, -, rfl⟩, -, rfl⟩ := h
      exact ⟨⟨rfl, fun _ hrole => hrole.elim, fun _ _ => by rw [getRoleAdmin_grants]; rfl⟩,
        hblank _⟩
  | feeCollector =>
      simp only [construct, FeeCollector.initialize_, bind_eq_ok, requires_uninitialized, grantTo,
        modify_eq_ok, Prod.mk.injEq] at h
      obtain ⟨_, _, ⟨-, rfl⟩, -, rfl⟩ := h
      exact ⟨⟨rfl, fun _ hrole => hrole.elim, fun _ _ => by rw [getRoleAdmin_grants]; rfl⟩,
        hblank _⟩
  | payments =>
      simp only [construct, StrimzPayments.construct, bind_eq_ok, requires_uninitialized,
        revertIf_eq_ok, grantTo, modify_eq_ok, Prod.mk.injEq] at h
      obtain ⟨_, _, ⟨-, rfl⟩, _, _, ⟨-, -, rfl⟩, _, _, ⟨-, rfl⟩, -, rfl⟩ := h
      exact ⟨⟨rfl, fun _ hrole => hrole.elim, fun _ _ => by rw [getRoleAdmin_grants]; rfl⟩,
        hblank _⟩
  | subscriptions =>
      simp only [construct, StrimzSubscriptions.construct, bind_eq_ok, requires_uninitialized,
        revertIf_eq_ok, grantTo, administer, modify_eq_ok, Prod.mk.injEq] at h
      obtain ⟨_, _, ⟨-, rfl⟩, _, _, ⟨-, -, rfl⟩, _, _, ⟨-, rfl⟩, _, _, ⟨-, rfl⟩, -, rfl⟩ := h
      refine ⟨⟨rfl, ?_, ?_⟩, fun role account hheld => ?_⟩
      · rintro role (rfl | rfl)
        · rfl
        · rfl
      · intro role hrole
        obtain ⟨hcharger, hcanceller⟩ := not_or.mp hrole
        show (if role = roleId .subscriptionCanceller then _ else if role = roleId .charger then _
          else _) = _
        rw [if_neg hcanceller, if_neg hcharger, getRoleAdmin_grants]
        rfl
      · rw [hasRole_administered] at hheld
        exact hblank _ role account hheld
  | agentRegistry =>
      simp only [construct, StrimzAgentRegistry.initialize_, bind_eq_ok, requires_uninitialized,
        grantTo, modify_eq_ok, Prod.mk.injEq] at h
      obtain ⟨_, _, ⟨-, rfl⟩, -, rfl⟩ := h
      exact ⟨⟨rfl, fun _ hrole => hrole.elim, fun _ _ => by rw [getRoleAdmin_grants]; rfl⟩,
        hblank _⟩
  | agentEscrow =>
      simp only [construct, StrimzAgentEscrow.initialize_, bind_eq_ok, requires_uninitialized,
        revertIf_eq_ok, grantTo, modify_eq_ok, Prod.mk.injEq] at h
      obtain ⟨_, _, ⟨-, rfl⟩, _, _, ⟨-, -, rfl⟩, _, _, ⟨-, rfl⟩, -, rfl⟩ := h
      exact ⟨⟨rfl, fun _ hrole => hrole.elim, fun _ _ => by rw [getRoleAdmin_grants]; rfl⟩,
        hblank _⟩

/-! ## Before the handoff -/

/-- The contracts were set up by their own code, and run it ever since. -/
def Prior (w : World) : Prop :=
  ∃ w₀ ks, Deployed w₀ ∧ (∀ k ∈ ks, ∀ v, k.fn ≠ .upgradeToAndCall v) ∧ w = exec step w₀ ks

/-- The accounts that `verify` does not skip. -/
def LookedAt (c : Contracts) (h : Holders) (timelock account : Address) : Prop :=
  account ≠ 0 ∧ account ∈ accounts c h timelock

def GrantedOnlyTo (c : Contracts) (h : Holders) (timelock : Address) (w : World) : Prop :=
  ∀ t role account, (w t).access.hasRole role account = true → LookedAt c h timelock account

theorem Prior.setUp {w : World} (h : Prior w) : ∀ t, SetUp t (w t) := by
  obtain ⟨w₀, ks, hdeployed, -, rfl⟩ := h
  refine exec_invariant (P := fun w : World => ∀ t, SetUp t (w t)) (fun t => ?_)
    fun w k _ hw t => ?_
  · obtain ⟨args, hargs⟩ := hdeployed t
    exact (construct_setUp hargs).1
  · have hguarded := step_guarded (fun t => (hw t).initialized) k t
    exact (hw t).of_eq hguarded.initialized hguarded.access.getRoleAdmin

/-! ## The steps of `run` -/

section Run

variable {env : Env} {sender deployer : Address} {c : Contracts} {h : Holders} {minDelay : Nat}
  {w w' : World}

/-- Whatever holds of the contracts holds after a check. -/
def View {α : Type} (m : HandoffTx α) : Prop := ∀ P : World → Prop, Preserves P m

theorem View.eq {α : Type} {m : HandoffTx α} (hm : View m) {a : α} (h : m w = .ok (a, w')) :
    w' = w := hm (· = w) w a w' h rfl

theorem view_fail (e : HandoffError) (p : Prop) [Decidable p] : View (fail p e) :=
  fun _ => preserves_revertIf

theorem view_bind {α β : Type} {x : HandoffTx α} {f : α → HandoffTx β} (hx : View x)
    (hf : ∀ a, View (f a)) : View (x >>= f) :=
  fun P => preserves_bind (hx P) fun a => hf a P

theorem view_get : View (get : HandoffTx World) := fun _ => preserves_get

theorem view_pure {α : Type} (a : α) : View (pure a : HandoffTx α) := fun _ => preserves_pure

theorem view_throw {α : Type} (e : AdminRevert) : View (throw e : HandoffTx α) := by
  intro P s a s' h
  cases h

theorem view_forM {α : Type} {l : List α} {f : α → HandoffTx PUnit} (hf : ∀ a, View (f a)) :
    View (forM l f) := fun P => preserves_forM fun a _ => hf a P

theorem view_ite {α : Type} {p : Prop} [Decidable p] {x y : HandoffTx α} (hx : View x)
    (hy : View y) : View (if p then x else y) :=
  fun P => preserves_ite (fun _ => hx P) fun _ => hy P

theorem view_delayFloor (chainId : Nat) : View (delayFloor chainId) :=
  view_ite (view_pure _) (view_ite (view_pure _) (view_ite (view_pure _) (view_throw _)))

theorem view_checkServiceRoleAdmins : View (checkServiceRoleAdmins c) := by
  have hone : ∀ t role, View (checkServiceRoleAdmin c t role) := fun t role =>
    view_bind view_get fun w => view_fail _ _
  exact view_bind (hone _ _) fun _ => view_bind (hone _ _) fun _ =>
    view_bind (hone _ _) fun _ => hone _ _

theorem view_checkThreshold (safe : Address) : View (checkThreshold env safe) := by
  unfold checkThreshold
  split
  · exact view_throw _
  · exact view_fail _ _

theorem fail_eq_ok {p : Prop} [Decidable p] {e : HandoffError} {u : Unit}
    (hok : fail p e w = .ok (u, w')) : ¬ p := (revertIf_eq_ok.mp hok).1

/-- What `check` has made sure of. -/
theorem check_eq_ok {u : Unit} (hok : check env c h minDelay w = .ok (u, w')) :
    w' = w ∧ (∀ t, c.address t ≠ 0) ∧ h.safe ≠ 0 ∧ h.relayer ≠ 0 ∧ h.scheduler ≠ 0 ∧
      h.deployer ≠ 0 := by
  simp only [check, bind_eq_ok] at hok
  obtain ⟨floor, w₁, h₁, _, w₂, h₂, _, w₃, h₃, _, w₄, h₄, _, w₅, h₅, _, w₆, h₆, _, w₇, h₇, _, w₈,
    h₈, _, w₉, h₉, h₁₀⟩ := hok
  have hdeployer : ∀ t, View (checkDeployer c h t) := fun t =>
    view_bind view_get fun w => view_fail _ _
  obtain rfl := (view_delayFloor _).eq h₁
  obtain rfl := (view_fail _ _).eq h₂
  obtain rfl := (view_fail _ _).eq h₃
  obtain ⟨rfl, htargets⟩ := forM_checks (fun t _ s u s' ht => (view_fail _ _).eq ht) h₄
  obtain rfl := (view_fail _ _).eq h₅
  obtain rfl := (view_forM fun p => view_fail _ _).eq h₆
  obtain rfl := (view_fail _ _).eq h₇
  obtain rfl := (view_checkThreshold _).eq h₈
  obtain rfl := (view_forM hdeployer).eq h₉
  obtain rfl := view_checkServiceRoleAdmins.eq h₁₀
  have hholders := fail_eq_ok h₅
  simp only [not_or] at hholders
  exact ⟨rfl, fun t => fail_eq_ok (htargets t (mem_targets t)), hholders⟩

/-! ## Grants and renunciations -/

/-- Set up, and no role in other hands. -/
structure Underway (allowed : Address → Prop) (w : World) : Prop where
  setUp : ∀ t, SetUp t (w t)
  holders : ∀ t role account, (w t).access.hasRole role account = true → allowed account

variable {allowed : Address → Prop}

theorem contractCall_eq_ok {t : Contract}
    {m : Tx AdminRevert (AccessControl Bytes32 Address) Unit} {u : Unit} :
    contractCall t m w = .ok (u, w') ↔ ∃ access, m (w t).access = .ok ((), access) ∧
      w' = Function.update w t { w t with access := access } := by
  rw [contractCall, zoom_eq_ok]
  constructor
  · rintro ⟨s, hs, rfl⟩
    obtain ⟨access, hm, rfl⟩ := accessCall_eq_ok.mp hs
    exact ⟨access, hm, rfl⟩
  · rintro ⟨access, hm, rfl⟩
    exact ⟨_, accessCall_eq_ok.mpr ⟨access, hm, rfl⟩, rfl⟩

theorem Underway.update (hw : Underway allowed w) {t : Contract}
    {access : AccessControl Bytes32 Address}
    (hadmin : access.getRoleAdmin = (w t).access.getRoleAdmin)
    (hheld : ∀ role account, access.hasRole role account = true →
      allowed account ∨ (w t).access.hasRole role account = true) :
    Underway allowed (Function.update w t { w t with access := access }) := by
  refine ⟨fun t' => ?_, fun t' role account hrole => ?_⟩
  · by_cases ht : t' = t
    · subst ht
      rw [Function.update_self]
      exact (hw.setUp _).of_eq rfl hadmin
    · rw [Function.update_of_ne ht]
      exact hw.setUp t'
  · by_cases ht : t' = t
    · subst ht
      rw [Function.update_self] at hrole
      rcases hheld role account hrole with hnew | hold
      · exact hnew
      · exact hw.holders _ role account hold
    · rw [Function.update_of_ne ht] at hrole
      exact hw.holders t' role account hrole

theorem preserves_applyGrant {g : Grant} (hg : allowed g.account) :
    Preserves (Underway allowed) (applyGrant sender g) := by
  refine preserves_bind preserves_get fun w₀ => preserves_ite (fun _ => ?_) fun _ => preserves_pure
  intro w u w' hcall hw
  obtain ⟨access, hgrant, rfl⟩ := contractCall_eq_ok.mp hcall
  obtain ⟨-, heq⟩ := AccessControl.grantRole_eq_ok.mp hgrant
  obtain ⟨-, rfl⟩ := Prod.mk.inj heq
  refine hw.update rfl fun role account hheld => ?_
  rcases AccessControl.hasRole_grant.mp hheld with ⟨-, rfl⟩ | hold
  · exact Or.inl hg
  · exact Or.inr hold

/-- A renunciation of the script. -/
theorem renounce_eq_ok {t : Contract} {role : Bytes32} {u : Unit}
    (hcall : contractCall t (AccessControl.renounceRole .access sender role deployer) w =
      .ok (u, w')) :
    w' = Function.update w t { w t with access := (w t).access.revoke role deployer } := by
  obtain ⟨access, hrenounce, rfl⟩ := contractCall_eq_ok.mp hcall
  obtain ⟨-, heq⟩ := AccessControl.renounceRole_eq_ok.mp hrenounce
  obtain ⟨-, rfl⟩ := Prod.mk.inj heq
  rfl

theorem preserves_renounceAt {P : World → Prop} {t : Contract}
    (hP : ∀ role, Preserves P
      (contractCall t (AccessControl.renounceRole .access sender role deployer))) :
    Preserves P (renounceAt sender deployer t) := by
  refine preserves_bind (preserves_forM fun role _ => ?_) fun _ => hP _
  exact preserves_bind preserves_get fun w₀ => preserves_ite (fun _ => hP _)
    fun _ => preserves_pure

theorem preserves_renounceAll : Preserves (Underway allowed) (renounceAll sender deployer) := by
  refine preserves_forM fun t _ => preserves_renounceAt fun role => ?_
  intro w u w' hcall hw
  rw [renounce_eq_ok hcall]
  exact hw.update rfl fun role account hheld => Or.inr (AccessControl.hasRole_revoke.mp hheld).2

theorem revoke_self (access : AccessControl Bytes32 Address) (role : Bytes32) (account : Address) :
    (access.revoke role account).hasRole role account = false := by
  rw [← Bool.not_eq_true, AccessControl.hasRole_revoke]
  exact fun h => h.1 ⟨rfl, rfl⟩

/-- What is lost is not gained by a renunciation. -/
theorem preserves_lost {t t' : Contract} {role role' : Bytes32} {account : Address} :
    Preserves (fun w => (w t').access.hasRole role' account = false)
      (contractCall t (AccessControl.renounceRole .access sender role deployer)) := by
  intro w u w' hcall hlost
  rw [renounce_eq_ok hcall]
  by_cases ht : t' = t
  · subst ht
    rw [Function.update_self, ← Bool.not_eq_true, AccessControl.hasRole_revoke, hlost]
    exact fun h => Bool.false_ne_true h.2
  · rw [Function.update_of_ne ht]
    exact hlost

/-- The deployer ends up without any of the roles. -/
theorem renounceAll_lost {u : Unit} (hok : renounceAll sender deployer w = .ok (u, w')) :
    ∀ t role, (w' t).access.hasRole (roleId role) deployer = false := by
  have hall := forM_establishes
    (Q := fun t w => ∀ role, (w t).access.hasRole (roleId role) deployer = false)
    (fun t _ w u w' hat => ?_) (fun t _ t' _ => ?_) hok
  · exact fun t => hall t (mem_targets t)
  · rw [renounceAt, bind_eq_ok] at hat
    obtain ⟨_, w₁, htail, hadmin⟩ := hat
    have hlost := forM_establishes
      (Q := fun role w => (w t).access.hasRole (roleId role) deployer = false)
      (f := fun role => renounceHeld sender deployer t role) (fun role _ w u w' hheld => ?_)
      (fun role _ role' _ => preserves_bind preserves_get fun w₀ =>
        preserves_ite (fun _ => preserves_lost) fun _ => preserves_pure) htail
    · intro role
      rcases List.mem_cons.mp (mem_roles role) with rfl | hmem
      · rw [renounce_eq_ok hadmin, Function.update_self]
        exact revoke_self _ _ _
      · exact preserves_lost w₁ _ w' hadmin (hlost role hmem)
    · rw [renounceHeld, bind_eq_ok] at hheld
      obtain ⟨_, w₂, hget, hheld⟩ := hheld
      obtain ⟨rfl, rfl⟩ := Prod.mk.inj (get_eq_ok.mp hget)
      rcases ite_eq_ok.mp hheld with ⟨-, hcall⟩ | ⟨hnone, hpure⟩
      · rw [renounce_eq_ok hcall, Function.update_self]
        exact revoke_self _ _ _
      · obtain ⟨-, rfl⟩ := Prod.mk.inj (pure_eq_ok.mp hpure)
        exact Bool.not_eq_true _ ▸ hnone
  · intro w u w' hat hlost role
    exact preserves_renounceAt (fun r => preserves_lost) w u w' hat (hlost role)

/-! ## The table -/

/-- What the accounts of the table may be. -/
theorem mem_roleTable {timelock : Address} {g : Grant} (hg : g ∈ roleTable c h timelock) :
    g.account = timelock ∨
      (∀ role ∈ [Role.defaultAdmin, .upgrader, .tokenManager], g.role ≠ roleId role) ∧
        (g.account = h.safe ∨ g.role ≠ roleId .admin) := by
  simp only [roleTable, List.mem_append, List.mem_map, List.mem_flatMap] at hg
  rcases hg with ((((⟨t, -, rfl⟩ | ⟨t, -, rfl⟩) | hg) | ⟨t, -, hg⟩) | ⟨t, -, hg⟩) | hg
  · exact Or.inl rfl
  · exact Or.inl rfl
  · obtain rfl := List.mem_singleton.mp hg
    exact Or.inl rfl
  · rcases List.mem_cons.mp hg with rfl | hg
    · exact Or.inl rfl
    · obtain rfl := List.mem_singleton.mp hg
      exact Or.inr ⟨by simp, Or.inl rfl⟩
  · have hpauser : g.role = roleId .pauser := by
      rcases hg with hg | hg
      · rcases List.mem_cons.mp hg with rfl | hg
        · rfl
        · obtain rfl := List.mem_singleton.mp hg
          rfl
      · split at hg
        · obtain rfl := List.mem_singleton.mp hg
          rfl
        · cases hg
    exact Or.inr ⟨by simp [hpauser], Or.inr (by simp [hpauser])⟩
  · simp only [List.mem_cons, List.not_mem_nil, or_false] at hg
    rcases hg with rfl | rfl | rfl | rfl | rfl | rfl | rfl | rfl | rfl <;>
      exact Or.inr ⟨by simp, Or.inr (by simp)⟩

theorem roleTable_lookedAt {timelock : Address} {g : Grant} (hg : g ∈ roleTable c h timelock)
    (haddress : ∀ t, c.address t ≠ 0) (hsafe : h.safe ≠ 0) (hrelayer : h.relayer ≠ 0)
    (hscheduler : h.scheduler ≠ 0) : LookedAt c h timelock g.account ∨ g.account = timelock := by
  have hlooked : ∀ a, a ≠ 0 → a ∈ accounts c h timelock → LookedAt c h timelock a ∨ a = timelock :=
    fun a hne hmem => Or.inl ⟨hne, hmem⟩
  have hpayments : c.payments ≠ 0 := haddress .payments
  have hsubscriptions : c.subscriptions ≠ 0 := haddress .subscriptions
  simp only [roleTable, List.mem_append, List.mem_map, List.mem_flatMap] at hg
  rcases hg with ((((⟨t, -, rfl⟩ | ⟨t, -, rfl⟩) | hg) | ⟨t, -, hg⟩) | ⟨t, -, hg⟩) | hg
  · exact Or.inr rfl
  · exact Or.inr rfl
  · obtain rfl := List.mem_singleton.mp hg
    exact Or.inr rfl
  · rcases List.mem_cons.mp hg with rfl | hg
    · exact Or.inr rfl
    · obtain rfl := List.mem_singleton.mp hg
      exact hlooked _ hsafe (by simp [accounts])
  · rcases hg with hg | hg
    · rcases List.mem_cons.mp hg with rfl | hg
      · exact Or.inr rfl
      · obtain rfl := List.mem_singleton.mp hg
        exact hlooked _ hsafe (by simp [accounts])
    · split at hg
      · rename_i hguardian
        obtain rfl := List.mem_singleton.mp hg
        exact hlooked _ hguardian (by simp [accounts])
      · cases hg
  · simp only [List.mem_cons, List.not_mem_nil, or_false] at hg
    rcases hg with rfl | rfl | rfl | rfl | rfl | rfl | rfl | rfl | rfl <;>
      exact hlooked _ (by assumption) (by simp [accounts])

/-! ## The timelock -/

theorem TimelockController.call_eq_ok {timelock timelock' : TimelockController}
    {m : Tx AdminRevert (AccessControl Bytes32 Address) Unit} :
    timelock.call m w = .ok (timelock', w') ↔ w' = w ∧
      ∃ access, m timelock.access = .ok ((), access) ∧
        timelock' = { timelock with access := access } := by
  unfold TimelockController.call
  cases m timelock.access with
  | error e => simp
  | ok r =>
      obtain ⟨u, access⟩ := r
      simp [eq_comm, and_comm]

/-- Only the empty account holds a role of the timelock that `verifyTimelock` does not look at. -/
theorem createTimelock_eq_ok {address : Address} {timelock : TimelockController}
    (hok : createTimelock h sender minDelay address w = .ok (timelock, w')) :
    w' = w ∧ timelock.address = address ∧ ∀ role account,
      timelock.access.hasRole role account = true →
        account = 0 ∨ role = PROPOSER_ROLE ∨ role = CANCELLER_ROLE ∨
          role = roleId .defaultAdmin := by
  have hnew : ∀ role account, (TimelockController.new address minDelay h.safe
      h.deployer).access.hasRole role account = true →
        account = 0 ∨ role = PROPOSER_ROLE ∨ role = CANCELLER_ROLE ∨
          role = roleId .defaultAdmin := by
    intro role account hheld
    simp only [TimelockController.new, AccessControl.hasRole_grant] at hheld
    rcases hheld with ⟨-, rfl⟩ | ⟨rfl, -⟩ | ⟨rfl, -⟩ | ⟨rfl, -⟩ | ⟨rfl, -⟩ | hinit
    · exact Or.inl rfl
    · exact Or.inr (Or.inr (Or.inl rfl))
    · exact Or.inr (Or.inl rfl)
    · exact Or.inr (Or.inr (Or.inr rfl))
    · exact Or.inr (Or.inr (Or.inr rfl))
    · exact absurd hinit Bool.false_ne_true
  rw [createTimelock, bind_eq_ok] at hok
  obtain ⟨granted, w₁, hgrant, hrenounce⟩ := hok
  obtain ⟨rfl, access, hrevoke, rfl⟩ := TimelockController.call_eq_ok.mp hrenounce
  obtain ⟨-, heq⟩ := AccessControl.renounceRole_eq_ok.mp hrevoke
  obtain ⟨-, rfl⟩ := Prod.mk.inj heq
  rcases ite_eq_ok.mp hgrant with ⟨-, hcall⟩ | ⟨-, hpure⟩
  · obtain ⟨rfl, access, hcanceller, rfl⟩ := TimelockController.call_eq_ok.mp hcall
    obtain ⟨-, heq⟩ := AccessControl.grantRole_eq_ok.mp hcanceller
    obtain ⟨-, rfl⟩ := Prod.mk.inj heq
    refine ⟨rfl, rfl, fun role account hheld => ?_⟩
    rcases AccessControl.hasRole_grant.mp (AccessControl.hasRole_revoke.mp hheld).2 with
      ⟨rfl, -⟩ | hold
    · exact Or.inr (Or.inr (Or.inl rfl))
    · exact hnew role account hold
  · obtain ⟨rfl, rfl⟩ := Prod.mk.inj (pure_eq_ok.mp hpure)
    exact ⟨rfl, rfl, fun role account hheld =>
      hnew role account (AccessControl.hasRole_revoke.mp hheld).2⟩

theorem expectTimelockRole_eq_ok {timelock : TimelockController} {role : Bytes32}
    {account : Address} {expected : Bool} {u : Unit}
    (hok : expectTimelockRole timelock role account expected w = .ok (u, w')) :
    w' = w ∧ timelock.access.hasRole role account = expected := by
  refine ⟨(view_fail _ _).eq hok, ?_⟩
  by_contra hne
  exact fail_eq_ok hok hne

theorem verifyTimelock_eq_ok {timelock : TimelockController} {u : Unit}
    (hok : verifyTimelock env timelock h w = .ok (u, w')) :
    w' = w ∧ timelock.access.hasRole (roleId .defaultAdmin) h.deployer = false ∧
      timelock.access.hasRole PROPOSER_ROLE h.deployer = false ∧
      timelock.access.hasRole CANCELLER_ROLE h.deployer = false := by
  simp only [verifyTimelock, bind_eq_ok] at hok
  obtain ⟨floor, w₁, h₁, _, w₂, h₂, _, w₃, h₃, _, w₄, h₄, _, w₅, h₅, _, w₆, h₆, _, w₇, h₇, _, w₈,
    h₈, _, w₉, h₉, hguardian⟩ := hok
  have hexpect : ∀ role account expected,
      View (expectTimelockRole timelock role account expected) :=
    fun role account expected => view_fail _ _
  have hlast : w' = w₉ := by
    refine (view_ite (view_bind (hexpect _ _ _) fun _ => view_bind (hexpect _ _ _) fun _ =>
      hexpect _ _ _) (view_pure ())).eq hguardian
  obtain rfl := (view_delayFloor _).eq h₁
  obtain rfl := (view_fail _ _).eq h₂
  obtain rfl := (expectTimelockRole_eq_ok h₃).1
  obtain rfl := (expectTimelockRole_eq_ok h₄).1
  obtain rfl := (expectTimelockRole_eq_ok h₅).1
  obtain rfl := (expectTimelockRole_eq_ok h₆).1
  obtain ⟨rfl, hadmin⟩ := expectTimelockRole_eq_ok h₇
  obtain ⟨rfl, hproposer⟩ := expectTimelockRole_eq_ok h₈
  obtain ⟨rfl, hcanceller⟩ := expectTimelockRole_eq_ok h₉
  exact ⟨hlast, hadmin, hproposer, hcanceller⟩

/-! ## The verification -/

theorem verify_eq_ok {timelock : Address} {table : List Grant} {u : Unit}
    (hok : verify c h timelock table w = .ok (u, w')) :
    w' = w ∧ ∀ t role account, LookedAt c h timelock account →
      (w t).access.hasRole (roleId role) account = true → ⟨t, roleId role, account⟩ ∈ table := by
  have hone : ∀ t role account, View (verifyRole c table t role account) :=
    fun t role account => view_bind view_get fun w => view_fail _ _
  have hrole : ∀ t role, View (forM (accounts c h timelock) fun account =>
      verifyRole c table t role account) := fun t role => view_forM (hone t role)
  rw [verify, bind_eq_ok] at hok
  obtain ⟨_, w₁, hall, hadmins⟩ := hok
  obtain rfl := view_checkServiceRoleAdmins.eq hadmins
  obtain ⟨rfl, htargets⟩ := forM_checks (fun t _ s u s' ht => (view_forM (hrole t)).eq ht) hall
  refine ⟨rfl, fun t role account hlooked hheld => ?_⟩
  have hroles := (forM_checks (fun r _ s u s' hr => (hrole t r).eq hr)
    (htargets t (mem_targets t))).2
  have haccounts := (forM_checks (fun a _ s u s' ha => (hone t role a).eq ha)
    (hroles role (mem_roles role))).2
  have hverified := haccounts account hlooked.2
  rw [verifyRole, bind_eq_ok] at hverified
  obtain ⟨_, w₂, hget, hfail⟩ := hverified
  obtain ⟨rfl, rfl⟩ := Prod.mk.inj (get_eq_ok.mp hget)
  have hsame := fail_eq_ok hfail
  rw [hheld] at hsame
  by_contra hmem
  refine hsame ⟨hlooked.1, ?_⟩
  rw [List.contains_eq_mem, decide_eq_false hmem]
  decide

/-! ## The handoff -/

/-- What `run` leaves behind. -/
structure HandedOver (c : Contracts) (h : Holders) (timelock : TimelockController) (w : World) :
    Prop where
  setUp : ∀ t, SetUp t (w t)
  table : ∀ t role account, (w t).access.hasRole (roleId role) account = true →
    account = timelock.address ∨ ⟨t, roleId role, account⟩ ∈ roleTable c h timelock.address
  deployer : ∀ t role, (w t).access.hasRole (roleId role) h.deployer = false
  timelock : ∀ role, timelock.access.hasRole role h.deployer = false

theorem run_handedOver {address : Address} {timelock : TimelockController} (hprior : Prior w)
    (hgranted : GrantedOnlyTo c h address w)
    (hok : run env sender c h minDelay address w = .ok (timelock, w')) :
    HandedOver c h timelock w' := by
  simp only [run, bind_eq_ok] at hok
  obtain ⟨_, w₁, hcheck, tl, w₂, hcreate, _, w₃, hgrants, _, w₄, hrenounce, _, w₅, hverify, _, w₆,
    htimelock, hpure⟩ := hok
  obtain ⟨rfl, rfl⟩ := Prod.mk.inj (pure_eq_ok.mp hpure)
  obtain ⟨rfl, haddress, hsafe, hrelayer, hscheduler, hdeployer⟩ := check_eq_ok hcheck
  obtain ⟨rfl, rfl, hroles⟩ := createTimelock_eq_ok hcreate
  obtain ⟨rfl, htable⟩ := verify_eq_ok hverify
  obtain ⟨rfl, hadmin, hproposer, hcanceller⟩ := verifyTimelock_eq_ok htimelock
  have hstart : Underway (fun a => LookedAt c h timelock.address a ∨ a = timelock.address) w₂ :=
    ⟨hprior.setUp, fun t role account hheld => Or.inl (hgranted t role account hheld)⟩
  have hgranted₃ := preserves_forM (fun g hg => preserves_applyGrant
    (roleTable_lookedAt hg haddress hsafe hrelayer hscheduler)) w₂ _ w₃ hgrants hstart
  have hend := preserves_renounceAll w₃ _ _ hrenounce hgranted₃
  refine ⟨hend.setUp, fun t role account hheld => ?_, renounceAll_lost hrenounce, fun role => ?_⟩
  · rcases hend.holders t _ account hheld with hlooked | heq
    · exact Or.inr (htable t role account hlooked hheld)
    · exact Or.inl heq
  · rw [← Bool.not_eq_true]
    intro hheld
    rcases hroles role h.deployer hheld with hzero | rfl | rfl | rfl
    · exact hdeployer hzero
    · rw [hproposer] at hheld
      cases hheld
    · rw [hcanceller] at hheld
      cases hheld
    · rw [hadmin] at hheld
      cases hheld

theorem run_address {address : Address} {timelock : TimelockController}
    (hok : run env sender c h minDelay address w = .ok (timelock, w')) :
    timelock.address = address := by
  simp only [run, bind_eq_ok] at hok
  obtain ⟨_, _, -, tl, _, hcreate, _, _, -, _, _, -, _, _, -, _, _, -, hpure⟩ := hok
  obtain ⟨rfl, -⟩ := Prod.mk.inj (pure_eq_ok.mp hpure)
  exact (createTimelock_eq_ok hcreate).2.1

/-- The roles over upgrades, pointers, the whitelist and the other roles are the timelock's. -/
theorem HandedOver.eq_timelock {timelock : TimelockController} (hw : HandedOver c h timelock w)
    {role : Role} (hrole : role ∈ [Role.defaultAdmin, .upgrader, .tokenManager]) {t : Contract}
    {account : Address} (hheld : (w t).access.hasRole (roleId role) account = true) :
    account = timelock.address := by
  rcases hw.table t role account hheld with heq | hmem
  · exact heq
  · rcases mem_roleTable hmem with heq | ⟨hne, -⟩
    · exact heq
    · exact absurd rfl (hne role hrole)

/-- `ADMIN_ROLE` is the timelock's and the safe's. -/
theorem HandedOver.eq_safe {timelock : TimelockController} (hw : HandedOver c h timelock w)
    {t : Contract} {account : Address}
    (hheld : (w t).access.hasRole (roleId .admin) account = true) :
    account = timelock.address ∨ account = h.safe := by
  rcases hw.table t .admin account hheld with heq | hmem
  · exact Or.inl heq
  · rcases mem_roleTable hmem with heq | ⟨-, heq | hne⟩
    · exact Or.inl heq
    · exact Or.inr heq
    · exact absurd rfl hne

end Run

end Strimz.AdminHandoff
