import Strimz.AgentRegistry

/-!
# Agent records and their logs

`dossier_step` is the case analysis of a call, seen from one agent. Over a run it gives that the
logs of the contract tell all that matters about an agent (`agent_record`): its record, its
reputation as a sum that never wrapped, and whether it is active, although no log says whether it
is suspended.
-/

namespace Strimz.AgentRegistry

open Tx Runs
open AdminHandoff (roleId)

/-! ## What a call does -/

section Calls

variable {msg : Msg} {agent : Address} {s s' : Storage}

theorem loadAgent_eq_ok {r : Agent × Storage} :
    loadAgent agent s = .ok r ↔ (s.agents agent).controller ≠ 0 ∧ r = (s.agents agent, s) := by
  simp only [loadAgent, bind_eq_ok, get_eq_ok, revertIf_eq_ok, pure_eq_ok, Prod.mk.injEq,
    existsAndEq, exists_const, and_true, true_and, ne_eq]

theorem checkedAddInt_eq_ok {a b : Uint256} {r : Uint256 × Storage} :
    checkedAddInt a b s = .ok r ↔ ¬ a.saddOverflow b = true ∧ r = (a + b, s) := by
  simp only [checkedAddInt, bind_eq_ok, revertIf_eq_ok, pure_eq_ok, Prod.mk.injEq, existsAndEq,
    exists_const, and_true]

theorem accessCall_eq_ok {m : Tx AgentRevert (AccessControl Bytes32 Address) Unit} {u : Unit} :
    accessCall m s = .ok (u, s') ↔
      ∃ access, m s.access = .ok ((), access) ∧ s' = { s with access := access } :=
  zoom_eq_ok

theorem requires_role {role : Role} {sender : Address} {u : Unit} :
    accessCall (AccessControl.onlyRole .access (roleId role) sender) s = .ok (u, s') ↔
      s.hasRole role sender = true ∧ s' = s := by
  rw [accessCall_eq_ok]
  constructor
  · rintro ⟨access, h, rfl⟩
    obtain ⟨hrole, heq⟩ := AccessControl.onlyRole_eq_ok.mp h
    obtain ⟨-, rfl⟩ := Prod.mk.inj heq
    exact ⟨hrole, rfl⟩
  · rintro ⟨hrole, rfl⟩
    exact ⟨s'.access, AccessControl.onlyRole_eq_ok.mpr ⟨hrole, rfl⟩, rfl⟩

theorem registerAgent_ok {digest : Bytes32} {name version : Bytes}
    (h : registerAgent msg agent digest name version s = .ok ((), s')) :
    agent ≠ 0 ∧ msg.sender = agent ∧ (s.agents agent).controller = 0 ∧
      s' = (s.putAgent agent ⟨agent, digest, name, version, 0, msg.timestamp, true⟩).log
        ⟨msg.timestamp, .agentRegistered agent agent digest name version⟩ := by
  simp only [registerAgent, setAgent, emit, bind_eq_ok, get_eq_ok, revertIf_eq_ok,
    modify_eq_ok] at h
  obtain ⟨_, _, ⟨hzero, ⟨⟩⟩, _, _, ⟨hself, ⟨⟩⟩, _, _, ⟨⟩, _, _, ⟨hnew, ⟨⟩⟩, _, _, ⟨⟩, ⟨⟩⟩ := h
  obtain rfl := not_not.mp hself
  exact ⟨hzero, rfl, not_not.mp hnew, rfl⟩

theorem rotateCredential_ok {digest : Bytes32}
    (h : rotateCredential msg agent digest s = .ok ((), s')) :
    (s.agents agent).controller ≠ 0 ∧ msg.sender = (s.agents agent).controller ∧
      s' = (s.putAgent agent { s.agents agent with credentialDigest := digest }).log
        ⟨msg.timestamp, .agentCredentialRotated agent digest⟩ := by
  simp only [rotateCredential, setAgent, emit, bind_eq_ok, loadAgent_eq_ok, revertIf_eq_ok,
    modify_eq_ok] at h
  obtain ⟨_, _, ⟨hknown, ⟨⟩⟩, _, _, ⟨hself, ⟨⟩⟩, _, _, ⟨⟩, ⟨⟩⟩ := h
  exact ⟨hknown, not_not.mp hself, rfl⟩

theorem adjustReputation_ok {delta : Uint256}
    (h : adjustReputation msg agent delta s = .ok ((), s')) :
    s.hasRole .agentAdmin msg.sender = true ∧ (s.agents agent).controller ≠ 0 ∧
      ¬ (s.agents agent).reputationScore.saddOverflow delta = true ∧
      s' = (s.putAgent agent { s.agents agent with
          reputationScore := (s.agents agent).reputationScore + delta }).log
        ⟨msg.timestamp, .agentReputationAdjusted agent delta
          ((s.agents agent).reputationScore + delta)⟩ := by
  simp only [adjustReputation, setAgent, emit, bind_eq_ok, requires_role, loadAgent_eq_ok,
    checkedAddInt_eq_ok, modify_eq_ok] at h
  obtain ⟨_, _, ⟨hadmin, rfl⟩, _, _, ⟨hknown, ⟨⟩⟩, _, _, ⟨hroom, ⟨⟩⟩, _, _, ⟨⟩, ⟨⟩⟩ := h
  exact ⟨hadmin, hknown, hroom, rfl⟩

/-- A flag that is written as it was. -/
theorem putSuspended_self {b : Bool} (h : s.suspended agent = b) :
    s.putSuspended agent b = s := by
  rw [Storage.putSuspended, ← h, Function.update_eq_self]

theorem deactivate_ok (h : deactivate msg agent s = .ok ((), s')) :
    (s.agents agent).controller ≠ 0 ∧
      (msg.sender = (s.agents agent).controller ∨ s.hasRole .agentAdmin msg.sender = true) ∧
      s' = ((s.putSuspended agent
          (s.suspended agent || s.hasRole .agentAdmin msg.sender)).putAgent agent
          { s.agents agent with active := false }).log
        ⟨msg.timestamp, .agentDeactivated agent⟩ := by
  simp only [deactivate, setAgent, setSuspended, emit, bind_eq_ok, loadAgent_eq_ok, get_eq_ok,
    revertIf_eq_ok, ite_eq_ok, modify_eq_ok] at h
  obtain ⟨_, _, ⟨hknown, ⟨⟩⟩, _, _, ⟨⟩, _, _, ⟨hby, ⟨⟩⟩, h⟩ := h
  have hparty : msg.sender = (s.agents agent).controller ∨
      s.hasRole .agentAdmin msg.sender = true := by
    rwa [not_and_or, not_not, Bool.not_eq_false] at hby
  refine ⟨hknown, hparty, ?_⟩
  rcases h with ⟨hadmin, _, _, ⟨⟩, _, _, ⟨⟩, ⟨⟩⟩ | ⟨hnone, _, _, ⟨⟩, ⟨⟩⟩
  · rw [hadmin, Bool.or_true]
  · rw [Bool.eq_false_iff.mpr hnone, Bool.or_false, putSuspended_self rfl]

theorem activate_ok (h : activate msg agent s = .ok ((), s')) :
    (s.agents agent).controller ≠ 0 ∧
      (s.hasRole .agentAdmin msg.sender = true ∨
        msg.sender = (s.agents agent).controller ∧ s.suspended agent = false) ∧
      s' = ((s.putSuspended agent false).putAgent agent
          { s.agents agent with active := true }).log
        ⟨msg.timestamp, .agentActivated agent⟩ := by
  simp only [activate, setAgent, setSuspended, emit, bind_eq_ok, loadAgent_eq_ok, get_eq_ok,
    ite_eq_ok, modify_eq_ok, throw_eq_ok] at h
  obtain ⟨_, _, ⟨hknown, ⟨⟩⟩, _, _, ⟨⟩, h⟩ := h
  rcases h with ⟨hadmin, _, _, ⟨⟩, _, _, ⟨⟩, ⟨⟩⟩ | ⟨-, h⟩
  · exact ⟨hknown, .inl hadmin, rfl⟩
  rcases h with ⟨-, _, _, ⟨⟩, -⟩ | ⟨hself, h⟩
  rcases h with ⟨-, _, _, ⟨⟩, -⟩ | ⟨hsuspended, _, _, ⟨⟩, ⟨⟩⟩
  have hfree := Bool.eq_false_iff.mpr hsuspended
  exact ⟨hknown, .inr ⟨not_not.mp hself, hfree⟩, by rw [putSuspended_self hfree]⟩

end Calls

/-! ## One agent -/

/-- What the contract holds about an agent, and its logs about it. -/
structure Dossier where
  record : Agent
  suspended : Bool
  history : List Log

def Storage.history (s : Storage) (agent : Address) : List Log :=
  s.logs.filter fun lg => lg.event.agent = agent

def Storage.dossier (s : Storage) (agent : Address) : Dossier :=
  ⟨s.agents agent, s.suspended agent, s.history agent⟩

/-- What a call that goes through does to an agent. -/
inductive DossierStep (l : Label) (byAdmin : Bool) (agent : Address) (d : Dossier) :
    Dossier → Prop where
  | same : DossierStep l byAdmin agent d d
  | registered {digest : Bytes32} {name version : Bytes} (hagent : agent ≠ 0)
      (hself : l.msg.sender = agent) (hnew : d.record.controller = 0) :
      DossierStep l byAdmin agent d
        ⟨⟨agent, digest, name, version, 0, l.msg.timestamp, true⟩, d.suspended,
          d.history ++ [⟨l.msg.timestamp, .agentRegistered agent agent digest name version⟩]⟩
  | rotated {digest : Bytes32} (hknown : d.record.controller ≠ 0)
      (hself : l.msg.sender = d.record.controller) :
      DossierStep l byAdmin agent d
        ⟨{ d.record with credentialDigest := digest }, d.suspended,
          d.history ++ [⟨l.msg.timestamp, .agentCredentialRotated agent digest⟩]⟩
  | adjusted {delta : Uint256} (hadmin : byAdmin = true) (hknown : d.record.controller ≠ 0)
      (hroom : ¬ d.record.reputationScore.saddOverflow delta = true) :
      DossierStep l byAdmin agent d
        ⟨{ d.record with reputationScore := d.record.reputationScore + delta }, d.suspended,
          d.history ++ [⟨l.msg.timestamp, .agentReputationAdjusted agent delta
            (d.record.reputationScore + delta)⟩]⟩
  | deactivated (hknown : d.record.controller ≠ 0)
      (hby : l.msg.sender = d.record.controller ∨ byAdmin = true) :
      DossierStep l byAdmin agent d
        ⟨{ d.record with active := false }, d.suspended || byAdmin,
          d.history ++ [⟨l.msg.timestamp, .agentDeactivated agent⟩]⟩
  | activated (haction : l.action = .activate agent) (hknown : d.record.controller ≠ 0)
      (hby : byAdmin = true ∨ l.msg.sender = d.record.controller ∧ d.suspended = false) :
      DossierStep l byAdmin agent d
        ⟨{ d.record with active := true }, false,
          d.history ++ [⟨l.msg.timestamp, .agentActivated agent⟩]⟩

section Step

variable {l : Label} {agent x : Address} {s s' : Storage} {a : Agent} {lg : Log} {b : Bool}

theorem dossier_put_self (agent : Address) (h : lg.event.agent = agent) :
    ((s.putAgent agent a).log lg).dossier agent =
      ⟨a, s.suspended agent, s.history agent ++ [lg]⟩ := by
  simp [Storage.dossier, Storage.history, h]

theorem dossier_put_of_ne (hne : agent ≠ x) (h : lg.event.agent = x) :
    ((s.putAgent x a).log lg).dossier agent = s.dossier agent := by
  simp [Storage.dossier, Storage.history, h, hne, hne.symm]

theorem dossier_suspend_self (agent : Address) (h : lg.event.agent = agent) :
    (((s.putSuspended agent b).putAgent agent a).log lg).dossier agent =
      ⟨a, b, s.history agent ++ [lg]⟩ := by
  simp [Storage.dossier, Storage.history, h]

theorem dossier_suspend_of_ne (hne : agent ≠ x) (h : lg.event.agent = x) :
    (((s.putSuspended x b).putAgent x a).log lg).dossier agent = s.dossier agent := by
  rw [dossier_put_of_ne hne h]
  simp [Storage.dossier, Storage.history, hne]

theorem dossier_accessCall {m : Tx AgentRevert (AccessControl Bytes32 Address) Unit} {u : Unit}
    (h : accessCall m s = .ok (u, s')) (agent : Address) : s'.dossier agent = s.dossier agent := by
  obtain ⟨_, -, rfl⟩ := accessCall_eq_ok.mp h
  rfl

theorem dossier_step (h : dispatch l.msg l.action s = .ok ((), s')) (agent : Address) :
    DossierStep l (s.hasRole .agentAdmin l.msg.sender) agent (s.dossier agent)
      (s'.dossier agent) := by
  obtain ⟨msg, action⟩ := l
  cases action with
  | registerAgent x digest name version =>
      obtain ⟨hagent, hself, hnew, rfl⟩ := registerAgent_ok h
      rcases eq_or_ne agent x with rfl | hne
      · rw [dossier_put_self agent rfl]
        exact .registered hagent hself hnew
      · rw [dossier_put_of_ne hne rfl]
        exact .same
  | rotateCredential x digest =>
      obtain ⟨hknown, hself, rfl⟩ := rotateCredential_ok h
      rcases eq_or_ne agent x with rfl | hne
      · rw [dossier_put_self agent rfl]
        exact .rotated hknown hself
      · rw [dossier_put_of_ne hne rfl]
        exact .same
  | adjustReputation x delta =>
      obtain ⟨hadmin, hknown, hroom, rfl⟩ := adjustReputation_ok h
      rcases eq_or_ne agent x with rfl | hne
      · rw [dossier_put_self agent rfl]
        exact .adjusted hadmin hknown hroom
      · rw [dossier_put_of_ne hne rfl]
        exact .same
  | deactivate x =>
      obtain ⟨hknown, hby, rfl⟩ := deactivate_ok h
      rcases eq_or_ne agent x with rfl | hne
      · rw [dossier_suspend_self agent rfl]
        exact .deactivated hknown hby
      · rw [dossier_suspend_of_ne hne rfl]
        exact .same
  | activate x =>
      obtain ⟨hknown, hby, rfl⟩ := activate_ok h
      rcases eq_or_ne agent x with rfl | hne
      · rw [dossier_suspend_self agent rfl]
        exact .activated rfl hknown hby
      · rw [dossier_suspend_of_ne hne rfl]
        exact .same
  | grantRole role account =>
      rw [dossier_accessCall h]
      exact .same
  | revokeRole role account =>
      rw [dossier_accessCall h]
      exact .same
  | renounceRole role callerConfirmation =>
      rw [dossier_accessCall h]
      exact .same

end Step

/-! ## What the logs say -/

/-- A reader's record of an agent after one more log about it. -/
def Agent.after (a : Agent) (lg : Log) : Agent :=
  match lg.event with
  | .agentRegistered _ controller credentialDigest name version =>
      ⟨controller, credentialDigest, name, version, 0, lg.time, true⟩
  | .agentCredentialRotated _ newCredentialDigest =>
      { a with credentialDigest := newCredentialDigest }
  | .agentReputationAdjusted _ _ newScore => { a with reputationScore := newScore }
  | .agentDeactivated _ => { a with active := false }
  | .agentActivated _ => { a with active := true }

def recordOf (history : List Log) : Agent := history.foldl Agent.after noAgent

theorem recordOf_concat (history : List Log) (lg : Log) :
    recordOf (history ++ [lg]) = (recordOf history).after lg := List.foldl_concat ..

def Event.delta : Event → Int
  | .agentReputationAdjusted _ delta _ => delta.toInt
  | _ => 0

/-- The sum of the adjustments, which no word bounds. -/
def reputationOf (history : List Log) : Int := (history.map fun lg => lg.event.delta).sum

theorem reputationOf_concat (history : List Log) (lg : Log) :
    reputationOf (history ++ [lg]) = reputationOf history + lg.event.delta := by
  simp [reputationOf]

/-- The record is what the logs say. No log tells who suspended, but the suspended are inactive. -/
structure Dossier.Sound (agent : Address) (d : Dossier) : Prop where
  record : d.record = recordOf d.history
  score : d.record.reputationScore.toInt = reputationOf d.history
  inactive : d.suspended = true → d.record.active = false
  own : d.record.controller ≠ 0 → d.record.controller = agent
  blank : d.record.controller = 0 → d.suspended = false ∧ d.history = []

section Sound

variable {l : Label} {byAdmin b : Bool} {agent admin : Address} {d d' : Dossier} {a : Agent}
  {lg : Log}

theorem sound_initialized : ((initialized admin).dossier agent).Sound agent where
  record := rfl
  score := rfl
  inactive _ := rfl
  own h := absurd rfl h
  blank _ := ⟨rfl, rfl⟩

/-- One more log about an agent that is registered. -/
theorem Dossier.Sound.concat (hd : d.Sound agent) (hknown : d.record.controller ≠ 0)
    (hkept : a.controller = d.record.controller) (hrecord : a = d.record.after lg)
    (hscore : a.reputationScore.toInt = d.record.reputationScore.toInt + lg.event.delta)
    (hinactive : b = true → a.active = false) :
    Dossier.Sound agent ⟨a, b, d.history ++ [lg]⟩ where
  record := by rw [recordOf_concat, ← hd.record, ← hrecord]
  score := by rw [reputationOf_concat, ← hd.score, ← hscore]
  inactive := hinactive
  own _ := hkept.trans (hd.own hknown)
  blank hzero := absurd (hkept.symm.trans hzero) hknown

theorem DossierStep.sound (h : DossierStep l byAdmin agent d d') (hd : d.Sound agent) :
    d'.Sound agent := by
  cases h with
  | same => exact hd
  | registered hagent hself hnew =>
      -- The first log about the agent: before it there is no record and no suspension.
      obtain ⟨hfree, hnone⟩ := hd.blank hnew
      constructor
      case record => rw [recordOf_concat]; rfl
      case score => rw [reputationOf_concat, hnone]; rfl
      case inactive => exact fun h => absurd (hfree.symm.trans h) Bool.false_ne_true
      case own => exact fun _ => rfl
      case blank => exact fun h => absurd h hagent
  | rotated hknown hself =>
      exact hd.concat hknown rfl rfl (Int.add_zero _).symm hd.inactive
  | adjusted hadmin hknown hroom =>
      exact hd.concat hknown rfl rfl (BitVec.toInt_add_of_not_saddOverflow hroom) hd.inactive
  | deactivated hknown hby =>
      exact hd.concat hknown rfl rfl (Int.add_zero _).symm fun _ => rfl
  | activated haction hknown hby =>
      have hfree : false = true → true = false := fun h => h.symm
      exact hd.concat hknown rfl rfl (Int.add_zero _).symm hfree

end Sound

/-! ## Runs -/

section Steps

variable {l : Label} {byAdmin : Bool} {agent admin : Address} {d d' : Dossier} {s : Storage}

/-- What a transaction does to an agent, reverting or not. -/
theorem step_dossier (s : Storage) (l : Label) (agent : Address) :
    DossierStep l (s.hasRole .agentAdmin l.msg.sender) agent (s.dossier agent)
      ((step s l).dossier agent) := by
  refine commit_cases (P := fun s' : Storage => DossierStep l _ agent (s.dossier agent)
    (s'.dossier agent)) .same ?_
  intro u s' h
  exact dossier_step h agent

theorem sound_stateAt (ls : List Label) (n : Nat) :
    ((stateAt step (initialized admin) ls n).dossier agent).Sound agent :=
  stateAt_induct (P := fun s : Storage => (s.dossier agent).Sound agent) sound_initialized
    (fun _ l _ _ hd => (step_dossier _ l agent).sound hd) (Nat.zero_le n)

/-- An agent is touched by itself and by agent admins only. -/
theorem DossierStep.authority (h : DossierStep l byAdmin agent d d') (hd : d.Sound agent)
    (hne : d' ≠ d) : l.msg.sender = agent ∨ byAdmin = true := by
  cases h with
  | same => exact absurd rfl hne
  | registered hagent hself hnew => exact .inl hself
  | rotated hknown hself => exact .inl (hself.trans (hd.own hknown))
  | adjusted hadmin hknown hroom => exact .inr hadmin
  | deactivated hknown hby => exact hby.imp_left fun hself => hself.trans (hd.own hknown)
  | activated haction hknown hby =>
      rcases hby with hadmin | ⟨hself, -⟩
      · exact .inr hadmin
      · exact .inl (hself.trans (hd.own hknown))

theorem DossierStep.suspended (h : DossierStep l byAdmin agent d d') (hd : d.suspended = true)
    (hno : l.action = .activate agent → byAdmin = false) : d'.suspended = true := by
  cases h with
  | same => exact hd
  | registered hagent hself hnew => exact hd
  | rotated hknown hself => exact hd
  | adjusted hadmin hknown hroom => exact hd
  | deactivated hknown hby => exact (congrArg (· || byAdmin) hd).trans (Bool.true_or _)
  | activated haction hknown hby =>
      rcases hby with hadmin | ⟨-, hfree⟩
      · exact absurd ((hno haction).symm.trans hadmin) Bool.false_ne_true
      · exact absurd (hfree.symm.trans hd) Bool.false_ne_true

/-- `isActive` asks for more than the flag of the record, and the flag implies it. -/
theorem Dossier.Sound.isActive (h : (s.dossier agent).Sound agent) :
    s.isActive agent = (s.agents agent).active := by
  cases hactive : (s.agents agent).active with
  | false => simp [Storage.isActive, hactive]
  | true =>
      have hfree : s.suspended agent = false := by
        by_contra hsuspended
        have hflag := h.inactive (Bool.eq_true_of_not_eq_false hsuspended)
        exact absurd (hflag.symm.trans hactive) Bool.false_ne_true
      have hknown : (s.agents agent).controller ≠ 0 := by
        intro hzero
        have hrecord : s.agents agent = recordOf (s.history agent) := h.record
        have hnone : s.history agent = [] := (h.blank hzero).2
        rw [hrecord, hnone] at hactive
        cases hactive
      rw [Storage.isActive, hactive, hfree, bne_iff_ne.mpr hknown]
      rfl

end Steps

/-- The views of an agent can be told from its logs. -/
structure Storage.Told (s : Storage) (agent : Address) : Prop where
  getAgent : s.getAgent agent = recordOf (s.history agent)
  reputation : (s.getAgent agent).reputationScore.toInt = reputationOf (s.history agent)
  isActive : s.isActive agent = (recordOf (s.history agent)).active

/-- In every run: the views are told by the logs; only the agent and the agent admins touch an
agent; and who is suspended stays out until an agent admin activates it. -/
theorem agent_record (admin agent : Address) (ls : List Label) :
    (∀ n, (stateAt step (initialized admin) ls n).Told agent) ∧
    (∀ n l, ls[n]? = some l →
      (stateAt step (initialized admin) ls (n + 1)).dossier agent ≠
        (stateAt step (initialized admin) ls n).dossier agent →
      l.msg.sender = agent ∨
        (stateAt step (initialized admin) ls n).hasRole .agentAdmin l.msg.sender = true) ∧
    ∀ m n, m ≤ n → (stateAt step (initialized admin) ls m).isSuspended agent = true →
      (∀ k l, m ≤ k → k < n → ls[k]? = some l → l.action = .activate agent →
        (stateAt step (initialized admin) ls k).hasRole .agentAdmin l.msg.sender = false) →
      (stateAt step (initialized admin) ls n).isSuspended agent = true ∧
        (stateAt step (initialized admin) ls n).isActive agent = false := by
  have hsound : ∀ n, ((stateAt step (initialized admin) ls n).dossier agent).Sound agent :=
    sound_stateAt ls
  refine ⟨fun n => ?_, fun n l hl hne => ?_, fun m n hmn hm hno => ?_⟩
  · exact ⟨(hsound n).record, (hsound n).score,
      (hsound n).isActive.trans (congrArg Agent.active (hsound n).record)⟩
  · rw [stateAt_succ step _ hl] at hne
    exact (step_dossier _ l agent).authority (hsound n) hne
  · have hsuspended : ((stateAt step (initialized admin) ls n).dossier agent).suspended = true := by
      induction n, hmn using Nat.le_induction with
      | base => exact hm
      | succ n hmn ih =>
          have hn := ih fun k l hk hkn => hno k l hk (Nat.lt_succ_of_lt hkn)
          cases hl : ls[n]? with
          | none => rwa [stateAt_of_none step _ hl]
          | some l =>
              rw [stateAt_succ step _ hl]
              exact (step_dossier _ l agent).suspended hn (hno n l hmn (Nat.lt_succ_self n) hl)
    exact ⟨hsuspended, (hsound n).isActive.trans ((hsound n).inactive hsuspended)⟩

example : (exec step (initialized 1) [⟨⟨2, 10⟩, .registerAgent 2 0 [] []⟩,
    ⟨⟨1, 20⟩, .deactivate 2⟩, ⟨⟨2, 30⟩, .activate 2⟩]).isSuspended 2 = true := by
  rfl

end Strimz.AgentRegistry
