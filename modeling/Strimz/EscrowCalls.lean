import Strimz.EscrowJobs
import Strimz.Runs
import Strimz.TokenLaws

/-!
# Calls that call back

While the escrow waits for a token, whoever the token lets run can call the escrow again
and change everything outside it. The guarded functions then revert
(`dispatch_entered`), so all that comes of it is free steps of the jobs and changes
outside that keep their hands off the escrow's balance (`Between`).

The laws are relative to `R`: `≤` when others may send tokens to the escrow, `=` when
nobody does.
-/

namespace Strimz.AgentEscrow

open Tx Relation Ledger Runs

/-- An order on amounts that adding does not disturb. -/
structure Slack (R : Nat → Nat → Prop) : Prop where
  refl : ∀ a, R a a
  trans : ∀ {a b c}, R a b → R b c → R a c
  add : ∀ {a b} n, R a b → R (a + n) (b + n)
  cancel : ∀ {a b} n, R (a + n) (b + n) → R a b

theorem slack_le : Slack (· ≤ ·) :=
  ⟨Nat.le_refl, Nat.le_trans, fun n h => Nat.add_le_add_right h n,
    fun _ h => Nat.le_of_add_le_add_right h⟩

theorem slack_eq : Slack (· = ·) :=
  ⟨fun _ => rfl, Eq.trans, fun n h => congrArg (· + n) h, fun _ h => Nat.add_right_cancel h⟩

section Laws

variable {ξ : Type}

/-- A call by someone else: the escrow does not call itself, and nobody but the escrow
moves its tokens. -/
structure Foreign (R : Nat → Nat → Prop) (this : Address) (balance : ξ → Address → Address → Nat)
    (l : Label ξ) : Prop where
  sender : l.msg.sender ≠ this
  external : ∀ f, l.action = .external f →
    ∀ x token, R (balance x token this) (balance (f x) token this)

/-- A transfer that went through: calls by others, the move of exactly the asked value,
and calls by others again, all in one block. -/
def Transfers (R : Nat → Nat → Prop) (O : Outside ξ) (this : Address)
    (balance : ξ → Address → Address → Nat) (timestamp : Uint64) (token src dst : Address)
    (value : Uint256) (c c' : Ctx Storage ξ) : Prop :=
  ∃ before after x, (∀ l ∈ before ++ after, Foreign R this balance l ∧ l.msg.timestamp = timestamp) ∧
    Moved balance (exec (step O this) c before).ext x token src dst value ∧
    c' = exec (step O this) ⟨(exec (step O this) c before).storage, x⟩ after

/-- A token that moves exactly the asked value or reverts, and may let others call the
escrow before and after it does. -/
structure CallbackToken (R : Nat → Nat → Prop) (O : Outside ξ) (this : Address)
    (balance : ξ → Address → Address → Nat) : Prop where
  balanceOf : ∀ token a x, ∃ b, O.balanceOf token a x = .ok b ∧ b.toNat = balance x token a
  safeTransfer : ∀ {msg token dst value c c'},
    O.safeTransfer msg token dst value c = .ok c' →
      Transfers R O this balance msg.timestamp token msg.sender dst value c c'
  safeTransferFrom : ∀ {msg token src dst value c c'},
    O.safeTransferFrom msg token src dst value c = .ok c' →
      Transfers R O this balance msg.timestamp token src dst value c c'

end Laws

/-- No job has an id that was not handed out. -/
def Fresh (s : Storage) : Prop := ∀ id, s.nextJobId ≤ id → s.record id = noRecord

theorem Fresh.lt {s : Storage} (h : Fresh s) {id : Nat} (hid : (s.record id).job.status ≠ .none) :
    id < s.nextJobId := by
  rw [← Nat.not_le]
  intro hle
  rw [h id hle] at hid
  exact hid rfl

/-- What the free steps and the calls of others leave between two moments, `inn` having
come into the escrow and `out` having left it meanwhile. -/
structure Between {ξ : Type} (R : Nat → Nat → Prop) (this : Address)
    (balance : ξ → Address → Address → Nat) (timestamp : Uint64) (inn out : Address → Nat)
    (c c' : Ctx Storage ξ) : Prop where
  entered : c'.storage.entered = c.storage.entered
  next : c.storage.nextJobId ≤ c'.storage.nextJobId
  fresh : Fresh c'.storage
  records : ∀ id, ReflTransGen (FreeStep this timestamp) (c.storage.record id)
    (c'.storage.record id)
  balances : ∀ token, R (balance c.ext token this + inn token)
    (balance c'.ext token this + out token)

section Steps

variable {ξ α : Type} {R : Nat → Nat → Prop} {O : Outside ξ} {this : Address}
  {balance : ξ → Address → Address → Nat} {timestamp : Uint64} {inn out inn' out' : Address → Nat}
  {c c₁ c' : Ctx Storage ξ} {l : Label ξ} {ls : List (Label ξ)}

theorem Between.refl (hR : Slack R) (h : Fresh c.storage) :
    Between R this balance timestamp 0 0 c c :=
  ⟨rfl, Nat.le_refl _, h, fun _ => .refl, fun _ => hR.refl _⟩

theorem Between.trans (hR : Slack R) (h : Between R this balance timestamp inn out c c₁)
    (h' : Between R this balance timestamp inn' out' c₁ c') :
    Between R this balance timestamp (inn + inn') (out + out') c c' where
  entered := h'.entered.trans h.entered
  next := Nat.le_trans h.next h'.next
  fresh := h'.fresh
  records id := (h.records id).trans (h'.records id)
  balances token := by
    have h₁ := hR.add (inn' token) (h.balances token)
    have h₂ := hR.add (out token) (h'.balances token)
    rw [Pi.add_apply, Pi.add_apply, ← Nat.add_assoc, ← Nat.add_assoc]
    rw [Nat.add_right_comm] at h₂
    rw [Nat.add_right_comm (balance c'.ext token this)]
    exact hR.trans h₁ h₂

/-- A call that takes one job one free step along. -/
theorem between_of_step (hR : Slack R) (hfresh : Fresh c.storage) {s : Storage} (id : Nat)
    (hentered : s.entered = c.storage.entered) (hnext : c.storage.nextJobId ≤ s.nextJobId)
    (hid : id < s.nextJobId) (hothers : ∀ j ≠ id, s.record j = c.storage.record j)
    (hstep : FreeStep this timestamp (c.storage.record id) (s.record id)) :
    Between R this balance timestamp 0 0 c ⟨s, c.ext⟩ where
  entered := hentered
  next := hnext
  fresh j hj := by
    rw [hothers j (by rintro rfl; exact absurd hid (Nat.not_lt.mpr hj))]
    exact hfresh j (Nat.le_trans hnext hj)
  records j := by
    by_cases hj : j = id
    · subst hj
      exact .single hstep
    · rw [hothers j hj]
  balances _ := hR.refl _

/-- A call that leaves the jobs alone. -/
theorem between_of_same (hfresh : Fresh c.storage)
    (hentered : c'.storage.entered = c.storage.entered)
    (hnext : c'.storage.nextJobId = c.storage.nextJobId)
    (hrecords : ∀ j, c'.storage.record j = c.storage.record j)
    (hbalances : ∀ token, R (balance c.ext token this) (balance c'.ext token this)) :
    Between R this balance timestamp 0 0 c c' where
  entered := hentered
  next := Nat.le_of_eq hnext.symm
  fresh j hj := by
    rw [hrecords]
    exact hfresh j (hnext ▸ hj)
  records j := by rw [hrecords]
  balances := hbalances

/-! ## The unguarded functions -/

section Inversion

variable {id : Nat} {msg : Msg}

theorem readJob_eq_ok {r : Job × Ctx Storage ξ} :
    readJob id c = .ok r ↔ r = (c.storage.jobs id, c) := by
  simp only [readJob, bind_eq_ok, sload_eq_ok, pure_eq_ok, Prod.mk.injEq, existsAndEq, true_and]

theorem loadJob_eq_ok {r : Job × Ctx Storage ξ} :
    loadJob id c = .ok r ↔ (c.storage.jobs id).client ≠ 0 ∧ r = (c.storage.jobs id, c) := by
  simp only [loadJob, bind_eq_ok, readJob_eq_ok, revertIf_eq_ok, pure_eq_ok, Prod.mk.injEq,
    existsAndEq, exists_const, true_and, and_true, ne_eq]

theorem emit_eq_ok {e : Event} {r : Unit × Ctx Storage ξ} :
    emit e c = .ok r ↔ r = ((), ⟨c.storage.log e, c.ext⟩) := sstore_eq_ok

/-- `_setStatus` on the storage. -/
@[simps!]
def Storage.setStatus (s : Storage) (jobId : Nat) (next : JobStatus) (timestamp : Uint64) :
    Storage :=
  (s.updateJob jobId (Job.moved next timestamp)).addChange jobId next

theorem setStatus_eq_ok {next : JobStatus} {r : Unit × Ctx Storage ξ} :
    setStatus msg id next c = .ok r ↔
      r = ((), ⟨c.storage.setStatus id next msg.timestamp, c.ext⟩) := by
  simp only [AgentEscrow.setStatus, bind_eq_ok, sstore_eq_ok, Prod.mk.injEq, existsAndEq,
    exists_const, true_and]
  rfl

theorem setCompletedAt_eq_ok {r : Unit × Ctx Storage ξ} :
    setCompletedAt msg id c = .ok r ↔
      r = ((), ⟨c.storage.updateJob id (Job.stamped msg.timestamp), c.ext⟩) := sstore_eq_ok

end Inversion

/-! ## Records under the writes -/

section Records

variable (s : Storage) {id j : Nat} (next : JobStatus)

@[simp] theorem record_log (e : Event) : (s.log e).record j = s.record j := rfl

@[simp] theorem record_setEntered (entered : Bool) :
    (s.setEntered entered).record j = s.record j := rfl

@[simp] theorem record_putNextId (n : Nat) : (s.putNextId n).record j = s.record j := rfl

@[simp] theorem record_setStatus :
    (s.setStatus id next timestamp).record id = (s.record id).move next timestamp := by
  simp [Storage.record, Record.move]

@[simp] theorem record_setStatus_of_ne (h : j ≠ id) :
    (s.setStatus id next timestamp).record j = s.record j := by
  simp [Storage.record, h]

@[simp] theorem record_updateJob_of_ne (f : Job → Job) (h : j ≠ id) :
    (s.updateJob id f).record j = s.record j := by
  simp [Storage.record, h]

@[simp] theorem record_delivering (deliverableHash : Bytes32) :
    (s.updateJob id (Job.delivering deliverableHash)).record id =
      (s.record id).deliver deliverableHash := by
  simp [Storage.record, Record.deliver]

@[simp] theorem record_stamped :
    ((s.setStatus id next timestamp).updateJob id (Job.stamped timestamp)).record id =
      (s.record id).close next timestamp := by
  simp [Storage.record, Record.close]

@[simp] theorem record_putDisputedFrom :
    (s.putDisputedFrom id (s.jobs id).status).record id = (s.record id).markDisputed := by
  simp [Storage.record, Record.markDisputed]

@[simp] theorem record_putDisputedFrom_of_ne (status : JobStatus) (h : j ≠ id) :
    (s.putDisputedFrom id status).record j = s.record j := by
  simp [Storage.record, h]

@[simp] theorem record_addFunding (from_ : Address) (amount : Uint256) :
    (s.addFunding id from_ amount).record id = (s.record id).fund from_ amount := by
  simp [Storage.record, Record.fund]

@[simp] theorem record_addFunding_of_ne (from_ : Address) (amount : Uint256) (h : j ≠ id) :
    (s.addFunding id from_ amount).record j = s.record j := by
  simp [Storage.record, h]

@[simp] theorem record_addPayout (to_ : Address) (amount : Uint256) :
    (s.addPayout id to_ amount).record id = (s.record id).pay to_ amount := by
  simp [Storage.record, Record.pay]

@[simp] theorem record_addPayout_of_ne (to_ : Address) (amount : Uint256) (h : j ≠ id) :
    (s.addPayout id to_ amount).record j = s.record j := by
  simp [Storage.record, h]

theorem record_newJob (job : Job) (h : s.record id = noRecord) :
    (s.updateJob id fun _ => job).record id = { noRecord with job := job } := by
  simp only [Storage.record, noRecord, Record.mk.injEq] at h ⊢
  simp [h.2.1, h.2.2.1, h.2.2.2.1, h.2.2.2.2]

end Records

/-! ## What a call by someone else leaves -/

/-- The job a guarded call is about. -/
def Action.guards : Action ξ → Option Nat
  | .fundJob id => some id
  | .approveAndRelease id => some id
  | .cancelJob id _ => some id
  | .resolveDispute id _ _ => some id
  | .reclaimAfterTimeout id => some id
  | _ => none

section Unguarded

variable {msg : Msg} {id : Nat}

theorem createJob_between (hR : Slack R) (hfresh : Fresh c.storage) (hsender : msg.sender ≠ this)
    {vendor assessor token : Address} {amount : Uint256} {description : String}
    (h : createJob O msg vendor assessor token amount description c = .ok (id, c')) :
    Between R this balance msg.timestamp 0 0 c c' := by
  simp only [createJob, bind_eq_ok, sload_eq_ok, whenNotPaused_eq_ok, revertIf_eq_ok,
    staticcall_eq_ok, sstore_eq_ok, emit_eq_ok, pure_eq_ok, Prod.mk.injEq, existsAndEq,
    exists_const, true_and, and_true, not_or] at h
  obtain ⟨-, hamount, ⟨hvendor, -⟩, hneutral, _, -, -, rfl, rfl⟩ := h
  refine between_of_step hR hfresh c.storage.nextJobId rfl (Nat.le_succ _)
    (Nat.lt_succ_self _) (fun j hj => by simp [hj]) ?_
  have hblank := hfresh _ (Nat.le_refl _)
  rw [record_log, record_newJob (c.storage.putNextId (c.storage.nextJobId + 1)) _ hblank, hblank]
  exact .created hsender hamount hvendor hneutral

theorem startJob_between (hR : Slack R) (hfresh : Fresh c.storage) (hsender : msg.sender ≠ this)
    (h : startJob msg id c = .ok ((), c')) : Between R this balance msg.timestamp 0 0 c c' := by
  simp only [startJob, bind_eq_ok, loadJob_eq_ok, revertIf_eq_ok, setStatus_eq_ok, emit_eq_ok,
    Prod.mk.injEq, existsAndEq, exists_const, true_and, and_true, ne_eq, not_not] at h
  obtain ⟨-, hvendor, hstatus, rfl⟩ := h
  refine between_of_step hR hfresh id rfl (Nat.le_refl _) (hfresh.lt ?_)
    (fun j hj => by simp [hj]) ?_
  · rw [Storage.record, hstatus]
    decide
  · rw [record_log, record_setStatus]
    exact .started hstatus (hvendor ▸ hsender)

theorem submitDeliverable_between (hR : Slack R) (hfresh : Fresh c.storage)
    {deliverableHash : Bytes32} (h : submitDeliverable msg id deliverableHash c = .ok ((), c')) :
    Between R this balance msg.timestamp 0 0 c c' := by
  simp only [submitDeliverable, bind_eq_ok, loadJob_eq_ok, revertIf_eq_ok, setStatus_eq_ok,
    sstore_eq_ok, emit_eq_ok, Prod.mk.injEq, existsAndEq, exists_const, true_and, and_true,
    ne_eq, not_not] at h
  obtain ⟨-, -, hstatus, rfl⟩ := h
  refine between_of_step hR hfresh id rfl (Nat.le_refl _) (hfresh.lt ?_)
    (fun j hj => by simp [hj]) ?_
  · rw [Storage.record, hstatus]
    decide
  · rw [record_log, record_setStatus, record_delivering]
    exact .delivered hstatus deliverableHash

theorem dispute_between (hR : Slack R) (hfresh : Fresh c.storage) {reason : String}
    (h : dispute msg id reason c = .ok ((), c')) :
    Between R this balance msg.timestamp 0 0 c c' := by
  simp only [dispute, bind_eq_ok, loadJob_eq_ok, revertIf_eq_ok, setStatus_eq_ok,
    sstore_eq_ok, emit_eq_ok, Prod.mk.injEq, existsAndEq, exists_const, true_and, and_true,
    ne_eq, not_and_or, not_not] at h
  obtain ⟨-, -, hstatus, rfl⟩ := h
  refine between_of_step hR hfresh id rfl (Nat.le_refl _) (hfresh.lt ?_)
    (fun j hj => by simp [hj]) ?_
  · rcases hstatus with hstatus | hstatus <;> rw [Storage.record, hstatus] <;> decide
  · rw [record_log, record_setStatus, record_putDisputedFrom]
    exact .disputed hstatus

/-- A call that is not guarded takes some job a free step along, or no job at all. -/
theorem dispatch_between (hR : Slack R) (hl : Foreign R this balance l)
    (hguards : l.action.guards = none) (hfresh : Fresh c.storage)
    (h : dispatch O this l.msg l.action c = .ok ((), c')) :
    Between R this balance l.msg.timestamp 0 0 c c' := by
  obtain ⟨msg, action⟩ := l
  cases action with
  | createJob vendor assessor token amount description =>
      simp only [dispatch, bind_eq_ok, pure_eq_ok, Prod.mk.injEq, true_and] at h
      obtain ⟨_, _, h, rfl⟩ := h
      exact createJob_between hR hfresh hl.sender h
  | startJob id => exact startJob_between hR hfresh hl.sender h
  | submitDeliverable id deliverableHash => exact submitDeliverable_between hR hfresh h
  | dispute id reason => exact dispute_between hR hfresh h
  | pause =>
      simp only [dispatch, pause, bind_eq_ok, sload_eq_ok, onlyRole_eq_ok, whenNotPaused_eq_ok,
        sstore_eq_ok, Prod.mk.injEq, existsAndEq, exists_const, true_and, and_true] at h
      obtain ⟨-, -, rfl⟩ := h
      exact between_of_same hfresh rfl rfl (fun _ => rfl) fun _ => hR.refl _
  | unpause =>
      simp only [dispatch, unpause, bind_eq_ok, sload_eq_ok, onlyRole_eq_ok, whenPaused_eq_ok,
        sstore_eq_ok, Prod.mk.injEq, existsAndEq, exists_const, true_and, and_true] at h
      obtain ⟨-, -, rfl⟩ := h
      exact between_of_same hfresh rfl rfl (fun _ => rfl) fun _ => hR.refl _
  | setTokenWhitelist v =>
      simp only [dispatch, setTokenWhitelist, bind_eq_ok, sload_eq_ok, onlyRole_eq_ok,
        whenPaused_eq_ok, revertIf_eq_ok, sstore_eq_ok, emit_eq_ok, Prod.mk.injEq, existsAndEq,
        exists_const, true_and, and_true] at h
      obtain ⟨-, -, -, rfl⟩ := h
      exact between_of_same hfresh rfl rfl (fun _ => rfl) fun _ => hR.refl _
  | setRoles hasRole =>
      simp only [dispatch, sstore_eq_ok, Prod.mk.injEq, true_and] at h
      subst h
      exact between_of_same hfresh rfl rfl (fun _ => rfl) fun _ => hR.refl _
  | external f =>
      simp only [dispatch, modify_eq_ok, Prod.mk.injEq, true_and] at h
      subst h
      exact between_of_same hfresh rfl rfl (fun _ => rfl) fun token => hl.external f rfl _ token
  | fundJob _ | approveAndRelease _ | cancelJob _ _ | resolveDispute _ _ _
  | reclaimAfterTimeout _ => cases hguards

end Unguarded

/-! ## While the escrow waits -/

theorem nonReentrant_entered {body : Call ξ α} {a : α} (hentered : c.storage.entered = true) :
    nonReentrant body c ≠ .ok (a, c') := by
  intro h
  rw [(guarded_eq_ok.mp h).1] at hentered
  cases hentered

/-- The guarded functions do not run while another one waits. -/
theorem dispatch_entered (hentered : c.storage.entered = true) (hguards : l.action.guards ≠ none) :
    dispatch O this l.msg l.action c ≠ .ok ((), c') := by
  obtain ⟨msg, action⟩ := l
  cases action with
  | fundJob id =>
      intro h
      simp only [dispatch, fundJob, bind_eq_ok, sload_eq_ok, whenNotPaused_eq_ok, Prod.mk.injEq,
        existsAndEq, exists_const, true_and] at h
      exact nonReentrant_entered hentered h.2
  | approveAndRelease id => exact nonReentrant_entered hentered
  | cancelJob id reason => exact nonReentrant_entered hentered
  | resolveDispute id toVendor toClient =>
      intro h
      simp only [dispatch, resolveDispute, bind_eq_ok, sload_eq_ok, onlyRole_eq_ok, Prod.mk.injEq,
        existsAndEq, exists_const, true_and] at h
      exact nonReentrant_entered hentered h.2
  | reclaimAfterTimeout id => exact nonReentrant_entered hentered
  | _ => exact absurd rfl hguards

theorem step_between (hR : Slack R) (hl : Foreign R this balance l)
    (hentered : c.storage.entered = true) (hfresh : Fresh c.storage) :
    Between R this balance l.msg.timestamp 0 0 c (step O this c l) :=
  commit_cases (.refl hR hfresh) fun _ _ h => by
    refine dispatch_between hR hl ?_ hfresh h
    by_contra hguards
    exact dispatch_entered hentered hguards h

theorem exec_between (hR : Slack R)
    (hls : ∀ l ∈ ls, Foreign R this balance l ∧ l.msg.timestamp = timestamp)
    (hentered : c.storage.entered = true) (hfresh : Fresh c.storage) :
    Between R this balance timestamp 0 0 c (exec (step O this) c ls) := by
  refine exec_invariant (P := Between R this balance timestamp 0 0 c) (.refl hR hfresh)
    fun c₁ l hl h => ?_
  obtain ⟨hforeign, rfl⟩ := hls l hl
  have hstep := step_between (O := O) hR hforeign (h.entered.trans hentered) h.fresh
  simpa using h.trans hR hstep

/-- A transfer of a token between two accounts, and whatever happened around it. -/
theorem Transfers.between (hR : Slack R) {token src dst : Address} {value : Uint256}
    (h : Transfers R O this balance timestamp token src dst value c c')
    (hentered : c.storage.entered = true) (hfresh : Fresh c.storage) :
    Between R this balance timestamp (fun t => at_ token t (at_ dst this value.toNat))
      (fun t => at_ token t (at_ src this value.toNat)) c c' := by
  obtain ⟨before, after, x, hls, hmoved, rfl⟩ := h
  have hbefore := exec_between (O := O) hR
    (fun l hl => hls l (List.mem_append_left _ hl)) hentered hfresh
  have hmove : Between R this balance timestamp (fun t => at_ token t (at_ dst this value.toNat))
      (fun t => at_ token t (at_ src this value.toNat)) (exec (step O this) c before)
      ⟨(exec (step O this) c before).storage, x⟩ := by
    refine ⟨rfl, Nat.le_refl _, hbefore.fresh, fun _ => .refl, fun t => ?_⟩
    by_cases ht : token = t
    · subst ht
      rw [at_self, at_self, hmoved.add this]
      exact hR.refl _
    · rw [at_of_ne ht, at_of_ne ht, hmoved.other (Ne.symm ht)]
      exact hR.refl _
  have hafter := exec_between (O := O) (c := ⟨(exec (step O this) c before).storage, x⟩) hR
    (fun l hl => hls l (List.mem_append_right _ hl)) (hbefore.entered.trans hentered)
    hbefore.fresh
  simpa using (hbefore.trans hR hmove).trans hR hafter

end Steps

end Strimz.AgentEscrow
