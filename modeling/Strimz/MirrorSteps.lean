import Strimz.DeadLetterSteps
import Strimz.MerchantMirror

/-!
# What a projected registry log does to the rows

One log rewrites each merchant row by `mirror`, and none of the registry's logs is ever parked:
it is projected, or the batch fails (`project_eq_ok`). A linked row reads the entry the way
`Replica.InStep.read` says (`mirror_linked`).
-/

namespace Strimz.MerchantMirror

open Indexer Tx Replica

/-! ## No registry log is parked -/

def ApplyError.Parks : ApplyError → Prop
  | .fault _ => False
  | .unresolvable _ => True

section Parks

variable {α β : Type} {db : Db}

theorem parks_bind {x : Projection α} {f : α → Projection β}
    (hx : ∀ db, Avoids ApplyError.Parks x db) (hf : ∀ a db, Avoids ApplyError.Parks (f a) db) :
    Avoids ApplyError.Parks (x >>= f) db :=
  avoids_bind.mpr ⟨hx db, fun a db' _ => hf a db'⟩

theorem parks_revertIf {c : Prop} [Decidable c] {f : Fault} :
    Avoids ApplyError.Parks (revertIf c (.fault f)) db :=
  avoids_revertIf.mpr fun _ => id

theorem parks_int4Param {n : Nat} : Avoids ApplyError.Parks (int4Param n) db :=
  parks_bind (fun _ => parks_revertIf) fun _ _ => avoids_pure

theorem parks_updateMerchant {id : Nat} {set : MerchantRow → MerchantRow} :
    Avoids ApplyError.Parks (updateMerchant id set) db :=
  parks_bind (fun _ => parks_int4Param) fun _ _ => parks_bind (fun _ => avoids_get) fun _ _ =>
    parks_bind (fun _ => avoids_modify) fun _ _ => avoids_pure

theorem parks_linkOnchainMerchant {id : Nat} {txHash : Bytes32} {fee : OnchainFee} :
    Avoids ApplyError.Parks (linkOnchainMerchant id txHash fee) db :=
  parks_bind (fun _ => parks_int4Param) fun _ _ => parks_bind (fun _ => parks_revertIf) fun _ _ =>
    parks_bind (fun _ => avoids_get) fun _ _ => parks_bind (fun _ => parks_revertIf) fun _ _ =>
      parks_bind (fun _ => avoids_modify) fun _ _ => avoids_pure

theorem parks_insertOnchainAudit {id : AuditId} {merchantId : Option RowId} {e : AuditEntry} :
    Avoids ApplyError.Parks (insertOnchainAudit id merchantId e) db :=
  parks_bind (fun _ => parks_revertIf) fun _ _ => parks_bind (fun _ => parks_revertIf) fun _ _ =>
    parks_bind (fun _ => avoids_get) fun _ _ =>
      avoids_ite.mpr ⟨fun _ => avoids_pure, fun _ => avoids_modify⟩

theorem parks_insertMerchantSecurityAlert {id : AuditId} {merchantId : RowId} :
    Avoids ApplyError.Parks (insertMerchantSecurityAlert id merchantId) db :=
  parks_bind (fun _ => avoids_get) fun _ _ =>
    avoids_ite.mpr ⟨fun _ => avoids_pure, fun _ => avoids_modify⟩

theorem parks_logMerchantGovernance {in_ : MerchantGovernanceInput} :
    Avoids ApplyError.Parks (logMerchantGovernance in_) db := by
  refine parks_bind (fun _ => parks_bind (fun _ => parks_int4Param) fun _ _ =>
    parks_bind (fun _ => avoids_get) fun _ _ => avoids_pure) fun merchant _ => ?_
  refine parks_bind (fun _ => parks_insertOnchainAudit) fun _ _ => ?_
  refine avoids_ite.mpr ⟨fun _ => avoids_pure, fun _ => ?_⟩
  refine parks_bind (fun _ => avoids_modify) fun _ _ => ?_
  cases merchant with
  | none => exact avoids_pure
  | some m => exact parks_insertMerchantSecurityAlert

theorem parks_logMerchantFeeBpsChange {id : Nat} {feeBps : Uint16} {txHash : Bytes32} :
    Avoids ApplyError.Parks (logMerchantFeeBpsChange id feeBps txHash) db :=
  parks_bind (fun _ => parks_revertIf) fun _ _ => parks_bind (fun _ => parks_revertIf) fun _ _ =>
    avoids_modify

/-- A registry log is projected, or the batch fails. -/
theorem parks_apply (p : Projector) (registry : Address) (x : LogEntry) (t : Int) :
    Avoids ApplyError.Parks (p.apply (x.log registry) t) db := by
  obtain ⟨event, at_, offset, blockTime⟩ := x
  cases event with
  | merchantRegistered =>
      exact parks_bind (fun _ => parks_linkOnchainMerchant) fun _ _ => avoids_pure
  | merchantPayoutAddressUpdated | merchantActiveSet =>
      exact parks_bind (fun _ => parks_updateMerchant) fun _ _ => avoids_pure
  | merchantFeeBpsUpdated =>
      exact parks_bind (fun _ => parks_bind (fun _ => parks_revertIf) fun _ _ =>
        parks_updateMerchant) fun _ _ => parks_logMerchantFeeBpsChange
  | merchantPayoutChangeInitiated | merchantPayoutChangeCancelled
  | merchantOwnershipTransferInitiated | merchantOwnershipTransferAccepted
  | merchantOwnershipTransferCancelled => exact parks_logMerchantGovernance
  | merchantFeeIncreaseScheduled | merchantFeeIncreaseCancelled => exact avoids_pure

end Parks

/-! ## The rows -/

/-- What a log writes into a row. -/
def mirror (x : LogEntry) (m : MerchantRow) : MerchantRow :=
  match x.event with
  | .merchantRegistered id _ _ feeBps maxFeeBps _ =>
      if m.linksTo (int64 id) x.at_.txHash = true then
        m.link (int64 id) ⟨feeBps, maxFeeBps, x.at_.txHash, unix x.blockTime⟩
      else m
  | .merchantPayoutAddressUpdated id newPayoutAddress =>
      if m.onchainMerchantId = some (int64 id) then
        { m with payoutAddress := some newPayoutAddress }
      else m
  | .merchantFeeBpsUpdated id newFeeBps =>
      if m.onchainMerchantId = some (int64 id) then
        { m with onchainFeeBps := some newFeeBps, onchainFeeTxHash := some x.at_.txHash,
                 onchainFeeChangedAt := some (unix x.blockTime) }
      else m
  | .merchantActiveSet id active =>
      if m.onchainMerchantId = some (int64 id) then
        { m with status := if active then .active else .suspended }
      else m
  | _ => m

theorem recordGovernance_merchants (db : Db) (in_ : MerchantGovernanceInput) :
    (db.recordGovernance in_).merchants = db.merchants := by
  have haudit : ∀ (id : AuditId) (merchantId : Option RowId) (e : AuditEntry),
      (db.auditOnce id merchantId e).merchants = db.merchants := by
    intro id merchantId e
    unfold Db.auditOnce
    split <;> rfl
  unfold Db.recordGovernance
  dsimp only
  split
  · exact haudit _ _ _
  · split
    · exact haudit _ _ _
    · unfold Db.alertMerchantOnce
      split <;> exact haudit _ _ _

section Apply

variable {p : Projector} {registry : Address} {x : LogEntry} {db db' : Db}

theorem governance_merchants {in_ : MerchantGovernanceInput}
    (h : logMerchantGovernance in_ db = .ok ((), db')) : db'.merchants = db.merchants := by
  obtain ⟨-, -, -, h⟩ := logMerchantGovernance_eq_ok.mp h
  rw [(Prod.mk.inj h).2, recordGovernance_merchants]

/-- A log that was projected rewrote the rows, and the id it registers fits the column. -/
theorem apply_merchants
    (h : p.apply (x.log registry) (unix x.blockTime) db = .ok ((), db')) :
    db'.merchants = db.merchants.map (mirror x) ∧ ∀ id ∈ x.event.registers, Int4 id := by
  obtain ⟨event, at_, offset, blockTime⟩ := x
  have hsame (hmirror : ∀ m, mirror ⟨event, at_, offset, blockTime⟩ m = m)
      (hmerchants : db'.merchants = db.merchants) :
      db'.merchants = db.merchants.map (mirror ⟨event, at_, offset, blockTime⟩) := by
    rw [hmerchants, List.map_congr_left fun m _ => hmirror m, List.map_id']
  cases event with
  | merchantRegistered id owner payout feeBps maxFeeBps parent =>
      obtain ⟨n, db₁, hlink, hpure⟩ := bind_eq_ok.mp h
      obtain ⟨hint4, -, -, hlink⟩ := linkOnchainMerchant_eq_ok.mp hlink
      obtain rfl := (Prod.mk.inj (pure_eq_ok.mp hpure)).2
      rw [(Prod.mk.inj hlink).2]
      refine ⟨rfl, fun i hi => ?_⟩
      obtain rfl := Option.some.inj hi
      exact hint4
  | merchantPayoutAddressUpdated id newPayoutAddress =>
      obtain ⟨n, db₁, hset, hpure⟩ := bind_eq_ok.mp h
      obtain ⟨-, hset⟩ := updateMerchant_eq_ok.mp hset
      obtain rfl := (Prod.mk.inj (pure_eq_ok.mp hpure)).2
      rw [(Prod.mk.inj hset).2]
      exact ⟨rfl, fun i hi => nomatch hi⟩
  | merchantActiveSet id active =>
      obtain ⟨n, db₁, hset, hpure⟩ := bind_eq_ok.mp h
      obtain ⟨-, hset⟩ := updateMerchant_eq_ok.mp hset
      obtain rfl := (Prod.mk.inj (pure_eq_ok.mp hpure)).2
      rw [(Prod.mk.inj hset).2]
      exact ⟨rfl, fun i hi => nomatch hi⟩
  | merchantFeeBpsUpdated id newFeeBps =>
      obtain ⟨n, db₁, hset, haudit⟩ := bind_eq_ok.mp h
      obtain ⟨-, hset⟩ := setMerchantOnchainFeeBps_eq_ok.mp hset
      obtain ⟨-, haudit⟩ := logMerchantFeeBpsChange_eq_ok.mp haudit
      rw [(Prod.mk.inj haudit).2, (Prod.mk.inj hset).2]
      exact ⟨rfl, fun i hi => nomatch hi⟩
  | merchantPayoutChangeInitiated | merchantPayoutChangeCancelled
  | merchantOwnershipTransferInitiated | merchantOwnershipTransferAccepted
  | merchantOwnershipTransferCancelled =>
      exact ⟨hsame (fun _ => rfl) (governance_merchants h), fun i hi => nomatch hi⟩
  | merchantFeeIncreaseScheduled | merchantFeeIncreaseCancelled =>
      obtain rfl := (Prod.mk.inj (pure_eq_ok.mp h)).2
      exact ⟨hsame (fun _ => rfl) rfl, fun i hi => nomatch hi⟩

/-- The indexer takes a registry log over, and parks none. -/
theorem project_eq_ok (h : p.applyOrPark (x.log registry) (unix x.blockTime) db = .ok ((), db')) :
    db'.merchants = db.merchants.map (mirror x) ∧ ∀ id ∈ x.event.registers, Int4 id := by
  rcases Projector.applyOrPark_eq_ok.mp h with happly | ⟨reason, hparked, -, -⟩
  · exact apply_merchants happly
  · exact absurd trivial (parks_apply p registry x (unix x.blockTime) _ hparked)

end Apply

/-! ## A linked row -/

section Mirror

variable {x : LogEntry} {m : MerchantRow} {id : Nat}

theorem int64_event (h : x.event.merchantId ≤ MAX_INT4) :
    int64 x.event.merchantId = x.event.merchantId :=
  int64_of_lt (by rw [MAX_INT4] at h; omega)

/-- A linked row stays linked, and takes over what the log sets for its merchant. -/
theorem mirror_linked (hsmall : x.event.merchantId ≤ MAX_INT4)
    (hlinked : m.onchainMerchantId = some (id : Int)) :
    (mirror x m).onchainMerchantId = some (id : Int) ∧
      (mirror x m).payoutAddress = (Registry.setsPayout id x.event).or m.payoutAddress ∧
      (mirror x m).onchainFeeBps = (Registry.setsFee id x.event).or m.onchainFeeBps ∧
      (mirror x m).onchainMaxFeeBps = (Registry.setsMaxFee id x.event).or m.onchainMaxFeeBps := by
  have hint := int64_event hsmall
  obtain ⟨event, at_, offset, blockTime⟩ := x
  have hiff : ∀ n : Nat, m.onchainMerchantId = some (n : Int) ↔ n = id := by
    intro n
    rw [hlinked, Option.some.injEq, Nat.cast_inj, eq_comm]
  cases event with
  | merchantRegistered n owner payout feeBps maxFeeBps parent =>
      simp only [Registry.Event.merchantId] at hint
      have hlinks : m.linksTo (n : Int) at_.txHash = true ↔ n = id := by
        simp only [MerchantRow.linksTo, hlinked, Bool.or_eq_true, Bool.and_eq_true,
          decide_eq_true_eq, Option.some.injEq, Nat.cast_inj, reduceCtorEq]
        tauto
      simp only [mirror, hint, hlinks, Registry.setsPayout, Registry.setsFee, Registry.setsMaxFee]
      split
      · rename_i heq
        simp [MerchantRow.link, heq]
      · simp [hlinked]
  | merchantPayoutAddressUpdated n newPayoutAddress =>
      simp only [Registry.Event.merchantId] at hint
      simp only [mirror, hint, hiff, Registry.setsPayout, Registry.setsFee, Registry.setsMaxFee]
      split <;> simp [hlinked]
  | merchantFeeBpsUpdated n newFeeBps =>
      simp only [Registry.Event.merchantId] at hint
      simp only [mirror, hint, hiff, Registry.setsPayout, Registry.setsFee, Registry.setsMaxFee]
      split <;> simp [hlinked]
  | merchantActiveSet n active =>
      simp only [mirror, Registry.setsPayout, Registry.setsFee, Registry.setsMaxFee]
      split <;> simp [hlinked]
  | _ => exact ⟨hlinked, rfl, rfl, rfl⟩

/-- A row becomes linked by the log of its registration only, which brings the fee along. -/
theorem mirror_unlinked (hsmall : x.event.merchantId ≤ MAX_INT4)
    (hunlinked : m.onchainMerchantId = none) :
    (mirror x m).onchainMerchantId = none ∨
      ∃ n, x.event.registers = some n ∧ m.onchainRegistrationTxHash = some x.at_.txHash ∧
        (mirror x m).onchainMerchantId = some (n : Int) ∧
        (mirror x m).payoutAddress = (Registry.setsPayout n x.event).or m.payoutAddress ∧
        (mirror x m).onchainFeeBps = (Registry.setsFee n x.event).or none ∧
        (mirror x m).onchainMaxFeeBps = (Registry.setsMaxFee n x.event).or none ∧
        (Registry.setsFee n x.event).isSome ∧ (Registry.setsMaxFee n x.event).isSome := by
  have hint := int64_event hsmall
  obtain ⟨event, at_, offset, blockTime⟩ := x
  have hnot : ∀ i : Int, ¬ m.onchainMerchantId = some i := by
    intro i
    rw [hunlinked]
    exact nofun
  cases event with
  | merchantRegistered n owner payout feeBps maxFeeBps parent =>
      simp only [Registry.Event.merchantId] at hint
      have hlinks : m.linksTo (n : Int) at_.txHash = true ↔
          m.onchainRegistrationTxHash = some at_.txHash := by
        simp [MerchantRow.linksTo, hunlinked]
      simp only [mirror, hint, hlinks]
      split
      · rename_i hhash
        exact Or.inr ⟨n, rfl, hhash, by simp [MerchantRow.link, Registry.setsPayout,
          Registry.setsFee, Registry.setsMaxFee]⟩
      · exact Or.inl hunlinked
  | merchantPayoutAddressUpdated n newPayoutAddress =>
      simp only [mirror, hnot, if_false]
      exact Or.inl hunlinked
  | merchantFeeBpsUpdated n newFeeBps =>
      simp only [mirror, hnot, if_false]
      exact Or.inl hunlinked
  | merchantActiveSet n active =>
      simp only [mirror, hnot, if_false]
      exact Or.inl hunlinked
  | _ => exact Or.inl hunlinked

end Mirror

end Strimz.MerchantMirror
