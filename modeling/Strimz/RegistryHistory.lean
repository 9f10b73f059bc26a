import Strimz.RegistryFees
import Strimz.Replica

/-!
# The registry and its log

What the events of the registry say about a merchant: the payout address, the fee and the
ceiling it has are the last ones its log names. `Effect` says what a transaction does to both at once
(`effect_step`), and `History` is what the log of a reachable registry tells.
-/

namespace Strimz.Registry

open Replica Tx

/-! ## What an event sets -/

def Event.merchantId : Event → Nat
  | .merchantRegistered id _ _ _ _ _ | .merchantPayoutAddressUpdated id _
  | .merchantPayoutChangeInitiated id _ _ | .merchantPayoutChangeCancelled id
  | .merchantFeeBpsUpdated id _ | .merchantFeeIncreaseScheduled id _ _
  | .merchantFeeIncreaseCancelled id | .merchantActiveSet id _
  | .merchantOwnershipTransferInitiated id _ _ | .merchantOwnershipTransferAccepted id _ _
  | .merchantOwnershipTransferCancelled id => id

/-- The merchant an event registers. -/
def Event.registers : Event → Option Nat
  | .merchantRegistered id _ _ _ _ _ => some id
  | _ => none

/-- The payout address an event moves the merchant to, after its registration. -/
def setsPayout (id : Nat) : Event → Option Address
  | .merchantPayoutAddressUpdated i newPayoutAddress =>
      if i = id then some newPayoutAddress else none
  | _ => none

def setsFee (id : Nat) : Event → Option Uint16
  | .merchantRegistered i _ _ feeBps _ _ => if i = id then some feeBps else none
  | .merchantFeeBpsUpdated i newFeeBps => if i = id then some newFeeBps else none
  | _ => none

def setsMaxFee (id : Nat) : Event → Option Uint16
  | .merchantRegistered i _ _ _ maxFeeBps _ => if i = id then some maxFeeBps else none
  | _ => none

variable {e : Event} {id : Nat}

theorem setsPayout_of_ne (h : e.merchantId ≠ id) : setsPayout id e = none := by
  cases e <;> first | rfl | exact if_neg h

theorem setsFee_of_ne (h : e.merchantId ≠ id) : setsFee id e = none := by
  cases e <;> first | rfl | exact if_neg h

theorem setsMaxFee_of_ne (h : e.merchantId ≠ id) : setsMaxFee id e = none := by
  cases e <;> first | rfl | exact if_neg h

theorem merchantId_of_registers (h : e.registers = some id) : e.merchantId = id := by
  cases e with
  | merchantRegistered => exact Option.some.inj h
  | _ => cases h

/-! ## One transaction -/

/-- What a transaction does to the merchants, by the events it emits. -/
structure Effect (s s' : Storage) (new : List Event) : Prop where
  logs : s'.logs = s.logs ++ new
  next : s.nextMerchantId ≤ s'.nextMerchantId
  fee : ∀ id, (s'.merchants id).feeBps = latest (setsFee id) (s.merchants id).feeBps new
  maxFee : ∀ id, (s'.merchants id).maxFeeBps = latest (setsMaxFee id) (s.merchants id).maxFeeBps new
  payout : ∀ id, id < s.nextMerchantId →
    (s'.merchants id).payoutAddress = latest (setsPayout id) (s.merchants id).payoutAddress new
  /-- A merchant new to the registry was registered, and nothing moved its payout address yet. -/
  registered : ∀ id, s.nextMerchantId ≤ id → Quiet (setsPayout id) new ∧
    (id < s'.nextMerchantId → id = s.nextMerchantId ∧ ∃ e, new = [e] ∧ e.registers = some id)
  ids : ∀ e ∈ new, e.merchantId < s.nextMerchantId ∨ e.registers = some e.merchantId ∧
    e.merchantId = s.nextMerchantId ∧ e.merchantId < s'.nextMerchantId

section Step

variable {s s' : Storage}

theorem Effect.of_same (hmerchants : s'.merchants = s.merchants)
    (hnext : s'.nextMerchantId = s.nextMerchantId) (hlogs : s'.logs = s.logs) :
    Effect s s' [] where
  logs := by rw [hlogs, List.append_nil]
  next := hnext.ge
  fee id := by rw [hmerchants, latest_nil]
  maxFee id := by rw [hmerchants, latest_nil]
  payout id _ := by rw [hmerchants, latest_nil]
  registered id hid := ⟨quiet_nil _, fun h => by omega⟩
  ids _ he := absurd he List.not_mem_nil

/-- A registered merchant's record is rewritten, and the events are about that merchant. -/
theorem Effect.of_put {m : Merchant} {new : List Event}
    (hmerchants : s'.merchants = Function.update s.merchants id m)
    (hnext : s'.nextMerchantId = s.nextMerchantId) (hlogs : s'.logs = s.logs ++ new)
    (hid : id < s.nextMerchantId) (hnew : ∀ e ∈ new, e.merchantId = id)
    (hfee : m.feeBps = latest (setsFee id) (s.merchants id).feeBps new)
    (hmax : m.maxFeeBps = latest (setsMaxFee id) (s.merchants id).maxFeeBps new)
    (hpayout : m.payoutAddress = latest (setsPayout id) (s.merchants id).payoutAddress new) :
    Effect s s' new where
  logs := hlogs
  next := hnext.ge
  fee i := by
    by_cases hi : i = id
    · rw [hmerchants, hi, Function.update_self, hfee]
    · have hquiet : Quiet (setsFee i) new := fun e he => setsFee_of_ne (hnew e he ▸ Ne.symm hi)
      rw [hmerchants, Function.update_of_ne hi, hquiet.latest]
  maxFee i := by
    by_cases hi : i = id
    · rw [hmerchants, hi, Function.update_self, hmax]
    · have hquiet : Quiet (setsMaxFee i) new :=
        fun e he => setsMaxFee_of_ne (hnew e he ▸ Ne.symm hi)
      rw [hmerchants, Function.update_of_ne hi, hquiet.latest]
  payout i _ := by
    by_cases hi : i = id
    · rw [hmerchants, hi, Function.update_self, hpayout]
    · have hquiet : Quiet (setsPayout i) new :=
        fun e he => setsPayout_of_ne (hnew e he ▸ Ne.symm hi)
      rw [hmerchants, Function.update_of_ne hi, hquiet.latest]
  registered i hi := by
    refine ⟨fun e he => setsPayout_of_ne ?_, fun h => by omega⟩
    rw [hnew e he]
    omega
  ids e he := Or.inl (by rw [hnew e he]; exact hid)

/-- The record of a registered merchant keeps its fee, ceiling and payout address. -/
theorem Effect.of_neutral {m : Merchant} {new : List Event}
    (hmerchants : s'.merchants = Function.update s.merchants id m)
    (hnext : s'.nextMerchantId = s.nextMerchantId) (hlogs : s'.logs = s.logs ++ new)
    (hid : id < s.nextMerchantId) (hnew : ∀ e ∈ new, e.merchantId = id)
    (hquiet : Quiet (setsFee id) new ∧ Quiet (setsMaxFee id) new ∧ Quiet (setsPayout id) new)
    (hfee : m.feeBps = (s.merchants id).feeBps) (hmax : m.maxFeeBps = (s.merchants id).maxFeeBps)
    (hpayout : m.payoutAddress = (s.merchants id).payoutAddress) : Effect s s' new :=
  .of_put hmerchants hnext hlogs hid hnew (by rw [hquiet.1.latest, hfee])
    (by rw [hquiet.2.1.latest, hmax]) (by rw [hquiet.2.2.latest, hpayout])

/-- A registered id is one handed out. -/
theorem FeeInv.lt_next (inv : FeeInv s) (howner : (s.merchants id).owner ≠ 0) :
    id < s.nextMerchantId := by
  by_contra hge
  exact howner (inv.fresh id (Nat.le_of_not_lt hge)).1

theorem registerMerchant_effect {msg : Msg} {owner payout : Address} {feeBps maxFeeBps : Uint16}
    {parent newId : Nat}
    (h : registerMerchant msg owner payout feeBps maxFeeBps parent s = .ok (newId, s')) :
    Effect s s' [.merchantRegistered s.nextMerchantId owner payout feeBps maxFeeBps parent] := by
  obtain ⟨-, -, -, -, -, h⟩ := registerMerchant_eq_ok.mp h
  obtain ⟨rfl, rfl⟩ := Prod.mk.inj h
  refine ⟨rfl, Nat.le_succ _, fun i => ?_, fun i => ?_, fun i hi => ?_, fun i hi => ⟨?_, fun h => ?_⟩,
    fun e he => ?_⟩
  · by_cases hi : i = s.nextMerchantId
    · simp [hi, setsFee]
    · simp [hi, setsFee, Ne.symm hi]
  · by_cases hi : i = s.nextMerchantId
    · simp [hi, setsMaxFee]
    · simp [hi, setsMaxFee, Ne.symm hi]
  · simp [Nat.ne_of_lt hi, setsPayout]
  · simp [setsPayout]
  · have heq : i = s.nextMerchantId := Nat.le_antisymm (Nat.lt_succ_iff.mp h) hi
    exact ⟨heq, _, rfl, by rw [heq]; rfl⟩
  · obtain rfl := List.mem_singleton.mp he
    exact Or.inr ⟨rfl, rfl, Nat.lt_succ_self _⟩

/-- Every transaction is told by the events it emits. -/
theorem effect_step (inv : FeeInv s) (l : Label) : ∃ new, Effect s (step s l) new := by
  refine commit_cases (P := fun s' => ∃ new, Effect s s' new) ⟨[], .of_same rfl rfl rfl⟩
    fun _ s' h => ?_
  cases haction : l.action with
  | registerMerchant owner payout feeBps maxFeeBps parent =>
      simp only [haction, dispatch, bind_eq_ok, pure_eq_ok, Prod.mk.injEq, existsAndEq,
        true_and, and_true] at h
      obtain ⟨newId, h⟩ := h
      exact ⟨_, registerMerchant_effect h⟩
  | setFeeBps i v =>
      rw [haction] at h
      obtain ⟨-, -, howner, -, ⟨-, -, rfl⟩ | ⟨-, rfl⟩⟩ := setFeeBps_eq_ok.mp h
      · exact ⟨_, .of_neutral (Function.update_eq_self i _).symm rfl rfl (inv.lt_next howner)
          (by simp [Event.merchantId]) (by simp [setsFee, setsMaxFee, setsPayout]) rfl rfl rfl⟩
      · exact ⟨_, .of_put rfl rfl rfl (inv.lt_next howner) (by simp [Event.merchantId])
          (by simp [setsFee]) (by simp [setsMaxFee]) (by simp [setsPayout])⟩
  | commitFeeBps i =>
      rw [haction] at h
      obtain ⟨howner, -, -, rfl⟩ := commitFeeBps_eq_ok.mp h
      exact ⟨_, .of_put rfl rfl rfl (inv.lt_next howner) (by simp [Event.merchantId])
        (by simp [setsFee]) (by simp [setsMaxFee]) (by simp [setsPayout])⟩
  | cancelFeeIncrease i =>
      rw [haction] at h
      obtain ⟨-, howner, -, rfl⟩ := cancelFeeIncrease_eq_ok.mp h
      exact ⟨_, .of_neutral (Function.update_eq_self i _).symm rfl rfl (inv.lt_next howner)
        (by simp [Event.merchantId]) (by simp [setsFee, setsMaxFee, setsPayout]) rfl rfl rfl⟩
  | setActive i active =>
      rw [haction] at h
      obtain ⟨-, howner, rfl⟩ := setActive_eq_ok.mp h
      exact ⟨_, .of_neutral rfl rfl rfl (inv.lt_next howner) (by simp [Event.merchantId])
        (by simp [setsFee, setsMaxFee, setsPayout]) rfl rfl rfl⟩
  | setPayoutAddress i newPayout =>
      rw [haction] at h
      obtain ⟨howner, -, -, -, -, rfl⟩ := setPayoutAddress_eq_ok.mp h
      exact ⟨_, .of_neutral rfl rfl rfl (inv.lt_next howner) (by simp [Event.merchantId])
        (by simp [setsFee, setsMaxFee, setsPayout]) rfl rfl rfl⟩
  | commitPayoutAddress i =>
      rw [haction] at h
      obtain ⟨howner, -, -, rfl⟩ := commitPayoutAddress_eq_ok.mp h
      exact ⟨_, .of_put rfl rfl rfl (inv.lt_next howner) (by simp [Event.merchantId])
        (by simp [setsFee]) (by simp [setsMaxFee]) (by simp [setsPayout])⟩
  | cancelPayoutAddressChange i =>
      rw [haction] at h
      obtain ⟨howner, -, h⟩ := cancelPayoutAddressChange_eq_ok.mp h
      obtain ⟨-, rfl⟩ := cancelPayoutChange_eq_ok.mp h
      exact ⟨_, .of_neutral rfl rfl rfl (inv.lt_next howner) (by simp [Event.merchantId])
        (by simp [setsFee, setsMaxFee, setsPayout]) rfl rfl rfl⟩
  | adminCancelPayoutChange i =>
      rw [haction] at h
      obtain ⟨-, howner, h⟩ := adminCancelPayoutChange_eq_ok.mp h
      obtain ⟨-, rfl⟩ := cancelPayoutChange_eq_ok.mp h
      exact ⟨_, .of_neutral rfl rfl rfl (inv.lt_next howner) (by simp [Event.merchantId])
        (by simp [setsFee, setsMaxFee, setsPayout]) rfl rfl rfl⟩
  | transferMerchantOwnership i newOwner =>
      rw [haction] at h
      obtain ⟨howner, -, -, -, -, rfl⟩ := transferMerchantOwnership_eq_ok.mp h
      exact ⟨_, .of_neutral rfl rfl rfl (inv.lt_next howner) (by simp [Event.merchantId])
        (by simp [setsFee, setsMaxFee, setsPayout]) rfl rfl rfl⟩
  | acceptMerchantOwnership i =>
      rw [haction] at h
      obtain ⟨howner, -, -, -, ⟨-, rfl⟩ | ⟨-, rfl⟩⟩ := acceptMerchantOwnership_eq_ok.mp h
      · exact ⟨_, .of_neutral rfl rfl (List.append_assoc _ _ _) (inv.lt_next howner)
          (by simp [Event.merchantId]) (by simp [setsFee, setsMaxFee, setsPayout]) rfl rfl rfl⟩
      · exact ⟨_, .of_neutral rfl rfl rfl (inv.lt_next howner) (by simp [Event.merchantId])
          (by simp [setsFee, setsMaxFee, setsPayout]) rfl rfl rfl⟩
  | cancelOwnershipTransfer i =>
      rw [haction] at h
      obtain ⟨howner, -, h⟩ := cancelOwnershipTransfer_eq_ok.mp h
      obtain ⟨-, rfl⟩ := cancelPendingOwner_eq_ok.mp h
      exact ⟨_, .of_neutral rfl rfl rfl (inv.lt_next howner) (by simp [Event.merchantId])
        (by simp [setsFee, setsMaxFee, setsPayout]) rfl rfl rfl⟩
  | adminCancelOwnershipTransfer i =>
      rw [haction] at h
      obtain ⟨-, howner, h⟩ := adminCancelOwnershipTransfer_eq_ok.mp h
      obtain ⟨-, rfl⟩ := cancelPendingOwner_eq_ok.mp h
      exact ⟨_, .of_neutral rfl rfl rfl (inv.lt_next howner) (by simp [Event.merchantId])
        (by simp [setsFee, setsMaxFee, setsPayout]) rfl rfl rfl⟩
  | setRoles hasRole =>
      rw [haction] at h
      obtain ⟨-, rfl⟩ := Prod.mk.inj (modify_eq_ok.mp h)
      exact ⟨[], .of_same rfl rfl rfl⟩

end Step

/-! ## The log of a reachable registry -/

/-- What the log tells of the merchants. -/
structure History (s : Storage) : Prop where
  fees : FeeInv s
  fee : ∀ id, ∃ a, (s.merchants id).feeBps = latest (setsFee id) a s.logs
  maxFee : ∀ id, ∃ a, (s.merchants id).maxFeeBps = latest (setsMaxFee id) a s.logs
  payout : ∀ id, ∃ a, id < s.nextMerchantId →
    (s.merchants id).payoutAddress = latest (setsPayout id) a s.logs
  ids : ∀ e ∈ s.logs, e.merchantId < s.nextMerchantId
  registered : ∀ id, 1 ≤ id → id < s.nextMerchantId → ∃ e ∈ s.logs, e.registers = some id
  /-- Merchants are registered in the order of their ids. -/
  order : ∀ (i : Nat) (e : Event), s.logs[i]? = some e → ∀ id, 1 ≤ id → id ≤ e.merchantId →
    ∃ j ≤ i, ∃ r, s.logs[j]? = some r ∧ r.registers = some id

theorem History.deployed (hasRole : RoleTable) : History (deployed hasRole) where
  fees := .deployed hasRole
  fee _ := ⟨_, rfl⟩
  maxFee _ := ⟨_, rfl⟩
  payout _ := ⟨_, fun _ => rfl⟩
  ids _ he := absurd he List.not_mem_nil
  registered id h1 h2 := absurd h2 (Nat.not_lt.mpr h1)
  order i e he := by simp [Registry.deployed] at he

section Step

variable {s s' : Storage} {new : List Event}

theorem Effect.payout_known (heffect : Effect s s' new) (h : History s) (id : Nat) :
    ∃ a, id < s'.nextMerchantId →
      (s'.merchants id).payoutAddress = latest (setsPayout id) a s'.logs := by
  by_cases hid : id < s.nextMerchantId
  · obtain ⟨a, ha⟩ := h.payout id
    exact ⟨a, fun _ => by rw [heffect.payout id hid, ha hid, heffect.logs, latest_append]⟩
  · have hold : Quiet (setsPayout id) s.logs :=
      fun e he => setsPayout_of_ne (by have := h.ids e he; omega)
    have hquiet : Quiet (setsPayout id) s'.logs := by
      rw [heffect.logs]
      exact (quiet_append _).mpr ⟨hold, (heffect.registered id (Nat.le_of_not_lt hid)).1⟩
    exact ⟨_, fun _ => hquiet.latest.symm⟩

theorem Effect.order (heffect : Effect s s' new) (h : History s) (i : Nat) (e : Event)
    (he : s'.logs[i]? = some e) (id : Nat) (hpos : 1 ≤ id) (hid : id ≤ e.merchantId) :
    ∃ j ≤ i, ∃ r, s'.logs[j]? = some r ∧ r.registers = some id := by
  rw [heffect.logs] at he ⊢
  by_cases hi : i < s.logs.length
  · rw [List.getElem?_append_left hi] at he
    obtain ⟨j, hj, r, hr, hreg⟩ := h.order i e he id hpos hid
    exact ⟨j, hj, r, by rw [List.getElem?_append_left (by omega), hr], hreg⟩
  · have hmem : e ∈ new := by
      rw [List.getElem?_append_right (by omega)] at he
      exact List.mem_of_getElem? he
    by_cases hold : id < s.nextMerchantId
    · obtain ⟨r, hr, hreg⟩ := h.registered id hpos hold
      obtain ⟨j, hj, hget⟩ := List.mem_iff_getElem.mp hr
      exact ⟨j, by omega, r, by rw [List.getElem?_append_left hj, List.getElem?_eq_getElem hj, hget],
        hreg⟩
    · rcases heffect.ids e hmem with hlt | ⟨hreg, heq, -⟩
      · omega
      · exact ⟨i, Nat.le_refl i, e, he, by rw [hreg, heq]; congr 1; omega⟩

theorem History.step (h : History s) (l : Label) : History (step s l) := by
  obtain ⟨new, heffect⟩ := effect_step h.fees l
  refine ⟨h.fees.step l, fun id => ?_, fun id => ?_, heffect.payout_known h, fun e he => ?_,
    fun id hpos hid => ?_, heffect.order h⟩
  · obtain ⟨a, ha⟩ := h.fee id
    exact ⟨a, by rw [heffect.fee, heffect.logs, latest_append, ha]⟩
  · obtain ⟨a, ha⟩ := h.maxFee id
    exact ⟨a, by rw [heffect.maxFee, heffect.logs, latest_append, ha]⟩
  · rw [heffect.logs] at he
    rcases List.mem_append.mp he with hold | hnew
    · exact Nat.lt_of_lt_of_le (h.ids e hold) heffect.next
    · rcases heffect.ids e hnew with hlt | ⟨-, -, hlt⟩
      · exact Nat.lt_of_lt_of_le hlt heffect.next
      · exact hlt
  · rw [heffect.logs]
    by_cases hold : id < s.nextMerchantId
    · obtain ⟨e, he, hreg⟩ := h.registered id hpos hold
      exact ⟨e, List.mem_append_left _ he, hreg⟩
    · obtain ⟨-, e, rfl, hreg⟩ := (heffect.registered id (Nat.le_of_not_lt hold)).2 hid
      exact ⟨e, List.mem_append_right _ (List.mem_singleton_self e), hreg⟩

end Step

end Strimz.Registry
