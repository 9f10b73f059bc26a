import Strimz.MerchantGuard
import Strimz.ProjectionSteps
import Strimz.Runs

/-!
# Operator decisions on a merchant's status

Two services write `Merchant.status`: the API, when an operator suspends, reactivates or closes
a merchant (`setMerchantStatus`), and the indexer, when a `MerchantActiveSet` log is projected
(`setMerchantActive`). Neither update looks at what the other wrote, so an operator's decision
holds as long as no later write of the two kinds runs over it (`decisions_hold`).
-/

namespace Strimz.MerchantStatus

open Indexer Runs

/-! ## The world -/

/-- A call of `setMerchantStatus` between its read and its update. -/
structure Task where
  merchantId : RowId
  previous : MerchantStatus
  next : MerchantStatus
deriving Repr, DecidableEq

inductive StatusError where
  | notFound
  | already (status : MerchantStatus)
deriving Repr, DecidableEq

def statusText : MerchantStatus → String
  | .active => "active"
  | .suspended => "suspended"
  | .closed => "closed"

def StatusError.code : StatusError → String
  | .notFound => "not_found"
  | .already _ => "invalid_state"

def StatusError.message : StatusError → String
  | .notFound => ""
  | .already status => "merchant already " ++ statusText status

structure World where
  db : Db
  tasks : List Task
  errors : List StatusError
  /-- The operators' updates, the last one first. -/
  decisions : List (RowId × MerchantStatus)

inductive Label where
  /-- An operator's request, up to its check. -/
  | setMerchantStatus (merchantId : RowId) (next : MerchantStatus)
  /-- The `k`-th request runs its update, or fails before it. -/
  | update (k : Nat) (ok : Bool)
  /-- The indexer projects `MerchantActiveSet`. -/
  | activeSet (onchainId : Nat) (active : Bool)
  /-- The registration job links the row. -/
  | link (merchantId : RowId) (onchainId : Int)
deriving Repr, DecidableEq

def setStatus (id : RowId) (status : MerchantStatus) (m : MerchantRow) : MerchantRow :=
  if m.id = id then { m with status := status } else m

def step (w : World) : Label → World
  | .setMerchantStatus merchantId next =>
      match w.db.merchants.find? (·.id = merchantId) with
      | none => { w with errors := w.errors ++ [.notFound] }
      | some merchant =>
          if merchant.status = next then { w with errors := w.errors ++ [.already next] }
          else { w with tasks := w.tasks ++ [⟨merchantId, merchant.status, next⟩] }
  | .update k ok =>
      match w.tasks[k]? with
      | none => w
      | some t =>
          let w' := { w with tasks := w.tasks.eraseIdx k }
          if ok = false then w'
          else { w' with db := w.db.mapMerchants (setStatus t.merchantId t.next),
                         decisions := (t.merchantId, t.next) :: w.decisions }
  | .activeSet onchainId active =>
      match setMerchantActive onchainId active w.db with
      | .error _ => w
      | .ok r => { w with db := r.2 }
  | .link merchantId onchainId =>
      { w with db := w.db.mapMerchants fun m =>
          if m.id = merchantId ∧ m.onchainMerchantId = none then
            { m with onchainMerchantId := some onchainId } else m }

/-! ## Decisions -/

/-- An operator has closed the merchant. -/
def World.ClosedBy (w : World) (id : RowId) : Prop := (id, MerchantStatus.closed) ∈ w.decisions

/-- What the operators decided last. -/
def World.decided (w : World) (id : RowId) : Option MerchantStatus :=
  (w.decisions.find? (·.1 = id)).map (·.2)

/-- A closed merchant is closed, and a suspended one is not active. -/
structure DecisionsHold (w : World) : Prop where
  closed : ∀ m ∈ w.db.merchants, w.ClosedBy m.id → m.status = .closed
  suspended : ∀ m ∈ w.db.merchants, w.decided m.id = some .suspended → m.status ≠ .active

/-- No merchant is open to callers unless its status is active. -/
def CallersRefused (w : World) : Prop :=
  ∀ (env : MerchantGuard.Env) (keys : List MerchantGuard.ApiKeyRow) (route : MerchantGuard.Route)
    (authorization : Option (List Char)) (cm : MerchantGuard.CurrentMerchant),
    MerchantGuard.canActivate env w.db.merchants keys route authorization = .ok (some cm) →
    ∃ m ∈ w.db.merchants, m.id = cm.merchantId ∧ m.status = .active

theorem callersRefused (w : World) : CallersRefused w := by
  intro env keys route authorization cm h
  obtain ⟨m, hm, hactive⟩ := MerchantGuard.active_of_canActivate h
  exact ⟨m, List.mem_of_find?_eq_some hm, by simpa using List.find?_some hm, hactive⟩

/-- The write does not run over a decision: no operator reopens a merchant that was closed, and
no log moves one that was closed or activates one that was suspended. -/
def Heeds (w : World) : Label → Prop
  | .update k ok =>
      match w.tasks[k]? with
      | some t => ok = true → t.next ≠ .closed → ¬ w.ClosedBy t.merchantId
      | none => True
  | .activeSet onchainId active =>
      ∀ m ∈ w.db.merchants, m.onchainMerchantId = some (int64 onchainId) →
        ¬ w.ClosedBy m.id ∧ (active = true → w.decided m.id ≠ some .suspended)
  | _ => True

instance (w : World) (id : RowId) : Decidable (w.ClosedBy id) := by
  unfold World.ClosedBy
  infer_instance

instance (w : World) : (l : Label) → Decidable (Heeds w l)
  | .update k _ => by
      unfold Heeds
      dsimp only
      split <;> infer_instance
  | .activeSet _ _ => by
      unfold Heeds
      dsimp only
      infer_instance
  | .setMerchantStatus _ _ | .link _ _ => isTrue trivial

section Step

variable {w w' : World} {l : Label}

/-- The decisions stand when the rows keep their ids and statuses. -/
theorem DecisionsHold.map (h : DecisionsHold w) {f : MerchantRow → MerchantRow}
    (hmerchants : w'.db.merchants = w.db.merchants.map f) (hdecisions : w'.decisions = w.decisions)
    (hid : ∀ m, (f m).id = m.id)
    (hclosed : ∀ m ∈ w.db.merchants, w.ClosedBy m.id → (f m).status = m.status)
    (hsuspended : ∀ m ∈ w.db.merchants, w.decided m.id = some .suspended → m.status ≠ .active →
      (f m).status ≠ .active) : DecisionsHold w' where
  closed := by
    intro m hm hby
    rw [hmerchants] at hm
    obtain ⟨m₀, hm₀, rfl⟩ := List.mem_map.mp hm
    unfold World.ClosedBy at hby
    rw [hdecisions, hid] at hby
    rw [hclosed m₀ hm₀ hby]
    exact h.closed m₀ hm₀ hby
  suspended := by
    intro m hm hby
    rw [hmerchants] at hm
    obtain ⟨m₀, hm₀, rfl⟩ := List.mem_map.mp hm
    unfold World.decided at hby
    rw [hdecisions, hid] at hby
    exact hsuspended m₀ hm₀ hby (h.suspended m₀ hm₀ hby)

theorem setStatus_id (id : RowId) (status : MerchantStatus) (m : MerchantRow) :
    (setStatus id status m).id = m.id := by
  unfold setStatus
  split <;> rfl

theorem decided_cons (id id' : RowId) (status : MerchantStatus) (ds : List (RowId × MerchantStatus)) :
    (((id, status) :: ds).find? (·.1 = id')).map (·.2) =
      if id = id' then some status else (ds.find? (·.1 = id')).map (·.2) := by
  rw [List.find?_cons]
  by_cases h : id = id' <;> simp [h]

/-- An operator's update on a merchant that may still be changed. -/
theorem DecisionsHold.update (h : DecisionsHold w) {t : Task}
    (hmerchants : w'.db.merchants = w.db.merchants.map (setStatus t.merchantId t.next))
    (hdecisions : w'.decisions = (t.merchantId, t.next) :: w.decisions)
    (hopen : t.next ≠ .closed → ¬ w.ClosedBy t.merchantId) : DecisionsHold w' where
  closed := by
    intro m hm hby
    rw [hmerchants] at hm
    obtain ⟨m₀, hm₀, rfl⟩ := List.mem_map.mp hm
    unfold World.ClosedBy at hby
    rw [hdecisions, setStatus_id] at hby
    unfold setStatus
    split
    · rename_i hid
      by_contra hne
      rcases List.mem_cons.mp hby with heq | hold
      · exact hne (Prod.mk.inj heq).2.symm
      · exact hopen hne (hid ▸ hold)
    · rename_i hid
      rcases List.mem_cons.mp hby with heq | hold
      · exact absurd (Prod.mk.inj heq).1 hid
      · exact h.closed m₀ hm₀ hold
  suspended := by
    intro m hm hby
    rw [hmerchants] at hm
    obtain ⟨m₀, hm₀, rfl⟩ := List.mem_map.mp hm
    unfold World.decided at hby
    rw [hdecisions, setStatus_id, decided_cons] at hby
    unfold setStatus
    split
    · rename_i hid
      rw [if_pos hid.symm] at hby
      dsimp only
      rw [Option.some.inj hby]
      exact MerchantStatus.noConfusion
    · rename_i hid
      rw [if_neg (Ne.symm hid)] at hby
      exact h.suspended m₀ hm₀ hby

theorem decisionsHold_step (h : DecisionsHold w) (hl : Heeds w l) : DecisionsHold (step w l) := by
  have hsame {w' : World} (hdb : w'.db = w.db) (hdecisions : w'.decisions = w.decisions) :
      DecisionsHold w' := by
    refine h.map (f := id) (by rw [hdb, List.map_id]) hdecisions (fun _ => rfl) (fun _ _ _ => rfl)
      fun _ _ _ hne => hne
  unfold step
  cases l with
  | setMerchantStatus merchantId next =>
      dsimp only
      split
      · exact hsame rfl rfl
      · split <;> exact hsame rfl rfl
  | update k ok =>
      dsimp only
      unfold Heeds at hl
      dsimp only at hl
      split
      · exact hsame rfl rfl
      · rename_i t ht
        rw [ht] at hl
        split
        · exact hsame rfl rfl
        · rename_i hok
          exact h.update rfl rfl (hl (by simpa using hok))
  | activeSet onchainId active =>
      dsimp only
      split
      · exact hsame rfl rfl
      · rename_i r hr
        obtain ⟨-, rfl⟩ := updateMerchant_eq_ok.mp hr
        unfold Heeds at hl
        refine h.map rfl rfl (fun m => ?_) (fun m hm hby => ?_) fun m hm hby hne => ?_
        · split <;> rfl
        · rw [if_neg fun hid => (hl m hm hid).1 hby]
        · split
          · rename_i hid
            cases active with
            | false => exact MerchantStatus.noConfusion
            | true => exact absurd hby ((hl m hm hid).2 rfl)
          · exact hne
  | link merchantId onchainId =>
      refine h.map rfl rfl (fun m => ?_) (fun m _ _ => ?_) fun m _ _ hne => ?_
      · split <;> rfl
      · split <;> rfl
      · split <;> exact hne

end Step

/-! ## Runs -/

/-- In a run whose writes heed the decisions taken before, an operator's decision holds and
callers are refused while the merchant is not active. -/
theorem decisions_hold (w₀ : World) (h₀ : w₀.decisions = []) (ls : List Label)
    (hl : ∀ n l, ls[n]? = some l → Heeds (stateAt step w₀ ls n) l) (n : Nat) :
    DecisionsHold (stateAt step w₀ ls n) ∧ CallersRefused (stateAt step w₀ ls n) := by
  refine ⟨?_, callersRefused _⟩
  have hstart : DecisionsHold w₀ := by
    constructor
    · intro m _ hby
      unfold World.ClosedBy at hby
      rw [h₀] at hby
      cases hby
    · intro m _ hby
      unfold World.decided at hby
      rw [h₀] at hby
      cases hby
  exact stateAt_induct (m := 0) (P := DecisionsHold) hstart
    (fun n l _ hn ih => decisionsHold_step ih (hl n l hn)) (Nat.zero_le n)

section Samples

def merchant : MerchantRow where
  id := [1]
  onchainMerchantId := some 7
  onchainRegistrationTxHash := none
  onchainFeeBps := none
  onchainMaxFeeBps := none
  onchainFeeTxHash := none
  onchainFeeChangedAt := none
  payoutAddress := none
  status := .active

def launched : World where
  db := { Db.empty with merchants := [merchant] }
  tasks := []
  errors := []
  decisions := []

/-- Suspended, reactivated by an operator, and active on chain after that. -/
def heeded : List Label :=
  [.setMerchantStatus [1] .suspended, .update 0 true, .setMerchantStatus [1] .active,
   .update 0 true, .activeSet 7 true, .setMerchantStatus [1] .closed, .update 0 true]

theorem decisions_hold_heeded :
    DecisionsHold (stateAt step launched heeded heeded.length) ∧
      CallersRefused (stateAt step launched heeded heeded.length) := by
  have hall : ∀ n, (h : n < heeded.length) → Heeds (stateAt step launched heeded n) heeded[n] := by
    decide +kernel
  refine decisions_hold launched rfl heeded (fun n l hl => ?_) heeded.length
  obtain ⟨hn, rfl⟩ := List.getElem?_eq_some_iff.mp hl
  exact hall n hn

/-- Closed, then reopened by a log, and suspended, then activated by one. -/
def closedThenActivated : List Label :=
  [.setMerchantStatus [1] .closed, .update 0 true, .activeSet 7 true]

theorem closed_merchant_reopens :
    (stateAt step launched closedThenActivated 2).ClosedBy [1] ∧
      (stateAt step launched closedThenActivated 2).db.merchants.map (·.status) = [.closed] ∧
      (stateAt step launched closedThenActivated 3).db.merchants.map (·.status) = [.active] ∧
      ¬ DecisionsHold (stateAt step launched closedThenActivated 3) := by
  have hstatus : (stateAt step launched closedThenActivated 3).db.merchants.map (·.status)
      = [.active] := by decide +kernel
  have hids : (stateAt step launched closedThenActivated 3).db.merchants.map (·.id) = [[1]] := by
    decide +kernel
  have hby : (stateAt step launched closedThenActivated 3).ClosedBy [1] := by decide +kernel
  refine ⟨by decide +kernel, by decide +kernel, hstatus, fun h => ?_⟩
  obtain ⟨m, hm⟩ := List.map_eq_singleton_iff.mp hids
  rw [hm.1] at hstatus
  have hclosed := h.closed m (by rw [hm.1]; exact List.mem_cons_self) (hm.2 ▸ hby)
  rw [List.map_cons, hclosed] at hstatus
  cases hstatus

end Samples

end Strimz.MerchantStatus
