import Strimz.MirrorSteps

/-!
# When the merchant row mirrors the registry

Every log sets what it sets in the row as well, and a row is linked before the first log that
matters to it is projected; so the three columns follow the registry as long as nobody else
writes a payout address into a linked row, and a row has the registry's payout address when it is
linked (`mirrors_run`).
-/

namespace Strimz.MerchantMirror

open Indexer Replica Runs

/-! ## The invariant -/

/-- A linked row, with its columns in step. -/
structure RowInStep (w : World) (m : MerchantRow) (id : Nat) : Prop where
  linked : m.onchainMerchantId = some (id : Int)
  known : id < w.registry.nextMerchantId
  payoutAddress : w.PayoutInStep id m.payoutAddress
  onchainFeeBps : w.FeeInStep id m.onchainFeeBps
  onchainMaxFeeBps : w.MaxFeeInStep id m.onchainMaxFeeBps

/-- `fits`: no registration past the range of the column is ever projected, so no log of such a
merchant is. -/
structure Inv (w : World) : Prop where
  history : Registry.History w.registry
  logs : w.registry.logs = w.chain.map (·.event)
  cursor : w.cursor ≤ w.registry.logs.length
  fits : ∀ i < w.cursor, ∀ e, w.registry.logs[i]? = some e → e.registers ≠ some (MAX_INT4 + 1)
  rows : ∀ m ∈ w.db.merchants, m.onchainMerchantId ≠ none → ∃ id, RowInStep w m id

theorem Inv.start (hasRole : RoleTable) (db : Db) (profiles : RowId → Profile) :
    Inv (start hasRole db profiles) where
  history := .deployed hasRole
  logs := rfl
  cursor := Nat.le_refl 0
  fits i hi := absurd hi (Nat.not_lt_zero i)
  rows _ hm := absurd hm List.not_mem_nil

theorem Inv.mirrors {w : World} (h : Inv w) : Mirrors w := by
  intro m hm id hid hprojected
  obtain ⟨i, hi, rfl⟩ := Option.map_eq_some_iff.mp hid
  obtain ⟨n, hrow⟩ := h.rows m hm (by rw [hi]; exact nofun)
  obtain rfl : i = n := Option.some.inj (hi.symm.trans hrow.linked)
  rw [Int.toNat_natCast] at hprojected ⊢
  have hquiet {α : Type} {sets : Registry.Event → Option α}
      (hsets : ∀ e : Registry.Event, e.merchantId ≠ n → sets e = none) :
      Quiet sets (w.registry.logs.drop w.cursor) := by
    intro e he
    rw [h.logs, ← List.map_drop] at he
    obtain ⟨x, hx, rfl⟩ := List.mem_map.mp he
    exact hsets _ (hprojected x hx)
  exact ⟨hrow.payoutAddress (hquiet fun _ => Registry.setsPayout_of_ne),
    hrow.onchainFeeBps (hquiet fun _ => Registry.setsFee_of_ne),
    hrow.onchainMaxFeeBps (hquiet fun _ => Registry.setsMaxFee_of_ne)⟩

section Step

variable {env : Env} {w w' : World}

/-- The registry, its log and how much of it is projected. -/
def World.ledger (w : World) : Registry.Storage × List LogEntry × Nat :=
  (w.registry, w.chain, w.cursor)

theorem RowInStep.of_ledger {m : MerchantRow} {id : Nat} (h : RowInStep w m id)
    (hledger : w'.ledger = w.ledger) : RowInStep w' m id := by
  obtain ⟨hregistry, hrest⟩ := Prod.mk.inj hledger
  obtain ⟨-, hcursor⟩ := Prod.mk.inj hrest
  obtain ⟨hlinked, hknown, hpayout, hfee, hmax⟩ := h
  refine ⟨hlinked, by rwa [hregistry], ?_, ?_, ?_⟩
  · rwa [World.PayoutInStep, hregistry, hcursor]
  · rwa [World.FeeInStep, hregistry, hcursor]
  · rwa [World.MaxFeeInStep, hregistry, hcursor]

/-- A step of the API: the chain stands still, and every row that is linked is in step. -/
theorem Inv.of_rows (h : Inv w) (hledger : w'.ledger = w.ledger)
    (hrows : ∀ m ∈ w'.db.merchants, m.onchainMerchantId ≠ none → ∃ id, RowInStep w m id) :
    Inv w' := by
  obtain ⟨hregistry, hrest⟩ := Prod.mk.inj hledger
  obtain ⟨hchain, hcursor⟩ := Prod.mk.inj hrest
  refine ⟨by rw [hregistry]; exact h.history, by rw [hregistry, hchain]; exact h.logs,
    by rw [hregistry, hcursor]; exact h.cursor, by rw [hregistry, hcursor]; exact h.fits,
    fun m hm hlinked => ?_⟩
  obtain ⟨id, hrow⟩ := hrows m hm hlinked
  exact ⟨id, hrow.of_ledger hledger⟩

theorem Inv.same (h : Inv w) (hledger : w'.ledger = w.ledger)
    (hmerchants : w'.db.merchants = w.db.merchants) : Inv w' :=
  h.of_rows hledger fun m hm => h.rows m (hmerchants ▸ hm)

/-- One row rewritten. -/
theorem Inv.updateRow (h : Inv w) (merchantId : RowId) {set : MerchantRow → MerchantRow}
    (hledger : w'.ledger = w.ledger)
    (hmerchants : w'.db.merchants = (w.updateRow merchantId set).db.merchants)
    (hset : ∀ m ∈ w.db.merchants, m.id = merchantId → (set m).onchainMerchantId ≠ none →
      ∃ id, RowInStep w (set m) id) : Inv w' := by
  refine h.of_rows hledger fun m hm hlinked => ?_
  rw [hmerchants] at hm
  obtain ⟨m₀, hm₀, rfl⟩ := List.mem_map.mp hm
  split at hlinked
  · rename_i hid
    rw [if_pos hid]
    exact hset m₀ hm₀ hid hlinked
  · rename_i hid
    rw [if_neg hid]
    exact h.rows m₀ hm₀ hlinked

/-- A payout address written with care. -/
theorem Inv.setPayout (h : Inv w) {merchantId : RowId} {payoutAddress : Option Address}
    (hkeeps : w.KeepsPayout merchantId payoutAddress) (hledger : w'.ledger = w.ledger)
    (hmerchants : w'.db.merchants = (w.updateRow merchantId fun m =>
      { m with payoutAddress := payoutAddress }).db.merchants) : Inv w' := by
  refine h.updateRow merchantId hledger hmerchants fun m hm hid hlinked => ?_
  obtain ⟨id, hrow⟩ := h.rows m hm hlinked
  have hmem : id ∈ onchainId m := by
    rw [onchainId, hrow.linked]
    rfl
  exact ⟨id, hrow.linked, hrow.known, hkeeps m hm hid id hmem, hrow.onchainFeeBps,
    hrow.onchainMaxFeeBps⟩

/-! ## The registry moves -/

theorem entries_event (at_ : Inclusion) (blockTime : Uint64) (events : List Registry.Event) :
    (entries at_ blockTime events).map (·.event) = events := by
  rw [entries, List.map_map]
  exact List.zipIdx_map_fst 0 events

theorem Inv.execute (h : Inv w) (msg : Msg) (action : Registry.Action) (at_ : Inclusion) :
    Inv (w.execute msg action at_) := by
  obtain ⟨new, heffect⟩ := Registry.effect_step h.history.fees ⟨msg, action⟩
  have hlen : w.chain.length = w.registry.logs.length := by rw [h.logs, List.length_map]
  have hregistry : (w.execute msg action at_).registry =
    Registry.step w.registry ⟨msg, action⟩ := rfl
  refine ⟨h.history.step _, ?_, ?_, fun i hi e he => ?_, fun m hm hlinked => ?_⟩
  · show (Registry.step w.registry ⟨msg, action⟩).logs =
      (w.chain ++ entries at_ msg.timestamp
        ((Registry.step w.registry ⟨msg, action⟩).logs.drop w.chain.length)).map (·.event)
    rw [List.map_append, entries_event, heffect.logs, hlen, List.drop_left, h.logs]
  · show w.cursor ≤ (Registry.step w.registry ⟨msg, action⟩).logs.length
    rw [heffect.logs, List.length_append]
    exact Nat.le_add_right_of_le h.cursor
  · have hold : i < w.registry.logs.length := Nat.lt_of_lt_of_le hi h.cursor
    have he' : (Registry.step w.registry ⟨msg, action⟩).logs[i]? = some e := he
    rw [heffect.logs, List.getElem?_append_left hold] at he'
    exact h.fits i hi e he'
  · obtain ⟨id, hrow⟩ := h.rows m hm hlinked
    refine ⟨id, hrow.linked, Nat.lt_of_lt_of_le hrow.known heffect.next, ?_, ?_, ?_⟩
    · rw [World.PayoutInStep, hregistry, heffect.logs, heffect.payout id hrow.known]
      exact hrow.payoutAddress.append h.cursor new
    · rw [World.FeeInStep, hregistry, heffect.logs, heffect.fee id]
      exact hrow.onchainFeeBps.append h.cursor new
    · rw [World.MaxFeeInStep, hregistry, heffect.logs, heffect.maxFee id]
      exact hrow.onchainMaxFeeBps.append h.cursor new

/-! ## The indexer moves -/

/-- Merchants are registered in order, so one past the range of the column is behind the log that
can not be projected. -/
theorem Inv.event_fits (h : Inv w) {e : Registry.Event}
    (he : w.registry.logs[w.cursor]? = some e) (hint4 : ∀ id ∈ e.registers, Int4 id) :
    e.merchantId ≤ MAX_INT4 := by
  by_contra hlarge
  obtain ⟨j, hj, r, hr, hreg⟩ := h.history.order w.cursor e he (MAX_INT4 + 1) (by omega) (by omega)
  rcases Nat.lt_or_eq_of_le hj with hlt | rfl
  · exact h.fits j hlt r hr hreg
  · obtain rfl : r = e := Option.some.inj (hr.symm.trans he)
    have hle := (hint4 _ hreg).2
    rw [int64_of_lt (by rw [MAX_INT4]; omega)] at hle
    omega

theorem Inv.project (h : Inv w) {x : LogEntry} {db : Db} (hx : w.chain[w.cursor]? = some x)
    (hmerchants : db.merchants = w.db.merchants.map (mirror x))
    (hint4 : ∀ id ∈ x.event.registers, Int4 id)
    (hcareful : ∀ id ∈ x.event.registers, ∀ m ∈ w.db.merchants, m.onchainMerchantId = none →
      m.onchainRegistrationTxHash = some x.at_.txHash → w.PayoutInStep id m.payoutAddress) :
    Inv { w with db := db, cursor := w.cursor + 1 } := by
  have he : w.registry.logs[w.cursor]? = some x.event := by
    rw [h.logs, List.getElem?_map, hx]
    rfl
  have hsmall := h.event_fits he hint4
  have hcursor : w.cursor < w.registry.logs.length := (List.getElem?_eq_some_iff.mp he).1
  refine ⟨h.history, h.logs, hcursor, fun i hi e hei => ?_, fun m hm hlinked => ?_⟩
  · rcases Nat.lt_or_eq_of_le (Nat.lt_succ_iff.mp hi) with hlt | rfl
    · exact h.fits i hlt e hei
    · obtain rfl : x.event = e := Option.some.inj (he.symm.trans hei)
      intro hreg
      have hle := (hint4 _ hreg).2
      rw [int64_of_lt (by rw [MAX_INT4]; omega)] at hle
      omega
  · dsimp only at hm
    rw [hmerchants] at hm
    obtain ⟨m₀, hm₀, rfl⟩ := List.mem_map.mp hm
    have hread (id : Nat) (hknown : id < w.registry.nextMerchantId)
        (hlink : (mirror x m₀).onchainMerchantId = some (id : Int)) {copy : Option Address}
        {fee maxFee : Option Uint16} (hpayout : w.PayoutInStep id copy)
        (hfee : w.FeeInStep id fee) (hmax : w.MaxFeeInStep id maxFee)
        (hp : (mirror x m₀).payoutAddress = (Registry.setsPayout id x.event).or copy)
        (hf : (mirror x m₀).onchainFeeBps = (Registry.setsFee id x.event).or fee)
        (hM : (mirror x m₀).onchainMaxFeeBps = (Registry.setsMaxFee id x.event).or maxFee) :
        RowInStep { w with db := db, cursor := w.cursor + 1 } (mirror x m₀) id := by
      obtain ⟨_, hsource⟩ := h.history.payout id
      obtain ⟨_, hfees⟩ := h.history.fee id
      obtain ⟨_, hmaxFees⟩ := h.history.maxFee id
      refine ⟨hlink, hknown, ?_, ?_, ?_⟩
      · rw [hp]
        exact InStep.read hpayout (hsource hknown) he
      · rw [hf]
        exact InStep.read hfee hfees he
      · rw [hM]
        exact InStep.read hmax hmaxFees he
    cases hm₀l : m₀.onchainMerchantId with
    | some i =>
        obtain ⟨id, hrow⟩ := h.rows m₀ hm₀ (by rw [hm₀l]; exact Option.some_ne_none i)
        obtain ⟨hlink, hp, hf, hM⟩ := mirror_linked hsmall hrow.linked
        exact ⟨id, hread id hrow.known hlink hrow.payoutAddress hrow.onchainFeeBps
          hrow.onchainMaxFeeBps hp hf hM⟩
    | none =>
        rcases mirror_unlinked hsmall hm₀l with hnone | ⟨n, hreg, hhash, hlink, hp, hf, hM, hsf, hsM⟩
        · exact absurd hnone hlinked
        · have hknown : n < w.registry.nextMerchantId := by
            rw [← Registry.merchantId_of_registers hreg]
            exact h.history.ids _ (List.mem_of_getElem? he)
          exact ⟨n, hread n hknown hlink (hcareful n hreg m₀ hm₀ hm₀l hhash)
            (InStep.of_sets he hsf) (InStep.of_sets he hsM) hp hf hM⟩

/-! ## The API moves -/

/-- A receipt of the registry names an id that was handed out. -/
theorem Inv.decoded_known (h : Inv w) {txHash : Bytes32} {id : Nat}
    (hid : decodeMerchantRegisteredId (w.logsOf txHash) = some id) :
    id < w.registry.nextMerchantId := by
  have hknown : ∀ x ∈ w.logsOf txHash, x.event.merchantId < w.registry.nextMerchantId := by
    intro x hx
    refine h.history.ids x.event ?_
    rw [h.logs]
    exact List.mem_map_of_mem (List.mem_of_mem_filter hx)
  unfold decodeMerchantRegisteredId at hid
  split at hid
  · rename_i n hfound
    obtain ⟨x, hx, hreg⟩ := List.exists_of_findSome?_eq_some hfound
    obtain rfl := Option.some.inj hid
    exact Registry.merchantId_of_registers hreg ▸ hknown x hx
  · obtain ⟨x, hx, rfl⟩ := Option.map_eq_some_iff.mp hid
    exact hknown x (List.mem_of_head? hx)

theorem link_eq_some {merchantId : RowId} {id : Nat} (h : w.link merchantId id = some w') :
    w' = w.updateRow merchantId fun m =>
      if m.onchainMerchantId = none then { m with onchainMerchantId := some (id : Int) } else m := by
  unfold World.link at h
  split at h
  · cases h
  · split at h
    · cases h
    · exact (Option.some.inj h).symm

theorem Inv.link (h : Inv w) {merchantId : RowId} {id : Nat} {w₁ : World}
    (hlink : w.link merchantId id = some w₁) (hknown : id < w.registry.nextMerchantId)
    (hcareful : w.LinksInStep merchantId id) (jobs : List Job) :
    Inv { w₁ with jobs := jobs } := by
  obtain rfl := link_eq_some hlink
  refine h.updateRow merchantId rfl rfl fun m hm hid hlinked => ?_
  split
  · rename_i hnone
    obtain ⟨hpayout, hfee, hmax⟩ := hcareful m hm hid hnone
    exact ⟨id, rfl, hknown, hpayout, hfee, hmax⟩
  · rename_i hsome
    exact h.rows m hm hsome

theorem settle_same (k : Nat) (j : Job) (m : RegistrationCandidate) (seen : Bool) :
    (w.settle k j m seen).ledger = w.ledger ∧
      (w.settle k j m seen).db.merchants = w.db.merchants := by
  unfold World.settle
  dsimp only
  cases World.prepare j.merchantId m with
  | error e =>
      split
      · exact ⟨rfl, rfl⟩
      · split <;> exact ⟨rfl, rfl⟩
      · exact ⟨rfl, rfl⟩
  | ok call =>
      split
      · exact ⟨rfl, rfl⟩
      · split <;> exact ⟨rfl, rfl⟩
      · split <;> exact ⟨rfl, rfl⟩

/-- Of an attempt's statements, two write the row: the transaction hash, and the link. -/
theorem Inv.jobStep (h : Inv w) {k : Nat} {j : Job} {s : JobStep} (hj : w.jobs[k]? = some j)
    (hcareful : Careful env w (.job k s)) : Inv (w.jobStep k j s) := by
  unfold World.jobStep
  dsimp only
  split
  · split
    · exact h.same rfl rfl
    · split <;> exact h.same rfl rfl
  · exact h.same (settle_same k j _ _).1 (settle_same k j _ _).2
  · exact h.same rfl rfl
  · split
    · exact h.same rfl rfl
    · refine h.updateRow j.merchantId rfl rfl fun m hm _ hlinked => ?_
      obtain ⟨id, hrow⟩ := h.rows m hm hlinked
      exact ⟨id, hrow.linked, hrow.known, hrow.payoutAddress, hrow.onchainFeeBps,
        hrow.onchainMaxFeeBps⟩
  · split <;> exact h.same rfl rfl
  · split <;> exact h.same rfl rfl
  · rename_i ok txHash hstage
    split
    · exact h.same rfl rfl
    · rename_i id hid
      split
      · exact h.same rfl rfl
      · rename_i hok
        split
        · exact h.same rfl rfl
        · rename_i w₁ hlink
          refine h.link hlink (h.decoded_known hid) ?_ _
          obtain ⟨merchantId, broadcast, stage⟩ := j
          dsimp only at hstage hlink ⊢
          subst hstage
          simp only [Careful, hj, hid] at hcareful
          exact hcareful ⟨by simpa using hok, by rw [hlink]; rfl⟩
  · exact h.same rfl rfl
  · exact h.same rfl rfl

theorem Inv.syncWrite (h : Inv w) {k : Nat} {t : SyncTask} {newId : RowId}
    (hcareful : ∀ merchantId payoutAddress, t.existing = some (merchantId, payoutAddress) →
      w.KeepsPayout merchantId (payoutAddress.or t.wallet)) : Inv (w.syncWrite k t newId) := by
  unfold World.syncWrite
  dsimp only
  split
  · rename_i merchantId payoutAddress hexisting
    exact h.setPayout (hcareful merchantId payoutAddress hexisting) rfl rfl
  · split
    · exact h.same rfl rfl
    · split
      · exact h
      · refine h.of_rows rfl fun m hm hlinked => ?_
        rcases List.mem_append.mp hm with hold | hnew
        · exact h.rows m hold hlinked
        · rw [List.mem_singleton.mp hnew] at hlinked
          exact absurd rfl hlinked

theorem Inv.step (h : Inv w) {l : Label} (hl : Careful env w l) :
    Inv (MerchantMirror.step env w l) := by
  cases l with
  | transact msg action at_ => exact h.execute msg action at_
  | mine k timestamp blockNumber firstLogIndex =>
      rw [MerchantMirror.step]
      split
      · exact h
      · rename_i txHash call _
        have hsent : Inv { w with sent := w.sent.eraseIdx k } := h.same rfl rfl
        exact hsent.execute _ _ _
  | project =>
      rw [MerchantMirror.step]
      split
      · exact h
      · rename_i x hx
        split
        · exact h
        · rename_i db hok
          obtain ⟨hmerchants, hint4⟩ := project_eq_ok hok
          simp only [Careful, hx, hok] at hl
          exact h.project hx hmerchants hint4 (hl rfl)
  | update merchantId payoutAddress =>
      cases payoutAddress with
      | none => exact h
      | some p => exact h.setPayout hl rfl rfl
  | onboard merchantId payoutAddress => exact h.setPayout hl rfl rfl
  | changeTier merchantId tier => exact h.same rfl rfl
  | sync privyUserId wallet =>
      rw [MerchantMirror.step, World.sync]
      split <;> exact h.same rfl rfl
  | syncWrite k newId ok =>
      rw [MerchantMirror.step]
      split
      · exact h
      · rename_i t ht
        split
        · exact h.same rfl rfl
        · rename_i hok
          refine h.syncWrite fun merchantId payoutAddress hexisting => ?_
          obtain ⟨privyUserId, wallet, walletAddress, existing⟩ := t
          dsimp only at hexisting
          subst hexisting
          simp only [Careful, ht] at hl
          exact hl (by simpa using hok)
  | enqueue merchantId =>
      rw [MerchantMirror.step]
      split
      · exact h
      · split <;> exact h.same rfl rfl
  | job k s =>
      rw [MerchantMirror.step]
      split
      · exact h
      · rename_i j hj
        exact h.jobStep hj hl

end Step

/-! ## Runs -/

/-- As long as every write of a payout address and every link is careful, a linked row says what
the registry says whenever the logs of its merchant are projected. -/
theorem mirrors_run (env : Env) (hasRole : RoleTable) (db : Db) (profiles : RowId → Profile)
    (run : List Label)
    (hcareful : ∀ n l, run[n]? = some l →
      Careful env (stateAt (step env) (start hasRole db profiles) run n) l) (n : Nat) :
    Mirrors (stateAt (step env) (start hasRole db profiles) run n) := by
  refine Inv.mirrors (stateAt_induct (m := 0) (P := Inv) (Inv.start hasRole db profiles)
    (fun n l _ hl ih => ?_) (Nat.zero_le n))
  exact ih.step (hcareful n l hl)

instance {α : Type} [DecidableEq α] (sets : Registry.Event → Option α) (log : List Registry.Event)
    (n : Nat) (source : α) (copy : Option α) : Decidable (InStep sets log n source copy) :=
  inferInstanceAs (Decidable (Quiet sets (log.drop n) → copy = some source))

instance (w : World) (id : Nat) (p : Option Address) : Decidable (w.PayoutInStep id p) :=
  inferInstanceAs (Decidable (InStep _ _ _ _ _))

instance (w : World) (id : Nat) (fee : Option Uint16) : Decidable (w.FeeInStep id fee) :=
  inferInstanceAs (Decidable (InStep _ _ _ _ _))

instance (w : World) (id : Nat) (fee : Option Uint16) : Decidable (w.MaxFeeInStep id fee) :=
  inferInstanceAs (Decidable (InStep _ _ _ _ _))

instance (w : World) (id : RowId) (p : Option Address) : Decidable (w.KeepsPayout id p) :=
  inferInstanceAs (Decidable (∀ m ∈ w.db.merchants, m.id = id →
    ∀ id ∈ onchainId m, w.PayoutInStep id p))

instance (w : World) (merchantId : RowId) (id : Nat) : Decidable (w.LinksInStep merchantId id) :=
  inferInstanceAs (Decidable (∀ m ∈ w.db.merchants, m.id = merchantId →
    m.onchainMerchantId = none → _ ∧ _ ∧ _))

instance (env : Env) (w : World) (l : Label) : Decidable (Careful env w l) := by
  unfold Careful
  split
  · infer_instance
  · infer_instance
  · split <;> infer_instance
  · split <;> infer_instance
  · split
    · split <;> infer_instance
    · infer_instance
  · infer_instance

section Samples

def deployment : Env where
  projector := ⟨.live, fun _ => none, 1, fun _ => none, fun _ => none⟩
  registry := 7
  relayer := 9

/-- The relayer has every role. -/
def launched : World := start (fun _ account => account = 9) Db.empty fun _ => ⟨"", none, false, .free⟩

/-- A login, the onboarding form, and a registration job up to the broadcast. -/
def applied : List Label :=
  [.sync "did:privy:1" (some 1), .syncWrite 0 [1] true, .onboard [1] 2, .changeTier [1] .starter,
   .enqueue [1], .job 0 .start, .job 0 (.settle true), .job 0 (.sign 77), .job 0 (.record true),
   .job 0 (.send true)]

/-- The transaction is mined, and the row linked by whoever comes first. -/
def registered : List Label := [.mine 0 1000 1 0, .job 0 .receipt, .project, .job 0 (.link true)]

/-- The payout address and the fee change on chain. -/
def moved : List Label :=
  [.transact ⟨1, 2000⟩ (.setPayoutAddress 1 3) ⟨78, 2, 0⟩,
   .transact ⟨1, 100000⟩ (.commitPayoutAddress 1) ⟨79, 3, 0⟩,
   .transact ⟨9, 100001⟩ (.setFeeBps 1 10) ⟨80, 4, 0⟩, .project, .project, .project]

theorem mirrors_run_moved :
    Mirrors (stateAt (step deployment) launched (applied ++ registered ++ moved) 20) ∧
      (stateAt (step deployment) launched (applied ++ registered ++ moved) 20).db.merchants.map
        (fun m => (onchainId m, m.payoutAddress, m.onchainFeeBps, m.onchainMaxFeeBps)) =
          [(some 1, some 3, some 10, some 50)] := by
  have hall : ∀ n, (h : n < (applied ++ registered ++ moved).length) →
      Careful deployment (stateAt (step deployment) launched (applied ++ registered ++ moved) n)
        (applied ++ registered ++ moved)[n] := by decide +kernel
  refine ⟨mirrors_run deployment _ _ _ (applied ++ registered ++ moved) (fun n l hl => ?_) 20,
    by decide +kernel⟩
  obtain ⟨hn, rfl⟩ := List.getElem?_eq_some_iff.mp hl
  exact hall n hn

/-- A row that was linked to merchant `1` with the payout address `2`, when its profile says
another one: edited after the registration, or between the job's read of the row and the link. -/
theorem profile_edit_breaks_mirror :
    ¬ Mirrors (stateAt (step deployment) launched
        (applied ++ registered ++ [.update [1] (some 5)]) 15) ∧
      ¬ Mirrors (stateAt (step deployment) launched
        (applied ++ [.update [1] (some 5)] ++ registered) 15) := by
  have hbroken (w : World) (hrows : w.db.merchants.map (fun m => (onchainId m, m.payoutAddress)) =
      [(some 1, some 5)]) (hchain : w.chain.drop w.cursor = [])
      (hpayout : (w.registry.merchants 1).payoutAddress = 2) : ¬ Mirrors w := by
    intro h
    obtain ⟨m, hm, hmap⟩ := List.map_eq_singleton_iff.mp hrows
    obtain ⟨hid, hrow⟩ := Prod.mk.inj hmap
    have hmirrored := h m (by rw [hm]; exact List.mem_cons_self) 1 hid fun x hx => by
      rw [hchain] at hx
      cases hx
    have heq := hmirrored.payoutAddress
    rw [hrow, hpayout] at heq
    exact absurd heq (by decide)
  exact ⟨hbroken _ (by decide +kernel) (by decide +kernel) (by decide +kernel),
    hbroken _ (by decide +kernel) (by decide +kernel) (by decide +kernel)⟩

end Samples

end Strimz.MerchantMirror
