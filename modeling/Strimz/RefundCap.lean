import Strimz.RefundSteps

/-!
# The refundable balance

A `create` sums the prior refunds in one statement and inserts in a later one, and nothing
holds the transaction in between. No refund ever leaves the counted statuses, so the total
moves only by inserts, and a request's insert breaks the cap exactly when what the others
inserted since its sum is more than its own check left over.
-/

namespace Strimz.Refunds

open Indexer Tx Runs

variable {env : Env} {w w' : World} {l : Label} {key : TxKey} {t : Int}

/-- The refunds of a transaction take no more than it paid. -/
def World.Capped (w : World) (key : TxKey) : Prop :=
  ∀ tx, w.db.transactions key = some tx → w.priorTotal key ≤ tx.amount

/-- The step inserts the refund of a request that summed `priorTotal`. -/
def World.Inserts (w : World) (l : Label) (req : CreateRequest) (tx : TransactionRow)
    (priorTotal : Nat) : Prop :=
  ∃ k id, l = .insertRefund k id ∧ w.creating[k]? = some (.checked req tx priorTotal) ∧
    ∀ r ∈ w.db.refunds, r.id ≠ id

/-- What other requests inserted since this one summed fits into what its check left over. -/
def World.LeavesRoom (w : World) (req : CreateRequest) (tx : TransactionRow)
    (priorTotal : Nat) : Prop :=
  w.priorTotal req.input.transactionId - priorTotal ≤
    tx.amount - (priorTotal + req.input.amount)

/-- Nothing is under way. -/
structure World.Idle (w : World) : Prop where
  creating : w.creating = []
  signing : w.signing = []

/-! ## The total -/

theorem priorTotal_map {f : RefundRow → RefundRow} (hdetails : w'.details = w.details)
    (hrefunds : w'.db.refunds = w.db.refunds.map f) (hid : ∀ r, (f r).id = r.id)
    (hcounted : ∀ r ∈ w.db.refunds, counted (f r).status = counted r.status) :
    w'.priorTotal key = w.priorTotal key := by
  unfold World.priorTotal
  rw [hrefunds, List.map_map]
  congr 1
  refine List.map_congr_left fun r hr => ?_
  simp only [Function.comp, World.share, hdetails, hid, hcounted r hr]

theorem priorTotal_insert (id : RowId) {req : CreateRequest} (tx : TransactionRow)
    (hfresh : ∀ r ∈ w.db.refunds, r.id ≠ id)
    (hdetails : w'.details = Function.update w.details id (some (refundDetails req tx)))
    (hrefunds : w'.db.refunds = w.db.refunds ++ [refundRow id req tx]) :
    w'.priorTotal key =
      w.priorTotal key + if req.input.transactionId = key then req.input.amount else 0 := by
  have hold : w.db.refunds.map (w'.share key) = w.db.refunds.map (w.share key) := by
    refine List.map_congr_left fun r hr => ?_
    simp only [World.share, hdetails, Function.update_of_ne (hfresh r hr)]
  have hnew : w'.share key (refundRow id req tx) =
      if req.input.transactionId = key then req.input.amount else 0 := by
    simp [World.share, hdetails, refundRow, refundDetails, counted]
  unfold World.priorTotal
  rw [hrefunds, List.map_append, List.sum_append, hold, List.map_singleton, List.sum_singleton,
    hnew]

/-! ## What requests under way know -/

structure World.Sound (w : World) : Prop where
  found : ∀ req tx, .found req tx ∈ w.creating → w.db.transactions req.input.transactionId = some tx
  checked : ∀ req tx priorTotal, .checked req tx priorTotal ∈ w.creating →
    w.db.transactions req.input.transactionId = some tx ∧
      priorTotal ≤ w.priorTotal req.input.transactionId ∧
      priorTotal + req.input.amount ≤ tx.amount
  signing : ∀ call ∈ w.signing, ∀ r ∈ w.db.refunds, r.id = call.refundId → counted r.status

theorem World.Idle.sound (h : w.Idle) : w.Sound where
  found := by simp [h.creating]
  checked := by simp [h.creating]
  signing := by simp [h.signing]

theorem counted_recordHash {call : SubmitCall} {r : RefundRow}
    (h : r.id = call.refundId → counted r.status) :
    counted (recordHash call r).status = counted r.status := by
  unfold recordHash
  split
  · rename_i hid
    rw [h hid]
    rfl
  · rfl

theorem counted_completeRow {refundTxHash : String} {r : RefundRow} :
    counted (completeRow refundTxHash t r).status = counted r.status := by
  unfold completeRow
  split
  · rename_i h
    rw [(completes_iff.mp h).2]
    rfl
  · rfl

/-- An insert adds its amount to the total of its transaction. -/
theorem priorTotal_inserts (env : Env) (key : TxKey) {req : CreateRequest} {tx : TransactionRow} {p : Nat}
    (h : w.Inserts l req tx p) :
    (env.step w l).priorTotal key =
      w.priorTotal key + if req.input.transactionId = key then req.input.amount else 0 := by
  obtain ⟨k, id, rfl, hk, hfresh⟩ := h
  have hany : (w.db.refunds.any fun r => r.id = id) = false := by simpa using hfresh
  refine priorTotal_insert id tx hfresh ?_ ?_ <;>
    simp [Env.step, hk, World.insertRefund, hany]

/-- Only an insert moves the total. -/
theorem priorTotal_moves (key : TxKey) (hs : w.Sound) (hm : Moves w l w') :
    w'.priorTotal key = w.priorTotal key ∨ ∃ req tx p, w.Inserts l req tx p ∧
      w'.priorTotal key =
        w.priorTotal key + if req.input.transactionId = key then req.input.amount else 0 := by
  cases hm with
  | idle | found | checked | dropped | accepted | withdrawn => exact Or.inl rfl
  | inserted hk hfresh =>
      exact Or.inr ⟨_, _, _, ⟨_, _, rfl, hk, hfresh⟩, priorTotal_insert _ _ hfresh rfl rfl⟩
  | recorded hk =>
      refine Or.inl (priorTotal_map rfl rfl (fun _ => recordHash_id) fun r hr => ?_)
      exact counted_recordHash (hs.signing _ (List.mem_of_getElem? hk) r hr)
  | completed =>
      exact Or.inl (priorTotal_map rfl rfl (fun _ => completeRow_id) fun _ _ =>
        counted_completeRow)

theorem priorTotal_le_moves (hs : w.Sound) (hm : Moves w l w') :
    w.priorTotal key ≤ w'.priorTotal key := by
  rcases priorTotal_moves key hs hm with h | ⟨_, _, _, -, h⟩ <;> omega

theorem transactions_moves (hm : Moves w l w') : w'.db.transactions = w.db.transactions := by
  cases hm <;> rfl

theorem findTransaction_ok {req : CreateRequest} {tx : TransactionRow}
    (h : findTransaction w.db req = .ok tx) :
    w.db.transactions req.input.transactionId = some tx := by
  unfold findTransaction at h
  split at h
  · rename_i tx' htx
    split at h
    · split at h
      · cases h
      · rw [htx, Except.ok.inj h]
    · cases h
  · cases h

theorem findRefund_ok {req : SubmitRequest} {r : RefundRow} (h : findRefund w.db req = .ok r) :
    r ∈ w.db.refunds ∧ r.id = req.id ∧ r.status = .awaiting_signature := by
  unfold findRefund at h
  split at h
  · rename_i r' hfind
    have hmem := List.mem_of_find?_eq_some hfind
    have hmatch := List.find?_some hfind
    split at h
    · cases h
    · rename_i hstatus
      obtain rfl := Except.ok.inj h
      simp only [Bool.and_eq_true, decide_eq_true_eq] at hmatch
      exact ⟨hmem, hmatch.1.1, by simpa using hstatus⟩
  · cases h

theorem World.Sound.moves (h : w.Sound) (htable : Table w.db) (hm : Moves w l w') : w'.Sound := by
  have htx := transactions_moves hm
  have hle : ∀ key, w.priorTotal key ≤ w'.priorTotal key := fun key => priorTotal_le_moves h hm
  have hfound : ∀ req tx, .found req tx ∈ w.creating →
      w'.db.transactions req.input.transactionId = some tx := by
    intro req tx hmem
    rw [htx]
    exact h.found req tx hmem
  have hchecked : ∀ req tx p, .checked req tx p ∈ w.creating →
      w'.db.transactions req.input.transactionId = some tx ∧
        p ≤ w'.priorTotal req.input.transactionId ∧ p + req.input.amount ≤ tx.amount := by
    intro req tx p hmem
    obtain ⟨hfind, hp, hfits⟩ := h.checked req tx p hmem
    exact ⟨htx ▸ hfind, hp.trans (hle _), hfits⟩
  cases hm with
  | idle => exact h
  | found hfind =>
      refine ⟨fun req' tx' hmem => ?_, fun req' tx' p hmem => ?_, h.signing⟩
      · rcases List.mem_append.mp hmem with hmem | hmem
        · exact hfound req' tx' hmem
        · obtain ⟨rfl, rfl⟩ := CreateCall.found.inj (List.mem_singleton.mp hmem)
          exact findTransaction_ok hfind
      · rcases List.mem_append.mp hmem with hmem | hmem
        · exact hchecked req' tx' p hmem
        · cases List.mem_singleton.mp hmem
  | checked hk hfits =>
      refine ⟨fun req' tx' hmem => ?_, fun req' tx' p hmem => ?_, h.signing⟩
      · rcases List.mem_or_eq_of_mem_set hmem with hmem | heq
        · exact hfound req' tx' hmem
        · cases heq
      · rcases List.mem_or_eq_of_mem_set hmem with hmem | heq
        · exact hchecked req' tx' p hmem
        · obtain ⟨rfl, rfl, rfl⟩ := CreateCall.checked.inj heq
          exact ⟨h.found _ _ (List.mem_of_getElem? hk), le_rfl, hfits⟩
  | dropped =>
      exact ⟨fun req' tx' hmem => hfound req' tx' (List.mem_of_mem_eraseIdx hmem),
        fun req' tx' p hmem => hchecked req' tx' p (List.mem_of_mem_eraseIdx hmem), h.signing⟩
  | inserted hk hfresh =>
      refine ⟨fun req' tx' hmem => hfound req' tx' (List.mem_of_mem_eraseIdx hmem),
        fun req' tx' p hmem => hchecked req' tx' p (List.mem_of_mem_eraseIdx hmem),
        fun call hcall r hr hid => ?_⟩
      rcases List.mem_append.mp hr with hr | hr
      · exact h.signing call hcall r hr hid
      · rw [List.mem_singleton.mp hr]
        rfl
  | accepted _ hfind =>
      obtain ⟨hmem, -, hstatus⟩ := findRefund_ok hfind
      refine ⟨hfound, hchecked, fun call hcall r hr hid => ?_⟩
      rcases List.mem_append.mp hcall with hcall | hcall
      · exact h.signing call hcall r hr hid
      · rw [List.mem_singleton.mp hcall] at hid
        rw [htable.eq_of_id hr hmem hid, hstatus]
        rfl
  | recorded hk =>
      refine ⟨hfound, hchecked, fun call' hcall' r hr hid => ?_⟩
      obtain ⟨r', hr', rfl⟩ := List.mem_map.mp hr
      rw [recordHash_id] at hid
      rw [counted_recordHash (h.signing _ (List.mem_of_getElem? hk) r' hr')]
      exact h.signing call' (List.mem_of_mem_eraseIdx hcall') r' hr' hid
  | withdrawn =>
      exact ⟨hfound, hchecked, fun call hcall => h.signing call (List.mem_of_mem_eraseIdx hcall)⟩
  | completed =>
      refine ⟨hfound, hchecked, fun call hcall r hr hid => ?_⟩
      obtain ⟨r', hr', rfl⟩ := List.mem_map.mp hr
      rw [← completeRow, completeRow_id] at hid
      rw [← completeRow, counted_completeRow]
      exact h.signing call hcall r' hr' hid

/-! ## Runs -/

theorem sound_stateAt {w₀ : World} {ls : List Label} (hidle : w₀.Idle) (htable : Table w₀.db)
    (n : Nat) : (stateAt env.step w₀ ls n).Sound ∧ Table (stateAt env.step w₀ ls n).db := by
  refine exec_invariant (P := fun w : World => w.Sound ∧ Table w.db) ⟨hidle.sound, htable⟩ ?_
  rintro (w : World) l - ⟨hs, ht⟩
  exact ⟨hs.moves ht (step_moves env w l), ht.moves (step_moves env w l)⟩

/-- An insert keeps the cap of its transaction exactly when there is room. -/
theorem capped_insert {req : CreateRequest} {tx : TransactionRow} {p : Nat} (hs : w.Sound)
    (hi : w.Inserts l req tx p) :
    (env.step w l).Capped req.input.transactionId ↔ w.LeavesRoom req tx p := by
  have htotal := priorTotal_inserts env req.input.transactionId hi
  rw [if_pos rfl] at htotal
  have htransactions := transactions_moves (step_moves env w l)
  obtain ⟨k, id, -, hk, -⟩ := hi
  obtain ⟨htx, hp, hfits⟩ := hs.checked req tx p (List.mem_of_getElem? hk)
  unfold World.Capped World.LeavesRoom
  rw [htransactions, htotal]
  constructor
  · intro h
    have := h tx htx
    omega
  · intro h tx' htx'
    obtain rfl := Option.some.inj (htx.symm.trans htx')
    omega

/-- A step that inserts nothing for a transaction keeps its cap. -/
theorem capped_moves (hs : w.Sound) (hm : Moves w l w') (hcap : w.Capped key)
    (hno : ∀ req tx p, w.Inserts l req tx p → req.input.transactionId ≠ key) :
    w'.Capped key := by
  intro tx htx
  rw [transactions_moves hm] at htx
  have hle := hcap tx htx
  rcases priorTotal_moves key hs hm with h | ⟨req, tx', p, hi, h⟩
  · omega
  · rw [if_neg (hno req tx' p hi)] at h
    omega

/-- The cap holds throughout a run exactly when every insert finds room for what the others
inserted since its request summed. -/
theorem capped_iff_leavesRoom (env : Env) (w₀ : World) (ls : List Label) (hidle : w₀.Idle)
    (htable : Table w₀.db) (hcap : ∀ key, w₀.Capped key) :
    (∀ n key, (stateAt env.step w₀ ls n).Capped key) ↔
      ∀ n l req tx p, ls[n]? = some l → (stateAt env.step w₀ ls n).Inserts l req tx p →
        (stateAt env.step w₀ ls n).LeavesRoom req tx p := by
  have hsound : ∀ n, (stateAt env.step w₀ ls n).Sound := fun n =>
    (sound_stateAt hidle htable n).1
  constructor
  · intro hall n l req tx p hl hi
    have hnext := hall (n + 1) req.input.transactionId
    rw [stateAt_succ _ _ hl] at hnext
    exact (capped_insert (hsound n) hi).mp hnext
  · intro hroom n
    induction n with
    | zero => exact hcap
    | succ n ih =>
        intro key
        cases hl : ls[n]? with
        | none =>
            have hlen : ls.length ≤ n := List.getElem?_eq_none_iff.mp hl
            have hstay := ih key
            rw [stateAt, List.take_of_length_le hlen] at hstay
            rwa [stateAt, List.take_of_length_le (Nat.le_succ_of_le hlen)]
        | some l =>
            rw [stateAt_succ _ _ hl]
            by_cases hi : ∃ req tx p, (stateAt env.step w₀ ls n).Inserts l req tx p ∧
                req.input.transactionId = key
            · obtain ⟨req, tx, p, hi, rfl⟩ := hi
              exact (capped_insert (hsound n) hi).mpr (hroom n l req tx p hl hi)
            · refine capped_moves (hsound n) (step_moves env _ l) (ih key) ?_
              intro req tx p hi' hkey
              exact hi ⟨req, tx, p, hi', hkey⟩

/-! ## Two requests at once -/

def raceKey : TxKey := ⟨0xaa, 0⟩

/-- A confirmed payment of 100. -/
def racePayment : TransactionRow where
  merchantId := [1]
  kind := .one_shot
  status := .confirmed
  sessionId := none
  subscriptionId := none
  subscriptionChargeId := none
  amount := 100
  feeAmount := 1
  netAmount := 99
  currency := .usdc
  payerAddress := 7
  merchantAddress := some 8
  blockNumber := 5
  blockTimestamp := 1700000000
  mode := .live

def paidWorld : World where
  db := { Db.empty with transactions := fun key => if key = raceKey then some racePayment else none }
  details _ := none
  creating := []
  signing := []

def refundEnv : Env where
  tokens _ := some 5
  projector := ⟨.live, fun _ => some .usdc, 5042, fun _ => none, fun _ => none⟩

def fullRefund : CreateRequest :=
  ⟨[1], .live, [9], raceKey, 100, .customer_request, none⟩

/-- Two requests for the whole payment, each summing before the other inserts. -/
def refundRace : List Label :=
  [.findTransaction fullRefund, .findTransaction fullRefund, .sumPriors 0, .sumPriors 1,
   .insertRefund 0 [10], .insertRefund 0 [11]]

theorem paidWorld_table : Table paidWorld.db := ⟨List.nodup_nil, by simp [paidWorld, Db.empty]⟩

theorem paidWorld_capped (key : TxKey) : paidWorld.Capped key := fun _ _ => Nat.zero_le _

/-- Both requests find the balance untouched, and 200 of 100 are refunded. -/
theorem create_exceeds_cap :
    ¬ ∀ (env : Env) (w₀ : World) (ls : List Label), w₀.Idle → Table w₀.db →
      (∀ key, w₀.Capped key) → ∀ n key, (stateAt env.step w₀ ls n).Capped key := by
  intro hclaim
  have hcap := hclaim refundEnv paidWorld refundRace ⟨rfl, rfl⟩ paidWorld_table paidWorld_capped
    6 raceKey racePayment rfl
  have htotal : (stateAt refundEnv.step paidWorld refundRace 6).priorTotal raceKey = 200 := by
    decide +kernel
  rw [htotal] at hcap
  exact absurd hcap (by decide)

theorem capped_iff_leavesRoom_race :
    (∀ n key, (stateAt refundEnv.step paidWorld refundRace n).Capped key) ↔
      ∀ n l req tx p, refundRace[n]? = some l →
        (stateAt refundEnv.step paidWorld refundRace n).Inserts l req tx p →
          (stateAt refundEnv.step paidWorld refundRace n).LeavesRoom req tx p :=
  capped_iff_leavesRoom refundEnv paidWorld refundRace ⟨rfl, rfl⟩ paidWorld_table paidWorld_capped

end Strimz.Refunds
