import Strimz.RefundCap

/-!
# What completes a refund

The indexer completes the refund whose recorded hash is the text of a transfer's
transaction hash, and reads nothing else of the transfer. So a completed refund names a
transaction with some stablecoin transfer in it, whoever it pays.
-/

namespace Strimz.Refunds

open Indexer Tx Runs

variable {env : Env} {w w' : World} {l : Label}

/-! ## What a completed refund shows -/

/-- The step projects the transfer `lg`, whose hash the refund was submitted with. -/
def CompletesAt (env : Env) (w₀ : World) (ls : List Label) (lg : Log) (r : RefundRow) (m : Nat) :
    Prop :=
  (∃ t, ls[m]? = some (.project lg t)) ∧ isTransfer lg ∧
    r.refundTxHash = some (hashText lg.txHash) ∧
      ∃ s ∈ (stateAt env.step w₀ ls m).db.refunds,
        s.id = r.id ∧ s.status = .submitted ∧ s.refundTxHash = r.refundTxHash

/-- A step that completes a row is a transfer of the hash the row waits for; every other
completed row was completed before. -/
theorem completed_moves (hm : Moves w l w') {r : RefundRow} (hr : r ∈ w'.db.refunds)
    (hstatus : r.status = .completed) :
    r ∈ w.db.refunds ∨ ∃ lg t, l = .project lg t ∧ isTransfer lg ∧
      r.refundTxHash = some (hashText lg.txHash) ∧
        ∃ s ∈ w.db.refunds, s.id = r.id ∧ s.status = .submitted ∧
          s.refundTxHash = r.refundTxHash := by
  cases hm with
  | idle | found | checked | dropped | accepted | withdrawn => exact Or.inl hr
  | inserted =>
      rcases List.mem_append.mp hr with hr | hr
      · exact Or.inl hr
      · rw [List.mem_singleton.mp hr] at hstatus
        cases hstatus
  | @recorded _ call =>
      obtain ⟨s, hs, rfl⟩ := List.mem_map.mp hr
      unfold recordHash at hstatus ⊢
      split at hstatus
      · cases hstatus
      · rename_i hid
        rw [if_neg hid]
        exact Or.inl hs
  | @completed lg t _ hlg =>
      obtain ⟨s, hs, rfl⟩ := List.mem_map.mp hr
      by_cases hc : s.completes (hashText lg.txHash)
      · obtain ⟨hhash, hsubmitted⟩ := completes_iff.mp hc
        rw [if_pos hc]
        exact Or.inr ⟨lg, t, rfl, hlg, hhash, s, hs, rfl, hsubmitted, rfl⟩
      · rw [if_neg hc]
        exact Or.inl hs

theorem completedAt_of_completed (env : Env) (w₀ : World) (ls : List Label)
    (hstart : ∀ r ∈ w₀.db.refunds, r.status ≠ .completed) (n : Nat) :
    ∀ r ∈ (stateAt env.step w₀ ls n).db.refunds, r.status = .completed →
      ∃ m < n, ∃ lg, CompletesAt env w₀ ls lg r m := by
  induction n with
  | zero => exact fun r hr hstatus => absurd hstatus (hstart r hr)
  | succ n ih =>
      intro r hr hstatus
      have hearlier : r ∈ (stateAt env.step w₀ ls n).db.refunds →
          ∃ m < n + 1, ∃ lg, CompletesAt env w₀ ls lg r m := by
        intro hr
        obtain ⟨m, hm, lg, hat⟩ := ih r hr hstatus
        exact ⟨m, Nat.lt_succ_of_lt hm, lg, hat⟩
      cases hl : ls[n]? with
      | none =>
          have hlen : ls.length ≤ n := List.getElem?_eq_none_iff.mp hl
          rw [stateAt, List.take_of_length_le (Nat.le_succ_of_le hlen)] at hr
          refine hearlier ?_
          rwa [stateAt, List.take_of_length_le hlen]
      | some l =>
          rw [stateAt_succ _ _ hl] at hr
          rcases completed_moves (step_moves env _ l) hr hstatus with hr | hnow
          · exact hearlier hr
          · obtain ⟨lg, t, rfl, hlg, hhash, hwaited⟩ := hnow
            exact ⟨n, Nat.lt_succ_self n, lg, ⟨t, hl⟩, hlg, hhash, hwaited⟩

theorem table_stateAt {w₀ : World} {ls : List Label} (htable : Table w₀.db) (n : Nat) :
    Table (stateAt env.step w₀ ls n).db :=
  exec_invariant (P := fun w : World => Table w.db) htable fun w l _ h =>
    h.moves (step_moves env w l)

/-- One step completes at most one refund. -/
theorem completed_once (htable : Table w'.db) (hm : Moves w l w') {r s : RefundRow}
    (hr : r ∈ w'.db.refunds) (hs : s ∈ w'.db.refunds) (hrc : r.status = .completed)
    (hsc : s.status = .completed) (hrnew : r ∉ w.db.refunds) (hsnew : s ∉ w.db.refunds) :
    r = s := by
  obtain ⟨lg, t, rfl, -, hrhash, -⟩ := (completed_moves hm hr hrc).resolve_left hrnew
  obtain ⟨lg', t', heq, -, hshash, -⟩ := (completed_moves hm hs hsc).resolve_left hsnew
  obtain ⟨rfl, rfl⟩ := Label.project.inj heq
  exact htable.hashes r hr s hs _ hrhash hshash

/-- A completed refund was submitted with the hash of a transfer the chain contains and that
was projected after; completed refunds have hashes of their own, and one projection completes
at most one. -/
theorem completed_refund_observed (env : Env) (w₀ : World) (ls : List Label) (chain : List Log)
    (htable : Table w₀.db) (hstart : ∀ r ∈ w₀.db.refunds, r.status ≠ .completed)
    (hchain : ∀ lg t, .project lg t ∈ ls → lg ∈ chain) (n : Nat) :
    (∀ r ∈ (stateAt env.step w₀ ls n).db.refunds, r.status = .completed →
        ∃ m < n, ∃ lg ∈ chain, CompletesAt env w₀ ls lg r m) ∧
      (∀ r ∈ (stateAt env.step w₀ ls n).db.refunds, ∀ s ∈ (stateAt env.step w₀ ls n).db.refunds,
        r.status = .completed → s.status = .completed → r.refundTxHash = s.refundTxHash → r = s) ∧
      ∀ r ∈ (stateAt env.step w₀ ls (n + 1)).db.refunds,
        ∀ s ∈ (stateAt env.step w₀ ls (n + 1)).db.refunds,
          r.status = .completed → s.status = .completed →
            r ∉ (stateAt env.step w₀ ls n).db.refunds →
              s ∉ (stateAt env.step w₀ ls n).db.refunds → r = s := by
  have hcompleted := fun n => completedAt_of_completed env w₀ ls hstart n
  refine ⟨fun r hr hrc => ?_, fun r hr s hs hrc _ hhash => ?_, fun r hr s hs hrc hsc hrn hsn => ?_⟩
  · obtain ⟨m, hm, lg, hat⟩ := hcompleted n r hr hrc
    obtain ⟨t, hl⟩ := hat.1
    exact ⟨m, hm, lg, hchain lg t (List.mem_of_getElem? hl), hat⟩
  · obtain ⟨m, -, lg, -, -, hrh, -⟩ := hcompleted n r hr hrc
    exact (table_stateAt htable n).hashes r hr s hs _ hrh (hhash ▸ hrh)
  · cases hl : ls[n]? with
    | none =>
        have hlen : ls.length ≤ n := List.getElem?_eq_none_iff.mp hl
        rw [stateAt, List.take_of_length_le (Nat.le_succ_of_le hlen)] at hr
        rw [stateAt, List.take_of_length_le hlen] at hrn
        exact absurd hr hrn
    | some l =>
        have hmoves := step_moves env (stateAt env.step w₀ ls n) l
        rw [← stateAt_succ env.step w₀ hl] at hmoves
        exact completed_once (table_stateAt htable (n + 1)) hmoves hr hs hrc hsc hrn hsn

/-! ## A hash of somebody else's transfer -/

/-- The payout wallet the signing instructions speak of. -/
def MerchantSide (db : Db) (merchantId : RowId) (a : Address) : Prop :=
  ∃ m ∈ db.merchants, m.id = merchantId ∧ m.payoutAddress = some a

/-- The chain holds the transfer the refund asks for, in the transaction it names. -/
def Repaid (env : Env) (chain : List Log) (w : World) (r : RefundRow) : Prop :=
  ∃ d, w.details r.id = some d ∧ ∃ lg ∈ chain, r.refundTxHash = some (hashText lg.txHash) ∧
    env.tokens d.currency = some lg.address ∧ ∃ from_ value,
      lg.decoded = .event (.erc20Transfer from_ d.payerAddress value) ∧
        MerchantSide w.db r.merchantId from_ ∧ d.amount ≤ value

/-- One unit between two strangers. -/
def strayTransfer : Log where
  address := 5
  blockNumber := 9
  txHash := 0xfe
  index := 0
  decoded := .event (.erc20Transfer 3 4 1)

def strayRun : List Label :=
  [.findTransaction fullRefund, .sumPriors 0, .insertRefund 0 [10],
   .findRefund ⟨[1], .live, [10], hashText 0xfe⟩, .recordHash 0, .project strayTransfer 1700000100]

theorem strayRun_projects (lg : Log) (t : Int) (h : Label.project lg t ∈ strayRun) :
    lg ∈ [strayTransfer] := by
  simp [strayRun] at h
  simp [h.1]

/-- The refund of 100 to the payer is completed by the stranger's transfer. -/
theorem stray_transfer_completes :
    ¬ ∀ (env : Env) (w₀ : World) (ls : List Label) (chain : List Log), w₀.Idle → Table w₀.db →
      (∀ r ∈ w₀.db.refunds, r.status ≠ .completed) →
        (∀ lg t, .project lg t ∈ ls → lg ∈ chain) →
          ∀ n, ∀ r ∈ (stateAt env.step w₀ ls n).db.refunds, r.status = .completed →
            Repaid env chain (stateAt env.step w₀ ls n) r := by
  intro hclaim
  have hrun : (stateAt refundEnv.step paidWorld strayRun 6).db.refunds =
      [⟨[10], [1], some (hashText 0xfe), .completed, .live, some 1700000100⟩] := by
    decide +kernel
  have hdetails : (stateAt refundEnv.step paidWorld strayRun 6).details [10] =
      some (refundDetails fullRefund racePayment) := by
    decide +kernel
  have hrepaid := hclaim refundEnv paidWorld strayRun [strayTransfer] ⟨rfl, rfl⟩ paidWorld_table
    (by simp [paidWorld, Db.empty]) strayRun_projects 6
    ⟨[10], [1], some (hashText 0xfe), .completed, .live, some 1700000100⟩
    (by rw [hrun]; exact List.mem_singleton_self _) rfl
  obtain ⟨d, hd, lg, hlg, -, -, from_, value, hdecoded, -, -⟩ := hrepaid
  rw [hdetails] at hd
  obtain rfl := Option.some.inj hd
  rw [List.mem_singleton.mp hlg] at hdecoded
  have hpayer := (Payload.erc20Transfer.inj (Decoded.event.inj hdecoded)).2.1
  exact absurd hpayer (by decide)

theorem completed_refund_observed_stray :
    (∀ r ∈ (stateAt refundEnv.step paidWorld strayRun 6).db.refunds, r.status = .completed →
        ∃ m < 6, ∃ lg ∈ [strayTransfer], CompletesAt refundEnv paidWorld strayRun lg r m) ∧
      (∀ r ∈ (stateAt refundEnv.step paidWorld strayRun 6).db.refunds,
        ∀ s ∈ (stateAt refundEnv.step paidWorld strayRun 6).db.refunds,
          r.status = .completed → s.status = .completed → r.refundTxHash = s.refundTxHash → r = s) ∧
      ∀ r ∈ (stateAt refundEnv.step paidWorld strayRun 7).db.refunds,
        ∀ s ∈ (stateAt refundEnv.step paidWorld strayRun 7).db.refunds,
          r.status = .completed → s.status = .completed →
            r ∉ (stateAt refundEnv.step paidWorld strayRun 6).db.refunds →
              s ∉ (stateAt refundEnv.step paidWorld strayRun 6).db.refunds → r = s :=
  completed_refund_observed refundEnv paidWorld strayRun [strayTransfer] paidWorld_table
    (by simp [paidWorld, Db.empty]) strayRun_projects 6

end Strimz.Refunds
