import Strimz.ProjectionSteps
import Strimz.Refunds

/-!
# What a step does to the refund table

The primary key and the unique hash index hold in every state (`Table`). Rows are only ever
added, by an insert, and changed in two ways: a recorded hash, and a completion, which hits
one row at most because no two rows hold one hash.
-/

namespace Strimz.Refunds

open Indexer Tx

variable {env : Env} {w : World} {db : Db} {l : Label} {lg : Log} {t : Int} {r s : RefundRow}

/-! ## The unique indexes -/

structure Table (db : Db) : Prop where
  ids : (db.refunds.map (·.id)).Nodup
  hashes : ∀ r ∈ db.refunds, ∀ s ∈ db.refunds, ∀ hash, r.refundTxHash = some hash →
    s.refundTxHash = some hash → r = s

theorem Table.eq_of_id (h : Table db) (hr : r ∈ db.refunds) (hs : s ∈ db.refunds)
    (hid : r.id = s.id) : r = s :=
  List.inj_on_of_nodup_map h.ids hr hs hid

/-- A change row by row that keeps the ids keeps the table, if it makes no two hashes equal. -/
theorem Table.mapRefunds (h : Table db) {f : RefundRow → RefundRow} (hid : ∀ r, (f r).id = r.id)
    (hhash : ∀ r ∈ db.refunds, ∀ s ∈ db.refunds, ∀ hash, (f r).refundTxHash = some hash →
      (f s).refundTxHash = some hash → r = s) : Table (db.mapRefunds f) where
  ids := by
    have hmap : (db.mapRefunds f).refunds.map (·.id) = db.refunds.map (·.id) := by
      simp [Function.comp_def, hid]
    rw [hmap]
    exact h.ids
  hashes := by
    intro r hr s hs hash hrh hsh
    obtain ⟨a, ha, rfl⟩ := List.mem_map.mp hr
    obtain ⟨b, hb, rfl⟩ := List.mem_map.mp hs
    rw [hhash a ha b hb hash hrh hsh]

/-! ## Completions -/

/-- The row that the hash `refundTxHash` completes, as the statement writes it. -/
def completeRow (refundTxHash : String) (t : Int) (r : RefundRow) : RefundRow :=
  if r.completes refundTxHash then { r with status := .completed, completedAt := some t } else r

theorem completes_iff {refundTxHash : String} :
    r.completes refundTxHash = true ↔
      r.refundTxHash = some refundTxHash ∧ r.status = .submitted := by
  simp [RefundRow.completes]

/-- A transfer completes the one row that waits for its hash, or does nothing. -/
theorem commit_apply_transfer (hlg : isTransfer lg = true) :
    (commit (env.projector.apply lg t) db = db ∧
        (IsDate t → ∀ r ∈ db.refunds, ¬ r.completes (hashText lg.txHash))) ∨
      ∃ r ∈ db.refunds, IsDate t ∧ r.completes (hashText lg.txHash) ∧
        commit (env.projector.apply lg t) db = db.completeRefund (hashText lg.txHash) t r := by
  have happly : ∃ from_ to_ value, lg.decoded = .event (.erc20Transfer from_ to_ value) := by
    unfold isTransfer at hlg
    split at hlg
    · rename_i from_ to_ value heq
      exact ⟨from_, to_, value, heq⟩
    · cases hlg
  obtain ⟨from_, to_, value, hdecoded⟩ := happly
  have hok : ∀ db', env.projector.apply lg t db = .ok ((), db') ↔
      ∃ n, completeRefundByTxHash (hashText lg.txHash) t db = .ok (n, db') := by
    intro db'
    simp only [Projector.apply, hdecoded, Projector.project, drop_eq_ok]
  by_cases hdate : IsDate t
  · cases hfind : db.refunds.find? fun r => r.completes (hashText lg.txHash) with
    | none =>
        refine Or.inl ⟨commit_of_ok ((hok db).mpr ⟨0, ?_⟩), fun _ r hr => ?_⟩
        · exact completeRefundByTxHash_eq_ok.mpr ⟨hdate, Or.inl ⟨hfind, rfl, rfl⟩⟩
        · exact List.find?_eq_none.mp hfind r hr
    | some r =>
        refine Or.inr ⟨r, List.mem_of_find?_eq_some hfind, hdate,
          List.find?_some (p := fun r : RefundRow => r.completes (hashText lg.txHash)) hfind, ?_⟩
        refine commit_of_ok ((hok _).mpr ⟨1, ?_⟩)
        exact completeRefundByTxHash_eq_ok.mpr ⟨hdate, Or.inr ⟨r, hfind, rfl, rfl⟩⟩
  · refine Or.inl ⟨?_, fun h => absurd h hdate⟩
    cases hres : env.projector.apply lg t db with
    | error e => exact commit_of_error hres
    | ok res =>
        obtain ⟨n, hn⟩ := (hok res.2).mp hres
        exact absurd (completeRefundByTxHash_eq_ok.mp hn).1 hdate

theorem completeRefund_refunds {refundTxHash : String} :
    (db.completeRefund refundTxHash t r).refunds = db.refunds.map (completeRow refundTxHash t) :=
  rfl

theorem completeRow_id {refundTxHash : String} : (completeRow refundTxHash t r).id = r.id := by
  unfold completeRow
  split <;> rfl

theorem completeRow_refundTxHash {refundTxHash : String} :
    (completeRow refundTxHash t r).refundTxHash = r.refundTxHash := by
  unfold completeRow
  split <;> rfl

theorem Table.completeRefund (h : Table db) {refundTxHash : String} :
    Table (db.completeRefund refundTxHash t r) := by
  have hmap : Table (db.mapRefunds (completeRow refundTxHash t)) :=
    h.mapRefunds (fun _ => completeRow_id) fun a ha b hb hash hah hbh =>
      h.hashes a ha b hb hash (completeRow_refundTxHash ▸ hah) (completeRow_refundTxHash ▸ hbh)
  exact ⟨hmap.ids, hmap.hashes⟩

/-! ## Recorded hashes -/

theorem recordHash_id {call : SubmitCall} : (recordHash call r).id = r.id := by
  unfold recordHash
  split <;> rfl

theorem Table.recordHash (h : Table db) {call : SubmitCall} (hfree : ∀ r ∈ db.refunds,
    r.id = call.refundId ∨ r.refundTxHash ≠ some call.refundTxHash) :
    Table (db.mapRefunds (recordHash call)) := by
  refine h.mapRefunds (fun _ => recordHash_id) fun a ha b hb hash hah hbh => ?_
  unfold Refunds.recordHash at hah hbh
  by_cases hida : a.id = call.refundId <;> by_cases hidb : b.id = call.refundId
  · exact h.eq_of_id ha hb (hida.trans hidb.symm)
  · rw [if_pos hida] at hah
    rw [if_neg hidb, ← hah] at hbh
    exact absurd hbh ((hfree b hb).resolve_left hidb)
  · rw [if_pos hidb] at hbh
    rw [if_neg hida, ← hbh] at hah
    exact absurd hah ((hfree a ha).resolve_left hida)
  · rw [if_neg hida] at hah
    rw [if_neg hidb] at hbh
    exact h.hashes a ha b hb hash hah hbh

/-! ## Inserts -/

theorem Table.append (h : Table db) {id : RowId} {req : CreateRequest} {tx : TransactionRow}
    (hfresh : ∀ r ∈ db.refunds, r.id ≠ id) :
    Table { db with refunds := db.refunds ++ [refundRow id req tx] } := by
  refine ⟨?_, fun a ha b hb hash hah hbh => ?_⟩
  · rw [List.map_append, List.nodup_append]
    refine ⟨h.ids, List.nodup_singleton _, fun i hi j hj => ?_⟩
    obtain ⟨r, hr, rfl⟩ := List.mem_map.mp hi
    rw [List.mem_singleton.mp hj]
    exact hfresh r hr
  · have hold : ∀ r ∈ db.refunds ++ [refundRow id req tx], r.refundTxHash = some hash →
        r ∈ db.refunds := by
      intro r hr hrh
      rcases List.mem_append.mp hr with hr | hr
      · exact hr
      · rw [List.mem_singleton.mp hr] at hrh
        cases hrh
    exact h.hashes a (hold a ha hah) b (hold b hb hbh) hash hah hbh

/-! ## Steps -/

/-- What a step can do. -/
inductive Moves (w : World) : Label → World → Prop
  | idle {l : Label} (hl : ∀ lg t, l = .project lg t → isTransfer lg → IsDate t →
      ∀ r ∈ w.db.refunds, ¬ r.completes (hashText lg.txHash)) : Moves w l w
  | found {req tx} (hfind : findTransaction w.db req = .ok tx) :
      Moves w (.findTransaction req) { w with creating := w.creating ++ [.found req tx] }
  | checked {k req tx} (hk : w.creating[k]? = some (.found req tx))
      (hfits : w.priorTotal req.input.transactionId + req.input.amount ≤ tx.amount) :
      Moves w (.sumPriors k) { w with
        creating := w.creating.set k (.checked req tx (w.priorTotal req.input.transactionId)) }
  | dropped {l : Label} {k : Nat} (hl : ∀ lg t, l ≠ .project lg t) :
      Moves w l { w with creating := w.creating.eraseIdx k }
  | inserted {k id req tx priorTotal} (hk : w.creating[k]? = some (.checked req tx priorTotal))
      (hfresh : ∀ r ∈ w.db.refunds, r.id ≠ id) :
      Moves w (.insertRefund k id)
        { w with
          db := { w.db with refunds := w.db.refunds ++ [refundRow id req tx] }
          details := Function.update w.details id (some (refundDetails req tx))
          creating := w.creating.eraseIdx k }
  | accepted {req : SubmitRequest} {r : RefundRow}
      (hspelt : evmTxHashSchema req.refundTxHash) (hfind : findRefund w.db req = .ok r) :
      Moves w (.findRefund req) { w with signing := w.signing ++ [⟨r.id, req.refundTxHash⟩] }
  | recorded {k call} (hk : w.signing[k]? = some call)
      (hfree : ∀ r ∈ w.db.refunds,
        r.id = call.refundId ∨ r.refundTxHash ≠ some call.refundTxHash) :
      Moves w (.recordHash k) { w with
        db := w.db.mapRefunds (recordHash call), signing := w.signing.eraseIdx k }
  | withdrawn {l : Label} {k : Nat} (hl : ∀ lg t, l ≠ .project lg t) :
      Moves w l { w with signing := w.signing.eraseIdx k }
  | completed {lg : Log} {t : Int} {r : RefundRow} (hlg : isTransfer lg) (hdate : IsDate t) (hr : r ∈ w.db.refunds)
      (hcompletes : r.completes (hashText lg.txHash)) :
      Moves w (.project lg t) { w with db := w.db.completeRefund (hashText lg.txHash) t r }

theorem checkBalance_ok {tokens : TokenAddresses} {req : CreateRequest} {tx : TransactionRow}
    {priorTotal : Nat} {out : SigningInstructions}
    (h : checkBalance tokens req tx priorTotal = .ok out) :
    priorTotal + req.input.amount ≤ tx.amount := by
  unfold checkBalance at h
  split at h
  · cases h
  · omega

theorem step_moves (env : Env) (w : World) (l : Label) : Moves w l (env.step w l) := by
  cases l with
  | findTransaction req =>
      unfold Env.step
      dsimp only
      split
      · rename_i tx hfind
        exact .found hfind
      · exact .idle nofun
  | sumPriors k =>
      unfold Env.step
      dsimp only
      split
      · rename_i req tx hk
        split
        · rename_i out hok
          exact .checked hk (checkBalance_ok hok)
        · exact .dropped nofun
      · exact .idle nofun
  | insertRefund k id =>
      unfold Env.step World.insertRefund
      dsimp only
      split
      · rename_i req tx priorTotal hk
        split
        · exact .dropped nofun
        · rename_i hfresh
          exact .inserted hk (by simpa using hfresh)
      · exact .idle nofun
  | stopCreate k => exact .dropped nofun
  | findRefund req =>
      unfold Env.step
      dsimp only
      split
      · rename_i hspelt
        split
        · rename_i r hfind
          exact .accepted hspelt hfind
        · exact .idle nofun
      · exact .idle nofun
  | recordHash k =>
      unfold Env.step Refunds.submitHash
      dsimp only
      split
      · rename_i call hk
        split
        · rename_i hfree
          exact .recorded hk (by simpa [hashFree] using hfree)
        · exact .withdrawn nofun
      · exact .idle nofun
  | stopSubmit k => exact .withdrawn nofun
  | project lg t =>
      unfold Env.step
      dsimp only
      split
      · rename_i hlg
        rcases commit_apply_transfer hlg with
          ⟨heq, hnone⟩ | ⟨r, hr, hdate, hcompletes, heq⟩
        · rw [heq]
          refine .idle fun lg' t' hl _ => ?_
          obtain ⟨rfl, rfl⟩ := Label.project.inj hl
          exact hnone
        · rw [heq]
          exact .completed hlg hdate hr hcompletes
      · rename_i hlg
        refine .idle fun lg' t' hl htransfer => ?_
        obtain ⟨rfl, rfl⟩ := Label.project.inj hl
        exact absurd htransfer hlg

theorem Table.moves {w' : World} (h : Table w.db) (hm : Moves w l w') : Table w'.db := by
  cases hm with
  | idle | found | checked | dropped | accepted | withdrawn => exact h
  | inserted _ hfresh => exact h.append hfresh
  | recorded _ hfree => exact h.recordHash hfree
  | completed => exact h.completeRefund

end Strimz.Refunds
