import Strimz.RefundCompletion

/-!
# A paid refund

Two processes write the row of a refund: the service records the hash of the transfer, the
indexer completes the row whose hash is the text of the hash it projects. The indexer writes
hashes in lower case and does not look at a transfer again. So the refund is settled exactly
when its hash was recorded in lower case, and some transfer of the transaction was projected
afterwards.
-/

namespace Strimz.Refunds

open Indexer Tx Runs

variable {env : Env} {w w' : World} {l : Label} {t : Int} {rid : RowId} {s : String}

/-! ## Hash texts -/

/-- An accepted spelling of a transaction hash: any of its letters may be in upper case. -/
def Spells (s : String) (h : Bytes32) : Prop :=
  evmTxHashSchema s ∧ s.toList.map Char.toLower = (hashText h).toList

theorem toLower_digitChar {d : Nat} (hd : d < 16) : d.digitChar.toLower = d.digitChar := by
  revert d
  decide

/-- The indexer writes a hash in lower case. -/
theorem toLower_hashText (h : Bytes32) :
    (hashText h).toList.map Char.toLower = (hashText h).toList := by
  have hdigit : ∀ n : Nat, (n % 16).digitChar.toLower = (n % 16).digitChar := fun n =>
    toLower_digitChar (Nat.mod_lt n (by decide))
  simp [hashText, Function.comp_def, hdigit]

/-! ## Where the row stands -/

def isCompletion (rid : RowId) (e : WebhookEvent) : Bool :=
  e.type = .refund_completed && e.ref = .refund rid

/-- How many `refund.completed` events the refund has fired. -/
def completions (rid : RowId) (db : Db) : Nat := db.webhookEvents.countP (isCompletion rid)

/-- The refund is completed, and one event says so. -/
def Settled (rid : RowId) (w : World) : Prop :=
  (∃ r ∈ w.db.refunds, r.id = rid ∧ r.status = .completed) ∧ completions rid w.db = 1

/-- The refund waits for a signature, or does not exist yet. -/
def Unsigned (rid : RowId) (w : World) : Prop :=
  (∀ r ∈ w.db.refunds, r.id = rid → r.status = .awaiting_signature) ∧ completions rid w.db = 0

/-- The refund waits for the transfer whose hash is written `s`. -/
def AwaitsTransfer (rid : RowId) (s : String) (w : World) : Prop :=
  (∃ r ∈ w.db.refunds, r.id = rid ∧ r.status = .submitted ∧ r.refundTxHash = some s) ∧
    completions rid w.db = 0

/-- The step records a hash for the refund. -/
def Records (rid : RowId) (s : String) (w : World) (l : Label) : Prop :=
  ∃ k, l = .recordHash k ∧ w.signing[k]? = some ⟨rid, s⟩ ∧
    ∀ r ∈ w.db.refunds, r.id = rid ∨ r.refundTxHash ≠ some s

/-- The step projects a transfer of the transaction whose hash is written `s`. -/
def Projects (s : String) (l : Label) : Prop :=
  ∃ lg t, l = .project lg t ∧ isTransfer lg ∧ IsDate t ∧ hashText lg.txHash = s

theorem completions_completeRefund {r : RefundRow} {refundTxHash : String} {db : Db} :
    completions rid (db.completeRefund refundTxHash t r) =
      completions rid db + if r.id = rid then 1 else 0 := by
  simp [completions, Db.completeRefund, List.countP_append, isCompletion]

theorem completeRow_of_not_completes {refundTxHash : String} {r : RefundRow}
    (h : ¬ r.completes refundTxHash) : completeRow refundTxHash t r = r := if_neg h

theorem Unsigned.moves (h : Unsigned rid w) (hm : Moves w l w')
    (hno : ∀ s, ¬ Records rid s w l) : Unsigned rid w' := by
  obtain ⟨hrows, hevents⟩ := h
  cases hm with
  | idle | found | checked | dropped | accepted | withdrawn => exact ⟨hrows, hevents⟩
  | inserted =>
      refine ⟨fun r hr hid => ?_, hevents⟩
      rcases List.mem_append.mp hr with hr | hr
      · exact hrows r hr hid
      · rw [List.mem_singleton.mp hr]
        rfl
  | @recorded k call hk hfree =>
      have hother : call.refundId ≠ rid := by
        rintro rfl
        exact hno call.refundTxHash ⟨k, rfl, hk, hfree⟩
      refine ⟨fun r hr hid => ?_, hevents⟩
      obtain ⟨a, ha, rfl⟩ := List.mem_map.mp hr
      rw [recordHash_id] at hid
      rw [recordHash, if_neg fun heq => hother (heq.symm.trans hid)]
      exact hrows a ha hid
  | @completed lg t r hlg hdate hr hc =>
      have hcompleting : ∀ r ∈ w.db.refunds, r.id = rid → ¬ r.completes (hashText lg.txHash) := by
        intro r hr hid hc
        have hsubmitted := (completes_iff.mp hc).2
        rw [hrows r hr hid] at hsubmitted
        cases hsubmitted
      refine ⟨fun r' hr' hid => ?_, ?_⟩
      · obtain ⟨a, ha, rfl⟩ := List.mem_map.mp hr'
        rw [← completeRow, completeRow_id] at hid
        rw [← completeRow, completeRow_of_not_completes (hcompleting a ha hid)]
        exact hrows a ha hid
      · rw [completions_completeRefund, hevents, if_neg fun hid => hcompleting r hr hid hc]

/-- A `submitSignature` under way has found its refund. -/
def Known (w : World) : Prop := ∀ call ∈ w.signing, ∃ r ∈ w.db.refunds, r.id = call.refundId

theorem Known.moves (h : Known w) (hm : Moves w l w') : Known w' := by
  have hmap : ∀ {f : RefundRow → RefundRow} {id : RowId}, (∀ r, (f r).id = r.id) →
      (∃ r ∈ w.db.refunds, r.id = id) → ∃ r ∈ w.db.refunds.map f, r.id = id := by
    rintro f id hid ⟨r, hr, rfl⟩
    exact ⟨f r, List.mem_map_of_mem hr, hid r⟩
  cases hm with
  | idle | found | checked | dropped => exact h
  | inserted =>
      intro call hcall
      obtain ⟨r, hr, hid⟩ := h call hcall
      exact ⟨r, List.mem_append_left _ hr, hid⟩
  | @accepted req r hspelt hfind =>
      intro call hcall
      rcases List.mem_append.mp hcall with hcall | hcall
      · exact h call hcall
      · rw [List.mem_singleton.mp hcall]
        exact ⟨r, (findRefund_ok hfind).1, rfl⟩
  | recorded =>
      exact fun call hcall => hmap (fun _ => recordHash_id) (h call (List.mem_of_mem_eraseIdx hcall))
  | withdrawn => exact fun call hcall => h call (List.mem_of_mem_eraseIdx hcall)
  | completed => exact fun call hcall => hmap (fun _ => completeRow_id) (h call hcall)

/-- A recorded hash makes an unsigned refund wait for its transfer. -/
theorem Unsigned.records (h : Unsigned rid w) (hknown : Known w) (hr : Records rid s w l) :
    AwaitsTransfer rid s (env.step w l) := by
  obtain ⟨k, rfl, hk, hfree⟩ := hr
  have hfree : hashFree w.db ⟨rid, s⟩ = true := by simpa [hashFree] using hfree
  have hstep : env.step w (.recordHash k) =
      { w with db := w.db.mapRefunds (recordHash ⟨rid, s⟩), signing := w.signing.eraseIdx k } := by
    simp [Env.step, hk, submitHash, hfree]
  obtain ⟨r, hr, hid⟩ := hknown _ (List.mem_of_getElem? hk)
  rw [hstep]
  refine ⟨⟨recordHash ⟨rid, s⟩ r, List.mem_map_of_mem hr, recordHash_id.trans hid, ?_⟩, h.2⟩
  rw [recordHash, if_pos hid]
  exact ⟨rfl, rfl⟩

theorem AwaitsTransfer.moves (h : AwaitsTransfer rid s w) (htable : Table w.db)
    (hm : Moves w l w') (hno : ∀ s, ¬ Records rid s w l) (hl : ¬ Projects s l) :
    AwaitsTransfer rid s w' := by
  obtain ⟨⟨r, hr, hid, hstatus, hhash⟩, hevents⟩ := h
  cases hm with
  | idle | found | checked | dropped | accepted | withdrawn =>
      exact ⟨⟨r, hr, hid, hstatus, hhash⟩, hevents⟩
  | inserted =>
      exact ⟨⟨r, List.mem_append_left _ hr, hid, hstatus, hhash⟩, hevents⟩
  | @recorded k call hk hfree =>
      have hother : r.id ≠ call.refundId := by
        intro heq
        obtain rfl := hid.symm.trans heq
        exact hno call.refundTxHash ⟨k, rfl, hk, hfree⟩
      refine ⟨⟨recordHash call r, List.mem_map_of_mem hr, recordHash_id.trans hid, ?_⟩, hevents⟩
      rw [recordHash, if_neg hother]
      exact ⟨hstatus, hhash⟩
  | @completed lg t r' hlg hdate hr' hc =>
      have hother : hashText lg.txHash ≠ s := fun heq => hl ⟨lg, t, rfl, hlg, hdate, heq⟩
      have hrow : ¬ r.completes (hashText lg.txHash) := by
        intro hrc
        exact hother (Option.some.inj ((completes_iff.mp hrc).1.symm.trans hhash))
      have hne : r'.id ≠ rid := by
        intro heq
        obtain rfl := htable.eq_of_id hr hr' (hid.trans heq.symm)
        exact hrow hc
      refine ⟨⟨completeRow (hashText lg.txHash) t r, List.mem_map_of_mem hr,
        completeRow_id.trans hid, ?_⟩, ?_⟩
      · rw [completeRow_of_not_completes hrow]
        exact ⟨hstatus, hhash⟩
      · rw [completions_completeRefund, hevents, if_neg hne]

/-- A projected transfer settles the refund that waits for it. -/
theorem AwaitsTransfer.projects (h : AwaitsTransfer rid s w) (htable : Table w.db)
    (hl : Projects s l) (hm : Moves w l w') : Settled rid w' := by
  obtain ⟨⟨r, hr, hid, hstatus, hhash⟩, hevents⟩ := h
  obtain ⟨lg, t, rfl, hlg, hdate, rfl⟩ := hl
  have hrow : r.completes (hashText lg.txHash) := completes_iff.mpr ⟨hhash, hstatus⟩
  cases hm with
  | idle hnone => exact absurd hrow (hnone lg t rfl hlg hdate r hr)
  | dropped hl | withdrawn hl => exact absurd rfl (hl lg t)
  | @completed _ _ r' _ _ hr' hc =>
      obtain rfl := htable.hashes r hr r' hr' _ hhash (completes_iff.mp hc).1
      refine ⟨⟨completeRow (hashText lg.txHash) t r, List.mem_map_of_mem hr,
        completeRow_id.trans hid, ?_⟩, ?_⟩
      · rw [completeRow, if_pos hrow]
      · rw [completions_completeRefund, hevents, if_pos hid]

theorem Settled.moves (h : Settled rid w) (htable : Table w.db) (hm : Moves w l w')
    (hno : ∀ s, ¬ Records rid s w l) : Settled rid w' := by
  obtain ⟨⟨r, hr, hid, hstatus⟩, hevents⟩ := h
  cases hm with
  | idle | found | checked | dropped | accepted | withdrawn => exact ⟨⟨r, hr, hid, hstatus⟩, hevents⟩
  | inserted => exact ⟨⟨r, List.mem_append_left _ hr, hid, hstatus⟩, hevents⟩
  | @recorded k call hk hfree =>
      have hother : r.id ≠ call.refundId := by
        intro heq
        obtain rfl := hid.symm.trans heq
        exact hno call.refundTxHash ⟨k, rfl, hk, hfree⟩
      refine ⟨⟨recordHash call r, List.mem_map_of_mem hr, recordHash_id.trans hid, ?_⟩, hevents⟩
      rwa [recordHash, if_neg hother]
  | @completed lg t r' hlg hdate hr' hc =>
      have hrow : ¬ r.completes (hashText lg.txHash) := by
        intro hrc
        have hsubmitted := (completes_iff.mp hrc).2
        rw [hstatus] at hsubmitted
        cases hsubmitted
      have hne : r'.id ≠ rid := by
        intro heq
        obtain rfl := htable.eq_of_id hr hr' (hid.trans heq.symm)
        exact hrow hc
      refine ⟨⟨completeRow (hashText lg.txHash) t r, List.mem_map_of_mem hr,
        completeRow_id.trans hid, ?_⟩, ?_⟩
      · rwa [completeRow_of_not_completes hrow]
      · rw [completions_completeRefund, hevents, if_neg hne]

/-! ## Runs -/

section Run

variable {w₀ : World} {ls : List Label} {n : Nat}

theorem unsigned_stateAt (hidle : w₀.Idle) (hunsigned : Unsigned rid w₀)
    (hno : ∀ m < n, ∀ l, ls[m]? = some l → ∀ s, ¬ Records rid s (stateAt env.step w₀ ls m) l) :
    ∀ m ≤ n, Unsigned rid (stateAt env.step w₀ ls m) ∧ Known (stateAt env.step w₀ ls m) := by
  intro m
  induction m with
  | zero =>
      intro _
      refine ⟨hunsigned, fun call hcall => ?_⟩
      rw [stateAt_zero, hidle.signing] at hcall
      cases hcall
  | succ m ih =>
      intro hm
      obtain ⟨hu, hk⟩ := ih (Nat.le_of_succ_le hm)
      cases hl : ls[m]? with
      | none =>
          rw [stateAt_of_none _ _ hl]
          exact ⟨hu, hk⟩
      | some l =>
          rw [stateAt_succ _ _ hl]
          have hmoves := step_moves env (stateAt env.step w₀ ls m) l
          exact ⟨hu.moves hmoves (hno m hm l hl), hk.moves hmoves⟩

/-- After its hash is recorded a refund waits until a transfer of that hash is projected, and
is settled from then on. -/
theorem settled_iff_projects (htable : Table w₀.db)
    (hawaits : AwaitsTransfer rid s (stateAt env.step w₀ ls n))
    (hno : ∀ m, n ≤ m → ∀ l, ls[m]? = some l →
      ∀ s, ¬ Records rid s (stateAt env.step w₀ ls m) l) :
    Settled rid (exec env.step w₀ ls) ↔ ∃ m l, n ≤ m ∧ ls[m]? = some l ∧ Projects s l := by
  have htables : ∀ m, Table (stateAt env.step w₀ ls m).db := fun m => table_stateAt htable m
  have hmoves : ∀ m l, Moves (stateAt env.step w₀ ls m) l (env.step (stateAt env.step w₀ ls m) l) :=
    fun m l => step_moves env _ l
  constructor
  · intro hsettled
    by_contra hnone
    push Not at hnone
    have hwaits : AwaitsTransfer rid s (stateAt env.step w₀ ls (max n ls.length)) :=
      stateAt_induct hawaits (fun m l hm hl h => h.moves (htables m) (hmoves m l)
        (hno m hm l hl) (hnone m l hm hl)) (Nat.le_max_left n ls.length)
    rw [stateAt, List.take_of_length_le (Nat.le_max_right n ls.length)] at hwaits
    have hone := hsettled.2
    rw [hwaits.2] at hone
    exact absurd hone (by decide)
  · rintro ⟨m, l, hm, hl, hprojects⟩
    have heither : AwaitsTransfer rid s (stateAt env.step w₀ ls m) ∨
        Settled rid (stateAt env.step w₀ ls m) := by
      refine stateAt_induct (P := fun w => AwaitsTransfer rid s w ∨ Settled rid w)
        (Or.inl hawaits) (fun k l hk hl h => ?_) hm
      rcases h with h | h
      · by_cases hp : Projects s l
        · exact Or.inr (h.projects (htables k) hp (hmoves k l))
        · exact Or.inl (h.moves (htables k) (hmoves k l) (hno k hk l hl) hp)
      · exact Or.inr (h.moves (htables k) (hmoves k l) (hno k hk l hl))
    have hsettled : Settled rid (stateAt env.step w₀ ls (m + 1)) := by
      rw [stateAt_succ _ _ hl]
      rcases heither with h | h
      · exact h.projects (htables m) hprojects (hmoves m l)
      · exact h.moves (htables m) (hmoves m l) (hno m hm l hl)
    have hlen : m + 1 ≤ ls.length := (List.getElem?_eq_some_iff.mp hl).1
    have hend : Settled rid (stateAt env.step w₀ ls ls.length) :=
      stateAt_induct hsettled (fun k l hk hl h => h.moves (htables k) (hmoves k l)
        (hno k (by omega) l hl)) hlen
    rwa [stateAt_length] at hend

/-- A refund whose hash was recorded once, at the `n`-th step, in any spelling, ends settled
exactly when it was spelt in lower case and a transfer of the transaction was projected after
the step. -/
theorem settled_iff_recorded_first (env : Env) (w₀ : World) (ls : List Label) (rid : RowId)
    (s : String) (lg : Log) (n : Nat) (hidle : w₀.Idle) (htable : Table w₀.db)
    (hunsigned : Unsigned rid w₀)
    (hrecorded : ∃ l, ls[n]? = some l ∧ Records rid s (stateAt env.step w₀ ls n) l)
    (honce : ∀ m ≠ n, ∀ l, ls[m]? = some l →
      ∀ s', ¬ Records rid s' (stateAt env.step w₀ ls m) l)
    (hspells : Spells s lg.txHash) :
    Settled rid (exec env.step w₀ ls) ↔
      s = hashText lg.txHash ∧ ∃ m l, n < m ∧ ls[m]? = some l ∧ Projects s l := by
  obtain ⟨l, hl, hrecords⟩ := hrecorded
  obtain ⟨hu, hk⟩ := unsigned_stateAt hidle hunsigned
    (fun m hm l hl => honce m (Nat.ne_of_lt hm) l hl) n le_rfl
  have hawaits : AwaitsTransfer rid s (stateAt env.step w₀ ls (n + 1)) := by
    rw [stateAt_succ _ _ hl]
    exact hu.records hk hrecords
  rw [settled_iff_projects htable hawaits fun m hm l hl => honce m (by omega) l hl]
  constructor
  · rintro ⟨m, l, hm, hl, hprojects⟩
    refine ⟨?_, m, l, hm, hl, hprojects⟩
    obtain ⟨lg', t, -, -, -, rfl⟩ := hprojects
    have hlower := hspells.2
    rw [toLower_hashText] at hlower
    exact String.toList_inj.mp hlower
  · rintro ⟨-, m, l, hm, hl, hprojects⟩
    exact ⟨m, l, hm, hl, hprojects⟩

end Run

/-! ## The transfer before its hash -/

/-- A refund of 100 that waits for a signature. -/
def unsignedWorld : World where
  db := { paidWorld.db with refunds := [refundRow [10] fullRefund racePayment] }
  details := Function.update paidWorld.details [10] (some (refundDetails fullRefund racePayment))
  creating := []
  signing := []

/-- The transfer that was asked for. -/
def paidTransfer : Log where
  address := 5
  blockNumber := 9
  txHash := 0xfe
  index := 0
  decoded := .event (.erc20Transfer 8 7 100)

def lowerCase : SubmitRequest := ⟨[1], .live, [10], hashText 0xfe⟩

/-- The indexer is faster than the merchant. -/
def lateRun : List Label := [.project paidTransfer 1700000100, .findRefund lowerCase, .recordHash 0]

def timelyRun : List Label :=
  [.findRefund lowerCase, .recordHash 0, .project paidTransfer 1700000100]

theorem unsignedWorld_table : Table unsignedWorld.db :=
  ⟨List.nodup_singleton _, by simp [unsignedWorld, refundRow]⟩

theorem unsignedWorld_unsigned : Unsigned [10] unsignedWorld :=
  ⟨by simp [unsignedWorld, refundRow], rfl⟩

theorem spells_lowerCase : Spells (hashText 0xfe) paidTransfer.txHash :=
  ⟨by decide +kernel, toLower_hashText _⟩

/-- The claim fails where the indexer comes first: the row was not submitted yet when the
transfer was projected, and the indexer does not come back to it. -/
theorem late_hash_never_completes :
    ¬ ∀ (env : Env) (w₀ : World) (ls : List Label) (rid : RowId) (s : String) (lg : Log) (n : Nat),
      w₀.Idle → Table w₀.db → Unsigned rid w₀ →
        (∃ l, ls[n]? = some l ∧ Records rid s (stateAt env.step w₀ ls n) l) →
          (∀ m ≠ n, ∀ l, ls[m]? = some l →
            ∀ s', ¬ Records rid s' (stateAt env.step w₀ ls m) l) →
            Spells s lg.txHash →
              (∃ m : Nat, ∃ t, ls[m]? = some (Label.project lg t) ∧ isTransfer lg ∧ IsDate t) →
                Settled rid (exec env.step w₀ ls) := by
  intro hclaim
  have honce : ∀ m ≠ 2, ∀ l, lateRun[m]? = some l →
      ∀ s', ¬ Records [10] s' (stateAt refundEnv.step unsignedWorld lateRun m) l := by
    rintro m hm l hl s' ⟨k, rfl, -, -⟩
    have hlt : m < 3 := (List.getElem?_eq_some_iff.mp hl).1
    interval_cases m <;> simp_all [lateRun]
  have hsettled := hclaim refundEnv unsignedWorld lateRun [10] (hashText 0xfe) paidTransfer 2
    ⟨rfl, rfl⟩ unsignedWorld_table unsignedWorld_unsigned
    ⟨.recordHash 0, rfl, 0, rfl, by decide +kernel, by decide +kernel⟩ honce spells_lowerCase
    ⟨0, 1700000100, rfl, rfl, by decide⟩
  have hnone : completions [10] (exec refundEnv.step unsignedWorld lateRun).db = 0 := by
    decide +kernel
  have hone := hsettled.2
  rw [hnone] at hone
  exact absurd hone (by decide)

theorem settled_iff_recorded_first_timely :
    Settled [10] (exec refundEnv.step unsignedWorld timelyRun) ↔
      hashText 0xfe = hashText paidTransfer.txHash ∧
        ∃ m l, 1 < m ∧ timelyRun[m]? = some l ∧ Projects (hashText 0xfe) l := by
  refine settled_iff_recorded_first refundEnv unsignedWorld timelyRun [10] (hashText 0xfe)
    paidTransfer 1 ⟨rfl, rfl⟩ unsignedWorld_table unsignedWorld_unsigned
    ⟨.recordHash 0, rfl, 0, rfl, by decide +kernel, by decide +kernel⟩ ?_ spells_lowerCase
  rintro m hm l hl s' ⟨k, rfl, -, -⟩
  have hlt : m < 3 := (List.getElem?_eq_some_iff.mp hl).1
  interval_cases m <;> simp_all [timelyRun]

end Strimz.Refunds
