import Strimz.StreamSteps

/-!
# What a committed batch misses

A committed batch has projected or parked every log that its query matches iff the endpoint
that answered the query had reached every one of them, and no old cursor covers one. The
stream asks one endpoint for all of a batch, so with endpoints whose heads stand still it
misses nothing; a stablecoin loop asks whichever endpoint answers next.
-/

namespace Strimz.Indexer

open Proc Tx

/-! ## Matching logs -/

variable {chain : Chain}

theorem mem_matching {query : Log → Bool} {from_ to_ : Nat} {lg : Log} :
    lg ∈ chain.matching query from_ to_ ↔
      (from_ ≤ lg.blockNumber ∧ lg.blockNumber ≤ to_) ∧ lg ∈ chain.logs lg.blockNumber ∧
        query lg = true := by
  simp only [Chain.matching, List.mem_flatMap, List.mem_range'_1, List.mem_filter]
  constructor
  · rintro ⟨n, hn, hlg, hquery⟩
    obtain rfl := chain.blockNumber_eq n lg hlg
    exact ⟨by omega, hlg, hquery⟩
  · rintro ⟨hn, hlg, hquery⟩
    exact ⟨_, by omega, hlg, hquery⟩

theorem mem_dropCovered {logs : List Log} {legacy : LegacyCursors} {lg : Log} :
    lg ∈ dropCovered logs legacy ↔ lg ∈ logs ∧ covered legacy lg = false := by
  simp [dropCovered]

theorem mem_sortLogs {logs : List Log} {lg : Log} : lg ∈ sortLogs logs ↔ lg ∈ logs :=
  List.mem_insertionSort _

/-! ## A batch -/

/-- The log's turn came in the batch's transaction, and it was projected or parked. -/
def AppliedOrParked (p : Projector) (b : Batch) (lg : Log) : Prop :=
  ∃ earlier t later db db', b.logs = earlier ++ (lg, t) :: later ∧
    p.applyLogs earlier b.before = .ok ((), db) ∧
    (p.apply lg t db = .ok ((), db') ∨
      ∃ reason, p.apply lg t db = .error (.unresolvable reason) ∧
        db' = db.parkOnce ⟨lg, t, reason, 1, false⟩)

/-- The endpoint that answered the batch's query had reached every matching log, and none of
them is covered by an old cursor. -/
def Reached (chain : Chain) (b : Batch) : Prop :=
  ∀ lg ∈ chain.matching b.query b.from_ b.to_,
    lg.blockNumber ≤ b.answeredFrom ∧ covered b.legacy lg = false

theorem applyLogs_append {p : Projector} {earlier later : List (Log × Int)} {db db' : Db} :
    p.applyLogs (earlier ++ later) db = .ok ((), db') ↔
      ∃ db₁, p.applyLogs earlier db = .ok ((), db₁) ∧ p.applyLogs later db₁ = .ok ((), db') := by
  induction earlier generalizing db with
  | nil => simp [Projector.applyLogs, pure_eq_ok]
  | cons l earlier ih =>
      simp only [List.cons_append, Projector.applyLogs, bind_eq_ok, ih]
      constructor
      · rintro ⟨_, db₁, hl, db₂, hearlier, hlater⟩
        exact ⟨db₂, ⟨(), db₁, hl, hearlier⟩, hlater⟩
      · rintro ⟨db₂, ⟨_, db₁, hl, hearlier⟩, hlater⟩
        exact ⟨(), db₁, hl, db₂, hearlier, hlater⟩

theorem appliedOrParked_iff_mem {p : Projector} {b : Batch} {db : Db} {lg : Log}
    (hran : p.applyLogs b.logs b.before = .ok ((), db)) :
    AppliedOrParked p b lg ↔ lg ∈ b.logs.map (·.1) := by
  constructor
  · rintro ⟨earlier, t, later, -, -, hlogs, -⟩
    simp [hlogs]
  · intro hmem
    obtain ⟨⟨lg, t⟩, hl, rfl⟩ := List.mem_map.mp hmem
    obtain ⟨earlier, later, hlogs⟩ := List.append_of_mem hl
    rw [hlogs] at hran
    obtain ⟨db₁, hearlier, hrest⟩ := applyLogs_append.mp hran
    rw [Projector.applyLogs, bind_eq_ok] at hrest
    obtain ⟨_, db₂, hl, -⟩ := hrest
    refine ⟨earlier, t, later, db₁, db₂, hlogs, hearlier, ?_⟩
    rcases Projector.applyOrPark_eq_ok.mp hl with happly | ⟨reason, herror, -, hparked⟩
    · exact Or.inl happly
    · exact Or.inr ⟨reason, herror, hparked⟩

/-- The logs of a batch are those found and not covered. -/
def FoundLogs (chain : Chain) (b : Batch) : Prop :=
  ∀ lg, lg ∈ b.logs.map (·.1) ↔
    lg ∈ chain.matching b.query b.from_ (min b.to_ b.answeredFrom) ∧ covered b.legacy lg = false

/-- What every committed batch is like. -/
structure Sound (chain : Chain) (p : Projector) (b : Batch) : Prop where
  found : FoundLogs chain b
  ran : ∃ hash, batchTx p b.key b.logs ⟨b.to_, some hash⟩ b.before = .ok ((), b.after)

theorem Sound.complete_iff_reached {p : Projector} {b : Batch} (h : Sound chain p b) :
    (∀ lg ∈ chain.matching b.query b.from_ b.to_, AppliedOrParked p b lg) ↔ Reached chain b := by
  obtain ⟨hash, hran⟩ := h.ran
  obtain ⟨db, hlogs, -⟩ := Projector.batchTx_eq_ok.mp hran
  refine forall₂_congr fun lg hlg => ?_
  rw [appliedOrParked_iff_mem hlogs, h.found]
  refine and_congr_left fun _ => ?_
  obtain ⟨hrange, hmem⟩ := mem_matching.mp hlg
  rw [mem_matching]
  exact ⟨fun hfound => (le_min_iff.mp hfound.1.2).2,
    fun hreached => ⟨⟨hrange.1, le_min hrange.2 hreached⟩, hmem⟩⟩

/-! ## Runs -/

namespace Env

variable {env : Env} {r : Runner} {w w' : World}

theorem CoreBatch.foundLogs {legacy : LegacyCursors} {from_ to_ : Nat} {b : Batch}
    (h : CoreBatch env chain r legacy from_ to_ b) : FoundLogs chain b := by
  intro lg
  obtain ⟨found, hperm, hlogs⟩ := h.logs
  rw [hlogs, mem_dropCovered, mem_sortLogs, hperm.mem_iff, h.legacy_eq]

theorem ContractBatch.foundLogs {addr : Address} {topics : Log → Bool} {from_ to_ : Nat} {b : Batch}
    (h : ContractBatch env chain addr topics from_ to_ b) : FoundLogs chain b := by
  intro lg
  rw [h.logs.mem_iff, h.legacy_eq]
  simp [covered]

/-- The database is what the transactions of the batches, one after another, and the others in
between have made of the first one. -/
inductive Built (env : Env) (p : Projector) (db₀ : Db) : List Batch → Db → Prop where
  | start {db : Db} : env.Drifts db₀ db → Built env p db₀ [] db
  | batch {batches : List Batch} {b : Batch} {hash : Bytes32} {db : Db} :
      Built env p db₀ batches b.before →
      batchTx p b.key b.logs ⟨b.to_, some hash⟩ b.before = .ok ((), b.after) →
      env.Drifts b.after db → Built env p db₀ (batches ++ [b]) db

theorem Built.drifts {p : Projector} {db₀ db db' : Db} {batches : List Batch}
    (h : Built env p db₀ batches db) (hd : env.Drifts db db') : Built env p db₀ batches db' := by
  cases h with
  | start h => exact .start (h.trans hd)
  | batch h hran h' => exact .batch h hran (h'.trans hd)

/-- Every batch recorded so far is sound, one of the stream asked an endpoint for the hash of its
last block that had answered its query, and nothing else wrote to the database. -/
structure Recorded (env : Env) (chain : Chain) (p : Projector) (db₀ : Db) (w : World) : Prop where
  sound : ∀ b ∈ w.batches, Sound chain p b
  pinned : ∀ b ∈ w.batches, b.key = .strimzCore → ∃ idx now now' head,
    env.head now idx = some b.answeredFrom ∧ env.head now' idx = some head ∧ b.to_ ≤ head
  built : Built env p db₀ w.batches w.db

variable {db₀ : Db}

theorem Recorded.of_drifts (h : Recorded env chain r.projector db₀ w)
    (hbatches : w'.batches = w.batches) (hd : env.Drifts w.db w'.db) :
    Recorded env chain r.projector db₀ w' := by
  constructor <;> rw [hbatches]
  · exact h.sound
  · exact h.pinned
  · exact h.built.drifts hd

theorem Recorded.commit {b : Batch} {hash : Bytes32} (h : Recorded env chain r.projector db₀ w)
    (hfound : FoundLogs chain b)
    (hpinned : b.key = .strimzCore → ∃ idx now now' head,
      env.head now idx = some b.answeredFrom ∧ env.head now' idx = some head ∧ b.to_ ≤ head)
    (hc : Commits env r.projector b hash w w') : Recorded env chain r.projector db₀ w' := by
  constructor <;> rw [hc.batches]
  · rw [List.forall_mem_append]
    exact ⟨h.sound, by simpa using ⟨hfound, _, hc.ran⟩⟩
  · rw [List.forall_mem_append]
    exact ⟨h.pinned, by simpa using hpinned⟩
  · rw [hc.db]
    exact .batch (h.built.drifts hc.drifts) hc.ran .refl

theorem recorded_invariant : LoopInvariant env chain r (Recorded env chain r.projector db₀) where
  quiet w h w' hq := h.of_drifts hq.batches hq.drifts
  loads w h legacy w' hl := h.of_drifts hl.batches hl.drifts
  core w h legacy from_ to_ b w' hb hc := h.commit hb.foundLogs (fun _ => hb.to_eq ▸ hb.pinned) hc
  contract w h addr topics from_ to_ b w' hb hc := by
    refine h.commit hb.foundLogs (fun hkey => ?_) hc
    rw [hb.key_eq] at hkey
    cases hkey
  restart _ h := ⟨h.sound, h.pinned, h.built⟩

theorem recorded_run (hw : w.batches = []) (polls : List Poll) :
    Recorded env chain r.projector w.db (env.run chain r polls w) := by
  refine recorded_invariant.run ⟨?_, ?_, ?_⟩ polls
  · simp [hw]
  · simp [hw]
  · exact hw ▸ .start .refl

/-- In every run of the loops, a committed batch misses nothing iff the endpoint that answered its
query had reached every matching log and no old cursor covers one. -/
theorem batch_complete_iff_reached (env : Env) (chain : Chain) (r : Runner) (polls : List Poll)
    (w : World) (hw : w.batches = []) :
    ∀ b ∈ (env.run chain r polls w).batches,
      (∀ lg ∈ chain.matching b.query b.from_ b.to_, AppliedOrParked r.projector b lg) ↔
        Reached chain b := fun b hb =>
  ((recorded_run hw polls).sound b hb).complete_iff_reached

/-- Every endpoint has one head, whenever it answers. -/
def Steady (env : Env) : Prop :=
  ∀ idx now now' head head', env.head now idx = some head → env.head now' idx = some head' →
    head = head'

/-- The stream's batches miss nothing but what an old cursor covers, if no head moves. -/
theorem coreBatch_reached_of_steady (hsteady : env.Steady) (polls : List Poll)
    (hw : w.batches = []) :
    ∀ b ∈ (env.run chain r polls w).batches, b.key = .strimzCore →
      ∀ lg ∈ chain.matching b.query b.from_ b.to_, lg.blockNumber ≤ b.answeredFrom := by
  intro b hb hkey lg hlg
  obtain ⟨idx, now, now', head, hanswer, hhash, hle⟩ :=
    (recorded_run hw polls).pinned b hb hkey
  obtain rfl := hsteady idx now now' _ _ hanswer hhash
  exact (mem_matching.mp hlg).1.2.trans hle

/-! ## A stablecoin loop between two endpoints -/

/-- The transfer that a refund waits for. -/
def refundTransfer : Log where
  address := 5
  blockNumber := 8
  txHash := 0xfe
  index := 0
  decoded := .event (.erc20Transfer 1 2 100)

def refundChain : Chain where
  logs n := if n = 8 then [refundTransfer] else []
  hash n := n
  time n := 1700000000 + n
  blockNumber_eq n lg h := by
    split at h
    · rw [List.mem_singleton.mp h]
      exact (by assumption : n = 8).symm
    · cases h
  index_lt n := by
    split
    · exact List.pairwise_singleton _ _
    · exact .nil
  genesis := rfl

/-- The first endpoint stands at block 5 and misses the first call; the second stands at block 9
and misses the log query. -/
def laggingEnv : Env where
  clients := 2
  head now idx :=
    if idx = 0 then if now = 0 then none else some 5
    else if now = 3 then none else some 9
  arrange _ logs := logs
  moved _ := none
  database _ := true
  meanwhile _ db := db
  arrange_perm _ _ := .refl _

def refundRunner : Runner where
  projector := .deployedProjector
  startBlock := 1
  blockBatchSize := 500
  legacyCursorAddrs := [1, 2, 3, 4, 6]
  addedAddrs := [7, 8, 9]
  subscribedTopics _ := true
  blockBatchSize_pos := by decide

def startedWorld : World := ⟨Db.empty, 0, 0, [], none, []⟩

/-- A poll of the loop: the head is read, then the blocks up to the safe head. -/
def refundPolls : List Poll := [.head, .contract 5 8 (fun _ => true) true]

/-- The claim holds of no lagging endpoint that another one covers for: the log query goes to the
one, the hash to the other, and the transfer is lost with its block behind the cursor. -/
theorem contractBatch_misses_transfer :
    ¬ ∀ (env : Env) (chain : Chain) (r : Runner) (polls : List Poll) (w : World),
      env.Steady → w.batches = [] → ∀ b ∈ (env.run chain r polls w).batches,
        ∀ lg ∈ chain.matching b.query b.from_ b.to_, AppliedOrParked r.projector b lg := by
  intro hclaim
  have hhead : ∀ idx now head, laggingEnv.head now idx = some head →
      head = if idx = 0 then 5 else 9 := by
    intro idx now head h
    simp only [laggingEnv] at h
    grind
  have hsteady : laggingEnv.Steady := fun idx now now' head head' h h' =>
    (hhead idx now head h).trans (hhead idx now' head' h').symm
  have hrun : (laggingEnv.run refundChain refundRunner refundPolls startedWorld).batches.map
      (fun b => (decide (refundTransfer ∈ refundChain.matching b.query b.from_ b.to_),
        b.logs.map (·.1))) = [(true, [])] := by decide +kernel
  obtain ⟨b, hbatches, hb⟩ := List.map_eq_singleton_iff.mp hrun
  obtain ⟨hmatching, hlogs⟩ := Prod.mk.inj hb
  obtain ⟨earlier, t, later, -, -, happlied, -⟩ := hclaim laggingEnv refundChain refundRunner
    refundPolls startedWorld hsteady rfl b (by rw [hbatches]; exact List.mem_singleton_self b)
    refundTransfer (of_decide_eq_true hmatching)
  simp [List.map_eq_nil_iff.mp hlogs] at happlied

theorem batch_complete_iff_reached_lagging :
    ∃ b, (laggingEnv.run refundChain refundRunner refundPolls startedWorld).batches = [b] ∧
      ((∀ lg ∈ refundChain.matching b.query b.from_ b.to_,
        AppliedOrParked refundRunner.projector b lg) ↔ Reached refundChain b) := by
  have hlength : (laggingEnv.run refundChain refundRunner refundPolls
      startedWorld).batches.length = 1 := by decide +kernel
  obtain ⟨b, hbatches⟩ := List.length_eq_one_iff.mp hlength
  refine ⟨b, hbatches, batch_complete_iff_reached laggingEnv refundChain refundRunner refundPolls
    startedWorld rfl b ?_⟩
  rw [hbatches]
  exact List.mem_singleton_self b

end Env

end Strimz.Indexer
