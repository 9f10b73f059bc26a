import Strimz.StreamCompleteness

/-!
# The cutover to one stream

Over every run of the loops from the first start of the stream, restarts and failures
included: the logs its committed batches hold are exactly those the chain has from the
block after the lowest old cursor to the stream's own, less the ones an old cursor covers,
in chain order; the database is what those batches and the others made of it.
-/

namespace Strimz.Indexer

open Proc Tx

/-! ## Chain order -/

def Log.before (a b : Log) : Prop :=
  a.blockNumber < b.blockNumber ∨ a.blockNumber = b.blockNumber ∧ a.index < b.index

theorem Log.before.notAfter {a b : Log} (h : a.before b) : a.notAfter b := by
  unfold Log.before at h
  unfold Log.notAfter
  omega

theorem Log.before.not_notAfter {a b : Log} (h : a.before b) : ¬ b.notAfter a := by
  unfold Log.before at h
  unfold Log.notAfter
  omega

instance : IsTrans Log Log.notAfter := ⟨fun a b c h h' => by unfold Log.notAfter at *; omega⟩

instance : Std.Total Log.notAfter := ⟨fun a b => by unfold Log.notAfter; omega⟩

variable {chain : Chain} {query : Log → Bool}

/-- A log of an earlier block comes first, and within a block the lower index. -/
theorem matching_pairwise (query : Log → Bool) (from_ to_ : Nat) :
    (chain.matching query from_ to_).Pairwise Log.before := by
  refine List.pairwise_flatMap.mpr ⟨fun n _ => ?_, ?_⟩
  · refine List.Pairwise.filter _ ((chain.index_lt n).imp_of_mem fun ha hb hab => ?_)
    exact Or.inr ⟨(chain.blockNumber_eq n _ ha).trans (chain.blockNumber_eq n _ hb).symm, hab⟩
  · refine (List.pairwise_lt_range' (s := from_) (n := to_ + 1 - from_)).imp
      fun {m n} hmn a ha b hb => Or.inl ?_
    rw [chain.blockNumber_eq m a (List.mem_filter.mp ha).1,
      chain.blockNumber_eq n b (List.mem_filter.mp hb).1]
    exact hmn

theorem matching_append {from_ mid to_ : Nat} (h : from_ ≤ mid + 1) (h' : mid ≤ to_) :
    chain.matching query from_ mid ++ chain.matching query (mid + 1) to_ =
      chain.matching query from_ to_ := by
  unfold Chain.matching
  rw [← List.flatMap_append]
  congr 1
  have hmid : mid + 1 = from_ + 1 * (mid + 1 - from_) := by omega
  rw [show to_ + 1 - from_ = (mid + 1 - from_) + (to_ + 1 - (mid + 1)) by omega,
    ← List.range'_append, ← hmid]

/-- Whatever order an endpoint lists them in, sorting puts the logs in chain order. -/
theorem sortLogs_eq_matching {from_ to_ : Nat} {found : List Log}
    (h : found.Perm (chain.matching query from_ to_)) :
    sortLogs found = chain.matching query from_ to_ := by
  have hordered : (chain.matching query from_ to_).Pairwise Log.before :=
    matching_pairwise query from_ to_
  have hperm : (sortLogs found).Perm (chain.matching query from_ to_) :=
    (List.perm_insertionSort _ found).trans h
  have hapart : (chain.matching query from_ to_).Pairwise
      fun a b => a.notAfter b → b.notAfter a → a = b :=
    hordered.imp fun h _ h' => absurd h' h.not_notAfter
  have hflip : (chain.matching query from_ to_).Pairwise
      (flip fun a b => a.notAfter b → b.notAfter a → a = b) :=
    hordered.imp fun h h' _ => absurd h' h.not_notAfter
  exact List.Perm.eq_of_pairwise
    (fun a b ha hb => List.Pairwise.forall_of_forall_of_flip (fun _ _ _ _ => rfl) hapart hflip
      (hperm.mem_iff.mp ha) hb)
    (List.pairwise_insertionSort _ found) (hordered.imp fun h => h.notAfter) hperm

/-! ## Old cursors -/

variable {env : Env} {r : Runner} {polls : List Poll} {w₀ w w' : World}

/-- Where the previous release left a contract. -/
def Db.oldCursor (db : Db) (a : Address) : Nat := (db.checkpoint (.contract a)).lastProcessedBlock

/-- What `loadLegacyCursors` makes of them. -/
def oldCursors (r : Runner) (db : Db) : LegacyCursors :=
  r.legacyCursorAddrs.map fun a => (a, max (db.oldCursor a) (Env.legacyFloor r))

theorem lookup_map_self {f : Address → Nat} {addrs : List Address} {a : Address} :
    (addrs.map fun a => (a, f a)).lookup a = if a ∈ addrs then some (f a) else none := by
  induction addrs with
  | nil => rfl
  | cons b addrs ih =>
      rw [List.map_cons, List.lookup_cons, ih]
      by_cases h : a = b
      · simp [h]
      · simp [h, beq_false_of_ne h]

theorem covered_oldCursors {db : Db} {lg : Log} :
    covered (oldCursors r db) lg = true ↔ lg.address ∈ r.legacyCursorAddrs ∧
      lg.blockNumber ≤ max (db.oldCursor lg.address) (Env.legacyFloor r) := by
  unfold covered oldCursors
  rw [lookup_map_self]
  by_cases h : lg.address ∈ r.legacyCursorAddrs
  · simp [h]
  · simp [h]

theorem lowestCursor_le {legacy : LegacyCursors} {cursor : Address × Nat} (h : cursor ∈ legacy) :
    lowestCursor legacy ≤ cursor.2 := by
  have hmem : cursor.2 ∈ legacy.map (·.2) := List.mem_map_of_mem h
  unfold lowestCursor
  cases hmin : (legacy.map (·.2)).min? with
  | none => simp [List.min?_eq_none_iff.mp hmin] at hmem
  | some n => exact (List.min?_eq_some_iff.mp hmin).2 _ hmem

theorem lowestCursor_oldCursors_le {db : Db} {a : Address} (h : a ∈ r.legacyCursorAddrs) :
    lowestCursor (oldCursors r db) ≤ max (db.oldCursor a) (Env.legacyFloor r) :=
  lowestCursor_le (List.mem_map_of_mem (f := fun a => (a, _)) h)

/-- The cursors nobody writes but the stream and the previous release. -/
def Runner.Owns (r : Runner) (key : CursorKey) : Prop :=
  key = .strimzCore ∨ ∃ a ∈ r.legacyCursorAddrs, key = .contract a

/-- A run from the first start of the stream. The old release is stopped, the endpoints that
answer have reached the safe heads, and no stablecoin is one of the old contracts. -/
structure Cutover (env : Env) (r : Runner) (polls : List Poll) (w₀ : World) : Prop where
  fresh : w₀.db.cursors .strimzCore = none
  uncached : w₀.legacyCursors = none
  unrecorded : w₀.batches = []
  others : ∀ n db key, r.Owns key → (env.meanwhile n db).cursors key = db.cursors key
  upToDate : ∀ safeHead, .core safeHead ∈ polls → ∀ now idx head,
    env.head now idx = some head → safeHead ≤ head
  stablecoins : ∀ addr safeHead topics startAtHead,
    .contract addr safeHead topics startAtHead ∈ polls → addr ∉ r.legacyCursorAddrs

def World.cursor (w : World) : Nat := (w.db.checkpoint .strimzCore).lastProcessedBlock

/-- The last block that needs no batch. -/
def World.reached (w : World) (lowest : Nat) : Nat := if w.cursor = 0 then lowest else w.cursor

/-- The stream's batches. -/
def World.stream (w : World) : List Batch := w.batches.filter fun b => b.key = .strimzCore

/-- The logs they hold, batch after batch. -/
def World.streamed (w : World) : List Log := w.stream.flatMap fun b => b.logs.map (·.1)

def streamQuery (r : Runner) : Log → Bool := filterRange r.contractAddrs r.subscribedTopics

/-- What the loops keep: old cursors as they were, and the stream's batches hold what it owes up
to the block it has reached. -/
structure Streams (chain : Chain) (r : Runner) (w₀ w : World) : Prop where
  owned : ∀ a ∈ r.legacyCursorAddrs, w.db.cursors (.contract a) = w₀.db.cursors (.contract a)
  cached : ∀ legacy, w.legacyCursors = some legacy → legacy = oldCursors r w₀.db
  logs : w.streamed = dropCovered (chain.matching (streamQuery r)
    (lowestCursor (oldCursors r w₀.db) + 1) (w.reached (lowestCursor (oldCursors r w₀.db))))
    (oldCursors r w₀.db)
  ahead : w.cursor ≠ 0 → lowestCursor (oldCursors r w₀.db) < w.cursor
  last : w.cursor = (w.stream.getLast?.map (·.to_)).getD 0

/-- The others leave the cursors of `keys` alone. -/
def Env.Spares (env : Env) (r : Runner) : Prop :=
  ∀ n db key, r.Owns key → (env.meanwhile n db).cursors key = db.cursors key

theorem Env.Spares.drifts (h : env.Spares r) {db db' : Db} (hd : env.Drifts db db')
    {key : CursorKey} (hkey : r.Owns key) : db'.cursors key = db.cursors key := by
  induction hd with
  | refl => rfl
  | tail _ hstep ih =>
      obtain ⟨n, rfl⟩ := hstep
      rw [h n _ key hkey, ih]

theorem checkpoint_congr {db db' : Db} {key : CursorKey} (h : db'.cursors key = db.cursors key) :
    db'.checkpoint key = db.checkpoint key := by
  rw [Db.checkpoint, Db.checkpoint, h]

namespace Streams

/-- Anything that leaves the owned cursors, the batches and the cache alone. -/
theorem of_same (h : Streams chain r w₀ w) (hbatches : w'.batches = w.batches)
    (hlegacy : ∀ legacy, w'.legacyCursors = some legacy → legacy = oldCursors r w₀.db)
    (hcursors : ∀ key, r.Owns key → w'.db.cursors key = w.db.cursors key) :
    Streams chain r w₀ w' := by
  have hcursor : w'.cursor = w.cursor := by
    rw [World.cursor, World.cursor, checkpoint_congr (hcursors _ (Or.inl rfl))]
  have hstream : w'.stream = w.stream := by rw [World.stream, World.stream, hbatches]
  refine ⟨fun a ha => ?_, hlegacy, ?_, ?_, ?_⟩
  · rw [hcursors _ (Or.inr ⟨a, ha, rfl⟩), h.owned a ha]
  · rw [World.streamed, hstream, World.reached, hcursor]
    exact h.logs
  · rw [hcursor]
    exact h.ahead
  · rw [hcursor, hstream]
    exact h.last

theorem of_quiet (hspares : env.Spares r) (h : Streams chain r w₀ w) (w' : World)
    (hq : Quiet env w w') : Streams chain r w₀ w' :=
  h.of_same hq.batches (hq.legacy ▸ h.cached) fun _ => hspares.drifts hq.drifts

end Streams

/-! ## Turns -/

namespace Env

/-- A batch moves its own cursor and no other. -/
theorem Commits.cursors {b : Batch} {hash : Bytes32} (h : Commits env r.projector b hash w w') :
    w'.db.cursors = Function.update b.before.cursors b.key (some ⟨b.to_, some hash⟩) := by
  obtain ⟨db, hlogs, hafter⟩ := Projector.batchTx_eq_ok.mp h.ran
  rw [h.db, hafter, ← Projector.applyLogs_cursors hlogs]
  rfl

variable {legacy : LegacyCursors} {b : Batch} {hash : Bytes32} {from_ to_ safeHead : Nat}

/-- A stablecoin loop's batch is none of the stream's. -/
theorem streams_contractBatch (hspares : env.Spares r) (h : Streams chain r w₀ w)
    {addr : Address} {topics : Log → Bool} (haddr : addr ∉ r.legacyCursorAddrs)
    (hb : ContractBatch env chain addr topics from_ to_ b)
    (hc : Commits env r.projector b hash w w') : Streams chain r w₀ w' := by
  have hcursors : ∀ key, r.Owns key → w'.db.cursors key = w.db.cursors key := by
    intro key hkey
    have hne : key ≠ .contract addr := by
      rintro rfl
      rcases hkey with hkey | ⟨a, ha, hkey⟩
      · cases hkey
      · obtain rfl := CursorKey.contract.inj hkey
        exact haddr ha
    rw [hc.cursors, hb.key_eq, Function.update_of_ne hne, hspares.drifts hc.drifts hkey]
  have hcursor : w'.cursor = w.cursor := by
    rw [World.cursor, World.cursor, checkpoint_congr (hcursors _ (Or.inl rfl))]
  have hstream : w'.stream = w.stream := by
    simp [World.stream, hc.batches, hb.key_eq]
  refine ⟨fun a ha => ?_, hc.legacy ▸ h.cached, ?_, ?_, ?_⟩
  · rw [hcursors _ (Or.inr ⟨a, ha, rfl⟩), h.owned a ha]
  · rw [World.streamed, hstream, World.reached, hcursor]
    exact h.logs
  · rw [hcursor]
    exact h.ahead
  · rw [hcursor, hstream]
    exact h.last

/-- A batch of the stream that starts where the last ended goes on with the same logs. -/
theorem streams_coreBatch (hspares : env.Spares r) (h : Streams chain r w₀ w)
    (hfrom : from_ = w.reached (lowestCursor (oldCursors r w₀.db)) + 1) (hto : from_ ≤ to_)
    (hreached : to_ ≤ b.answeredFrom)
    (hb : CoreBatch env chain r (oldCursors r w₀.db) from_ to_ b)
    (hc : Commits env r.projector b hash w w') :
    Streams chain r w₀ w' ∧ w'.cursor = to_ := by
  have hcursor : w'.cursor = to_ := by
    simp [World.cursor, Db.checkpoint, hc.cursors, hb.key_eq, hb.to_eq]
  have hstream : w'.stream = w.stream ++ [b] := by
    simp [World.stream, hc.batches, hb.key_eq]
  have hreached' : w'.reached (lowestCursor (oldCursors r w₀.db)) = to_ := by
    rw [World.reached, if_neg (by omega), hcursor]
  have hlow : lowestCursor (oldCursors r w₀.db) ≤
      w.reached (lowestCursor (oldCursors r w₀.db)) := by
    unfold World.reached
    split
    · exact le_refl _
    · exact (h.ahead ‹_›).le
  refine ⟨⟨fun a ha => ?_, hc.legacy ▸ h.cached, ?_, fun _ => by omega, ?_⟩, hcursor⟩
  · rw [hc.cursors, hb.key_eq, Function.update_of_ne (by simp),
      hspares.drifts hc.drifts (Or.inr ⟨a, ha, rfl⟩), h.owned a ha]
  · obtain ⟨found, hperm, hlogs⟩ := hb.logs
    rw [hb.query_eq, hb.from_eq, hb.to_eq, min_eq_left hreached] at hperm
    rw [World.streamed, hstream, List.flatMap_append, ← World.streamed, h.logs,
      List.flatMap_singleton, hlogs, sortLogs_eq_matching hperm, dropCovered, dropCovered,
      ← List.filter_append, hfrom, ← streamQuery, hreached',
      matching_append (by omega) (by omega), dropCovered]
  · rw [hcursor, hstream, List.getLast?_concat, Option.map_some, Option.getD_some, hb.to_eq]

/-! ## Loops -/

theorem streams_coreBatches (hspares : env.Spares r) (h : Streams chain r w₀ w)
    (hhead : ∀ now idx head, env.head now idx = some head → safeHead ≤ head)
    (hfrom : from_ = w.reached (lowestCursor (oldCursors r w₀.db)) + 1) (left : Nat) :
    wp (env.coreBatches chain r (oldCursors r w₀.db) safeHead left from_)
      (fun _ => Streams chain r w₀) (Streams chain r w₀) w := by
  induction left generalizing from_ w with
  | zero => exact h
  | succ left ih =>
      rw [coreBatches, wp_ite]
      refine ⟨fun hle => ?_, fun _ => h⟩
      rw [wp_bind]
      refine wp_mono wp_coreBatch ?_ (h.of_quiet hspares)
      rintro ⟨⟩ w₁ ⟨b, hb, hc⟩
      have hsize := r.blockBatchSize_pos
      have hto : from_ ≤ batchTo r from_ safeHead := by
        unfold batchTo
        omega
      obtain ⟨idx, now, -, -, hanswer, -, -⟩ := hb.pinned
      have hreached : batchTo r from_ safeHead ≤ b.answeredFrom :=
        (min_le_right _ _).trans (hhead now idx _ hanswer)
      obtain ⟨h₁, hcursor⟩ := streams_coreBatch hspares h hfrom hto hreached hb hc
      refine ih h₁ ?_
      rw [World.reached, if_neg (by omega), hcursor]

theorem LoadsLegacy.eq_oldCursors (hspares : env.Spares r) (h : Streams chain r w₀ w)
    (hl : LoadsLegacy env r legacy w w') : legacy = oldCursors r w₀.db := by
  rcases hl.read with hcached | ⟨-, hread⟩
  · exact h.cached legacy hcached
  · refine hread.eq_map (f := w₀.db.oldCursor) fun a ha db hd => ?_
    rw [Db.oldCursor, checkpoint_congr
      ((hspares.drifts hd (Or.inr ⟨a, ha, rfl⟩)).trans (h.owned a ha))]

theorem streams_processCore (hspares : env.Spares r) (h : Streams chain r w₀ w)
    (hhead : ∀ now idx head, env.head now idx = some head → safeHead ≤ head) :
    wp (env.processCore chain r safeHead) (fun _ => Streams chain r w₀) (Streams chain r w₀) w := by
  simp only [processCore, wp_bind]
  refine wp_mono wp_loadCheckpoint ?_ (h.of_quiet hspares)
  rintro cp w₁ ⟨hq₁, hcp⟩
  have h₁ := h.of_quiet hspares w₁ hq₁
  refine wp_mono wp_loadLegacyCursors ?_ (h₁.of_quiet hspares)
  intro legacy w₂ hl
  obtain rfl := hl.eq_oldCursors hspares h₁
  have hkept : ∀ key, r.Owns key → w₂.db.cursors key = w₁.db.cursors key :=
    fun _ => hspares.drifts hl.drifts
  have h₂ : Streams chain r w₀ w₂ := h₁.of_same hl.batches
    (fun legacy hlegacy => (Option.some.inj (hl.cached.symm.trans hlegacy)).symm) hkept
  refine wp_mono wp_checkReorg ?_ (h₂.of_quiet hspares)
  intro _ w₃ hq₃
  have hcursor : w₃.cursor = cp.lastProcessedBlock := by
    rw [World.cursor, hcp, checkpoint_congr ((hspares.drifts hq₃.drifts (Or.inl rfl)).trans
      (hkept _ (Or.inl rfl)))]
  refine streams_coreBatches hspares (h₂.of_quiet hspares w₃ hq₃) hhead ?_ _
  rw [World.reached, hcursor]
  split <;> rfl

theorem streams_contractBatches (hspares : env.Spares r) (h : Streams chain r w₀ w)
    {addr : Address} {topics : Log → Bool} (haddr : addr ∉ r.legacyCursorAddrs) (left : Nat) :
    wp (env.contractBatches chain r addr topics safeHead left from_)
      (fun _ => Streams chain r w₀) (Streams chain r w₀) w := by
  induction left generalizing from_ w with
  | zero => exact h
  | succ left ih =>
      rw [contractBatches, wp_ite]
      refine ⟨fun _ => ?_, fun _ => h⟩
      rw [wp_bind]
      refine wp_mono wp_contractBatch ?_ (h.of_quiet hspares)
      rintro ⟨⟩ w₁ ⟨b, hb, hc⟩
      exact ih (streams_contractBatch hspares h haddr hb hc)

theorem streams_processContract (hspares : env.Spares r) (h : Streams chain r w₀ w)
    {addr : Address} {topics : Log → Bool} {startAtHead : Bool}
    (haddr : addr ∉ r.legacyCursorAddrs) :
    wp (env.processContract chain r addr safeHead topics startAtHead)
      (fun _ => Streams chain r w₀) (Streams chain r w₀) w := by
  simp only [processContract, wp_bind]
  refine wp_mono wp_loadCheckpoint ?_ (h.of_quiet hspares)
  rintro cp w₁ ⟨hq₁, -⟩
  have h₁ := h.of_quiet hspares w₁ hq₁
  refine wp_mono wp_checkReorg ?_ (h₁.of_quiet hspares)
  exact fun _ w₂ hq₂ => streams_contractBatches hspares (h₁.of_quiet hspares w₂ hq₂) haddr _

end Env

/-! ## Runs -/

namespace Cutover

theorem streams_start (h : Cutover env r polls w₀) : Streams chain r w₀ w₀ := by
  have hcursor : w₀.cursor = 0 := by simp [World.cursor, Db.checkpoint, h.fresh]
  have hstream : w₀.stream = [] := by simp [World.stream, h.unrecorded]
  refine ⟨fun _ _ => rfl, fun legacy hlegacy => ?_, ?_, fun hne => absurd hcursor hne, ?_⟩
  · rw [h.uncached] at hlegacy
    cases hlegacy
  · rw [World.streamed, hstream, World.reached, if_pos hcursor]
    simp [Chain.matching, dropCovered]
  · rw [hcursor, hstream]
    rfl

theorem streams_poll (h : Cutover env r polls w₀) (hw : Streams chain r w₀ w) {poll : Poll}
    (hpoll : poll ∈ polls) : Streams chain r w₀ (env.poll chain r poll w) := by
  have hspares : env.Spares r := h.others
  cases poll with
  | head =>
      exact exec_of_wp (wp_mono Env.wp_failover (fun _ w' hq => hw.of_quiet hspares w' hq.1)
        (hw.of_quiet hspares))
  | core safeHead =>
      exact exec_of_wp (Env.streams_processCore hspares hw (h.upToDate safeHead hpoll))
  | contract addr safeHead topics startAtHead =>
      exact exec_of_wp (Env.streams_processContract hspares hw
        (h.stablecoins addr safeHead topics startAtHead hpoll))
  | restart =>
      exact ⟨hw.owned, fun _ hlegacy => (by cases hlegacy), hw.logs, hw.ahead, hw.last⟩

theorem streams_run (h : Cutover env r polls w₀) :
    Streams chain r w₀ (env.run chain r polls w₀) := by
  suffices hrun : ∀ ps, (∀ poll ∈ ps, poll ∈ polls) → ∀ w, Streams chain r w₀ w →
      Streams chain r w₀ (env.run chain r ps w) from
    hrun polls (fun _ hpoll => hpoll) w₀ h.streams_start
  intro ps
  induction ps with
  | nil => exact fun _ _ hw => hw
  | cons poll ps ih =>
      intro hps w hw
      exact ih (fun poll hpoll => hps poll (List.mem_cons_of_mem _ hpoll)) _
        (h.streams_poll hw (hps poll List.mem_cons_self))

end Cutover

namespace Streams

theorem mem_streamed (h : Streams chain r w₀ w) {lg : Log} :
    lg ∈ w.streamed ↔ (lowestCursor (oldCursors r w₀.db) < lg.blockNumber ∧
      lg.blockNumber ≤ w.cursor) ∧ (lg ∈ chain.logs lg.blockNumber ∧ streamQuery r lg = true) ∧
      covered (oldCursors r w₀.db) lg = false := by
  rw [h.logs, mem_dropCovered, mem_matching, World.reached]
  split
  · omega
  · rw [and_assoc]
    rfl

theorem ordered (h : Streams chain r w₀ w) : w.streamed.Pairwise Log.before := by
  rw [h.logs]
  exact List.Pairwise.filter _ (matching_pairwise _ _ _)

theorem count_streamed (h : Streams chain r w₀ w) (lg : Log) :
    w.streamed.count lg = if lg ∈ w.streamed then 1 else 0 := by
  have hnodup : w.streamed.Nodup := h.ordered.imp fun hab => by
    rintro rfl
    unfold Log.before at hab
    omega
  split
  · exact List.count_eq_one_of_mem hnodup ‹_›
  · exact List.count_eq_zero_of_not_mem ‹_›

end Streams

theorem streamQuery_eq_true {lg : Log} :
    streamQuery r lg = true ↔ (lg.address ∈ r.legacyCursorAddrs ∨ lg.address ∈ r.addedAddrs) ∧
      r.subscribedTopics lg = true := by
  simp [streamQuery, filterRange, Runner.contractAddrs]

/-- What a run from the cutover on has done. -/
structure Continues (env : Env) (chain : Chain) (r : Runner) (w₀ w : World) : Prop where
  /-- A log of an old contract from the first block on: once its block is passed by either
  release, it was projected or parked once, counting the old release. -/
  legacy : ∀ lg, lg ∈ chain.logs lg.blockNumber → r.subscribedTopics lg = true →
    lg.address ∈ r.legacyCursorAddrs → r.startBlock - 1 < lg.blockNumber →
      w.streamed.count lg + (if lg.blockNumber ≤ w₀.db.oldCursor lg.address then 1 else 0) =
        if lg.blockNumber ≤ max w.cursor (w₀.db.oldCursor lg.address) then 1 else 0
  /-- A log of an added contract: once if it is above the lowest old cursor, else never. -/
  added : ∀ lg, lg ∈ chain.logs lg.blockNumber → r.subscribedTopics lg = true →
    lg.address ∈ r.addedAddrs → lg.address ∉ r.legacyCursorAddrs →
      w.streamed.count lg =
        if lowestCursor (oldCursors r w₀.db) < lg.blockNumber ∧ lg.blockNumber ≤ w.cursor then 1
        else 0
  ordered : w.streamed.Pairwise Log.before
  projected : ∀ b ∈ w.stream, ∀ lg ∈ b.logs.map (·.1), AppliedOrParked r.projector b lg
  /-- The database holds the writes of the recorded batches, and the cursor is the last one's. -/
  visible : Env.Built env r.projector w₀.db w.batches w.db
  cursor : w.cursor = (w.stream.getLast?.map (·.to_)).getD 0

/-- The cutover neither loses nor repeats a log above the lowest old cursor, whatever fails or
restarts in between. -/
theorem stream_continues (env : Env) (chain : Chain) (r : Runner) (polls : List Poll) (w₀ : World)
    (h : Cutover env r polls w₀) : Continues env chain r w₀ (env.run chain r polls w₀) := by
  have hrun : Streams chain r w₀ (env.run chain r polls w₀) := h.streams_run
  have hrecorded : env.Recorded chain r.projector w₀.db (env.run chain r polls w₀) :=
    Env.recorded_run h.unrecorded polls
  refine ⟨fun lg hlg hsub haddr hstart => ?_, fun lg hlg hsub haddr hnew => ?_, hrun.ordered,
    fun b hb lg hlg => ?_, hrecorded.built, hrun.last⟩
  · have hlow : lowestCursor (oldCursors r w₀.db) ≤ _ := lowestCursor_oldCursors_le haddr
    have hfloor : Env.legacyFloor r < lg.blockNumber := by
      unfold Env.legacyFloor
      split <;> omega
    have hcovered : covered (oldCursors r w₀.db) lg = true ↔ _ := covered_oldCursors
    have hmem : lg ∈ (env.run chain r polls w₀).streamed ↔
        w₀.db.oldCursor lg.address < lg.blockNumber ∧
          lg.blockNumber ≤ (env.run chain r polls w₀).cursor := by
      rw [hrun.mem_streamed, ← Bool.not_eq_true, hcovered, streamQuery_eq_true]
      simp only [hlg, hsub, haddr, true_or, true_and, and_self]
      omega
    rw [hrun.count_streamed]
    simp only [hmem]
    split <;> split <;> split <;> omega
  · have huncovered : covered (oldCursors r w₀.db) lg = false := by
      rw [← Bool.not_eq_true, covered_oldCursors]
      exact fun h => hnew h.1
    rw [hrun.count_streamed]
    simp only [hrun.mem_streamed, streamQuery_eq_true, hlg, hsub, haddr, huncovered, or_true,
      and_self, and_true]
  · obtain ⟨hash, hran⟩ := (hrecorded.sound b (List.mem_filter.mp hb).1).ran
    obtain ⟨db, hlogs, -⟩ := Projector.batchTx_eq_ok.mp hran
    exact (appliedOrParked_iff_mem hlogs).mpr hlg

/-! ## A token added before the cutover -/

def whitelisting : Log where
  address := 7
  blockNumber := 5
  txHash := 0xcd
  index := 0
  decoded := .event (.tokenAdded 5)

def whitelistChain : Chain where
  logs n := if n = 5 then [whitelisting] else []
  hash n := n
  time n := 1700000000 + n
  blockNumber_eq n lg h := by
    split at h
    · rw [List.mem_singleton.mp h]
      exact (by assumption : n = 5).symm
    · cases h
  index_lt n := by
    split
    · exact List.pairwise_singleton _ _
    · exact .nil
  genesis := rfl

/-- One endpoint, at block 20. -/
def upToDateEnv : Env where
  clients := 1
  head _ _ := some 20
  arrange _ logs := logs
  moved _ := none
  database _ := true
  meanwhile _ db := db
  arrange_perm _ _ := .refl _

/-- The old release stopped at block 10. -/
def stoppedWorld : World :=
  { Env.startedWorld with db := { Db.empty with
      cursors := fun key => if key = .strimzCore then none else some ⟨10, none⟩ } }

theorem stoppedWorld_cutover :
    Cutover upToDateEnv Env.refundRunner [.head, .core 15] stoppedWorld where
  fresh := rfl
  uncached := rfl
  unrecorded := rfl
  others _ _ _ _ := rfl
  upToDate safeHead h now idx head hhead := by
    obtain rfl : 20 = head := Option.some.inj hhead
    obtain rfl : safeHead = 15 := by simpa using h
    decide
  stablecoins _ _ _ _ h := by simp at h

/-- An added contract has no old cursor, but the stream starts above the old ones: what it emitted
before is never projected. -/
theorem stream_skips_whitelisting :
    ¬ ∀ (env : Env) (chain : Chain) (r : Runner) (polls : List Poll) (w₀ : World),
      Cutover env r polls w₀ → ∀ lg, lg ∈ chain.logs lg.blockNumber →
        r.subscribedTopics lg = true → lg.address ∈ r.addedAddrs → r.startBlock ≤ lg.blockNumber →
        lg.blockNumber ≤ (env.run chain r polls w₀).cursor →
        (env.run chain r polls w₀).streamed.count lg = 1 := by
  intro hclaim
  have honce := hclaim upToDateEnv whitelistChain Env.refundRunner [.head, .core 15] stoppedWorld
    stoppedWorld_cutover whitelisting (by decide) rfl (by decide) (by decide) (by decide +kernel)
  exact absurd honce (by decide +kernel)

theorem stream_continues_stopped :
    Continues upToDateEnv whitelistChain Env.refundRunner stoppedWorld
      (upToDateEnv.run whitelistChain Env.refundRunner [.head, .core 15] stoppedWorld) :=
  stream_continues upToDateEnv whitelistChain Env.refundRunner [.head, .core 15] stoppedWorld
    stoppedWorld_cutover

end Strimz.Indexer
