import Strimz.Stream
import Strimz.StreamStalls

/-!
# What the loops do

One `wp` rule per procedure of `Stream`. A call or a failed statement is `Quiet`: it
leaves the record of batches and the cached cursors alone, and the database to the
others. A turn of a loop is quiet or commits one batch, of which `Committed` says what was
fetched for it and that its transaction ran.
-/

namespace Strimz.Indexer

open Proc

/-- What the others made of the database meanwhile. -/
def Env.Drifts (env : Env) : Db → Db → Prop :=
  Relation.ReflTransGen fun db db' => ∃ n, db' = env.meanwhile n db

structure Quiet (env : Env) (w w' : World) : Prop where
  batches : w'.batches = w.batches
  legacy : w'.legacyCursors = w.legacyCursors
  drifts : env.Drifts w.db w'.db

namespace Quiet

variable {env : Env} {w w₁ w₂ : World}

theorem refl (w : World) : Quiet env w w := ⟨rfl, rfl, .refl⟩

theorem trans (h : Quiet env w w₁) (h' : Quiet env w₁ w₂) : Quiet env w w₂ :=
  ⟨h'.batches.trans h.batches, h'.legacy.trans h.legacy, h.drifts.trans h'.drifts⟩

end Quiet

namespace Env

variable {env : Env} {chain : Chain} {r : Runner} {w : World} {α : Type}

/-! ## Calls -/

/-- Endpoint `idx` answered the call, from a head it had. -/
def Answers (env : Env) (idx : Nat) (call : Call α) (a : α) : Prop :=
  ∃ now head, env.head now idx = some head ∧ call now head = some a

theorem wp_tick {Q : Nat → World → Prop} {E : World → Prop} (h : ∀ w', Quiet env w w' → Q w.now w') :
    wp env.tick Q E w := by
  refine h _ ⟨rfl, rfl, ?_⟩
  exact .single ⟨w.now, rfl⟩

theorem wp_ask {idx : Nat} {call : Call α} :
    wp (env.ask idx call) (fun out w' => Quiet env w w' ∧ ∀ a, out = some a → env.Answers idx call a)
      (Quiet env w) w := by
  rw [ask, wp_bind]
  refine wp_tick fun w' hq => ⟨hq, fun a ha => ?_⟩
  obtain ⟨head, hhead, hcall⟩ := Option.bind_eq_some_iff.mp ha
  exact ⟨w.now, head, hhead, hcall⟩

theorem quiet_setActive {idx : Nat} : Quiet env w { w with active := idx } := ⟨rfl, rfl, .refl⟩

theorem wp_failoverFrom {start : Nat} {call : Call α} {i left : Nat} :
    wp (env.failoverFrom start call i left)
      (fun a w' => Quiet env w w' ∧ ∃ idx, env.Answers idx call a) (Quiet env w) w := by
  induction left generalizing i w with
  | zero => exact Quiet.refl w
  | succ left ih =>
      rw [failoverFrom, wp_bind]
      refine wp_mono wp_ask ?_ fun _ h => h
      rintro out w₁ ⟨hq, hans⟩
      cases out with
      | some a =>
          simp only [wp_bind, wp_ite, setActive, wp_modify, wp_pure]
          have hidx := hans a rfl
          exact ⟨fun _ => ⟨hq.trans quiet_setActive, _, hidx⟩, fun _ => ⟨hq, _, hidx⟩⟩
      | none => exact wp_mono ih (fun _ _ h => ⟨hq.trans h.1, h.2⟩) fun _ h => hq.trans h

theorem wp_failover {call : Call α} :
    wp (env.failover call) (fun a w' => Quiet env w w' ∧ ∃ idx, env.Answers idx call a)
      (Quiet env w) w := by
  simp only [failover, readActive, wp_bind, wp_get, wp_pure]
  exact wp_failoverFrom

theorem wp_pinned {idx : Nat} {call : Call α} :
    wp (env.pinned idx call) (fun a w' => Quiet env w w' ∧ env.Answers idx call a)
      (Quiet env w) w := by
  rw [pinned, wp_bind]
  refine wp_mono wp_ask ?_ fun _ h => h
  rintro out w₁ ⟨hq, hans⟩
  cases out with
  | some a => exact ⟨hq, hans a rfl⟩
  | none =>
      simp only [moveOff, readActive, setActive, wp_bind, wp_get, wp_pure, wp_ite, wp_modify,
        wp_throw]
      exact ⟨fun _ => hq.trans quiet_setActive, fun _ => hq.trans quiet_setActive⟩

/-! ## Statements -/

theorem wp_loadCheckpoint {key : CursorKey} :
    wp (env.loadCheckpoint key) (fun cp w' => Quiet env w w' ∧ cp = w'.db.checkpoint key)
      (Quiet env w) w := by
  rw [loadCheckpoint, wp_bind]
  refine wp_tick fun w' hq => ?_
  simp only [wp_bind, wp_get, wp_ite, wp_pure, wp_throw]
  exact ⟨fun _ => ⟨hq, trivial⟩, fun _ => hq⟩

/-- The batch's transaction ran, on what the others had left, and committed. -/
structure Commits (env : Env) (p : Projector) (b : Batch) (hash : Bytes32) (w w' : World) :
    Prop where
  drifts : env.Drifts w.db b.before
  ran : batchTx p b.key b.logs ⟨b.to_, some hash⟩ b.before = .ok ((), b.after)
  batches : w'.batches = w.batches ++ [b]
  legacy : w'.legacyCursors = w.legacyCursors
  db : w'.db = b.after

theorem Commits.of_quiet {p : Projector} {b : Batch} {hash : Bytes32} {w₁ w' : World}
    (hq : Quiet env w w₁) (h : Commits env p b hash w₁ w') : Commits env p b hash w w' where
  drifts := hq.drifts.trans h.drifts
  ran := h.ran
  batches := by rw [h.batches, hq.batches]
  legacy := h.legacy.trans hq.legacy
  db := h.db

theorem wp_runBatch {p : Projector} {f : Fetched} {hash : Bytes32} :
    wp (env.runBatch p f hash)
      (fun _ w' => ∃ before after, Commits env p ⟨f, before, after⟩ hash w w') (Quiet env w) w := by
  rw [runBatch, wp_bind]
  refine wp_tick fun w₁ hq => ?_
  simp only [wp_bind, wp_get, wp_ite, wp_throw]
  refine ⟨fun _ => ?_, fun _ => hq⟩
  split
  · rename_i db' hran
    exact ⟨w₁.db, db', .of_quiet hq ⟨.refl, hran, rfl, rfl, rfl⟩⟩
  · exact hq

/-! ## Block times -/

/-- The client a loop resolves times with is quiet. -/
def QuietClient (env : Env) (client : Call Int → Loop Int) : Prop :=
  ∀ call w, wp (client call) (fun _ => Quiet env w) (Quiet env w) w

theorem quietClient_failover : QuietClient env env.failover := fun _ _ =>
  wp_mono wp_failover (fun _ _ h => h.1) fun _ h => h

theorem quietClient_pinned {idx : Nat} : QuietClient env (env.pinned idx) := fun _ _ =>
  wp_mono wp_pinned (fun _ _ h => h.1) fun _ h => h

theorem wp_cachedBlockTime {client : Call Int → Loop Int} (hclient : QuietClient env client)
    {n : Nat} :
    wp (cachedBlockTime chain client n) (fun _ => Quiet env w) (Quiet env w) w := by
  simp only [cachedBlockTime, wp_bind, wp_get]
  split
  · exact Quiet.refl w
  · simp only [wp_bind, wp_modify, wp_pure]
    exact wp_mono (hclient _ w) (fun _ _ hq => hq.trans ⟨rfl, rfl, .refl⟩) fun _ hq => hq

theorem wp_resolveTimes {client : Call Int → Loop Int} (hclient : QuietClient env client)
    {logs : List Log} {times : List (Nat × Int)} :
    wp (resolveTimes chain client logs times) (fun _ => Quiet env w) (Quiet env w) w := by
  induction logs generalizing times w with
  | nil => exact Quiet.refl w
  | cons lg logs ih =>
      rw [resolveTimes]
      split
      · exact ih
      · rw [wp_bind]
        refine wp_mono (wp_cachedBlockTime hclient) (fun _ _ hq => ?_) fun _ hq => hq
        exact wp_mono ih (fun _ _ h => hq.trans h) fun _ h => hq.trans h

theorem map_withTimes (logs : List Log) (times : List (Nat × Int)) :
    (withTimes logs times).map (·.1) = logs := by
  simp [withTimes, Function.comp_def]

/-! ## The guard and the cached cursors -/

theorem wp_checkReorg {cp : Checkpoint} :
    wp (env.checkReorg chain cp) (fun _ => Quiet env w) (Quiet env w) w := by
  unfold checkReorg
  split
  · rw [wp_ite]
    refine ⟨fun _ => ?_, fun _ => Quiet.refl w⟩
    rw [wp_bind]
    refine wp_mono wp_failover (fun _ _ h => ?_) fun _ h => h
    simp only [wp_ite, wp_throw, wp_pure]
    exact ⟨fun _ => h.1, fun _ => h.1⟩
  · exact Quiet.refl w

def legacyFloor (r : Runner) : Nat := if 0 < r.startBlock then r.startBlock - 1 else 0

/-- Each old cursor as some statement found it, but not below the block before the first. -/
def ReadFrom (env : Env) (db : Db) (floor : Nat) : List Address → LegacyCursors → Prop :=
  List.Forall₂ fun a cursor => cursor.1 = a ∧ ∃ db', env.Drifts db db' ∧
    cursor.2 = max (db'.checkpoint (.contract a)).lastProcessedBlock floor

theorem ReadFrom.of_drifts {db db' : Db} {floor : Nat} {addrs : List Address}
    {legacy : LegacyCursors} (h : env.Drifts db db') (hread : ReadFrom env db' floor addrs legacy) :
    ReadFrom env db floor addrs legacy :=
  List.Forall₂.imp (fun _ _ ⟨ha, db₁, hdb, hn⟩ => ⟨ha, db₁, h.trans hdb, hn⟩) hread

/-- Cursors that nobody moves are read as they are. -/
theorem ReadFrom.eq_map {db : Db} {floor : Nat} {addrs : List Address} {legacy : LegacyCursors}
    {f : Address → Nat} (hread : ReadFrom env db floor addrs legacy)
    (hf : ∀ a ∈ addrs, ∀ db', env.Drifts db db' →
      (db'.checkpoint (.contract a)).lastProcessedBlock = f a) :
    legacy = addrs.map fun a => (a, max (f a) floor) := by
  unfold ReadFrom at hread
  induction hread with
  | nil => rfl
  | @cons a cursor addrs legacy hcursor _ ih =>
      obtain ⟨ha, db', hd, hn⟩ := hcursor
      rw [List.map_cons, ← ih fun a ha => hf a (List.mem_cons_of_mem _ ha),
        ← hf a List.mem_cons_self db' hd, ← hn, ← ha]

theorem wp_readLegacyCursors {floor : Nat} {addrs : List Address} :
    wp (env.readLegacyCursors floor addrs)
      (fun legacy w' => Quiet env w w' ∧ ReadFrom env w.db floor addrs legacy) (Quiet env w) w := by
  induction addrs generalizing w with
  | nil => exact ⟨Quiet.refl w, .nil⟩
  | cons a addrs ih =>
      simp only [readLegacyCursors, wp_bind, wp_pure]
      refine wp_mono wp_loadCheckpoint ?_ fun _ h => h
      rintro cp w₁ ⟨hq, rfl⟩
      refine wp_mono ih ?_ fun _ h => hq.trans h
      rintro legacy w₂ ⟨hq₂, hread⟩
      exact ⟨hq.trans hq₂, .cons ⟨rfl, _, hq.drifts, rfl⟩ (hread.of_drifts hq.drifts)⟩

/-- The cursors are the cached ones, or are read now and cached. -/
structure LoadsLegacy (env : Env) (r : Runner) (legacy : LegacyCursors) (w w' : World) : Prop where
  batches : w'.batches = w.batches
  drifts : env.Drifts w.db w'.db
  cached : w'.legacyCursors = some legacy
  read : w.legacyCursors = some legacy ∨
    w.legacyCursors = none ∧ ReadFrom env w.db (legacyFloor r) r.legacyCursorAddrs legacy

theorem wp_loadLegacyCursors :
    wp (env.loadLegacyCursors r) (fun legacy w' => LoadsLegacy env r legacy w w') (Quiet env w)
      w := by
  simp only [loadLegacyCursors, wp_bind, wp_get]
  cases hcached : w.legacyCursors with
  | some legacy => exact ⟨rfl, .refl, hcached, Or.inl hcached⟩
  | none =>
      simp only [wp_bind, wp_modify, wp_pure]
      refine wp_mono wp_readLegacyCursors ?_ fun _ h => h
      rintro legacy w' ⟨hq, hread⟩
      exact ⟨hq.batches, hq.drifts, rfl, Or.inr ⟨hcached, hread⟩⟩

/-! ## The stream -/

/-- What a turn of the stream's loop commits: the logs found up to the head of the endpoint that
was asked for all of the batch, less those an old cursor covers, in chain order. -/
structure CoreBatch (env : Env) (chain : Chain) (r : Runner) (legacy : LegacyCursors)
    (from_ to_ : Nat) (b : Batch) : Prop where
  key_eq : b.key = .strimzCore
  query_eq : b.query = filterRange r.contractAddrs r.subscribedTopics
  legacy_eq : b.legacy = legacy
  from_eq : b.from_ = from_
  to_eq : b.to_ = to_
  logs : ∃ found, found.Perm (chain.matching b.query b.from_ (min b.to_ b.answeredFrom)) ∧
    b.logs.map (·.1) = dropCovered (sortLogs found) legacy
  pinned : ∃ idx now now' head, env.head now idx = some b.answeredFrom ∧
    env.head now' idx = some head ∧ to_ ≤ head

theorem wp_coreBatch {legacy : LegacyCursors} {from_ to_ : Nat} :
    wp (env.coreBatch chain r legacy from_ to_)
      (fun _ w' => ∃ b, CoreBatch env chain r legacy from_ to_ b ∧
        Commits env r.projector b (chain.hash to_) w w')
      (Quiet env w) w := by
  simp only [coreBatch, readActive, wp_bind, wp_get, wp_pure]
  generalize (env.moved w.now).getD w.active = idx
  refine wp_mono wp_pinned ?_ fun _ h => h
  rintro ⟨found, answeredFrom⟩ w₁ ⟨hq₁, now, head, hhead, hfound⟩
  obtain ⟨rfl, rfl⟩ := Prod.mk.inj (Option.some.inj hfound)
  refine wp_mono (wp_resolveTimes quietClient_pinned) ?_ fun _ h => hq₁.trans h
  intro times w₂ hq₂
  refine wp_mono wp_pinned ?_ fun _ h => hq₁.trans (hq₂.trans h)
  rintro hash w₃ ⟨hq₃, now', head', hhead', hhash⟩
  have hq := hq₁.trans (hq₂.trans hq₃)
  unfold blockHash at hhash
  split at hhash
  · rename_i hle
    obtain rfl := Option.some.inj hhash
    refine wp_mono wp_runBatch ?_ fun _ h => hq.trans h
    rintro ⟨⟩ w₄ ⟨before, after, hcommits⟩
    refine ⟨_, ⟨rfl, rfl, rfl, rfl, rfl, ⟨_, env.arrange_perm _ _, map_withTimes _ _⟩, idx, now,
      now', head', hhead, hhead', hle⟩, .of_quiet hq hcommits⟩
  · cases hhash

/-! ## The stablecoin loops -/

/-- What a turn of a stablecoin loop commits: the logs found up to the head of the endpoint that
answered the query. -/
structure ContractBatch (env : Env) (chain : Chain) (addr : Address) (topics : Log → Bool)
    (from_ to_ : Nat) (b : Batch) : Prop where
  key_eq : b.key = .contract addr
  query_eq : b.query = filterRange [addr] topics
  legacy_eq : b.legacy = []
  from_eq : b.from_ = from_
  to_eq : b.to_ = to_
  logs : (b.logs.map (·.1)).Perm (chain.matching b.query b.from_ (min b.to_ b.answeredFrom))

theorem wp_contractBatch {addr : Address} {topics : Log → Bool} {from_ to_ : Nat} :
    wp (env.contractBatch chain r addr topics from_ to_)
      (fun _ w' => ∃ b, ContractBatch env chain addr topics from_ to_ b ∧
        Commits env r.projector b (chain.hash to_) w w')
      (Quiet env w) w := by
  simp only [contractBatch, wp_bind]
  refine wp_mono wp_failover ?_ fun _ h => h
  rintro ⟨found, answeredFrom⟩ w₁ ⟨hq₁, idx, now, head, hhead, hfound⟩
  obtain ⟨rfl, rfl⟩ := Prod.mk.inj (Option.some.inj hfound)
  refine wp_mono (wp_resolveTimes quietClient_failover) ?_ fun _ h => hq₁.trans h
  intro times w₂ hq₂
  refine wp_mono wp_failover ?_ fun _ h => hq₁.trans (hq₂.trans h)
  rintro hash w₃ ⟨hq₃, idx', now', head', hhead', hhash⟩
  have hq := hq₁.trans (hq₂.trans hq₃)
  unfold blockHash at hhash
  split at hhash
  · obtain rfl := Option.some.inj hhash
    refine wp_mono wp_runBatch ?_ fun _ h => hq.trans h
    rintro ⟨⟩ w₄ ⟨before, after, hcommits⟩
    refine ⟨_, ⟨rfl, rfl, rfl, rfl, rfl, ?_⟩, .of_quiet hq hcommits⟩
    rw [map_withTimes]
    exact env.arrange_perm _ _
  · cases hhash

/-! ## Invariants of the loops -/

/-- Kept by whatever the loops do between two batches, and by every batch. -/
structure LoopInvariant (env : Env) (chain : Chain) (r : Runner) (I : World → Prop) : Prop where
  quiet : ∀ w, I w → ∀ w', Quiet env w w' → I w'
  loads : ∀ w, I w → ∀ legacy w', LoadsLegacy env r legacy w w' → I w'
  core : ∀ w, I w → ∀ legacy from_ to_ b w', CoreBatch env chain r legacy from_ to_ b →
    Commits env r.projector b (chain.hash to_) w w' → I w'
  contract : ∀ w, I w → ∀ addr topics from_ to_ b w',
    ContractBatch env chain addr topics from_ to_ b →
    Commits env r.projector b (chain.hash to_) w w' → I w'
  restart : ∀ w, I w → I w.restart

namespace LoopInvariant

variable {I : World → Prop} {safeHead left from_ : Nat} {addr : Address} {topics : Log → Bool}

theorem coreBatches (hI : LoopInvariant env chain r I) (h : I w) {legacy : LegacyCursors} :
    wp (env.coreBatches chain r legacy safeHead left from_) (fun _ => I) I w := by
  induction left generalizing from_ w with
  | zero => exact h
  | succ left ih =>
      rw [Env.coreBatches, wp_ite]
      refine ⟨fun _ => ?_, fun _ => h⟩
      rw [wp_bind]
      refine wp_mono wp_coreBatch ?_ (hI.quiet w h)
      rintro ⟨⟩ w₁ ⟨b, hb, hc⟩
      exact ih (hI.core w h _ _ _ b w₁ hb hc)

theorem processCore (hI : LoopInvariant env chain r I) (h : I w) :
    wp (env.processCore chain r safeHead) (fun _ => I) I w := by
  simp only [Env.processCore, wp_bind]
  refine wp_mono wp_loadCheckpoint ?_ (hI.quiet w h)
  rintro cp w₁ ⟨hq₁, -⟩
  have h₁ := hI.quiet w h w₁ hq₁
  refine wp_mono wp_loadLegacyCursors ?_ (hI.quiet w₁ h₁)
  intro legacy w₂ hl
  have h₂ := hI.loads w₁ h₁ legacy w₂ hl
  refine wp_mono wp_checkReorg ?_ (hI.quiet w₂ h₂)
  exact fun _ w₃ hq₃ => hI.coreBatches (hI.quiet w₂ h₂ w₃ hq₃)

theorem contractBatches (hI : LoopInvariant env chain r I) (h : I w) :
    wp (env.contractBatches chain r addr topics safeHead left from_) (fun _ => I) I w := by
  induction left generalizing from_ w with
  | zero => exact h
  | succ left ih =>
      rw [Env.contractBatches, wp_ite]
      refine ⟨fun _ => ?_, fun _ => h⟩
      rw [wp_bind]
      refine wp_mono wp_contractBatch ?_ (hI.quiet w h)
      rintro ⟨⟩ w₁ ⟨b, hb, hc⟩
      exact ih (hI.contract w h _ _ _ _ b w₁ hb hc)

theorem processContract (hI : LoopInvariant env chain r I) (h : I w) {startAtHead : Bool} :
    wp (env.processContract chain r addr safeHead topics startAtHead) (fun _ => I) I w := by
  simp only [Env.processContract, wp_bind]
  refine wp_mono wp_loadCheckpoint ?_ (hI.quiet w h)
  rintro cp w₁ ⟨hq₁, -⟩
  have h₁ := hI.quiet w h w₁ hq₁
  refine wp_mono wp_checkReorg ?_ (hI.quiet w₁ h₁)
  exact fun _ w₂ hq₂ => hI.contractBatches (hI.quiet w₁ h₁ w₂ hq₂)

theorem poll (hI : LoopInvariant env chain r I) (h : I w) (poll : Poll) :
    I (env.poll chain r poll w) := by
  cases poll with
  | head =>
      exact exec_of_wp (wp_mono wp_failover (fun _ w' hq => hI.quiet w h w' hq.1) (hI.quiet w h))
  | core safeHead => exact exec_of_wp (hI.processCore h)
  | contract addr safeHead topics startAtHead => exact exec_of_wp (hI.processContract h)
  | restart => exact hI.restart w h

theorem run (hI : LoopInvariant env chain r I) (h : I w) (polls : List Poll) :
    I (env.run chain r polls w) := by
  induction polls generalizing w with
  | nil => exact h
  | cons poll polls ih => exact ih (hI.poll h poll)

end LoopInvariant

end Env

end Strimz.Indexer
