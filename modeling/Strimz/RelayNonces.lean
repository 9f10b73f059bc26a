import Strimz.Relay

/-!
# The nonces of one job

A job records its transaction before it is sent, and takes another nonce only after the chain
has passed the recorded one. So whatever of a job can still be mined has the recorded nonce.
The invariant is stated for two readings of what is live: the transactions that can still be
mined, and those together with the mined ones. The first reading needs nothing; under the
second a job must not have been mined when it goes on to a fresh nonce.
-/

namespace Strimz.Relay

open Runs

section Nonces

variable {counted : Bool} {w w' : World} {l : Label} {key key' : Key} {job job' : Job}
  {stage : Stage} {tx : Tx} {node i fee tip nonce : Nat}

/-- It can be mined or, when these are `counted`, it has been. -/
def World.Live (w : World) (counted : Bool) (tx : Tx) : Prop :=
  w.confirmed ≤ tx.nonce ∨ counted = true ∧ ∃ status, (tx, status) ∈ w.mined

/-- Nothing of this job is live. -/
def World.Spent (w : World) (counted : Bool) (number : Nat) : Prop :=
  ∀ tx ∈ w.sent, tx.job = number → ¬ w.Live counted tx

/-- Everything live of this job has the recorded nonce. -/
def World.Recorded (w : World) (counted : Bool) (job : Job) : Prop :=
  ∀ tx ∈ w.sent, tx.job = job.number → w.Live counted tx →
    ∃ recorded, job.broadcast = some recorded ∧ recorded.nonce = tx.nonce

/-- The nonce an attempt goes on with: the recorded one, or nothing is live. -/
def World.Fits (w : World) (counted : Bool) (job : Job) (nonce : Nat) : Prop :=
  (∃ recorded, job.broadcast = some recorded ∧ recorded.nonce = nonce) ∨
    w.Spent counted job.number

def StageOk (counted : Bool) (w : World) (key : Key) (job : Job) : Stage → Prop
  | .receipt .recorded tx | .transaction .recorded tx | .confirmed tx => job.broadcast = some tx
  | .receipt (.registration _) _ | .transaction (.registration _) _
  | .waitForReceipt (.registration _) _ => job.broadcast = none
  | .resync | .setCounter _ | .acquire | .incr _ => w.Spent counted job.number
  | .price nonce _ | .sign nonce _ => w.Fits counted job nonce
  | .updateData tx => tx.job = job.number ∧ tx.key = key ∧ w.Fits counted job tx.nonce
  | .onRecorded tx | .sendRaw tx => tx.job = job.number ∧ tx.key = key ∧ job.broadcast = some tx
  | .merchant | .waitForReceipt .recorded _ | .settle => True

/-- What holds of the queue, the chain and the nodes, whatever the worker does. -/
structure Base (counted : Bool) (w : World) : Prop where
  numbers : ∀ key job, w.jobs key = some job → job.number < w.nextNumber
  distinct : ∀ key key' job job', w.jobs key = some job → w.jobs key' = some job' →
    job.number = job'.number → key = key'
  keys : ∀ key job, w.jobs key = some job → job.data.idempotencyKey = key
  sent : ∀ tx ∈ w.sent, tx.job < w.nextNumber
  sentKeys : ∀ tx ∈ w.sent, ∀ key job, w.jobs key = some job → tx.job = job.number → tx.key = key
  pools : ∀ i, ∀ tx ∈ (w.nodes i).pool, tx ∈ w.sent
  latest : ∀ i, (w.nodes i).latest ≤ w.confirmed
  mined : ∀ e ∈ w.mined, e.1 ∈ w.sent ∧ e.1.nonce < w.confirmed
  minedOnce : w.mined.Pairwise fun e e' => e.1.nonce ≠ e'.1.nonce
  recorded : ∀ key job, w.jobs key = some job → w.Recorded counted job
  same : ∀ tx ∈ w.sent, ∀ tx' ∈ w.sent, tx.job = tx'.job → w.Live counted tx →
    w.Live counted tx' → tx.nonce = tx'.nonce

/-- The running job is in the queue, and where it stands fits what is recorded. -/
def ActiveOk (counted : Bool) (w : World) : Prop :=
  ∀ key stage, w.active = some (key, stage) →
    ∃ job, w.jobs key = some job ∧ job.state = .active ∧ StageOk counted w key job stage

structure Inv (counted : Bool) (w : World) : Prop where
  base : Base counted w
  active : ActiveOk counted w

theorem World.Launched.inv (h : w.Launched) : Inv counted w := by
  have hnone : ∀ {key : Key} {job : Job} {P : Prop}, w.jobs key = some job → P := by
    intro key job P hjob
    rw [h.jobs] at hjob
    exact nomatch hjob
  refine ⟨⟨fun _ _ => hnone, fun _ _ _ _ => hnone, fun _ _ => hnone, ?_, ?_, fun i => ?_,
    fun i => ?_, ?_, ?_, fun _ _ => hnone, ?_⟩, fun _ _ hactive => ?_⟩
  · simp [h.sent]
  · simp [h.sent]
  · simp [h.nodes i]
  · simp [h.nodes i]
  · simp [h.mined]
  · simp [h.mined]
  · simp [h.sent]
  · rw [h.active] at hactive
    exact nomatch hactive

/-! ## Changes that touch none of this -/

/-- Nothing more becomes live. -/
structure Calm (counted : Bool) (w w' : World) : Prop where
  sent : w'.sent = w.sent
  live : ∀ tx ∈ w.sent, w'.Live counted tx → w.Live counted tx

theorem Calm.of_eq (hsent : w'.sent = w.sent) (hconfirmed : w'.confirmed = w.confirmed)
    (hmined : w'.mined = w.mined) : Calm counted w w' where
  sent := hsent
  live tx _ hlive := by
    unfold World.Live at *
    rwa [hconfirmed, hmined] at hlive

theorem Calm.spent (h : Calm counted w w') {number : Nat} (hspent : w.Spent counted number) :
    w'.Spent counted number := by
  intro tx htx hnumber hlive
  rw [h.sent] at htx
  exact hspent tx htx hnumber (h.live tx htx hlive)

theorem Calm.fits (h : Calm counted w w') (hfits : w.Fits counted job nonce) :
    w'.Fits counted job nonce :=
  hfits.imp_right h.spent

theorem Calm.recorded (h : Calm counted w w') (hrecorded : w.Recorded counted job) :
    w'.Recorded counted job := by
  intro tx htx hnumber hlive
  rw [h.sent] at htx
  exact hrecorded tx htx hnumber (h.live tx htx hlive)

theorem Calm.stageOk (h : Calm counted w w') (hok : StageOk counted w key job stage) :
    StageOk counted w' key job stage := by
  unfold StageOk at *
  split at hok
  all_goals first
    | exact hok
    | exact h.spent hok
    | exact h.fits hok
    | exact ⟨hok.1, hok.2.1, h.fits hok.2.2⟩

/-- The chain and the nodes stay as they are. -/
structure SameChain (w w' : World) : Prop where
  nextNumber : w'.nextNumber = w.nextNumber
  confirmed : w'.confirmed = w.confirmed
  mined : w'.mined = w.mined
  sent : w'.sent = w.sent
  nodes : w'.nodes = w.nodes

theorem SameChain.calm (h : SameChain w w') : Calm counted w w' :=
  .of_eq h.sent h.confirmed h.mined

/-- One job of the queue is written; its number and what it asks for stay. -/
theorem Base.setJob (h : Base counted w) (hchain : SameChain w w')
    (hjob : w.jobs key = some job) (hjobs : w'.jobs = Function.update w.jobs key (some job'))
    (hnumber : job'.number = job.number) (hdata : job'.data = job.data)
    (hrecorded : w.Recorded counted job') : Base counted w' := by
  have hold : ∀ k j, w'.jobs k = some j → ∃ j', w.jobs k = some j' ∧ j.number = j'.number ∧
      j.data = j'.data ∧ w.Recorded counted j := by
    intro k j hj
    rw [hjobs] at hj
    by_cases hk : k = key
    · subst hk
      rw [Function.update_self] at hj
      cases hj
      exact ⟨job, hjob, hnumber, hdata, hrecorded⟩
    · rw [Function.update_of_ne hk] at hj
      exact ⟨j, hj, rfl, rfl, h.recorded k j hj⟩
  refine ⟨fun k j hj => ?_, fun k k' j j' hj hj' heq => ?_, fun k j hj => ?_, ?_,
    fun tx htx k j hj heq => ?_, ?_, ?_, ?_, ?_, fun k j hj => ?_, ?_⟩
  · obtain ⟨j', hj', heq, -⟩ := hold k j hj
    rw [heq, hchain.nextNumber]
    exact h.numbers k j' hj'
  · obtain ⟨i, hi, hnum, -⟩ := hold k j hj
    obtain ⟨i', hi', hnum', -⟩ := hold k' j' hj'
    exact h.distinct k k' i i' hi hi' (hnum ▸ hnum' ▸ heq)
  · obtain ⟨j', hj', -, hdat, -⟩ := hold k j hj
    rw [hdat]
    exact h.keys k j' hj'
  · rw [hchain.sent, hchain.nextNumber]
    exact h.sent
  · obtain ⟨j', hj', hnum, -⟩ := hold k j hj
    rw [hchain.sent] at htx
    exact h.sentKeys tx htx k j' hj' (hnum ▸ heq)
  · rw [hchain.nodes, hchain.sent]
    exact h.pools
  · rw [hchain.nodes, hchain.confirmed]
    exact h.latest
  · rw [hchain.mined, hchain.sent, hchain.confirmed]
    exact h.mined
  · rw [hchain.mined]
    exact h.minedOnce
  · obtain ⟨-, -, -, -, hrec⟩ := hold k j hj
    exact hchain.calm.recorded hrec
  · rw [hchain.sent]
    intro tx htx tx' htx' heq hlive hlive'
    exact h.same tx htx tx' htx' heq (hchain.calm.live tx htx hlive)
      (hchain.calm.live tx' htx' hlive')

/-- The queue stays, or jobs are taken from it. -/
theorem Base.shrink (h : Base counted w) (hnext : w'.nextNumber = w.nextNumber)
    (hsub : ∀ k j, w'.jobs k = some j → w.jobs k = some j) (hcalm : Calm counted w w')
    (hpools : ∀ i, ∀ tx ∈ (w'.nodes i).pool, tx ∈ w.sent)
    (hlatest : ∀ i, (w'.nodes i).latest ≤ w'.confirmed)
    (hmined : ∀ e ∈ w'.mined, e.1 ∈ w.sent ∧ e.1.nonce < w'.confirmed)
    (honce : w'.mined.Pairwise fun e e' => e.1.nonce ≠ e'.1.nonce) : Base counted w' where
  numbers k j hj := by
    rw [hnext]
    exact h.numbers k j (hsub k j hj)
  distinct k k' j j' hj hj' := h.distinct k k' j j' (hsub k j hj) (hsub k' j' hj')
  keys k j hj := h.keys k j (hsub k j hj)
  sent := by
    rw [hcalm.sent, hnext]
    exact h.sent
  sentKeys tx htx k j hj := h.sentKeys tx (hcalm.sent ▸ htx) k j (hsub k j hj)
  pools i tx htx := hcalm.sent ▸ hpools i tx htx
  latest := hlatest
  mined e he := hcalm.sent ▸ hmined e he
  minedOnce := honce
  recorded k j hj := hcalm.recorded (h.recorded k j (hsub k j hj))
  same tx htx tx' htx' heq hlive hlive' :=
    h.same tx (hcalm.sent ▸ htx) tx' (hcalm.sent ▸ htx') heq
      (hcalm.live tx (hcalm.sent ▸ htx) hlive) (hcalm.live tx' (hcalm.sent ▸ htx') hlive')

theorem Base.sameChain (h : Base counted w) (hchain : SameChain w w')
    (hsub : ∀ k j, w'.jobs k = some j → w.jobs k = some j) : Base counted w' := by
  refine h.shrink hchain.nextNumber hsub hchain.calm ?_ ?_ ?_ ?_
  · rw [hchain.nodes]
    exact h.pools
  · rw [hchain.nodes, hchain.confirmed]
    exact h.latest
  · rw [hchain.mined, hchain.confirmed]
    exact h.mined
  · rw [hchain.mined]
    exact h.minedOnce

theorem ActiveOk.calm (h : ActiveOk counted w) (hcalm : Calm counted w w')
    (hactive : w'.active = w.active)
    (hjobs : ∀ k j, w.jobs k = some j → j.state = .active → w'.jobs k = some j) :
    ActiveOk counted w' := by
  intro k st hst
  rw [hactive] at hst
  obtain ⟨j, hj, hstate, hok⟩ := h k st hst
  exact ⟨j, hjobs k j hj hstate, hstate, hcalm.stageOk hok⟩

/-! ## The environment -/

theorem Base.enqueue (h : Base counted w) (data : RelayJob) : Base counted (w.enqueue data) := by
  unfold World.enqueue
  split
  · exact h
  next hnone =>
    have hold : ∀ k j, (Function.update w.jobs data.idempotencyKey
        (some ⟨w.nextNumber, data, none, 0, .waiting, 0⟩)) k = some j →
        w.jobs k = some j ∨ k = data.idempotencyKey ∧
          j = ⟨w.nextNumber, data, none, 0, .waiting, 0⟩ := by
      intro k j hj
      by_cases hk : k = data.idempotencyKey
      · subst hk
        rw [Function.update_self] at hj
        exact .inr ⟨rfl, (Option.some.inj hj).symm⟩
      · rw [Function.update_of_ne hk] at hj
        exact .inl hj
    refine ⟨fun k j hj => ?_, fun k k' j j' hj hj' heq => ?_, fun k j hj => ?_,
      fun tx htx => Nat.lt_succ_of_lt (h.sent tx htx), fun tx htx k j hj heq => ?_, h.pools,
      h.latest, h.mined, h.minedOnce, fun k j hj => ?_, h.same⟩
    · rcases hold k j hj with hj | ⟨rfl, rfl⟩
      · exact Nat.lt_succ_of_lt (h.numbers k j hj)
      · exact Nat.lt_succ_self _
    · rcases hold k j hj with hj | ⟨rfl, rfl⟩ <;> rcases hold k' j' hj' with hj' | ⟨rfl, rfl⟩
      · exact h.distinct k k' j j' hj hj' heq
      · exact absurd heq (Nat.ne_of_lt (h.numbers k j hj))
      · exact absurd heq.symm (Nat.ne_of_lt (h.numbers k' j' hj'))
      · rfl
    · rcases hold k j hj with hj | ⟨rfl, rfl⟩
      · exact h.keys k j hj
      · rfl
    · rcases hold k j hj with hj | ⟨rfl, rfl⟩
      · exact h.sentKeys tx htx k j hj heq
      · exact absurd heq (Nat.ne_of_lt (h.sent tx htx))
    · rcases hold k j hj with hj | ⟨rfl, rfl⟩
      · exact h.recorded k j hj
      · intro tx htx heq
        exact absurd heq (Nat.ne_of_lt (h.sent tx htx))

/-- The queue and the worker stay; blocks only add up, and no pool has what was not sent. -/
theorem Inv.chain (h : Inv counted w) (hjobs : w'.jobs = w.jobs) (hactive : w'.active = w.active)
    (hnext : w'.nextNumber = w.nextNumber) (hcalm : Calm counted w w')
    (hpools : ∀ i, ∀ tx ∈ (w'.nodes i).pool, tx ∈ w.sent)
    (hlatest : ∀ i, (w'.nodes i).latest ≤ w'.confirmed)
    (hmined : ∀ e ∈ w'.mined, e.1 ∈ w.sent ∧ e.1.nonce < w'.confirmed)
    (honce : w'.mined.Pairwise fun e e' => e.1.nonce ≠ e'.1.nonce) : Inv counted w' where
  base := h.base.shrink hnext (fun _ _ hj => hjobs ▸ hj) hcalm hpools hlatest hmined honce
  active := h.active.calm hcalm hactive fun _ _ hj _ => hjobs ▸ hj

theorem Inv.sameChain (h : Inv counted w) (hchain : SameChain w w') (hjobs : w'.jobs = w.jobs)
    (hactive : w'.active = w.active) : Inv counted w' where
  base := h.base.sameChain hchain fun _ _ hj => hjobs ▸ hj
  active := h.active.calm hchain.calm hactive fun _ _ hj _ => hjobs ▸ hj

/-- One node is written. -/
theorem Inv.setNode (h : Inv counted w) {n : Node} (hpool : ∀ tx ∈ n.pool, tx ∈ w.sent)
    (hlatest : n.latest ≤ w.confirmed) : Inv counted (w.setNode i n) := by
  have hnode : ∀ j, (w.setNode i n).nodes j = n ∨ (w.setNode i n).nodes j = w.nodes j := by
    intro j
    by_cases hj : j = i
    · exact .inl (by rw [hj]; exact Function.update_self ..)
    · exact .inr (Function.update_of_ne hj ..)
  refine h.chain rfl rfl rfl (.of_eq rfl rfl rfl) (fun j tx htx => ?_) (fun j => ?_)
    h.base.mined h.base.minedOnce
  · rcases hnode j with hj | hj
    · exact hpool tx (hj ▸ htx)
    · exact h.base.pools j tx (hj ▸ htx)
  · rcases hnode j with hj | hj
    · rw [hj]
      exact hlatest
    · rw [hj]
      exact h.base.latest j

theorem Node.mem_take {n : Node} {tx tx' : Tx} (h : tx' ∈ (n.take tx).pool) :
    tx' ∈ n.pool ∨ tx' = tx := by
  rw [Node.take, List.mem_append, List.mem_singleton] at h
  exact h.imp_left List.mem_of_mem_filter

theorem Inv.mine (h : Inv counted w) (tx : Tx) (node : Nat) (status : TxStatus) :
    Inv counted (w.mine tx node status) := by
  unfold World.mine
  split
  next hnext =>
    obtain ⟨hpool, hnonce⟩ := hnext
    have hsent := h.base.pools node tx hpool
    refine h.chain rfl rfl rfl ⟨rfl, fun tx' htx' hlive => ?_⟩ (fun j tx' htx' => ?_) (fun j => ?_)
      (fun e he => ?_) ?_
    · -- what becomes mined could be mined before
      rcases hlive with hlive | ⟨hcounted, status', hmined⟩
      · exact .inl (Nat.le_of_succ_le hlive)
      · rcases List.mem_append.mp hmined with hmined | hmined
        · exact .inr ⟨hcounted, status', hmined⟩
        · rw [List.mem_singleton, Prod.mk.injEq] at hmined
          rw [hmined.1]
          exact .inl (Nat.le_of_eq hnonce.symm)
    · by_cases hj : j = node
      · subst hj
        simp only [World.setNode, Function.update_self, Node.see] at htx'
        exact h.base.pools j tx' (List.mem_of_mem_filter htx')
      · simp only [World.setNode, Function.update_of_ne hj] at htx'
        exact h.base.pools j tx' htx'
    · by_cases hj : j = node
      · subst hj
        simp only [World.setNode, Function.update_self, Node.see]
        exact Nat.le_refl _
      · simp only [World.setNode, Function.update_of_ne hj]
        exact Nat.le_succ_of_le (h.base.latest j)
    · rcases List.mem_append.mp he with he | he
      · exact ⟨(h.base.mined e he).1, Nat.lt_succ_of_lt (h.base.mined e he).2⟩
      · rw [List.mem_singleton.mp he]
        exact ⟨hsent, Nat.lt_succ_of_le (Nat.le_of_eq hnonce)⟩
    · refine List.pairwise_append.mpr ⟨h.base.minedOnce, List.pairwise_singleton _ _, ?_⟩
      intro e he e' he'
      rw [List.mem_singleton.mp he', hnonce]
      exact Nat.ne_of_lt (h.base.mined e he).2
  · exact h

/-! ## The worker -/

/-- The running job goes back to the queue, or is done. -/
theorem Base.release (h : Base counted w) (hjob : w.jobs key = some job)
    (hnumber : job'.number = job.number) (hdata : job'.data = job.data)
    (hbroadcast : job'.broadcast = job.broadcast) (state : JobState) :
    Inv counted (w.release key job' state) where
  base := by
    have hrecorded : w.Recorded counted { job' with state, finishedAt := w.now } := by
      have hold := h.recorded key job hjob
      unfold World.Recorded at *
      rwa [hnumber, hbroadcast]
    exact h.setJob ⟨rfl, rfl, rfl, rfl, rfl⟩ hjob rfl hnumber hdata hrecorded
  active _ _ hactive := nomatch hactive

theorem Base.fail (h : Base counted w) (hjob : w.jobs key = some job) (permanent : Bool) :
    Inv counted (w.fail key job permanent) := by
  have hrelease : ∀ state, Inv counted
      (w.release key { job with attemptsMade := job.attemptsMade + 1 } state) :=
    h.release hjob rfl rfl rfl
  exact hrelease _

theorem broadcastOnce_ok (h : Base counted w) (hjob : w.jobs key = some job) :
    StageOk counted w key job (broadcastOnce job) := by
  unfold broadcastOnce
  split
  next recorded hrecorded => exact hrecorded
  next hnone =>
    have hspent : w.Spent counted job.number := by
      intro tx htx hnumber hlive
      obtain ⟨recorded, hrecorded, -⟩ := h.recorded key job hjob tx htx hnumber hlive
      rw [hnone] at hrecorded
      exact nomatch hrecorded
    split <;> exact hspent

def NextOk (counted : Bool) (w : World) (key : Key) (job : Job) : Next → Prop
  | .goto stage => StageOk counted w key job stage
  | _ => True

theorem register_ok (h : Base counted w) (hjob : w.jobs key = some job) (complete : Bool) :
    NextOk counted w key job (register job complete) := by
  unfold register
  split
  · exact broadcastOnce_ok h hjob
  · trivial

theorem runRegistration_ok (h : Base counted w) (hjob : w.jobs key = some job)
    (row : MerchantRow) : NextOk counted w key job (runRegistration job row) := by
  unfold runRegistration
  split
  · trivial
  · split
    next hnone _ => exact hnone
    · exact register_ok h hjob _

theorem settledReceipt_ok (h : Base counted w) (hjob : w.jobs key = some job) (lookup : Lookup)
    (status : TxStatus) : NextOk counted w key job (settledReceipt job lookup status) := by
  unfold settledReceipt
  split
  · trivial
  · trivial
  · exact register_ok h hjob _

/-- A node takes the recorded transaction. -/
theorem Base.send (h : Base counted w) (hjob : w.jobs key = some job)
    (hnumber : tx.job = job.number) (hkey : tx.key = key) (hbroadcast : job.broadcast = some tx) :
    Base counted { w.setNode i ((w.nodes i).take tx) with sent := w.sent ++ [tx] } := by
  have hmem : ∀ tx', tx' ∈ w.sent ++ [tx] → tx' ∈ w.sent ∨ tx' = tx := by
    intro tx' htx'
    exact (List.mem_append.mp htx').imp_right List.mem_singleton.mp
  refine ⟨h.numbers, h.distinct, h.keys, fun tx' htx' => ?_, fun tx' htx' k j hj heq => ?_,
    fun n tx' htx' => ?_, fun n => ?_, fun e he => ?_, h.minedOnce, fun k j hj tx' htx' heq hlive => ?_,
    fun tx' htx' tx'' htx'' heq hlive hlive' => ?_⟩
  · rcases hmem tx' htx' with hold | rfl
    · exact h.sent tx' hold
    · rw [hnumber]
      exact h.numbers key job hjob
  · rcases hmem tx' htx' with hold | rfl
    · exact h.sentKeys tx' hold k j hj heq
    · rw [hkey]
      exact h.distinct key k job j hjob hj (hnumber ▸ heq)
  · refine List.mem_append.mpr ?_
    by_cases hn : n = i
    · subst hn
      simp only [World.setNode, Function.update_self] at htx'
      rcases Node.mem_take htx' with htx' | rfl
      · exact .inl (h.pools n tx' htx')
      · exact .inr List.mem_cons_self
    · simp only [World.setNode, Function.update_of_ne hn] at htx'
      exact .inl (h.pools n tx' htx')
  · by_cases hn : n = i
    · subst hn
      simp only [World.setNode, Function.update_self, Node.take]
      exact h.latest n
    · simp only [World.setNode, Function.update_of_ne hn]
      exact h.latest n
  · exact ⟨List.mem_append_left _ (h.mined e he).1, (h.mined e he).2⟩
  · rcases hmem tx' htx' with hold | rfl
    · exact h.recorded k j hj tx' hold heq hlive
    · obtain rfl := h.distinct key k job j hjob hj (hnumber ▸ heq)
      obtain rfl : job = j := Option.some.inj (hjob.symm.trans hj)
      exact ⟨tx', hbroadcast, rfl⟩
  · have hown : ∀ old ∈ w.sent, old.job = tx.job → w.Live counted old → tx.nonce = old.nonce := by
      intro old hold heq hlive
      obtain ⟨recorded, hrecorded, hnonce⟩ :=
        h.recorded key job hjob old hold (heq.trans hnumber) hlive
      rw [hbroadcast] at hrecorded
      cases hrecorded
      exact hnonce
    rcases hmem tx' htx' with hold | rfl <;> rcases hmem tx'' htx'' with hold' | rfl
    · exact h.same tx' hold tx'' hold' heq hlive hlive'
    · exact (hown tx' hold heq hlive).symm
    · exact hown tx'' hold' heq.symm hlive'
    · rfl

/-- What is read once the chain has passed the recorded nonce: nothing of the job is live. -/
def FreshOk (counted : Bool) (w : World) (job : Job) (node : Nat) (stage : Stage) : Prop :=
  ∀ recorded, stage = .confirmed recorded → recorded.nonce < (w.nodes node).latest →
    w.Spent counted job.number

structure Performed (counted : Bool) (w : World) (key : Key) (job : Job) (next : Next) : Prop where
  base : Base counted w
  queued : w.jobs key = some job
  running : job.state = .active
  next : NextOk counted w key job next

/-- The world is as it was. -/
theorem Performed.same (h : Base counted w) (hjob : w.jobs key = some job)
    (hstate : job.state = .active) {next : Next} (hnext : NextOk counted w key job next) :
    ∃ job', Performed counted w key job' next :=
  ⟨job, h, hjob, hstate, hnext⟩

theorem perform_ok (h : Base counted w) (hjob : w.jobs key = some job)
    (hstate : job.state = .active) (hok : StageOk counted w key job stage)
    (hfresh : FreshOk counted w job node stage) (fee tip : Nat) :
    ∃ job', Performed counted (w.perform key job node fee tip stage).1 key job'
      (w.perform key job node fee tip stage).2 := by
  have hcounter : ∀ counter, SameChain w { w with counter } := fun _ => ⟨rfl, rfl, rfl, rfl, rfl⟩
  have hmerchants : ∀ merchants, SameChain w { w with merchants } :=
    fun _ => ⟨rfl, rfl, rfl, rfl, rfl⟩
  cases stage with
  | merchant =>
      simp only [World.perform]
      split
      · exact Performed.same h hjob hstate (runRegistration_ok h hjob _)
      · exact Performed.same h hjob hstate trivial
  | receipt lookup tx =>
      simp only [World.perform]
      split
      · exact Performed.same h hjob hstate (settledReceipt_ok h hjob _ _)
      · refine Performed.same h hjob hstate ?_
        cases lookup <;> exact hok
  | transaction lookup tx =>
      simp only [World.perform]
      split
      · refine Performed.same h hjob hstate ?_
        cases lookup with
        | recorded => trivial
        | registration complete => exact hok
      · refine Performed.same h hjob hstate ?_
        cases lookup with
        | recorded => exact hok
        | registration complete => exact register_ok h hjob _
  | waitForReceipt lookup tx =>
      simp only [World.perform]
      split
      · exact Performed.same h hjob hstate (settledReceipt_ok h hjob _ _)
      · exact Performed.same h hjob hstate trivial
  | confirmed recorded =>
      simp only [World.perform]
      split
      · exact Performed.same h hjob hstate (.inl ⟨recorded, hok, rfl⟩)
      next hpassed => exact Performed.same h hjob hstate (hfresh recorded rfl (Nat.lt_of_not_le hpassed))
  | resync => exact Performed.same h hjob hstate hok
  | setCounter pending =>
      have hspent := (hcounter (some pending)).calm.spent hok
      exact ⟨job, h.sameChain (hcounter _) fun _ _ hj => hj, hjob, hstate, hspent⟩
  | acquire => exact Performed.same h hjob hstate hok
  | incr seed =>
      have hspent := (hcounter (some (w.counter.getD seed + 1))).calm.spent hok
      exact ⟨job, h.sameChain (hcounter _) fun _ _ hj => hj, hjob, hstate, .inr hspent⟩
  | price nonce previous =>
      simp only [World.perform]
      split
      · exact Performed.same h hjob hstate hok
      · exact Performed.same h hjob hstate trivial
  | sign nonce price => exact Performed.same h hjob hstate ⟨rfl, rfl, hok⟩
  | updateData tx =>
      obtain ⟨hnumber, hkey, hfits⟩ := hok
      have hrecorded : w.Recorded counted { job with broadcast := some tx } := by
        intro old hold heq hlive
        refine ⟨tx, rfl, ?_⟩
        rcases hfits with ⟨recorded, hbroadcast, hnonce⟩ | hspent
        · obtain ⟨recorded', hbroadcast', hnonce'⟩ := h.recorded key job hjob old hold heq hlive
          rw [hbroadcast] at hbroadcast'
          cases hbroadcast'
          exact hnonce.symm.trans hnonce'
        · exact absurd hlive (hspent old hold heq)
      refine ⟨{ job with broadcast := some tx }, ?_, Function.update_self .., hstate, ?_⟩
      · exact h.setJob ⟨rfl, rfl, rfl, rfl, rfl⟩ hjob rfl rfl rfl hrecorded
      · simp only [World.perform]
        split <;> exact ⟨hnumber, hkey, rfl⟩
  | onRecorded tx =>
      simp only [World.perform]
      split
      · exact ⟨job, h.sameChain (hmerchants _) fun _ _ hj => hj, hjob, hstate, hok⟩
      · exact Performed.same h hjob hstate trivial
  | sendRaw tx =>
      obtain ⟨hnumber, hkey, hbroadcast⟩ := hok
      simp only [World.perform]
      split
      · exact ⟨job, h.send hjob hnumber hkey hbroadcast, hjob, hstate, trivial⟩
      · exact Performed.same h hjob hstate trivial
  | settle =>
      simp only [World.perform]
      split
      · exact ⟨job, h.sameChain (hmerchants _) fun _ _ hj => hj, hjob, hstate, trivial⟩
      · exact Performed.same h hjob hstate trivial

theorem Performed.follow {next : Next} (h : Performed counted w key job next) :
    Inv counted (w.follow key job next) := by
  cases next with
  | goto stage =>
      refine ⟨h.base.sameChain ⟨rfl, rfl, rfl, rfl, rfl⟩ fun _ _ hj => hj, fun k st hst => ?_⟩
      cases hst
      exact ⟨job, h.queued, h.running, Calm.stageOk (.of_eq rfl rfl rfl) h.next⟩
  | completes => exact h.base.release h.queued rfl rfl rfl _
  | throws => exact h.base.fail h.queued _
  | permanent => exact h.base.fail h.queued _

theorem Inv.advance (h : Inv counted w) (hactive : w.active = some (key, stage))
    (hjob : w.jobs key = some job) {o : Outcome}
    (hfresh : o = .done → FreshOk counted w job node stage) :
    Inv counted (w.advance key job stage o node fee tip) := by
  obtain ⟨job₁, hjob₁, hstate, hok⟩ := h.active key stage hactive
  obtain rfl : job = job₁ := Option.some.inj (hjob.symm.trans hjob₁)
  have hreload : ∀ {w' : World} {job' : Job}, w'.jobs key = some job' →
      w'.reload key job = job' := by
    intro w' job' hjob'
    rw [World.reload, hjob']
    rfl
  cases o with
  | done =>
      obtain ⟨job', hperformed⟩ := perform_ok h.base hjob hstate hok (hfresh rfl) fee tip
      have hfollow := hperformed.follow
      rw [← hreload hperformed.queued] at hfollow
      exact hfollow
  | lost =>
      by_cases hread : ∃ recorded, stage = .confirmed recorded
      · -- nothing was written
        obtain ⟨recorded, rfl⟩ := hread
        have hfail := h.base.fail hjob false
        rw [← hreload hjob] at hfail
        simp only [World.advance, World.perform]
        split <;> exact hfail
      · obtain ⟨job', hperformed⟩ := perform_ok h.base hjob hstate hok
          (fun recorded hstage => absurd ⟨recorded, hstage⟩ hread) fee tip
        have hfail := hperformed.base.fail hperformed.queued false
        rw [← hreload hperformed.queued] at hfail
        exact hfail
  | failed => exact h.base.fail hjob _

theorem Inv.start (h : Inv counted w) (key : Key) : Inv counted (w.start key) := by
  unfold World.start
  split
  next job _ hjob =>
    split
    · have hbase : Base counted { w.setJob key { job with state := .active } with
          active := some (key, run job) } :=
        h.base.setJob ⟨rfl, rfl, rfl, rfl, rfl⟩ hjob rfl rfl rfl (h.base.recorded key job hjob)
      refine ⟨hbase, fun k st hst => ?_⟩
      cases hst
      refine ⟨{ job with state := .active }, Function.update_self .., rfl, ?_⟩
      have hok := broadcastOnce_ok hbase (Function.update_self ..)
      unfold run
      split
      · trivial
      · exact hok
    · exact h
  · exact h

theorem Inv.crash (h : Inv counted w) (givenUp : Bool) : Inv counted (w.crash givenUp) := by
  unfold World.crash
  split
  · split
    next hjob => exact h.base.release hjob rfl rfl rfl _
    · exact h
  · exact h

theorem Inv.age (h : Inv counted w) (key : Key) : Inv counted (w.age key) := by
  unfold World.age
  split
  next job hjob =>
    split
    next hfinished =>
      refine ⟨h.base.sameChain ⟨rfl, rfl, rfl, rfl, rfl⟩ fun k j hj => ?_,
        h.active.calm (.of_eq rfl rfl rfl) rfl fun k j hj hstate => ?_⟩
      · by_cases hk : k = key
        · subst hk
          simp only [Function.update_self] at hj
          exact nomatch hj
        · simpa only [Function.update_of_ne hk] using hj
      · by_cases hk : k = key
        · -- the running job is not finished
          subst hk
          obtain rfl : job = j := Option.some.inj (hjob.symm.trans hj)
          rw [hstate] at hfinished
          simp at hfinished
        · simpa only [Function.update_of_ne hk] using hj
    · exact h
  · exact h

theorem Inv.step (h : Inv counted w) (l : Label)
    (hfresh : ∀ node fee tip key stage job, l = .advance .done node fee tip →
      w.active = some (key, stage) → w.jobs key = some job → FreshOk counted w job node stage) :
    Inv counted (step w l) := by
  cases l with
  | enqueue data =>
      refine ⟨h.base.enqueue data, ?_⟩
      simp only [Relay.step]
      unfold World.enqueue
      split
      · exact h.active
      next hnone =>
        refine h.active.calm (.of_eq rfl rfl rfl) rfl fun k j hj _ => ?_
        have hk : k ≠ data.idempotencyKey := by
          rintro rfl
          rw [hnone] at hj
          exact nomatch hj
        exact (Function.update_of_ne hk ..).trans hj
  | start key => exact h.start key
  | advance o node fee tip =>
      simp only [Relay.step]
      split
      next key stage hactive =>
        split
        next job hjob =>
          exact h.advance hactive hjob fun ho =>
            hfresh node fee tip key stage job (ho ▸ rfl) hactive hjob
        · exact h
      · exact h
  | crash givenUp => exact h.crash givenUp
  | age key => exact h.age key
  | gossip tx node =>
      simp only [Relay.step]
      split
      next hsent =>
        refine h.setNode (fun tx' htx' => ?_) (h.base.latest node)
        rcases Node.mem_take htx' with htx' | rfl
        · exact h.base.pools node tx' htx'
        · exact hsent.1
      · exact h
  | drop tx node =>
      exact h.setNode (fun tx' htx' => h.base.pools node tx' (List.mem_of_mem_filter htx'))
        (h.base.latest node)
  | sync node =>
      exact h.setNode (fun tx' htx' => h.base.pools node tx' (List.mem_of_mem_filter htx'))
        (Nat.le_refl _)
  | mine tx node status => exact h.mine tx node status
  | editMerchant merchantId linked complete =>
      exact h.sameChain ⟨rfl, rfl, rfl, rfl, rfl⟩ rfl rfl
  | elapse seconds => exact h.sameChain ⟨rfl, rfl, rfl, rfl, rfl⟩ rfl rfl

/-- What can still be mined has the recorded nonce, in every run. -/
theorem freshOk_mineable (h : Base false w) (hjob : w.jobs key = some job)
    (hok : StageOk false w key job stage) : FreshOk false w job node stage := by
  rintro recorded rfl hpassed tx htx hnumber hlive
  obtain ⟨recorded', hbroadcast, hnonce⟩ := h.recorded key job hjob tx htx hnumber hlive
  rw [show job.broadcast = some recorded from hok] at hbroadcast
  cases hbroadcast
  have hlatest := h.latest node
  rcases hlive with hlive | ⟨hcounted, -⟩
  · omega
  · exact nomatch hcounted

theorem Inv.step_mineable (h : Inv false w) (l : Label) : Inv false (Relay.step w l) :=
  h.step l fun node _ _ key stage job _ hactive hjob => by
    obtain ⟨job', hjob', -, hok⟩ := h.active key stage hactive
    obtain rfl : job = job' := Option.some.inj (hjob.symm.trans hjob')
    exact freshOk_mineable h.base hjob hok

end Nonces

end Strimz.Relay
