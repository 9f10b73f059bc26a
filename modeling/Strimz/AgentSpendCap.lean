import Strimz.AgentJobSteps
import Strimz.InFlight

/-!
# The monthly spend cap

`createJob` adds up the month's jobs, leaving out the cancelled, the disputed and the reclaimed
ones, and inserts its row in a later statement. So the sum covers what the month's jobs occupy
if every job it leaves out has really come back to the client, and it still does at the insert
if the merchant got no other job in between. A cancelled job always came back; a disputed one
is still in the escrow, and a reclaimed one may have gone to the vendor.
-/

namespace Strimz.Commerce

open Tx Runs Indexer InFlight

/-- The escrow the row is linked to gave the whole amount back. -/
def World.refunded (w : World) (j : AgentJobRow) : Bool :=
  (List.range w.escrows.length).any fun n =>
    j.onchainJobId = some (int64 (n + 1)) && (w.escrows[n]?).any Escrow.refunded

/-- The month's jobs whose money is spent, or held, or can still be sent. -/
def World.committed (S : Setup) (w : World) (merchantId : RowId) : Nat :=
  w.total ((w.monthJobs S merchantId).filter fun j => !w.refunded j)

/-- The cap in token units, if the merchant has one. -/
def spendCap (S : Setup) (merchantId : RowId) : Option Nat :=
  (retrieveConfig S merchantId).monthlySpendCapUsdCents.map (· * 10000)

section Sums

variable {S : Setup} {w w' : World} {jobs : List AgentJobRow} {p q : AgentJobRow → Bool}

theorem total_append (xs ys : List AgentJobRow) : w.total (xs ++ ys) = w.total xs + w.total ys := by
  rw [World.total, List.map_append, List.sum_append]
  rfl

theorem total_filter_le (h : ∀ j ∈ jobs, p j = true → q j = true) :
    w.total (jobs.filter p) ≤ w.total (jobs.filter q) := by
  induction jobs with
  | nil => exact Nat.le_refl _
  | cons j js ih =>
      have htail := ih fun i hi => h i (List.mem_cons_of_mem _ hi)
      have hhead := h j List.mem_cons_self
      cases hp : p j with
      | true =>
          rw [List.filter_cons_of_pos hp, List.filter_cons_of_pos (hhead hp)]
          exact Nat.add_le_add_left htail _
      | false =>
          rw [List.filter_cons_of_neg (by rw [hp]; exact Bool.false_ne_true)]
          cases hq : q j with
          | true =>
              rw [List.filter_cons_of_pos hq]
              exact Nat.le_trans htail (Nat.le_add_left _ _)
          | false =>
              rw [List.filter_cons_of_neg (by rw [hq]; exact Bool.false_ne_true)]
              exact htail

/-- Moving the rows adds nothing to what they commit, as long as no refund is taken back. -/
theorem committed_moved {f : AgentJobRow → AgentJobRow} (hid : ∀ j, (f j).id = j.id)
    (hmerchant : ∀ j, (f j).merchantId = j.merchantId)
    (hjobs : w'.db.agentJobs = w.db.agentJobs.map f) (hterms : w'.terms = w.terms)
    (hrefunded : ∀ j, w.refunded j = true → w'.refunded (f j) = true) (merchantId : RowId) :
    w'.committed S merchantId ≤ w.committed S merchantId := by
  have htotal : ∀ js, w'.total (js.map f) = w.total js := fun js => by
    rw [World.total, World.total, List.map_map]
    exact congrArg List.sum (List.map_congr_left fun j _ => by
      rw [Function.comp_apply, hid, hterms])
  have hmonth : w'.monthJobs S merchantId = (w.monthJobs S merchantId).map f := by
    rw [World.monthJobs, World.monthJobs, hjobs, List.filter_map]
    refine congrArg (List.map f) (List.filter_congr fun j _ => ?_)
    rw [Function.comp_apply, hid, hmerchant, hterms]
  rw [World.committed, World.committed, hmonth, List.filter_map, htotal]
  refine total_filter_le fun j _ hj => ?_
  rw [Function.comp_apply, Bool.not_eq_true'] at hj
  rw [Bool.not_eq_true', ← Bool.not_eq_true]
  intro h
  rw [hrefunded j h] at hj
  cases hj

/-- A new row commits at most its own amount, and only for its merchant. -/
theorem committed_inserted {id merchantId : RowId} {cfg : AgentMerchantConfig}
    {input : CreateAgentJobInput} {assessor : Address} {now : Int}
    (hfresh : ∀ j ∈ w.db.agentJobs, j.id ≠ id)
    (hjobs : w'.db.agentJobs = w.db.agentJobs ++ [newRow id merchantId cfg input])
    (hterms : w'.terms = Function.update w.terms id (newTerms input assessor now))
    (hescrows : w'.escrows = w.escrows) (other : RowId) :
    w'.committed S other ≤
      w.committed S other + if other = merchantId then input.amount else 0 := by
  have hold : ∀ j ∈ w.db.agentJobs, w'.terms j.id = w.terms j.id := fun j hj => by
    rw [hterms, Function.update_of_ne (hfresh j hj)]
  have hrefunded : ∀ j, w'.refunded j = w.refunded j := fun j => by
    rw [World.refunded, World.refunded, hescrows]
  have hmonth : w'.monthJobs S other = w.monthJobs S other ++
      [newRow id merchantId cfg input].filter fun j =>
        j.merchantId = other ∧ S.monthStart ≤ (w'.terms j.id).createdAt := by
    rw [World.monthJobs, World.monthJobs, hjobs, List.filter_append]
    congr 1
    exact List.filter_congr fun j hj => by rw [hold j hj]
  have hsame : w'.total ((w.monthJobs S other).filter fun j => !w'.refunded j) =
      w.committed S other := by
    rw [World.committed, World.total, World.total]
    simp only [hrefunded]
    refine congrArg List.sum (List.map_congr_left fun j hj => ?_)
    rw [hold j (List.mem_of_mem_filter (List.mem_of_mem_filter hj))]
  rw [World.committed, hmonth, List.filter_append, total_append, hsame]
  refine Nat.add_le_add_left ?_ _
  have hamount : (w'.terms id).amount = input.amount := by
    rw [hterms, Function.update_self]
    rfl
  by_cases hmerchant : other = merchantId
  · rw [if_pos hmerchant]
    have hall : w'.total [newRow id merchantId cfg input] = input.amount := by
      simpa [World.total, newRow] using hamount
    rw [← hall]
    exact (((List.filter_sublist).trans List.filter_sublist).map _).sum_le_sum fun _ _ => Nat.zero_le _
  · have hnone : (newRow id merchantId cfg input).merchantId ≠ other := fun h => hmerchant h.symm
    rw [if_neg hmerchant, List.filter_singleton]
    simp [hnone, World.total]

end Sums

/-! ## Refunds are final -/

section Refunds

variable {S : Setup} {w w' : World} {l : Label}

/-- No call on the escrow moves a job that was refunded. -/
theorem act_of_refunded {e : Escrow} (h : e.refunded = true) (jobId : Nat) (action : EscrowAction) :
    e.act jobId action = none := by
  have hstatus : e.status = .cancelled ∨ e.status = .reclaimed := by
    rcases of_decide_eq_true h with h | ⟨h, -⟩
    · exact .inl h
    · exact .inr h
  rcases hstatus with hstatus | hstatus <;> cases action <;>
    simp [Escrow.act, Escrow.reclaimer, hstatus]

theorem refunded_iff {j : AgentJobRow} :
    w.refunded j = true ↔ ∃ (n : Nat) (e : Escrow), w.escrows[n]? = some e ∧
      j.onchainJobId = some (int64 (n + 1)) ∧ e.refunded = true := by
  simp only [World.refunded, List.any_eq_true, List.mem_range, Bool.and_eq_true, decide_eq_true_eq]
  constructor
  · rintro ⟨n, hn, hlink, he⟩
    rw [List.getElem?_eq_getElem hn] at he
    exact ⟨n, _, List.getElem?_eq_getElem hn, hlink, he⟩
  · rintro ⟨n, e, he, hlink, hrefunded⟩
    obtain ⟨hn, -⟩ := List.getElem?_eq_some_iff.mp he
    exact ⟨n, hn, hlink, by rw [he]; exact hrefunded⟩

/-- A refunded escrow stays as it is. -/
theorem ChainStep.refunded (h : ChainStep S w w') {n : Nat} {e : Escrow}
    (he : w.escrows[n]? = some e) (hrefunded : e.refunded = true) : w'.escrows[n]? = some e := by
  cases h with
  | same hescrows _ => rw [hescrows, he]
  | mined b hescrows _ =>
      obtain ⟨hn, -⟩ := List.getElem?_eq_some_iff.mp he
      rw [hescrows, List.getElem?_append_left hn, he]
  | called j action e₀ e' events he₀ hact hescrows _ =>
      have hne : j ≠ n := by
        rintro rfl
        obtain rfl : e₀ = e := Option.some.inj (he₀.symm.trans he)
        rw [act_of_refunded hrefunded] at hact
        cases hact
      rw [hescrows, List.getElem?_set_ne hne, he]

theorem refunded_mono (h : ChainStep S w w') {j j' : AgentJobRow}
    (hlink : ∀ i, j.onchainJobId = some i → j'.onchainJobId = some i)
    (hrefunded : w.refunded j = true) : w'.refunded j' = true := by
  obtain ⟨n, e, he, hj, hback⟩ := refunded_iff.mp hrefunded
  exact refunded_iff.mpr ⟨n, e, h.refunded he hback, hlink _ hj, hback⟩

end Refunds

/-! ## The invariant -/

/-- Every `JobCancelled` in the log is of a cancelled escrow. -/
def World.CancelledLogs (w : World) : Prop :=
  ∀ lg ∈ w.logs, ∀ jobId reason, lg.decoded = .event (.jobCancelled jobId reason) →
    ∃ n e, jobId = n + 1 ∧ w.escrows[n]? = some e ∧ e.status = .cancelled

/-- The row was created this month. -/
def World.InMonth (S : Setup) (w : World) (j : AgentJobRow) : Prop :=
  S.monthStart ≤ (w.terms j.id).createdAt

/-- The month begins: no request is half way, no job is of this month, and the log is the
escrow's own. -/
structure World.MonthStarts (S : Setup) (w : World) : Prop where
  calls : w.calls = []
  jobs : ∀ j ∈ w.db.agentJobs, ¬ w.InMonth S j
  logs : w.EscrowLogs
  cancelled : w.CancelledLogs

/-- What a request that is past its checks knows. -/
structure Checked (S : Setup) (w : World) (merchantId : RowId) (cfg : AgentMerchantConfig)
    (input : CreateAgentJobInput) (spent jobsThen : Nat) : Prop where
  config : cfg = retrieveConfig S merchantId
  passed : checkJob cfg input spent = .ok ()
  then_le : jobsThen ≤ w.jobCount merchantId
  covers : spendCap S merchantId ≠ none → jobsThen = w.jobCount merchantId →
    w.committed S merchantId ≤ spent

def World.AllChecked (S : Setup) (w : World) : Prop :=
  ∀ c ∈ w.calls, ∀ merchantId cfg input spent jobsThen,
    c = .creating merchantId cfg input spent jobsThen →
      Checked S w merchantId cfg input spent jobsThen

/-- No merchant's month exceeds the cap. -/
def World.WithinCap (S : Setup) (w : World) : Prop :=
  ∀ merchantId cap, spendCap S merchantId = some cap → w.committed S merchantId ≤ cap

structure CapInv (S : Setup) (w : World) : Prop where
  logs : w.EscrowLogs
  cancelledLogs : w.CancelledLogs
  cancelled : ∀ j ∈ w.db.agentJobs, w.InMonth S j → j.status = .cancelled → w.refunded j = true
  checked : w.AllChecked S
  within : w.WithinCap S

/-- For a merchant with a cap: when a request sums the month, each disputed or reclaimed job has
gone back to the client, and when it inserts, the merchant has the jobs it had then. -/
def Alone (S : Setup) (w : World) : Label → Prop
  | .createJob merchantId _ => spendCap S merchantId ≠ none →
      ∀ j ∈ w.monthJobs S merchantId, j.status = .disputed ∨ j.status = .reclaimed →
        w.refunded j = true
  | .api k _ _ =>
      match w.calls[k]? with
      | some (.creating merchantId _ _ _ jobsThen) =>
          spendCap S merchantId ≠ none → w.jobCount merchantId = jobsThen
      | _ => True
  | _ => True

section Invariant

variable {S : Setup} {w w' : World} {l : Label}

theorem World.MonthStarts.capInv (h : w.MonthStarts S) : CapInv S w where
  logs := h.logs
  cancelledLogs := h.cancelled
  cancelled := fun j hj hmonth => absurd hmonth (h.jobs j hj)
  checked := by simp [World.AllChecked, h.calls]
  within := by
    intro merchantId cap _
    have hnone : w.monthJobs S merchantId = [] := by
      refine List.filter_eq_nil_iff.mpr fun j hj hboth => ?_
      exact h.jobs j hj (of_decide_eq_true hboth).2
    rw [World.committed, hnone]
    exact Nat.zero_le _

theorem movedBy_cancelled {e : Payload} {jobId : Nat}
    (h : movedBy e = some (jobId, .cancelled)) : ∃ reason, e = .jobCancelled jobId reason := by
  cases e <;> simp only [movedBy, Option.some.injEq, Prod.mk.injEq, reduceCtorEq, and_false] at h
  obtain ⟨rfl, -⟩ := h
  exact ⟨_, rfl⟩

/-- Only a cancelled escrow says so. -/
theorem act_cancelled {e e' : Escrow} {jobId n : Nat} {action : EscrowAction}
    {events : List Payload} {reason : Bytes} (h : e.act jobId action = some (e', events))
    (hmem : .jobCancelled n reason ∈ events) : n = jobId ∧ e'.status = .cancelled := by
  have hjob : n = jobId := (act_events h _ hmem).2 n .cancelled rfl
  refine ⟨hjob, ?_⟩
  cases action <;> simp only [Escrow.act, Option.map_eq_some_iff, Option.ite_none_right_eq_some,
    Option.some.injEq, Prod.mk.injEq] at h
  case cancelJob =>
    split at h
    · obtain ⟨rfl, -⟩ := by simpa using h
      rfl
    · obtain ⟨-, rfl, -⟩ := by simpa using h
      rfl
  case reclaimAfterTimeout =>
    obtain ⟨recipient, -, -, rfl⟩ := h
    simp at hmem
  all_goals
    obtain ⟨-, -, rfl⟩ := h
    simp at hmem

theorem CapInv.step_cancelledLogs (h : CapInv S w) : (step S w l).CancelledLogs := by
  have hchain : ChainStep S w (step S w l) := step_chain
  have hold : ∀ lg ∈ w.logs, ∀ jobId reason, lg.decoded = .event (.jobCancelled jobId reason) →
      ∃ n e, jobId = n + 1 ∧ (step S w l).escrows[n]? = some e ∧ e.status = .cancelled := by
    intro lg hlg jobId reason hdecoded
    obtain ⟨n, e, hn, he, hstatus⟩ := h.cancelledLogs lg hlg jobId reason hdecoded
    exact ⟨n, e, hn, hchain.refunded he (by simp [Escrow.refunded, hstatus]), hstatus⟩
  intro lg hlg jobId reason hdecoded
  cases hchain with
  | same _ hlogs => exact hold lg (hlogs ▸ hlg) jobId reason hdecoded
  | mined b _ hlogs =>
      rcases hlogs lg hlg with hmem | hnew
      · exact hold lg hmem jobId reason hdecoded
      · rw [hnew] at hdecoded
        cases hdecoded
  | called j action e e' events he hact hescrows hlogs =>
      rcases hlogs lg hlg with hmem | ⟨x, hx, hnew⟩
      · exact hold lg hmem jobId reason hdecoded
      · rw [hnew] at hdecoded
        obtain rfl : x = .jobCancelled jobId reason := by simpa using hdecoded
        obtain ⟨rfl, hstatus⟩ := act_cancelled hact hx
        obtain ⟨hj, -⟩ := List.getElem?_eq_some_iff.mp he
        exact ⟨j, e', rfl, by rw [hescrows, List.getElem?_set_self hj], hstatus⟩

/-- A cancelled row of the month is one whose escrow was called off. -/
theorem CapInv.step_cancelled (h : CapInv S w) : ∀ j ∈ (step S w l).db.agentJobs,
    (step S w l).InMonth S j → j.status = .cancelled → (step S w l).refunded j = true := by
  have hchain : ChainStep S w (step S w l) := step_chain
  intro j' hj' hmonth hstatus
  cases step_rows (S := S) (l := l) h.logs with
  | moved f hf hjobs hterms =>
      rw [hjobs] at hj'
      obtain ⟨j, hj, rfl⟩ := List.mem_map.mp hj'
      have hmonth' : w.InMonth S j := by
        rw [World.InMonth, hf.id_eq, hterms] at hmonth
        exact hmonth
      have hkept : j.status = .cancelled → (step S w l).refunded (f j) = true := fun hcancelled =>
        refunded_mono hchain (fun _ => hf.onchainJobId) (h.cancelled j hj hmonth' hcancelled)
      have hlinked : ∀ i, j.onchainJobId = some i → (f j).onchainJobId = some i := fun _ =>
        hf.onchainJobId
      have hfrom := hf.status j
      rw [hstatus] at hfrom
      generalize hnow : AgentJobStatus.cancelled = s at hfrom
      cases hfrom with
      | kept => exact hkept hnow.symm
      | approved _ _ => cases hnow
      | started => cases hnow
      | logged lg e jobId _ hlog hdecoded hmoved hlink =>
          rw [← hnow] at hmoved
          obtain ⟨reason, rfl⟩ := movedBy_cancelled hmoved
          obtain ⟨n, e, rfl, he, hcancelled⟩ := h.cancelledLogs lg hlog _ reason hdecoded
          have hback : e.refunded = true := by simp [Escrow.refunded, hcancelled]
          exact refunded_iff.mpr ⟨n, e, hchain.refunded he hback, hlinked _ hlink, hback⟩
  | inserted k id merchantId now cfg input spent jobsThen assessor hl hcall hfresh hjobs hterms =>
      rw [hjobs] at hj'
      rcases List.mem_append.mp hj' with hj | hj
      · refine refunded_mono hchain (fun _ hi => hi) (h.cancelled j' hj ?_ hstatus)
        rw [World.InMonth, hterms, Function.update_of_ne (hfresh j' hj)] at hmonth
        exact hmonth
      · rw [List.mem_singleton.mp hj] at hstatus
        unfold newRow at hstatus
        dsimp only at hstatus
        split at hstatus <;> cases hstatus

theorem mem_calls_of_append {xs : List ApiCall} {c b : ApiCall} (h : c ∈ xs ++ [b])
    (hb : c ≠ b) : c ∈ xs := by
  rcases List.mem_append.mp h with h | h
  · exact h
  · exact absurd (List.mem_singleton.mp h) hb

theorem advanceCall_creating {k : Nat} {id merchantId : RowId} {now : Int}
    {cfg : AgentMerchantConfig} {input : CreateAgentJobInput} {spent jobsThen : Nat}
    (h : .creating merchantId cfg input spent jobsThen ∈ (advanceCall S w k id now).calls) :
    .creating merchantId cfg input spent jobsThen ∈ w.calls := by
  have hrest : ∀ c, c ∈ w.calls.eraseIdx k → c ∈ w.calls := fun c => List.mem_of_mem_eraseIdx
  unfold advanceCall at h
  dsimp only at h
  split at h
  · exact h
  · split at h
    · exact hrest _ h
    · split at h
      · split at h
        · exact hrest _ (mem_calls_of_append h (by simp))
        · exact hrest _ h
      · exact h
  · split at h
    · exact hrest _ (mem_calls_of_append h (by simp))
    · exact hrest _ h
  · exact hrest _ h

theorem advanceWork_calls {k : Nat} {sent : Sent} : (advanceWork S w k sent).calls = w.calls := by
  unfold advanceWork
  dsimp only
  split
  · rfl
  · split <;> rfl
  · split <;> rfl
  · rfl

/-- What a step does to the requests past their checks: it adds at most the one that just passed
them. -/
theorem step_checked {merchantId : RowId} {cfg : AgentMerchantConfig}
    {input : CreateAgentJobInput} {spent jobsThen : Nat}
    (h : .creating merchantId cfg input spent jobsThen ∈ (step S w l).calls) :
    .creating merchantId cfg input spent jobsThen ∈ w.calls ∨
      l = .createJob merchantId input ∧ step S w l = w.setCalls (step S w l).calls ∧
        cfg = retrieveConfig S merchantId ∧ checkJob cfg input spent = .ok () ∧
        spent = w.spent S merchantId ∧ jobsThen = w.jobCount merchantId := by
  cases l with
  | createJob m i =>
      change _ ∈ (createJob S m i w).calls at h
      show _ ∨ _ ∧ createJob S m i w = w.setCalls (createJob S m i w).calls ∧ _
      cases hcheck : checkJob (retrieveConfig S m) i (w.spent S m) with
      | error e =>
          have hstep : createJob S m i w = w := by
            unfold createJob
            dsimp only
            rw [hcheck]
          rw [hstep] at h
          exact .inl h
      | ok u =>
          have hstep : createJob S m i w = w.setCalls (w.calls ++
              [.creating m (retrieveConfig S m) i (w.spent S m) (w.jobCount m)]) := by
            unfold createJob
            dsimp only
            rw [hcheck]
          rw [hstep] at h ⊢
          rcases List.mem_append.mp h with h | h
          · exact .inl h
          · obtain ⟨rfl, rfl, rfl, rfl, rfl⟩ := by simpa using h
            exact .inr ⟨rfl, rfl, rfl, hcheck, rfl, rfl⟩
  | approveJob m id =>
      change _ ∈ (approveJob m id w).calls at h
      unfold approveJob at h
      split at h
      · exact .inl h
      · exact .inl (mem_calls_of_append h (by simp))
  | api k id now => exact .inl (advanceCall_creating h)
  | dropCall k => exact .inl (List.mem_of_mem_eraseIdx h)
  | take k =>
      simp only [step] at h
      split at h <;> exact .inl h
  | work k sent =>
      change _ ∈ (advanceWork S w k sent).calls at h
      rw [advanceWork_calls] at h
      exact .inl h
  | dropWork k => exact .inl h
  | mine k =>
      change _ ∈ (mine S w k).calls at h
      unfold mine at h
      split at h
      · exact .inl h
      · split at h <;> exact .inl h
  | callEscrow j action txHash =>
      change _ ∈ (callEscrow S w j action txHash).calls at h
      unfold callEscrow at h
      split at h
      · exact .inl h
      · split at h <;> exact .inl h
  | project n t =>
      change _ ∈ (projectLog S w n t).calls at h
      unfold projectLog at h
      split at h <;> exact .inl h

/-- What the request read covers what the merchant's jobs commit. -/
theorem CapInv.covered (h : CapInv S w) {merchantId : RowId} {input : CreateAgentJobInput}
    (hok : Alone S w (.createJob merchantId input)) (hcap : spendCap S merchantId ≠ none) :
    w.committed S merchantId ≤ w.spent S merchantId := by
  refine total_filter_le fun j hj hheld => decide_eq_true ?_
  intro hout
  have hmonth : w.InMonth S j := (of_decide_eq_true (List.mem_filter.mp hj).2).2
  have hback : w.refunded j = true := by
    simp only [NOT_COUNTED, List.mem_cons, List.not_mem_nil, or_false] at hout
    rcases hout with hout | hout | hout
    · exact h.cancelled j (List.mem_of_mem_filter hj) hmonth hout
    · exact hok hcap j hj (.inl hout)
    · exact hok hcap j hj (.inr hout)
  rw [hback] at hheld
  cases hheld

/-- A step that moves rows commits no more than before; one that inserts a row commits at most
the row's amount on top, and the merchant has one job more. -/
theorem committed_step (hchain : ChainStep S w w') (hrows : Rows S w l w')
    (hescrows : (∃ k id now, l = .api k id now) → w'.escrows = w.escrows) (merchantId : RowId) :
    w'.jobCount merchantId = w.jobCount merchantId ∧
        w'.committed S merchantId ≤ w.committed S merchantId ∨
      ∃ k id now cfg input spent jobsThen, l = .api k id now ∧
        w.calls[k]? = some (.creating merchantId cfg input spent jobsThen) ∧
        w'.jobCount merchantId = w.jobCount merchantId + 1 ∧
        w'.committed S merchantId ≤ w.committed S merchantId + input.amount := by
  cases hrows with
  | moved f hf hjobs hterms =>
      refine .inl ⟨?_, committed_moved hf.id_eq hf.merchantId_eq hjobs hterms
        (fun j => refunded_mono hchain fun _ => hf.onchainJobId) merchantId⟩
      rw [World.jobCount, World.jobCount, hjobs, List.countP_map]
      refine List.countP_congr fun j _ => ?_
      rw [Function.comp_apply, hf.merchantId_eq]
  | inserted k id owner now cfg input spent jobsThen assessor hl hcall hfresh hjobs hterms =>
      have hmore := committed_inserted (S := S) hfresh hjobs hterms (hescrows ⟨k, id, now, hl⟩)
        merchantId
      have hcount : w'.jobCount merchantId =
          w.jobCount merchantId + if owner = merchantId then 1 else 0 := by
        rw [World.jobCount, World.jobCount, hjobs, List.countP_append]
        simp [newRow]
      by_cases howner : merchantId = owner
      · subst howner
        rw [if_pos rfl] at hmore hcount
        exact .inr ⟨k, id, now, cfg, input, spent, jobsThen, hl, hcall, hcount, hmore⟩
      · rw [if_neg howner] at hmore
        rw [if_neg (Ne.symm howner)] at hcount
        exact .inl ⟨hcount, hmore⟩

theorem checkJob_within {cfg : AgentMerchantConfig} {input : CreateAgentJobInput}
    {spent cents : Nat} (h : checkJob cfg input spent = .ok ())
    (hcap : cfg.monthlySpendCapUsdCents = some cents) : spent + input.amount ≤ cents * 10000 := by
  refine Nat.le_of_not_lt fun hover => ?_
  unfold checkJob at h
  rw [hcap] at h
  by_cases hcommerce : AgentCapability.commerce ∉ cfg.enabledCapabilities
  · rw [if_pos hcommerce] at h
    cases h
  · by_cases hvendor : 0 < cfg.approvedVendors.length ∧ input.vendorAddress ∉ cfg.approvedVendors
    · rw [if_neg hcommerce, if_pos hvendor] at h
      cases h
    · rw [if_neg hcommerce, if_neg hvendor] at h
      dsimp only at h
      rw [if_pos hover] at h
      cases h

theorem advanceCall_escrows {k : Nat} {id : RowId} {now : Int} :
    (advanceCall S w k id now).escrows = w.escrows := by
  unfold advanceCall
  dsimp only
  split
  · rfl
  · split
    · rfl
    · split
      · split <;> rfl
      · rfl
  · split <;> rfl
  · rfl

theorem CapInv.step (h : CapInv S w) (hok : Alone S w l) : CapInv S (Commerce.step S w l) := by
  have hchain : ChainStep S w (Commerce.step S w l) := step_chain
  have hcommitted := committed_step hchain (step_rows h.logs)
    (by rintro ⟨k, id, now, rfl⟩; exact advanceCall_escrows)
  refine ⟨h.logs.step, h.step_cancelledLogs, h.step_cancelled, ?_, ?_⟩
  · rintro c hc merchantId cfg input spent jobsThen rfl
    rcases step_checked hc with hc | ⟨rfl, hstep, hcfg, hpassed, rfl, rfl⟩
    · have hold := h.checked _ hc merchantId cfg input spent jobsThen rfl
      rcases hcommitted merchantId with ⟨hcount, hless⟩ | ⟨_, _, _, _, _, _, _, _, _, hcount, _⟩
      · exact ⟨hold.config, hold.passed, hcount ▸ hold.then_le, fun hcap hthen =>
          Nat.le_trans hless (hold.covers hcap (hthen.trans hcount))⟩
      · refine ⟨hold.config, hold.passed, ?_, fun _ hthen => ?_⟩
        · have := hold.then_le
          omega
        · have := hold.then_le
          omega
    · rw [hstep]
      exact ⟨hcfg, hpassed, Nat.le_refl _, fun hcap _ => h.covered hok hcap⟩
  · intro merchantId cap hcap
    rcases hcommitted merchantId with
      ⟨-, hless⟩ | ⟨k, id, now, cfg, input, spent, jobsThen, rfl, hcall, -, hmore⟩
    · exact Nat.le_trans hless (h.within merchantId cap hcap)
    · have hchecked := h.checked _ (List.mem_of_getElem? hcall) merchantId cfg input spent
        jobsThen rfl
      have hsome : spendCap S merchantId ≠ none := by rw [hcap]; exact Option.some_ne_none cap
      have hsame : w.jobCount merchantId = jobsThen := by
        unfold Alone at hok
        simp only [hcall] at hok
        exact hok hsome
      obtain ⟨cents, hcents, rfl⟩ := Option.map_eq_some_iff.mp hcap
      have hcovers := hchecked.covers hsome hsame.symm
      have hfits := checkJob_within hchecked.passed (hchecked.config ▸ hcents)
      omega

end Invariant

/-! ## Runs -/

/-- Whatever the order of requests and projections, no merchant's month ever exceeds the cap. -/
def CapHolds (S : Setup) (w₀ : World) (ls : List Label) : Prop :=
  ∀ n, (stateAt (step S) w₀ ls n).WithinCap S

/-- Every request sums a month whose disputed and reclaimed jobs went back to the client, and
inserts before the merchant gets another job. -/
def AllAlone (S : Setup) (w₀ : World) (ls : List Label) : Prop :=
  ∀ n l, ls[n]? = some l → Alone S (stateAt (step S) w₀ ls n) l

theorem month_within_cap (S : Setup) (w₀ : World) (ls : List Label) (h0 : w₀.MonthStarts S)
    (hok : AllAlone S w₀ ls) : CapHolds S w₀ ls := by
  intro n
  have hinv : CapInv S (stateAt (step S) w₀ ls n) :=
    stateAt_induct (m := 0) h0.capInv (fun i l _ hl hi => hi.step (hok i l hl)) (Nat.zero_le n)
  exact hinv.within

section Exceeded

/-- A merchant with a cap of 10 dollars and no approval limit below it. -/
def capped : Setup where
  projector := ⟨.test, fun _ => some .usdc, 1, fun _ => none, fun _ => none⟩
  configs := fun _ => some
    { enabledCapabilities := [.commerce], monthlySpendCapUsdCents := some 1000 }
  payoutAddress := fun _ => some 7
  tokenAddress := fun _ => 3
  account := 5
  escrowAddress := 6
  monthStart := 0

def monthStart : World := ⟨Db.empty, fun _ => ⟨"", 0, .usdc, 0, 0⟩, [], [], [], [], [], []⟩

theorem monthStart_starts : monthStart.MonthStarts capped :=
  ⟨rfl, fun _ h => absurd h List.not_mem_nil, fun _ h => absurd h List.not_mem_nil,
    fun _ h => absurd h List.not_mem_nil⟩

def tenDollars : CreateAgentJobInput := ⟨8, "translate the manual", 10000000, .usdc, none⟩

/-- A job is escrowed, funded, started and delivered. -/
def delivered : List Label :=
  [.createJob [1] tenDollars, .api 0 [9] 100, .api 0 [9] 100, .take 0, .work 0 .failed,
   .work 0 (.answered 11), .work 0 .failed, .mine 0, .project 0 200, .callEscrow 0 .fundJob 12,
   .project 1 300, .callEscrow 0 .startJob 13, .project 2 400,
   .callEscrow 0 (.submitDeliverable 77) 14, .project 3 500]

def secondJob : List Label := [.createJob [1] tenDollars, .api 0 [10] 600]

/-- The job is in dispute when the second one is created. -/
def createdInDispute : List Label :=
  delivered ++ [.callEscrow 0 (.dispute 8 []) 15, .project 4 550] ++ secondJob

/-- The vendor has reclaimed the job when the second one is created. -/
def createdAfterReclaim : List Label :=
  delivered ++ [.callEscrow 0 .reclaimAfterTimeout 15, .project 4 550] ++ secondJob

/-- Both requests sum the month before either inserts. -/
def createdTogether : List Label :=
  [.createJob [1] tenDollars, .createJob [1] tenDollars, .api 0 [9] 100, .api 0 [10] 100]

/-- Money in dispute, money the vendor reclaimed, and a request that overlaps: each of them
lets the month commit twice the cap. -/
theorem month_exceeds_cap : ¬ CapHolds capped monthStart createdInDispute ∧
    ¬ CapHolds capped monthStart createdAfterReclaim ∧
      ¬ CapHolds capped monthStart createdTogether := by
  refine ⟨fun h => ?_, fun h => ?_, fun h => ?_⟩
  · have htwice : (stateAt (step capped) monthStart createdInDispute 19).committed capped [1] =
        20000000 := by decide +kernel
    have hcap := h 19 [1] 10000000 rfl
    omega
  · have htwice : (stateAt (step capped) monthStart createdAfterReclaim 19).committed capped [1] =
        20000000 := by decide +kernel
    have hcap := h 19 [1] 10000000 rfl
    omega
  · have htwice : (stateAt (step capped) monthStart createdTogether 4).committed capped [1] =
        20000000 := by decide +kernel
    have hcap := h 4 [1] 10000000 rfl
    omega

/-- A job that timed out in the client's favour leaves room for a second one. -/
def createdAfterRefund : List Label :=
  [.createJob [1] tenDollars, .api 0 [9] 100, .api 0 [9] 100, .take 0, .work 0 .failed,
   .work 0 (.answered 11), .work 0 .failed, .mine 0, .project 0 200, .callEscrow 0 .fundJob 12,
   .project 1 300, .callEscrow 0 .reclaimAfterTimeout 13, .project 2 400] ++ secondJob

instance (S : Setup) (w : World) : (l : Label) → Decidable (Alone S w l)
  | .createJob merchantId _ => inferInstanceAs (Decidable (spendCap S merchantId ≠ none →
      ∀ j ∈ w.monthJobs S merchantId, j.status = .disputed ∨ j.status = .reclaimed →
        w.refunded j = true))
  | .api k _ _ => by
      unfold Alone
      dsimp only
      generalize w.calls[k]? = found
      exact match found with
        | none | some (.approving _) | some (.enqueuing _) => isTrue trivial
        | some (.creating _ _ _ _ _) => inferInstance
  | .approveJob _ _ | .dropCall _ | .take _ | .work _ _ | .dropWork _ | .mine _
  | .callEscrow _ _ _ | .project _ _ => isTrue trivial

theorem month_within_cap_refund : CapHolds capped monthStart createdAfterRefund := by
  have hall : ∀ n, (h : n < createdAfterRefund.length) →
      Alone capped (stateAt (step capped) monthStart createdAfterRefund n)
        createdAfterRefund[n] := by
    decide +kernel
  refine month_within_cap capped monthStart createdAfterRefund monthStart_starts fun n l hl => ?_
  obtain ⟨hn, rfl⟩ := List.getElem?_eq_some_iff.mp hl
  exact hall n hn

end Exceeded

end Strimz.Commerce
