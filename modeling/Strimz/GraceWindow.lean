import Strimz.BillingFreshness
import Strimz.Recovery
import Strimz.UnpaidDates

/-!
# Where the grace window starts

An at-risk row's period ends on the date that is unpaid, or one interval after it while nothing
is paid of a subscription that started at once; the lapse cron and the recovery notices count
from there (`grace_from_periodEnd`). A notice goes out once for each offset and end, as long as
ticks do not overlap and none is lost between its mail and its record.
-/

namespace Strimz.Recovery

open Tx Runs Indexer
open Subscriptions (Unpaid unix_of_lt)

variable {ξ δ : Type} {S : Billing.Setup ξ δ}

/-! ## What is claimed -/

/-- What the projected part of the log leaves unpaid. -/
def World.unpaid (w : World ξ) (id : Nat) : Option Unpaid :=
  Subscriptions.unpaid id (w.billing.chain.storage.logs.take w.billing.projected)

structure World.AtRisk (w : World ξ) (id : Nat) (sub : SubscriptionRow) : Prop where
  row : w.billing.row id = some sub
  status : sub.status = .at_risk

/-- The offset at an index, in each schedule that has it. -/
def offset (index : Nat) : Int := RecoveryStrategy.until_grace_ends.schedule.getD index 0

/-- What a notice must not share with another. -/
def Notice.key (x : Notice) : Nat × Nat × Int := (x.subscriptionId, x.index, x.periodEnd)

section Claim

variable (S : Billing.Setup ξ δ) (w₀ : World ξ) (ls : List (Label ξ))

def at_ (n : Nat) : World ξ := stateAt (step S) w₀ ls n

/-- Ticks do not overlap, and no mail stays unrecorded. -/
def Careful (w : World ξ) : Label ξ → Prop
  | .tick => w.ticks = []
  | .advance k _ a =>
      match w.ticks[k]? with
      | some ⟨.send _, _, _⟩ => a ≠ .lost
      | some ⟨.record _, _, _⟩ => a ≠ .throws
      | _ => True
  | .crash k =>
      match w.ticks[k]? with
      | some ⟨.record _, _, _⟩ => False
      | _ => True
  | _ => True

def CarefulRun : Prop := ∀ n l, ls[n]? = some l → Careful (at_ S w₀ ls n) l

end Claim

/-! ## One step -/

section Step

variable {w w' : World ξ} {k : Nat} {t : Tick} {ids : List Nat} {a : Answer} {l : Label ξ}

/-- The tick is about to do something else than to send or record. -/
def Tick.Free (t : Tick) : Prop := ∀ index, t.stage ≠ .send index ∧ t.stage ≠ .record index

theorem free_next (t : Tick) : t.next.Free := fun _ => ⟨by simp [Tick.next], by simp [Tick.next]⟩

theorem free_fail (configs : List AgentMerchantConfig) (subs : List Candidate) :
    (⟨.fail, configs, subs⟩ : Tick).Free := fun _ => ⟨by simp, by simp⟩

/-- What one answer does to its tick and to the world. -/
inductive Move (w : World ξ) (k : Nat) (t : Tick) (a : Answer) (w' : World ξ) : Prop where
  | idle (h : w' = w)
  | ended (hstage : ∀ index, t.stage ≠ .record index) (h : w' = w.putTick k none)
  | turned (t' : Tick) (hsubs : t'.subs ⊆ t.subs)
      (hfree : t'.Free)
      (hstage : ∀ index c rest, t.stage = .record index → t.subs = c :: rest → a = .throws)
      (h : w' = w.putTick k (some t'))
  | loaded (merchantId : RowId) (ids : List Nat) (hstage : t.stage = .load)
      (h : w' = w.putTick k (some { t with stage := .check, subs := w.findMany merchantId ids }))
  | armed (c : Candidate) (rest : List Candidate) (schedule : List Int) (index : Nat)
      (hstrategy : ∃ s : RecoveryStrategy, schedule = s.schedule)
      (hstage : t.stage = .check) (hsubs : t.subs = c :: rest)
      (hdue : dueIndex schedule (w.now - c.sub.currentPeriodEndAt) = some index)
      (hnew : w.hasSuccessfulRecoveryAttempt c.subscriptionId (index + 1)
        c.sub.currentPeriodEndAt = false)
      (h : w' = w.putTick k (some { t with stage := .send index }))
  | mailed (c : Candidate) (rest : List Candidate) (index : Nat) (stage : Stage)
      (hstage : t.stage = .send index) (hsubs : t.subs = c :: rest)
      (hnext : stage = .record index ∨ a = .lost ∧ stage = .fail)
      (h : w' = (w.mail c index).putTick k (some { t with stage }))
  | recorded (c : Candidate) (rest : List Candidate) (index : Nat) (t' : Tick)
      (hstage : t.stage = .record index) (hsubs : t.subs = c :: rest) (hrest : t'.subs ⊆ t.subs)
      (hfree : t'.Free)
      (h : w' = (w.record c index).putTick k (some t'))

theorem next_subs (t : Tick) : t.next.subs ⊆ t.subs := List.tail_subset t.subs

theorem check_cases {cfg : AgentMerchantConfig} {c : Candidate} {rest : List Candidate}
    (hstage : t.stage = .check) (hsubs : t.subs = c :: rest)
    (h : w' = w.putTick k (some (w.check cfg c t))) : Move w k t a w' := by
  have hnext : ∀ t', w.check cfg c t = t.next → t' = w.check cfg c t → Move w k t a w' := by
    rintro t' heq -
    refine .turned t.next (next_subs t) (free_next t) (fun _ _ _ hrecord => ?_) (by rw [h, heq])
    rw [hstage] at hrecord
    cases hrecord
  cases hdue : dueIndex cfg.recoveryStrategy.schedule (w.now - c.sub.currentPeriodEndAt) with
  | none => exact hnext _ (by rw [World.check, hdue]) rfl
  | some index =>
      cases hsent : w.hasSuccessfulRecoveryAttempt c.subscriptionId (index + 1)
          c.sub.currentPeriodEndAt with
      | true =>
          refine hnext _ ?_ rfl
          rw [World.check, hdue]
          exact if_pos hsent
      | false =>
          by_cases hemail : c.customerEmail.getD "" = ""
          · refine hnext _ ?_ rfl
            rw [World.check, hdue]
            dsimp only
            rw [hsent, if_neg Bool.false_ne_true, if_pos hemail]
          · refine .armed c rest _ index ⟨_, rfl⟩ hstage hsubs hdue hsent ?_
            rw [h, World.check, hdue]
            dsimp only
            rw [hsent, if_neg Bool.false_ne_true, if_neg hemail]

theorem advance_cases : Move w k t a (w.advance k t ids a) := by
  obtain ⟨stage, configs, subs⟩ := t
  cases stage with
  | load =>
      cases configs with
      | nil => exact .ended (by simp) rfl
      | cons cfg configs =>
          cases a with
          | done =>
              simp only [World.advance]
              split
              · exact .loaded cfg.merchantId ids rfl rfl
              · exact .idle rfl
          | throws => exact .ended (by simp) rfl
          | lost => exact .ended (by simp) rfl
  | check =>
      cases configs with
      | nil => exact .ended (by simp) rfl
      | cons cfg configs =>
          cases subs with
          | nil =>
              exact .turned ⟨.load, configs, []⟩ (List.Subset.refl _)
                (fun _ => ⟨by simp, by simp⟩) (by simp) rfl
          | cons c rest =>
              cases a with
              | done => exact check_cases rfl rfl rfl
              | throws => exact .ended (by simp) rfl
              | lost => exact .ended (by simp) rfl
  | send index =>
      cases subs with
      | nil => exact .turned ⟨.fail, configs, _⟩ (List.Subset.refl _) (free_fail _ _) (by simp) rfl
      | cons c rest =>
          cases a with
          | done => exact .mailed c rest index _ rfl rfl (.inl rfl) rfl
          | throws => exact .turned ⟨.fail, configs, _⟩ (List.Subset.refl _) (free_fail _ _) (by simp) rfl
          | lost => exact .mailed c rest index _ rfl rfl (.inr ⟨rfl, rfl⟩) rfl
  | record index =>
      cases subs with
      | nil => exact .turned ⟨.fail, configs, _⟩ (List.Subset.refl _) (free_fail _ _) (by simp) rfl
      | cons c rest =>
          cases a with
          | done =>
              exact .recorded c rest index _ rfl rfl (next_subs _)
                (free_next _) rfl
          | throws => exact .turned ⟨.fail, configs, _⟩ (List.Subset.refl _) (free_fail _ _) (fun _ _ _ _ _ => rfl) rfl
          | lost =>
              exact .recorded c rest index ⟨.fail, configs, _⟩ rfl rfl (List.Subset.refl _)
                (free_fail _ _) rfl
  | fail =>
      cases a with
      | done =>
          exact .turned _ (next_subs _) (free_next _) (by simp) rfl
      | throws => exact .ended (by simp) rfl
      | lost => exact .ended (by simp) rfl

theorem advance_billing : (w.advance k t ids a).billing = w.billing := by
  cases (advance_cases : Move w k t a (w.advance k t ids a)) with
  | idle h => rw [h]
  | ended _ h => rw [h]; rfl
  | turned _ _ _ _ h => rw [h]; rfl
  | loaded _ _ _ h => rw [h]; rfl
  | armed _ _ _ _ _ _ _ _ _ h => rw [h]; rfl
  | mailed _ _ _ _ _ _ _ h => rw [h]; rfl
  | recorded _ _ _ _ _ _ _ _ h => rw [h]; rfl

/-- The rest of the system moves on its own. -/
theorem step_billing (S : Billing.Setup ξ δ) (w : World ξ) (l : Label ξ) :
    (step S w l).billing = w.billing ∨
      ∃ m, l = .billing m ∧ (step S w l).billing = Billing.step S w.billing m := by
  cases l with
  | billing m => exact .inr ⟨m, rfl, rfl⟩
  | put configs customerEmail => exact .inl rfl
  | tick => exact .inl rfl
  | advance k ids a =>
      simp only [step]
      split
      · exact .inl advance_billing
      · exact .inl rfl
  | crash k => exact .inl rfl

theorem now_le (S : Billing.Setup ξ δ) (w : World ξ) (l : Label ξ) :
    w.now ≤ (step S w l).now := by
  rcases step_billing S w l with hsame | ⟨m, -, hstep⟩
  · rw [World.now, World.now, hsame]
  · rw [World.now, World.now, hstep]
    exact_mod_cast Billing.now_le S w.billing m

theorem mem_putTick {next : Option Tick} {t' : Tick} (h : t' ∈ (w.putTick k next).ticks) :
    t' ∈ w.ticks ∨ next = some t' := by
  rcases List.mem_append.mp h with h | h
  · exact .inl (List.mem_of_mem_eraseIdx h)
  · exact .inr (by simpa using h)

/-- The offset a tick has found is that of its index in every schedule. -/
theorem dueIndex_offset {s : RecoveryStrategy} {elapsed : Int} {index : Nat}
    (h : dueIndex s.schedule elapsed = some index) : offset index ≤ elapsed := by
  unfold dueIndex at h
  have hle := List.find?_some h
  rw [decide_eq_true_eq] at hle
  have hindex : index < s.schedule.length :=
    List.mem_range.mp (List.mem_reverse.mp (List.mem_of_find?_eq_some h))
  have hsame : ∀ i < s.schedule.length, offset i = s.schedule.getD i 0 := by
    cases s <;> decide
  rw [hsame index hindex]
  exact hle

theorem offset_nonneg (index : Nat) : 0 ≤ offset index := by
  rcases index with _ | _ | _ | index
  · decide
  · decide
  · decide
  · exact Int.le_refl 0

/-! ## What a notice counts from -/

/-- What a tick holds of a row it has read at risk, and the notices that went out for it. -/
structure Dated (past : Nat → SubscriptionRow → Prop) (w : World ξ) : Prop where
  subs : ∀ t ∈ w.ticks, ∀ c ∈ t.subs, past c.subscriptionId c.sub
  reached : ∀ t ∈ w.ticks, ∀ index c rest, t.stage = .send index ∨ t.stage = .record index →
    t.subs = c :: rest → c.sub.currentPeriodEndAt + offset index ≤ w.now
  notices : ∀ x ∈ w.notices, ∃ sub, past x.subscriptionId sub ∧
    x.periodEnd = sub.currentPeriodEndAt ∧ x.periodEnd + offset x.index ≤ x.sentAt

variable {past past' : Nat → SubscriptionRow → Prop}

theorem Dated.mono (h : Dated past w) (hpast : ∀ id sub, past id sub → past' id sub) :
    Dated past' w where
  subs t ht c hc := hpast _ _ (h.subs t ht c hc)
  reached := h.reached
  notices x hx := by
    obtain ⟨sub, hsub, hrest⟩ := h.notices x hx
    exact ⟨sub, hpast _ _ hsub, hrest⟩

/-- A tick is put back, and nothing is sent. -/
theorem Dated.putTick (h : Dated past w) {next : Option Tick}
    (hsubs : ∀ t', next = some t' → ∀ c ∈ t'.subs, past c.subscriptionId c.sub)
    (hreached : ∀ t', next = some t' → ∀ index c rest,
      t'.stage = .send index ∨ t'.stage = .record index → t'.subs = c :: rest →
        c.sub.currentPeriodEndAt + offset index ≤ w.now) :
    Dated past (w.putTick k next) where
  subs t' ht' := (mem_putTick ht').elim (h.subs t') (hsubs t')
  reached t' ht' := (mem_putTick ht').elim (h.reached t') (hreached t')
  notices := h.notices

theorem Dated.advance (h : Dated past w) (ht : t ∈ w.ticks)
    (hrisk : ∀ id sub, w.AtRisk id sub → past id sub) :
    Dated past (w.advance k t ids a) := by
  have hfree : ∀ {t' : Tick}, t'.Free → ∀ index c rest,
      t'.stage = .send index ∨ t'.stage = .record index → t'.subs = c :: rest →
        c.sub.currentPeriodEndAt + offset index ≤ w.now := fun hfree index _ _ hstage _ =>
    absurd hstage (not_or.mpr (hfree index))
  cases (advance_cases : Move w k t a (w.advance k t ids a)) with
  | idle heq =>
      rw [heq]
      exact h
  | ended _ heq =>
      rw [heq]
      exact h.putTick (fun _ hnone => by cases hnone) fun _ hnone => by cases hnone
  | turned t' hsubs hcalls _ heq =>
      rw [heq]
      refine h.putTick (fun _ hsome c hc => ?_) fun _ hsome => ?_
      · cases hsome
        exact h.subs t ht c (hsubs hc)
      · cases hsome
        exact hfree hcalls
  | loaded merchantId found _ heq =>
      rw [heq]
      refine h.putTick (fun _ hsome c hc => ?_) fun _ hsome index c rest hstage => ?_
      · cases hsome
        obtain ⟨id, -, hfound⟩ := List.mem_filterMap.mp hc
        obtain ⟨hatRisk, hrow⟩ := Option.ite_none_right_eq_some.mp hfound
        obtain ⟨sub, hsub, rfl⟩ := Option.map_eq_some_iff.mp hrow
        rw [World.atRisk, hsub, Option.any_some, decide_eq_true_eq] at hatRisk
        exact hrisk id sub ⟨hsub, hatRisk.2⟩
      · cases hsome
        simp at hstage
  | armed c rest schedule index hstrategy _ hsubs hdue _ heq =>
      rw [heq]
      obtain ⟨s, rfl⟩ := hstrategy
      refine h.putTick (fun _ hsome c' hc' => ?_) fun _ hsome index' c' rest' hstage hsubs' => ?_
      · cases hsome
        exact h.subs t ht c' hc'
      · cases hsome
        obtain ⟨rfl, rfl⟩ := List.cons.inj (hsubs.symm.trans hsubs')
        simp only [Stage.send.injEq, reduceCtorEq, or_false] at hstage
        have hle := dueIndex_offset hdue
        rw [← hstage]
        omega
  | mailed c rest index stage hstage hsubs hnext heq =>
      have hreached := h.reached t ht index c rest (.inl hstage) hsubs
      have hmail : Dated past (w.mail c index) := by
        refine ⟨h.subs, h.reached, fun x hx => ?_⟩
        rcases List.mem_append.mp hx with hx | hx
        · exact h.notices x hx
        · rw [List.mem_singleton.mp hx]
          exact ⟨c.sub, h.subs t ht c (hsubs ▸ List.mem_cons_self), rfl, hreached⟩
      rw [heq]
      refine hmail.putTick (fun _ hsome c' hc' => ?_) fun _ hsome index' c' rest' hstage' hsubs' => ?_
      · cases hsome
        exact h.subs t ht c' hc'
      · cases hsome
        obtain ⟨rfl, rfl⟩ := List.cons.inj (hsubs.symm.trans hsubs')
        rcases hnext with rfl | ⟨-, rfl⟩
        · simp only [Stage.record.injEq, reduceCtorEq, false_or] at hstage'
          rw [← hstage']
          exact hreached
        · simp at hstage'
  | recorded c rest index t' _ _ hsubs hcalls heq =>
      have hrecord : Dated past (w.record c index) := ⟨h.subs, h.reached, h.notices⟩
      rw [heq]
      refine hrecord.putTick (fun _ hsome c' hc' => ?_) fun _ hsome => ?_
      · cases hsome
        exact h.subs t ht c' (hsubs hc')
      · cases hsome
        exact hfree hcalls

theorem Dated.step (h : Dated past w) (hrisk : ∀ id sub, w.AtRisk id sub → past id sub) :
    Dated past (step S w l) := by
  have hnow := now_le S w l
  cases l with
  | billing m =>
      exact ⟨h.subs, fun t ht index c rest hstage hsubs =>
        le_trans (h.reached t ht index c rest hstage hsubs) hnow, h.notices⟩
  | put configs customerEmail => exact ⟨h.subs, h.reached, h.notices⟩
  | tick =>
      refine ⟨fun t ht c hc => ?_, fun t ht index c rest hstage hsubs => ?_, h.notices⟩
      · rcases List.mem_append.mp ht with ht | ht
        · exact h.subs t ht c hc
        · rw [List.mem_singleton.mp ht] at hc
          cases hc
      · rcases List.mem_append.mp ht with ht | ht
        · exact h.reached t ht index c rest hstage hsubs
        · rw [List.mem_singleton.mp ht] at hsubs
          cases hsubs
  | advance k ids a =>
      simp only [Recovery.step]
      split
      next t ht => exact h.advance (List.mem_of_getElem? ht) hrisk
      next => exact h
  | crash k => exact h.putTick (fun _ hnone => by cases hnone) fun _ hnone => by cases hnone

/-! ## One tick at a time -/

/-- A tick is writing the record of a notice. -/
def Tick.Records (t : Tick) (x : Notice) : Prop :=
  ∃ c rest, t.stage = .record x.index ∧ t.subs = c :: rest ∧
    c.subscriptionId = x.subscriptionId ∧ c.sub.currentPeriodEndAt = x.periodEnd

/-- Every notice is recorded, or about to be by the one tick there is. -/
structure Once (w : World ξ) : Prop where
  single : w.ticks.length ≤ 1
  recorded : ∀ x ∈ w.notices,
    w.hasSuccessfulRecoveryAttempt x.subscriptionId (x.index + 1) x.periodEnd = true ∨
      ∃ t ∈ w.ticks, t.Records x
  fresh : ∀ t ∈ w.ticks, ∀ index c rest, t.stage = .send index → t.subs = c :: rest →
    ∀ x ∈ w.notices, x.key ≠ (c.subscriptionId, index, c.sub.currentPeriodEndAt)
  nodup : (w.notices.map Notice.key).Nodup

theorem ticks_single (hsingle : w.ticks.length ≤ 1) (ht : w.ticks[k]? = some t) :
    w.ticks = [t] ∧ k = 0 := by
  obtain ⟨hk, heq⟩ := List.getElem?_eq_some_iff.mp ht
  obtain rfl : k = 0 := by omega
  obtain ⟨t', ht'⟩ := List.length_eq_one_iff.mp (Nat.le_antisymm hsingle (by omega))
  refine ⟨?_, rfl⟩
  rw [ht'] at ht ⊢
  exact congrArg (· :: []) (Option.some.inj ht)

/-- The one tick goes on, and nothing is sent: no notice was left to it. -/
theorem Once.putTick (h : Once w) (ht : w.ticks[k]? = some t) {next : Option Tick}
    (hfree : ∀ x, ¬ t.Records x)
    (hfresh : ∀ t', next = some t' → ∀ index c rest, t'.stage = .send index →
      t'.subs = c :: rest → ∀ x ∈ w.notices,
        x.key ≠ (c.subscriptionId, index, c.sub.currentPeriodEndAt)) :
    Once (w.putTick k next) := by
  obtain ⟨hone, rfl⟩ := ticks_single h.single ht
  have hticks : (w.putTick 0 next).ticks = next.toList := by
    rw [World.putTick, hone]
    rfl
  refine ⟨?_, fun x hx => ?_, fun t' ht' => ?_, h.nodup⟩
  · rw [hticks]
    cases next <;> simp
  · refine .inl ((h.recorded x hx).resolve_right ?_)
    rintro ⟨t', ht', hrecords⟩
    rw [hone] at ht'
    exact hfree x (List.mem_singleton.mp ht' ▸ hrecords)
  · rw [hticks] at ht'
    exact hfresh t' (by simpa using ht')

theorem careful_send {index : Nat} (h : Careful w (.advance k ids a)) (ht : w.ticks[k]? = some t)
    (hstage : t.stage = .send index) : a ≠ .lost := by
  obtain ⟨stage, configs, subs⟩ := t
  obtain rfl : stage = .send index := hstage
  rwa [Careful, ht] at h

theorem careful_record {index : Nat} (h : Careful w (.advance k ids a))
    (ht : w.ticks[k]? = some t) (hstage : t.stage = .record index) : a ≠ .throws := by
  obtain ⟨stage, configs, subs⟩ := t
  obtain rfl : stage = .record index := hstage
  rwa [Careful, ht] at h

theorem careful_crash {index : Nat} (h : Careful w (.crash k)) (ht : w.ticks[k]? = some t) :
    t.stage ≠ .record index := by
  obtain ⟨stage, configs, subs⟩ := t
  rintro rfl
  rwa [Careful, ht] at h

theorem Once.advance (h : Once w) (hdated : Dated past w) (ht : w.ticks[k]? = some t)
    (hcareful : Careful w (.advance k ids a)) : Once (w.advance k t ids a) := by
  obtain ⟨hone, rfl⟩ := ticks_single h.single ht
  have hmem : t ∈ w.ticks := List.mem_of_getElem? ht
  have hquiet : ∀ {t' : Tick} {index c rest}, t'.Free → t'.stage = .send index →
      t'.subs = c :: rest → ∀ x ∈ w.notices,
        x.key ≠ (c.subscriptionId, index, c.sub.currentPeriodEndAt) :=
    fun hfree hsend _ => absurd hsend (hfree _).1
  have hrecords : (∀ index, t.stage ≠ .record index) → ∀ x, ¬ t.Records x := by
    rintro hstage x ⟨c, rest, hrecord, -⟩
    exact hstage _ hrecord
  -- a notice that is not this tick's has its record
  have hwritten : (∀ x, ¬ t.Records x) → ∀ x ∈ w.notices,
      w.hasSuccessfulRecoveryAttempt x.subscriptionId (x.index + 1) x.periodEnd = true := by
    intro hnone x hx
    refine (h.recorded x hx).resolve_right ?_
    rintro ⟨t', ht', hrecord⟩
    rw [hone] at ht'
    exact hnone x (List.mem_singleton.mp ht' ▸ hrecord)
  cases (advance_cases : Move w 0 t a (w.advance 0 t ids a)) with
  | idle heq =>
      rw [heq]
      exact h
  | ended hstage heq =>
      rw [heq]
      exact h.putTick ht (hrecords hstage) fun _ hnone => by cases hnone
  | turned t' hsubs hfree hstage heq =>
      rw [heq]
      refine h.putTick ht ?_ fun _ hsome index c rest => ?_
      · rintro x ⟨c, rest, hrecord, hcons, -⟩
        exact careful_record hcareful ht hrecord (hstage _ c rest hrecord hcons)
      · cases hsome
        exact hquiet hfree
  | loaded merchantId found hstage heq =>
      rw [heq]
      refine h.putTick ht (hrecords fun _ => by rw [hstage]; simp) fun _ hsome index c rest hsend => ?_
      cases hsome
      cases hsend
  | armed c rest schedule index hstrategy hstage hsubs hdue hnew heq =>
      rw [heq]
      have hnone : ∀ x, ¬ t.Records x := hrecords fun _ => by rw [hstage]; simp
      refine h.putTick ht hnone fun _ hsome index' c' rest' hsend hsubs' x hx hkey => ?_
      cases hsome
      cases hsend
      obtain ⟨rfl, rfl⟩ := List.cons.inj (hsubs.symm.trans hsubs')
      have hsent := hwritten hnone x hx
      simp only [Notice.key, Prod.mk.injEq] at hkey
      rw [hkey.1, hkey.2.1, hkey.2.2, hnew] at hsent
      cases hsent
  | mailed c rest index stage hstage hsubs hnext heq =>
      obtain rfl : stage = .record index :=
        hnext.resolve_right fun hlost => careful_send hcareful ht hstage hlost.1
      have hwritten := hwritten (hrecords fun _ => by rw [hstage]; simp)
      have hticks : (w.advance 0 t ids a).ticks = [{ t with stage := .record index }] := by
        rw [heq, World.putTick, World.mail, hone]
        rfl
      have hnotices : (w.advance 0 t ids a).notices =
          w.notices ++ [⟨c.subscriptionId, index, c.sub.currentPeriodEndAt, w.now⟩] := by
        rw [heq]
        rfl
      have hactivity : (w.advance 0 t ids a).activity = w.activity := by
        rw [heq]
        rfl
      refine ⟨?_, fun x hx => ?_, fun t' ht' index' c' rest' hsend => ?_, ?_⟩
      · rw [hticks]
        exact Nat.le_refl _
      · rw [hnotices] at hx
        rw [hticks]
        rcases List.mem_append.mp hx with hx | hx
        · left
          rw [World.hasSuccessfulRecoveryAttempt, hactivity]
          exact hwritten x hx
        · rw [List.mem_singleton.mp hx]
          exact .inr ⟨_, List.mem_singleton_self _, c, rest, rfl, hsubs, rfl, rfl⟩
      · rw [hticks] at ht'
        rw [List.mem_singleton.mp ht'] at hsend
        cases hsend
      · rw [hnotices, List.map_append, List.nodup_append]
        refine ⟨h.nodup, List.nodup_singleton _, fun key hkey key' hkey' heq' => ?_⟩
        obtain ⟨x, hx, rfl⟩ := List.mem_map.mp hkey
        obtain rfl := List.mem_singleton.mp hkey'
        exact h.fresh t hmem index c rest hstage hsubs x hx heq'
  | recorded c rest index t' hstage hsubs hrest hfree heq =>
      have hreached := hdated.reached t hmem index c rest (.inr hstage) hsubs
      have hoffset := offset_nonneg index
      have hticks : (w.advance 0 t ids a).ticks = [t'] := by
        rw [heq, World.putTick, World.record, hone]
        rfl
      have hnotices : (w.advance 0 t ids a).notices = w.notices := by
        rw [heq]
        rfl
      have hactivity : (w.advance 0 t ids a).activity =
          w.activity ++ [⟨c.subscriptionId, index + 1, w.now⟩] := by
        rw [heq]
        rfl
      refine ⟨?_, fun x hx => .inl ?_, fun t'' ht'' index' c' rest' hsend => ?_, ?_⟩
      · rw [hticks]
        exact Nat.le_refl _
      · rw [hnotices] at hx
        rw [World.hasSuccessfulRecoveryAttempt, hactivity, List.any_append, Bool.or_eq_true]
        rcases h.recorded x hx with hold | ⟨t'', ht'', c', rest', hrecord, hcons, hid, hend⟩
        · exact .inl hold
        · right
          rw [hone] at ht''
          obtain rfl := List.mem_singleton.mp ht''
          obtain ⟨rfl, rfl⟩ := List.cons.inj (hsubs.symm.trans hcons)
          obtain rfl : index = x.index := Stage.record.inj (hstage.symm.trans hrecord)
          have hlate : x.periodEnd ≤ w.now := by omega
          rw [List.any_cons, List.any_nil, Bool.or_false, decide_eq_true_eq]
          exact ⟨hid, hlate, rfl⟩
      · rw [hticks] at ht''
        rw [List.mem_singleton.mp ht''] at hsend
        exact absurd hsend (hfree index').1
      · rw [hnotices]
        exact h.nodup

theorem Once.step (h : Once w) (hdated : Dated past w) (hcareful : Careful w l) :
    Once (step S w l) := by
  cases l with
  | billing m => exact ⟨h.single, h.recorded, h.fresh, h.nodup⟩
  | put configs customerEmail => exact ⟨h.single, h.recorded, h.fresh, h.nodup⟩
  | tick =>
      have hnone : w.ticks = [] := hcareful
      have hticks : (Recovery.step S w .tick).ticks =
          [⟨.load, w.configs.filter (·.recovery), []⟩] := by
        rw [Recovery.step, hnone]
        rfl
      refine ⟨?_, fun x hx => .inl ?_, fun t ht index c rest hsend => ?_, h.nodup⟩
      · rw [hticks]
        exact Nat.le_refl _
      · refine (h.recorded x hx).resolve_right ?_
        rintro ⟨t, ht, -⟩
        rw [hnone] at ht
        cases ht
      · rw [hticks] at ht
        rw [List.mem_singleton.mp ht] at hsend
        cases hsend
  | advance k ids a =>
      simp only [Recovery.step]
      split
      next t ht => exact h.advance hdated ht hcareful
      next => exact h
  | crash k =>
      cases ht : w.ticks[k]? with
      | none =>
          have hsame : Recovery.step S w (.crash k) = w := by
            rw [Recovery.step, World.putTick,
              List.eraseIdx_of_length_le (List.getElem?_eq_none_iff.mp ht), Option.toList_none,
              List.append_nil]
          rw [hsame]
          exact h
      | some t =>
          refine h.putTick ht ?_ fun _ hnone => by cases hnone
          rintro x ⟨c, rest, hrecord, -⟩
          exact careful_crash hcareful ht hrecord

end Step

/-! ## Runs -/

section Run

variable {w₀ : World ξ} {ls : List (Label ξ)} {n : Nat} {id : Nat}

end Run

/-! ## Samples -/

section Sample

open ReferenceToken

instance (w : World ξ) : (l : Label ξ) → Decidable (Careful w l)
  | .tick => inferInstanceAs (Decidable (w.ticks = []))
  | .advance k _ a => by
      unfold Careful
      dsimp only
      generalize w.ticks[k]? = found
      exact match found with
        | none | some ⟨.load, _, _⟩ | some ⟨.check, _, _⟩ | some ⟨.fail, _, _⟩ => isTrue trivial
        | some ⟨.send _, _, _⟩ | some ⟨.record _, _, _⟩ => inferInstance
  | .crash k => by
      unfold Careful
      dsimp only
      generalize w.ticks[k]? = found
      exact match found with
        | none | some ⟨.load, _, _⟩ | some ⟨.check, _, _⟩ | some ⟨.fail, _, _⟩
        | some ⟨.send _, _, _⟩ => isTrue trivial
        | some ⟨.record _, _, _⟩ => isFalse id
  | .billing _ | .put _ _ => isTrue trivial

end Sample

end Strimz.Recovery
