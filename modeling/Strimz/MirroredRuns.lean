import Strimz.ChargePeriods
import Strimz.MirroredEnrolments
import Strimz.StreamCompleteness

/-!
# The tables mirror the contract

In every run of the subscriptions contract without a reinstatement, the indexer gets past every
log, and after the logs of each transaction its tables show the contract's book.
-/

namespace Strimz.SubscriptionMirror

open Tx Runs Subscriptions Indexer

variable {ξ δ : Type} {O : Outside ξ δ} {this : Address} {S : Setup} {db₀ : Db} {b b' : Book}
  {l : Subscriptions.Log} {id : Nat} {a : Bytes32} {msg : Msg} {c c' : Ctx Storage ξ}

/-- The batch loop got past the log so far, and the tables show the book. -/
def Follows (S : Setup) (db₀ : Db) (b : Book) : Prop :=
  ∃ db, S.projector.applyLogs (S.stream b.logs) db₀ = .ok ((), db) ∧ Inv S db₀ b db

theorem Follows.next (h : Follows S db₀ b) (hlogs : b'.logs = b.logs ++ [l])
    (hnext : ∀ db, Inv S db₀ b db →
      ∃ db', S.Projects b.logs.length l db db' ∧ Inv S db₀ b' db') : Follows S db₀ b' := by
  obtain ⟨db, hran, inv⟩ := h
  obtain ⟨db', hproject, inv'⟩ := hnext db inv
  refine ⟨db', ?_, inv'⟩
  rw [hlogs, Setup.stream, List.mapIdx_concat]
  refine applyLogs_append.mpr ⟨db, hran, ?_⟩
  exact bind_eq_ok.mpr ⟨(), db', hproject, pure_eq_ok.mpr rfl⟩

/-! ## Prefixes -/

theorem Setup.Holds.of_append {logs new : List Subscriptions.Log}
    (h : S.Holds db₀ (logs ++ new)) : S.Holds db₀ logs where
  few := by
    have := h.few
    rw [List.length_append] at this
    omega
  enrolled l hl := h.enrolled l (List.mem_append_left _ hl)
  apart n n' l l' hn hn' := h.apart n n' l l'
    ((List.getElem?_append_left (List.getElem?_eq_some_iff.mp hn).1).trans hn)
    ((List.getElem?_append_left (List.getElem?_eq_some_iff.mp hn').1).trans hn')
  skipped l hl := h.skipped l (List.mem_append_left _ hl)

/-! ## One transaction -/

theorem Follows.config {new : List Subscriptions.Log} (h : Follows S db₀ b)
    (hnew : ∀ l ∈ new, l.event.Config) :
    Follows S db₀ { b with logs := b.logs ++ new } := by
  induction new generalizing b with
  | nil => rwa [List.append_nil]
  | cons l new ih =>
      have hl : Follows S db₀ (b.log l) :=
        h.next rfl fun db inv => inv.config (hnew l List.mem_cons_self)
      have hrest := ih hl fun l' hl' => hnew l' (List.mem_cons_of_mem _ hl')
      rwa [Book.log_logs, List.append_assoc] at hrest

/-- The time of the paid period is not after the block. -/
theorem start_le {sub : Subscription} (hdue : sub.nextChargeAt ≤ msg.timestamp)
    (ht : msg.timestamp.toNat ≤ LATEST_TIME) :
    (BitVec.ofNat 64 (paidPeriodStart msg sub)).toNat ≤ LATEST_TIME := by
  have hle := paidPeriodStart_le hdue
  rw [BitVec.toNat_ofNat]
  exact Nat.le_trans (Nat.mod_le _ _) (Nat.le_trans hle ht)

/-- Nothing is passed over: the paid period is the one that was due. -/
theorem start_eq {sub : Subscription} (h : ¬ 0 < periodsSkipped msg sub) :
    BitVec.ofNat 64 (paidPeriodStart msg sub) = sub.nextChargeAt := by
  rw [paidPeriodStart, Nat.eq_zero_of_not_pos h, Nat.zero_mul, Nat.add_zero, BitVec.ofNat_toNat,
    BitVec.setWidth_eq]

theorem Follows.row (h : Follows S db₀ b) (hfresh : S.Fresh db₀)
    (ht : msg.timestamp.toNat ≤ LATEST_TIME) (hholds : S.Holds db₀ b'.logs)
    (hrow : RowWrites msg id a b b') : Follows S db₀ b' := by
  cases hrow with
  | skipped outcome hcharged =>
      have hid := hholds.skipped _ (List.mem_append_right _ (List.mem_singleton_self _)) _ _ _ rfl
      exact h.next rfl fun db inv => inv.skipped rfl rfl rfl (fun _ h => h) hholds.few ht hid
  | failed =>
      have hid := hholds.skipped _ (List.mem_append_right _ (List.mem_singleton_self _)) _ _ _ rfl
      refine h.next rfl fun db inv => inv.skipped rfl rfl rfl (fun a' ha' => ?_) hholds.few ht hid
      by_cases heq : a' = a
      · rw [heq]
        exact Function.update_self _ _ _
      · exact (Function.update_of_ne heq _ _).trans ha'
  | charged sub start feeAmount netAmount hsub hunused hpayer hlive hdue hstart =>
      have hfew := hholds.of_append.few
      rw [Book.putSubscription_logs] at hfew
      have hstartLe : start.toNat ≤ LATEST_TIME := hstart ▸ start_le hdue ht
      have hnew : ∀ l ∈ b.logs, ∀ x, settledOf l = some x → x.attempt ≠ a := by
        obtain ⟨db, -, inv⟩ := h
        exact inv.unburned hunused
      have hburning : Follows S db₀ (b.useAttempt a) := by
        obtain ⟨db, hran, inv⟩ := h
        exact ⟨db, hran, inv.useAttempt a⟩
      have hburned : (b.useAttempt a).usedAttempts a = true := Function.update_self _ _ _
      unfold Book.skipTo at hfew ⊢
      split
      next hskip =>
        -- the skipped periods are logged first, and move the due time of the row
        rw [if_pos hskip, Book.log_logs, List.length_append] at hfew
        have hpassed : Follows S db₀ (((b.useAttempt a).putSubscription id
            { sub with nextChargeAt := start }).log
              ⟨msg.timestamp, .subscriptionPeriodsSkipped id (periodsSkipped msg sub) start⟩) :=
          hburning.next rfl fun db inv => inv.periodsSkipped hsub
            (Nat.le_trans (Nat.le_add_right _ _) hfew) hstartLe hpayer
        refine hpassed.next rfl fun db inv => ?_
        refine inv.charged { sub with nextChargeAt := start } (Function.update_self _ _ _) hfresh
          (by rwa [Book.log_logs, List.length_append]) ht hstartLe hpayer hlive rfl hburned
          fun l hl x hx => ?_
        rcases List.mem_append.mp hl with hl | hl
        · exact hnew l hl x hx
        · rw [List.mem_singleton.mp hl] at hx
          cases hx
      next hskip =>
        rw [if_neg hskip] at hfew
        refine hburning.next rfl fun db inv => ?_
        exact inv.charged sub hsub hfresh hfew ht hstartLe hpayer hlive
          (by rw [hstart, start_eq hskip]) hburned hnew

theorem Follows.rows {rows : List (Nat × Bytes32)} {outcomes : List ChargeOutcome}
    (h : Follows S db₀ c.storage.book) (hfresh : S.Fresh db₀)
    (ht : msg.timestamp.toNat ≤ LATEST_TIME) (hrows : Rows O this msg rows outcomes c c')
    (hholds : S.Holds db₀ c'.storage.logs) : Follows S db₀ c'.storage.book := by
  induction hrows with
  | nil => exact h
  | cons hrow hrows ih =>
      obtain ⟨new, hnew⟩ := (rows_appends hrows).logs
      rw [hnew] at hholds
      exact ih (h.row hfresh ht hholds.of_append (row_writes hrow)) (hnew ▸ hholds)

theorem Follows.step {l : Subscriptions.Label ξ} (h : Follows S db₀ c.storage.book)
    (hfresh : S.Fresh db₀) (ht : l.time ≤ LATEST_TIME) (hnever : ∀ id, l.action ≠ .reinstate id)
    (hholds : S.Holds db₀ (Subscriptions.step O this c l).storage.book.logs) :
    Follows S db₀ (Subscriptions.step O this c l).storage.book := by
  have hwrites := step_writes O this c l
  generalize (Subscriptions.step O this c l).storage.book = b' at hwrites hholds ⊢
  cases hwrites with
  | config new hnew => exact h.config fun l hl => (hnew l hl).2
  | enrolled payer p _ => exact h.next rfl fun db inv => inv.enrolled hfresh ht hholds
  | cancelled id hknown hlive =>
      exact h.next rfl fun db inv => inv.cancelled hholds.of_append.few ht hknown hlive
  | reinstated id haction => exact absurd haction (hnever id)
  | charged rows outcomes c₁ hrows =>
      exact Follows.rows (c := ⟨c.storage.setEntered true, c.ext⟩) h hfresh ht hrows hholds

/-! ## Runs -/

theorem Follows.deployed (hfresh : S.Fresh db₀) (hasRole : RoleTable)
    (registry feeCollector tokenWhitelist : Address) :
    Follows S db₀ (deployed hasRole registry feeCollector tokenWhitelist).book :=
  ⟨db₀, rfl, .initial hfresh rfl (fun _ => rfl) rfl⟩

theorem run_follows (hfresh : S.Fresh db₀) {c₀ : Ctx Storage ξ}
    (h₀ : Follows S db₀ c₀.storage.book) {ls : List (Subscriptions.Label ξ)}
    (hclock : ∀ l ∈ ls, l.time ≤ LATEST_TIME)
    (hnever : ∀ l ∈ ls, ∀ id, l.action ≠ .reinstate id)
    (hholds : S.Holds db₀ (exec (Subscriptions.step O this) c₀ ls).storage.logs) :
    Follows S db₀ (exec (Subscriptions.step O this) c₀ ls).storage.book := by
  induction ls using List.reverseRecOn with
  | nil => exact h₀
  | append_singleton ls l ih =>
      rw [exec_append] at hholds ⊢
      have hl : l ∈ ls ++ [l] := List.mem_append_right _ (List.mem_singleton_self l)
      obtain ⟨new, hnew⟩ := (step_appends O this (exec (Subscriptions.step O this) c₀ ls) l).logs
      have hbefore : S.Holds db₀ (exec (Subscriptions.step O this) c₀ ls).storage.logs :=
        (hnew ▸ hholds : S.Holds db₀ ((exec (Subscriptions.step O this) c₀ ls).storage.logs ++ new)).of_append
      have hfollows := ih (fun l' hl' => hclock l' (List.mem_append_left _ hl'))
        (fun l' hl' => hnever l' (List.mem_append_left _ hl')) hbefore
      exact hfollows.step hfresh (hclock l hl) (hnever l hl) hholds

theorem exists_paysFor {F I : Nat} {ks : List Nat} {cs : List (Nat × Nat)} {x : Nat × Nat}
    (h : List.Forall₂ (Periods.PaysFor F I) ks cs) (hx : x ∈ cs) :
    ∃ k, Periods.PaysFor F I k x := by
  induction h with
  | nil => cases hx
  | cons hpays _ ih =>
      rcases List.mem_cons.mp hx with rfl | hx
      · exact ⟨_, hpays⟩
      · exact ih hx

theorem event_of_enrolment {interval : Uint32} {startAt : Uint64}
    (h : enrolmentOf id l = some (interval, startAt)) : ∃ merchantId payer token amount,
      l.event = .subscriptionCreated id merchantId payer token amount interval startAt := by
  unfold enrolmentOf at h
  split at h
  next i merchantId payer token amount interval' startAt' heq =>
    split at h
    next hi =>
      obtain ⟨rfl, rfl⟩ := Prod.mk.inj (Option.some.inj h)
      exact ⟨merchantId, payer, token, amount, hi ▸ heq⟩
    next => cases h
  next => cases h

/-- The period of a charged row starts on the anchor its enrolment set. -/
theorem anchored_start {s : Storage} {row : SubscriptionRow} (hbilling : BillingInv s)
    (hholds : S.Holds db₀ s.logs) (hshows : ShowsSubscription S db₀ s.book id row)
    (hcharged : charges id s.logs ≠ []) :
    ∃ e : Enrolment, ∃ k : Nat, e.Logged id s.logs ∧ row.currentPeriodStartAt =
      unix e.startAt + k * (s.subscriptions id).interval.toNat := by
  obtain ⟨e, ⟨l, hl, htime, interval, henrol⟩, hperiod, -⟩ := hshows.enrolment
  rcases hbilling id with ⟨-, F, ks, n, henrolments, -, hanchored, -⟩ | hblank
  · have hmem : (interval, e.startAt) ∈ s.enrolments id :=
      List.mem_filterMap.mpr ⟨l, hl, henrol⟩
    have hstart : e.startAt = F := by
      rw [show s.enrolments id = [((s.subscriptions id).interval, F)] from henrolments] at hmem
      exact (Prod.mk.inj (List.mem_singleton.mp hmem)).2
    obtain ⟨merchantId, payer, token, amount, hevent⟩ := event_of_enrolment henrol
    have hbound : e.startAt.toNat ≤ LATEST_TIME :=
      (hholds.enrolled l hl id merchantId payer token amount interval e.startAt hevent).1
    have hlast := List.getLast?_eq_some_getLast hcharged
    obtain ⟨k, -, -, hnext⟩ := exists_paysFor hanchored.pays (List.mem_of_getLast? hlast)
    refine ⟨e, k, ⟨l, hl, htime, interval, henrol⟩, (Prod.mk.inj hperiod).1.trans ?_⟩
    have hperiod' : e.period (s.subscriptions id).interval (charges id s.logs) =
        (((charges id s.logs).getLast hcharged).2 - ((s.subscriptions id).interval.toNat : Int),
          (((charges id s.logs).getLast hcharged).2 : Int)) := by
      unfold Enrolment.period
      rw [hlast]
    have hinterval : (s.account id).interval = (s.subscriptions id).interval := rfl
    refine (congrArg Prod.fst hperiod').trans ?_
    rw [hnext, unix_of_le hbound, hstart, hinterval]
    push_cast
    ring
  · exact absurd (congrArg Account.charges hblank) hcharged

/-- In every run of the contract in which nothing is reinstated, whose log the tables can hold:
the indexer gets past every log, in chain order, with no batch failing, and its tables mirror the
contract. The rows are the contract's subscriptions, each with the due time, the period paid for
(or the trial, or the first interval) and the status the contract gives it; the attempts that
succeeded, the Transactions and the events are those of the charges in the log, once each. The
period of a row that was charged starts on the anchor its enrolment set. -/
theorem tables_mirror_chain {ξ δ : Type} (O : Outside ξ δ) (this : Address) (S : Setup)
    (hasRole : RoleTable) (registry feeCollector tokenWhitelist : Address) (x : ξ) (db₀ : Db)
    (ls : List (Subscriptions.Label ξ)) (hfresh : S.Fresh db₀)
    (hclock : ∀ l ∈ ls, l.time ≤ LATEST_TIME) (hnever : ∀ l ∈ ls, ∀ id, l.action ≠ .reinstate id)
    (hholds : S.Holds db₀ (exec (Subscriptions.step O this)
      ⟨deployed hasRole registry feeCollector tokenWhitelist, x⟩ ls).storage.logs) :
    let b := (exec (Subscriptions.step O this)
      ⟨deployed hasRole registry feeCollector tokenWhitelist, x⟩ ls).storage.book
    ∃ db, S.projector.applyLogs (S.stream b.logs) db₀ = .ok ((), db) ∧ Mirrors S db₀ b db ∧
      ∀ (id : Nat) row, db.subscriptions id = some row → charges id b.logs ≠ [] →
        ∃ e : Enrolment, ∃ k : Nat, e.Logged id b.logs ∧ row.currentPeriodStartAt =
          unix e.startAt + k * (b.subscriptions id).interval.toNat := by
  intro b
  obtain ⟨db, hran, inv⟩ := run_follows (O := O) hfresh
    (Follows.deployed hfresh hasRole registry feeCollector tokenWhitelist) hclock hnever hholds
  have hbilling : BillingInv (exec (Subscriptions.step O this)
      ⟨deployed hasRole registry feeCollector tokenWhitelist, x⟩ ls).storage :=
    exec_invariant (P := fun c : Ctx Storage ξ => BillingInv c.storage)
      (BillingInv.deployed hasRole registry feeCollector tokenWhitelist)
      fun _ l hl inv => BillingInv.step inv (Nat.lt_of_le_of_lt (hclock l hl) (by decide))
  refine ⟨db, hran, inv.toMirrors, fun id row hrow hcharged => ?_⟩
  obtain ⟨id', h1, h2, hid⟩ := inv.noOtherRows id (hrow ▸ Option.some_ne_none row)
  obtain rfl : id = id' := by omega
  obtain ⟨row', hrow', hshows⟩ := inv.rows id h1 h2
  obtain rfl := Option.some.inj (hrow'.symm.trans hrow)
  exact anchored_start hbilling hholds hshows hcharged

/-- The indexer knows one merchant and one token, and reads the logs as they come. -/
def sampleSetup : Setup where
  projector := ⟨.test, fun token => if token = 200 then some .usdc else none, 84532,
    fun _ => none, fun _ => none⟩
  address := 101
  places n := ⟨7, BitVec.ofNat 256 n, n⟩

def sampleDb : Db :=
  { Db.empty with merchants := [⟨[109], some 1, none, none, none, none, none, some 500, .active⟩] }

/-- The payer subscribes, pays at once and again after two periods, and cancels. -/
def sampleRun : List (Subscriptions.Label (Peers ReferenceToken.State)) :=
  sampleCharges ++ [⟨⟨300, 20000⟩, .cancel 1⟩]

def sampleLogs : List Subscriptions.Log :=
  [⟨10, .subscriptionCreated 1 1 300 200 1000 3600 10⟩,
   ⟨10, .subscriptionCharged 1 5 1000 10 990 3610⟩,
   ⟨10815, .subscriptionPeriodsSkipped 1 2 10810⟩,
   ⟨10815, .subscriptionCharged 1 6 1000 10 990 14410⟩,
   ⟨10815, .subscriptionChargeSkipped 1 7 .notDue⟩,
   ⟨20000, .subscriptionCancelled 1 300⟩]

theorem sample_fresh : sampleSetup.Fresh sampleDb where
  subscriptions _ := rfl
  charges _ := rfl
  chargePayments _ := rfl
  transactions _ := rfl
  enrolments _ := rfl
  merchants := by decide
  places _ _ h := congrArg TxKey.logIndex h

theorem sample_holds : sampleSetup.Holds sampleDb sampleLogs where
  few := by decide
  enrolled := by
    intro l hl id merchantId payer token amount interval startAt hevent
    simp only [sampleLogs, List.mem_cons, List.not_mem_nil, or_false] at hl
    rcases hl with rfl | rfl | rfl | rfl | rfl | rfl
    · cases hevent
      exact ⟨by decide, by decide, by decide, _, rfl, by decide⟩
    all_goals cases hevent
  apart := by
    intro n n' l l' hn hn' hl hl' _
    have hfirst : ∀ (n : Nat) l, sampleLogs[n]? = some l → createdOf l ≠ none → n = 0 := by
      intro n l hn hl
      rcases n with _ | _ | _ | _ | _ | _ | n
      · rfl
      all_goals
        cases hn
        try exact absurd rfl hl
    rw [hfirst n l hn hl, hfirst n' l' hn' hl']
  skipped := by
    intro l hl id attempt outcome hevent
    simp only [sampleLogs, List.mem_cons, List.not_mem_nil, or_false] at hl
    rcases hl with rfl | rfl | rfl | rfl | rfl | rfl
    all_goals cases hevent
    decide

theorem tables_mirror_chain_sample :
    let b := (exec (Subscriptions.step (ReferenceToken.outside ReferenceToken.silent) 101)
      ⟨deployed ReferenceToken.sampleRoles 103 102 104, ReferenceToken.samplePeers⟩
        sampleRun).storage.book
    b.logs = sampleLogs ∧ ∃ db, sampleSetup.projector.applyLogs (sampleSetup.stream b.logs)
      sampleDb = .ok ((), db) ∧ Mirrors sampleSetup sampleDb b db := by
  intro b
  have hlogs : b.logs = sampleLogs := by decide
  have hholds : sampleSetup.Holds sampleDb b.logs := by
    rw [hlogs]
    exact sample_holds
  refine ⟨hlogs, ?_⟩
  obtain ⟨db, hran, hmirrors, -⟩ := tables_mirror_chain
    (ReferenceToken.outside ReferenceToken.silent) 101 sampleSetup ReferenceToken.sampleRoles
    103 102 104 ReferenceToken.samplePeers sampleDb sampleRun sample_fresh (by decide)
    (by
      intro l hl id
      simp only [sampleRun, sampleCharges, List.cons_append, List.nil_append, List.mem_cons,
        List.not_mem_nil, or_false] at hl
      rcases hl with rfl | rfl | rfl | rfl <;> intro h <;> cases h)
    hholds
  exact ⟨db, hran, hmirrors⟩

end Strimz.SubscriptionMirror
