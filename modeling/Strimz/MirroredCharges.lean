import Strimz.MirroredLogs

/-!
# Enrolments and charges

The logs that hand out a subscription or settle a charge: they write rows, attempts,
Transactions and events, and the tables go on mirroring the book.
-/

namespace Strimz.SubscriptionMirror

open Tx Subscriptions Indexer InFlight

variable {S : Setup} {db₀ db db' : Db} {b b' : Book} {l : Subscriptions.Log} {id i : Nat}
  {row row' : SubscriptionRow} {a : Bytes32} {t : Uint64}

/-! ## Periods passed over -/

theorem Inv.periodsSkipped {sub : Subscription} {periods : Nat} {start : Uint64}
    (inv : Inv S db₀ b db) (hsub : b.subscriptions id = sub) (hfew : b.logs.length ≤ MAX_INT4)
    (hstart : start.toNat ≤ LATEST_TIME) (hknown : sub.payer ≠ 0) :
    ∃ db', S.Projects b.logs.length ⟨t, .subscriptionPeriodsSkipped id periods start⟩ db db' ∧
      Inv S db₀ ((b.putSubscription id { sub with nextChargeAt := start }).log
        ⟨t, .subscriptionPeriodsSkipped id periods start⟩) db' := by
  subst hsub
  obtain ⟨h1, h2⟩ := inv.unborn id hknown
  have hid := inv.id_le h2 hfew
  obtain ⟨row, hrow, hshows⟩ := inv.rows id h1 h2
  obtain ⟨e, hlogged, hperiod, hstatus⟩ := hshows.enrolment
  set in_ : SubscriptionPeriodsSkippedInput :=
    ⟨id, periods, unix start, (S.places b.logs.length).txHash⟩
  have happly : recordSubscriptionPeriodsSkipped in_ db =
      .ok (1, (db.putSubscription id (row.skipTo (unix start))).audit
        ⟨none, some row.merchantId, periodsSkippedAudit in_ id⟩) := by
    refine recordSubscriptionPeriodsSkipped_eq_ok.mpr ⟨int4_small hid, isDate_unix hstart, row, ?_,
      rfl, ?_⟩
    · rw [int64_small hid, hrow]
    · rw [int64_small hid]
  refine ⟨_, .of_apply (drop_eq_ok.mpr ⟨1, happly⟩), ?_⟩
  refine inv.oneRow (l := ⟨t, .subscriptionPeriodsSkipped id periods start⟩) rfl rfl rfl
    (fun _ _ => ⟨rfl, fun _ => Nat.le_refl _⟩) rfl (fun i hi => Function.update_of_ne hi _ _)
    (by simp) (fun _ h => h) ⟨rfl, rfl, rfl, rfl, rfl, rfl⟩ (fun _ => .inl rfl) h1 h2 ?_
    fun i hi => Function.update_of_ne hi _ _
  refine ⟨_, Function.update_self _ _ _, hshows.move (Function.update_self _ _ _)
    ⟨⟨rfl, rfl⟩, ⟨rfl, rfl⟩, ⟨rfl, rfl⟩, ⟨rfl, rfl⟩⟩ rfl ?_ ?_⟩
  · have hcharges : charges id (b.logs ++ [⟨t, .subscriptionPeriodsSkipped id periods start⟩]) =
        charges id b.logs := (charges_concat ..).trans (List.append_nil _)
    refine ⟨e, hlogged.mono (List.subset_append_left _ _), ?_, ?_⟩
    · rw [Book.log_logs, Book.putSubscription_logs, hcharges]
      exact hperiod
    · rw [Book.log_logs, Book.putSubscription_logs, hcharges]
      exact hstatus
  · rw [Book.log_logs, failures_concat]
    exact hshows.retries

theorem Inv.useAttempt (inv : Inv S db₀ b db) (a : Bytes32) : Inv S db₀ (b.useAttempt a) db :=
  { inv with
    rows := fun id h1 h2 => by
      obtain ⟨row, hrow, hshows⟩ := inv.rows id h1 h2
      exact ⟨row, hrow, { hshows with }⟩
    settled := fun l hl x hx => by
      obtain ⟨hused, hid⟩ := inv.settled l hl x hx
      refine ⟨?_, hid⟩
      by_cases ha : x.attempt = a
      · rw [ha]
        exact Function.update_self _ _ _
      · exact (Function.update_of_ne ha _ _).trans hused }

/-! ## What a merchant is found by -/

theorem merchantById_of_mem {m : MerchantRow} (hnodup : (db.merchants.map (·.id)).Nodup)
    (hm : m ∈ db.merchants) : db.merchantById m.id = some m := by
  cases hfind : db.merchantById m.id with
  | none =>
      have hnone := List.find?_eq_none.mp hfind m hm
      simp at hnone
  | some m' =>
      have hid : m'.id = m.id := by simpa using List.find?_some hfind
      rw [List.inj_on_of_nodup_map hnodup (List.mem_of_find?_eq_some hfind) hm hid]

/-- The merchant of a subscription, as the charge's `JOIN` finds it. -/
theorem ShowsSubscription.joined (hfresh : S.Fresh db₀) (hmerchants : db.merchants = db₀.merchants)
    (h : ShowsSubscription S db₀ b id row) :
    ∃ m address, db.merchantById row.merchantId = some m ∧ m.payoutAddress = some address := by
  obtain ⟨m, address, hm, haddress, hid⟩ := h.merchant
  have hmem : m ∈ db.merchants := hmerchants ▸ List.mem_of_find?_eq_some hm
  exact ⟨m, address, hid ▸ merchantById_of_mem (hmerchants ▸ hfresh.merchants) hmem, haddress⟩

/-- The place of the next log is new. -/
theorem Inv.place_new (inv : Inv S db₀ b db) (hfresh : S.Fresh db₀) :
    db.transactions (S.places b.logs.length).key = none := by
  by_contra hold
  obtain ⟨n, l, hl, -, hkey⟩ := inv.noOtherTransactions (S.places b.logs.length).key (by
    rw [hfresh.transactions]
    exact hold)
  have hn : b.logs.length = n := hfresh.places _ _ hkey
  rw [← hn, List.getElem?_eq_none (Nat.le_refl _)] at hl
  cases hl

/-! ## Charges -/

/-- The attempt is inserted, or taken over from a failure. -/
theorem recordAttempt_succeeds {in_ : SubscriptionChargedInput} {n : Nat} {k : Int}
    (row : SubscriptionRow)
    (hfailed : ∀ r, db.charges in_.chargeAttemptId = some r → r.status = .failed)
    (hattempts : ∀ a r, db.charges a = some r → r.attemptNumber ≤ n) :
    ∃ r, (db.recordAttempt in_ k row).charges =
        Function.update db.charges in_.chargeAttemptId (some r) ∧
      r.status = .succeeded ∧ r.periodStartAt = row.nextChargeAt ∧
      r.periodEndAt = in_.nextChargeAt ∧ r.amount = in_.amount ∧ r.attemptNumber ≤ n + 1 := by
  unfold Db.recordAttempt
  cases hold : db.charges in_.chargeAttemptId with
  | none => exact ⟨_, rfl, rfl, rfl, rfl, rfl, Nat.le_add_left 1 n⟩
  | some r =>
      dsimp only
      rw [if_pos (hfailed r hold)]
      have hnumber : r.attemptNumber ≤ n := hattempts _ r hold
      exact ⟨_, rfl, rfl, rfl, rfl, rfl, Nat.le_succ_of_le hnumber⟩

/-- The due time after the paid period, as the log and the tables have it. -/
theorem unix_next {start : Uint64} {interval : Uint32} (h : start.toNat ≤ LATEST_TIME) :
    (start + interval.setWidth 64).toNat = start.toNat + interval.toNat ∧
      unix (start + interval.setWidth 64) = unix start + interval.toNat ∧
      IsDate (unix (start + interval.setWidth 64)) := by
  have hinterval := interval.isLt
  have hlatest : LATEST_TIME < 2 ^ 62 := by decide
  have hnat : (start + interval.setWidth 64).toNat = start.toNat + interval.toNat := by
    rw [BitVec.toNat_add, BitVec.toNat_setWidth]
    omega
  have hunix : unix (start + interval.setWidth 64) = unix start + interval.toNat := by
    rw [unix_of_lt (by omega), unix_of_le h, hnat]
    exact Nat.cast_add _ _
  refine ⟨hnat, hunix, ?_⟩
  rw [hunix, unix_of_le h]
  exact isDate_of_le (by omega) (by omega)

theorem chargeOf_charged {amount feeAmount netAmount : Uint256} {next : Uint64} :
    chargeOf id ⟨t, .subscriptionCharged id a amount feeAmount netAmount next⟩ =
      some (t.toNat, next.toNat) := if_pos rfl

theorem Enrolment.period_charged (e : Enrolment) (interval : Uint32) (cs : List (Nat × Nat))
    (t next : Nat) :
    e.period interval (cs ++ [(t, next)]) = ((next : Int) - interval.toNat, (next : Int)) := by
  unfold Enrolment.period
  rw [List.getLast?_concat]

theorem Enrolment.status_charged (e : Enrolment) (cs : List (Nat × Nat)) (c : Nat × Nat) :
    e.status false 0 (cs ++ [c]) = .active := by
  simp [Enrolment.status]

/-- What the charge writes to its row. -/
theorem ShowsSubscription.charged {start : Uint64} {feeAmount netAmount : Uint256}
    (h : ShowsSubscription S db₀ b id row) (hstart : start.toNat ≤ LATEST_TIME)
    (hlive : (b.subscriptions id).cancelled = false)
    (hdue : (b.subscriptions id).nextChargeAt = start) :
    ShowsSubscription S db₀
      ((b.putSubscription id { b.subscriptions id with
          nextChargeAt := start + (b.subscriptions id).interval.setWidth 64 }).log
        ⟨t, .subscriptionCharged id a (b.subscriptions id).amount feeAmount netAmount
          (start + (b.subscriptions id).interval.setWidth 64)⟩) id
      (row.bump (unix (start + (b.subscriptions id).interval.setWidth 64))) := by
  obtain ⟨e, hlogged, -, hstatus⟩ := h.enrolment
  obtain ⟨hnat, hunix, -⟩ := @unix_next _ (b.subscriptions id).interval hstart
  refine h.move (Function.update_self _ _ _) ⟨⟨rfl, rfl⟩, ⟨rfl, rfl⟩, ⟨rfl, rfl⟩, ⟨rfl, rfl⟩⟩ rfl
    ⟨e, hlogged.mono (List.subset_append_left _ _), ?_, ?_⟩ ?_
  · rw [Book.log_logs, charges_concat, chargeOf_charged, Option.toList_some,
      Enrolment.period_charged, hnat]
    dsimp only [SubscriptionRow.bump]
    rw [h.due, hdue, hunix, unix_of_le hstart, Nat.cast_add, Int.add_sub_cancel]
  · rw [Book.log_logs, charges_concat, chargeOf_charged, Option.toList_some]
    dsimp only [SubscriptionRow.bump]
    rw [hlive] at hstatus ⊢
    rw [Enrolment.status_charged, hstatus]
    unfold Enrolment.status
    rw [if_neg Bool.false_ne_true]
    split
    · rfl
    · split <;> rfl
  · exact ⟨Nat.zero_le _, fun _ => rfl⟩

theorem countFailure_charged {i : Nat} {amount feeAmount netAmount : Uint256} {next : Uint64}
    (h : i ≠ id) (n : Nat) :
    countFailure i n ⟨t, .subscriptionCharged id a amount feeAmount netAmount next⟩ = n :=
  if_neg (Ne.symm h)

/-- A charge under an attempt id that is in no charge before it. -/
theorem Inv.charged (inv : Inv S db₀ b db) (sub : Subscription) {start : Uint64}
    {feeAmount netAmount : Uint256} (hsub : b.subscriptions id = sub) (hfresh : S.Fresh db₀)
    (hfew : b.logs.length ≤ MAX_INT4) (ht : t.toNat ≤ LATEST_TIME)
    (hstart : start.toNat ≤ LATEST_TIME) (hknown : sub.payer ≠ 0) (hlive : sub.cancelled = false)
    (hdue : sub.nextChargeAt = start) (hburned : b.usedAttempts a = true)
    (hnew : ∀ l ∈ b.logs, ∀ x, settledOf l = some x → x.attempt ≠ a) :
    let next := start + sub.interval.setWidth 64
    let l : Subscriptions.Log :=
      ⟨t, .subscriptionCharged id a sub.amount feeAmount netAmount next⟩
    ∃ db', S.Projects b.logs.length l db db' ∧
      Inv S db₀ ((b.putSubscription id { sub with nextChargeAt := next }).log l) db' := by
  subst hsub
  intro next l
  obtain ⟨hfailed, hunpaid⟩ := inv.unpaid hnew
  obtain ⟨h1, h2⟩ := inv.unborn id hknown
  have hid := inv.id_le h2 hfew
  obtain ⟨row, hrow, hshows⟩ := inv.rows id h1 h2
  obtain ⟨m, address, hm, haddress⟩ := hshows.joined hfresh inv.merchants
  obtain ⟨-, hunix, hdate⟩ := @unix_next _ (b.subscriptions id).interval hstart
  set q := S.places b.logs.length with hq
  have hplace : db.transactions q.key = none := inv.place_new hfresh
  set in_ : SubscriptionChargedInput :=
    { onchainSubscriptionId := id, chargeAttemptId := a,
      amount := (b.subscriptions id).amount.toNat, feeAmount := feeAmount.toNat,
      netAmount := netAmount.toNat, nextChargeAt := unix next, onchainTxHash := q.txHash,
      blockNumber := q.blockNumber, blockTimestamp := unix t, logIndex := q.index,
      mode := S.projector.mode } with hin
  have happly : insertSubscriptionCharge in_ db =
      .ok (1, db.recordCharge in_ id row address) := by
    refine insertSubscriptionCharge_eq_ok.mpr ⟨int4_small hid, row, m, address, ?_, hm, haddress,
      hdate, isDate_unix ht, .inr ⟨hplace, hunpaid, rfl, ?_⟩⟩
    · rw [int64_small hid, hrow]
    · rw [int64_small hid]
  refine ⟨_, .of_apply (drop_eq_ok.mpr ⟨1, happly⟩), ?_⟩
  have hretaken : ∀ r, db.charges in_.chargeAttemptId = some r → r.status = .failed := hfailed
  obtain ⟨r, hcharges, hstatus, hperiodStart, hperiodEnd, hamount, hnumber⟩ :=
    recordAttempt_succeeds (k := (id : Int)) row hretaken inv.attempts
  rw [recordCharge_frame, hcharges]
  set b' := (b.putSubscription id { b.subscriptions id with nextChargeAt := next }).log l with hb'
  have hlogs : b'.logs = b.logs ++ [l] := rfl
  have hat : ∀ {n : Nat} {l'}, b.logs[n]? = some l' → b'.logs[n]? = some l' := by
    intro n l' h
    rw [hlogs, List.getElem?_append_left (List.getElem?_eq_some_iff.mp h).1, h]
  have hlast : b'.logs[b.logs.length]? = some l := by
    rw [hlogs]
    exact List.getElem?_concat_length
  have hmem : ∀ {l'}, l' ∈ b.logs → l' ∈ b'.logs := fun h => List.mem_append_left _ h
  have hself : l ∈ b'.logs := List.mem_append_right _ (List.mem_singleton_self l)
  have hterms : ∀ i, (b'.subscriptions i).interval = (b.subscriptions i).interval ∧
      (b'.subscriptions i).payer = (b.subscriptions i).payer := by
    intro i
    by_cases hi : i = id
    · subst hi
      simp [hb']
    · simp [hb', hi]
  exact
    { rows := by
        intro i hi1 hi2
        by_cases hi : i = id
        · subst hi
          exact ⟨_, Function.update_self _ _ _, hshows.charged hstart hlive hdue⟩
        · obtain ⟨row', hrow', hshows'⟩ := inv.rows i hi1 hi2
          have hother : (i : Int) ≠ id := by omega
          refine ⟨row', (Function.update_of_ne hother _ _).trans hrow', hshows'.carry
            (Function.update_of_ne hi _ _) hlogs (if_neg (Ne.symm hi)) fun n => ?_⟩
          exact (countFailure_charged hi n).ge
      noOtherRows := by
        intro i hi
        by_cases hid : i = id
        · exact ⟨id, h1, h2, hid⟩
        · exact inv.noOtherRows i fun hnone => hi ((Function.update_of_ne hid _ _).trans hnone)
      charges := by
        intro n l' h x hx
        rcases getElem?_concat_cases h with h | ⟨rfl, rfl⟩
        · obtain ⟨⟨r', hr', hshown⟩, ⟨tx, htx, hshownTx⟩, hpayment⟩ := inv.charges n l' h x hx
          have hne : x.attempt ≠ a := by
            intro heq
            rw [heq, hunpaid] at hpayment
            cases hpayment
          have hkey : (S.places n).key ≠ q.key := by
            intro heq
            rw [heq, hplace] at htx
            cases htx
          refine ⟨⟨r', (Function.update_of_ne hne _ _).trans hr', ?_⟩,
            ⟨tx, (Function.update_of_ne hkey _ _).trans htx, ?_⟩,
            (Function.update_of_ne hne _ _).trans hpayment⟩
          · rwa [(hterms x.id).1]
          · rwa [(hterms x.id).2]
        · obtain rfl := Option.some.inj hx
          refine ⟨⟨r, Function.update_self _ _ _, hstatus, ?_, hperiodEnd, hamount⟩,
            ⟨_, Function.update_self _ _ _, rfl, rfl, rfl, rfl, rfl, rfl, rfl, ?_, rfl, rfl⟩,
            Function.update_self _ _ _⟩
          · rw [hperiodStart, hshows.due, hdue, (hterms id).1, hunix, Int.add_sub_cancel]
          · rw [(hterms id).2]
            exact hshows.payer
      noOtherCharges := by
        intro a' r' hr' hstatus'
        by_cases ha : a' = a
        · exact ⟨l, hself, _, rfl, ha.symm⟩
        · obtain ⟨l', hl', x, hx⟩ :=
            inv.noOtherCharges a' r' ((Function.update_of_ne ha _ _).symm.trans hr') hstatus'
          exact ⟨l', hmem hl', x, hx⟩
      noOtherTransactions := by
        intro k hk
        by_cases hkey : k = q.key
        · exact ⟨b.logs.length, l, hlast, Option.some_ne_none _, hkey⟩
        · obtain ⟨n, l', h, hx⟩ := inv.noOtherTransactions k fun heq =>
            hk ((Function.update_of_ne hkey _ _).trans heq)
          exact ⟨n, l', hat h, hx⟩
      chargedEvents := by
        have hrefs := inv.chargedEvents
        rw [hlogs, List.mapIdx_concat, List.flatten_concat, ← List.append_assoc, ← hrefs]
        simp [refsOf, List.filter_append, Setup.chargedRef, settledOf, l, hin, Place.key,
          SubscriptionChargedInput.key, hq]
      createdEvents := by
        have hrefs := inv.createdEvents
        rw [hlogs, List.flatMap_append, ← List.append_assoc, ← hrefs]
        simp [refsOf, List.filter_append, createdRef, createdOf, l]
      merchants := inv.merchants
      attempts := by
        intro a' r' hr'
        rw [hlogs, List.length_append, List.length_singleton]
        by_cases ha : a' = a
        · have hsame : Function.update db.charges a (some r) a' = some r' := hr'
          rw [ha, Function.update_self] at hsame
          exact Option.some.inj hsame ▸ hnumber
        · exact Nat.le_succ_of_le
            (inv.attempts a' r' ((Function.update_of_ne ha _ _).symm.trans hr'))
      payments := by
        intro a' ha'
        by_cases ha : a' = a
        · exact ⟨l, hself, _, rfl, ha.symm⟩
        · obtain ⟨l', hl', x, hx⟩ := inv.payments a' fun hnone =>
            ha' ((Function.update_of_ne ha _ _).trans hnone)
          exact ⟨l', hmem hl', x, hx⟩
      enrolments := by
        intro h henrol
        rcases inv.enrolments h henrol with h' | ⟨n, l', h', hrest⟩
        · exact .inl h'
        · exact .inr ⟨n, l', hat h', hrest⟩
      settled := by
        intro l' hl' x hx
        rcases List.mem_append.mp hl' with hl' | hl'
        · exact inv.settled l' hl' x hx
        · rw [List.mem_singleton.mp hl'] at hx
          obtain rfl := Option.some.inj hx
          exact ⟨hburned, h1, h2⟩
      first := inv.first
      few := by
        rw [hlogs, List.length_append]
        exact Nat.le_trans inv.few (by omega)
      unborn := fun i hi => inv.unborn i ((hterms i).2 ▸ hi) }

end Strimz.SubscriptionMirror
