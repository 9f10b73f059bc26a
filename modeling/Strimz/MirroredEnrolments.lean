import Strimz.MirroredCharges

/-!
# Enrolments

The log that hands out a subscription writes its row, and every other row and charge stays as
the book has it.
-/

namespace Strimz.SubscriptionMirror

open Tx Subscriptions Indexer InFlight

variable {S : Setup} {db₀ db db' : Db} {b b' : Book} {msg : Msg} {payer : Address} {p : Terms}

/-- What the contract emits for the next subscription. -/
def enrolmentLog (b : Book) (msg : Msg) (payer : Address) (p : Terms) : Subscriptions.Log :=
  ⟨msg.timestamp, .subscriptionCreated b.nextSubscriptionId p.merchantId payer p.token p.amount
    p.interval (firstChargeAt msg p)⟩

/-- Nothing has been charged of a subscription not handed out yet. -/
theorem Inv.charges_new (inv : Inv S db₀ b db) : charges b.nextSubscriptionId b.logs = [] := by
  refine List.filterMap_eq_nil_iff.mpr fun l hl => ?_
  by_contra hcharge
  obtain ⟨t, event⟩ := l
  cases event with
  | subscriptionCharged i a amount feeAmount netAmount next =>
      have hlt := (inv.settled _ hl _ rfl).2.2
      by_cases hi : i = b.nextSubscriptionId
      · exact Nat.lt_irrefl _ (hi ▸ hlt)
      · exact hcharge (if_neg hi)
  | _ => exact hcharge rfl

/-- What `UpsertSubscriptionFromOnchain` is given. -/
def Setup.createdInput (S : Setup) (q : Place) (b : Book) (msg : Msg) (payer : Address) (p : Terms)
    (currency : Currency) : SubscriptionCreatedInput where
  onchainSubscriptionId := b.nextSubscriptionId
  merchantOnchainId := p.merchantId
  payerAddress := payer
  currency := currency
  amount := p.amount.toNat
  interval := (intervalFromSeconds p.interval).1
  intervalCount := (intervalFromSeconds p.interval).2
  startAt := unix (firstChargeAt msg p)
  blockTimestamp := unix msg.timestamp
  currentPeriodEndAt := unix (firstChargeAt msg p) + p.interval.toNat
  nextChargeAt := unix (firstChargeAt msg p)
  onchainTxHash := q.txHash
  mode := S.projector.mode

/-- The dates of the new row can be stored. -/
theorem createdInput_dated {q : Place} {currency : Currency} (merchantId : RowId)
    (ht : msg.timestamp.toNat ≤ LATEST_TIME) (hstart : (firstChargeAt msg p).toNat ≤ LATEST_TIME) :
    (createdSubscription (S.createdInput q b msg payer p currency) merchantId).Dated := by
  have hinterval := p.interval.isLt
  have hend : IsDate (unix (firstChargeAt msg p) + p.interval.toNat) := by
    rw [unix_of_le hstart]
    exact isDate_of_le (by omega) (by omega)
  refine ⟨?_, ?_, isDate_unix hstart⟩
  · unfold createdSubscription
    dsimp only
    split
    · exact isDate_unix ht
    · exact isDate_unix hstart
  · unfold createdSubscription
    dsimp only
    split
    · exact isDate_unix hstart
    · exact hend

theorem Enrolment.status_new (e : Enrolment) :
    e.status false 0 [] = if e.trial then .trialing else .active := by
  simp [Enrolment.status]

/-- The new row shows the new subscription. -/
theorem Inv.new_shows {q : Place} {currency : Currency} {m : MerchantRow} {address : Address}
    (inv : Inv S db₀ b db) (hm : db₀.merchantByOnchain p.merchantId = some m)
    (haddress : m.payoutAddress = some address) (hcurrency : S.projector.tokens p.token = some currency)
    (hsub : b'.subscriptions b.nextSubscriptionId = newSubscription msg payer p)
    (hlogs : b'.logs = b.logs ++ [enrolmentLog b msg payer p]) :
    ShowsSubscription S db₀ b' b.nextSubscriptionId
      (createdSubscription (S.createdInput q b msg payer p currency) m.id) := by
  have hcharges : charges b.nextSubscriptionId b'.logs = [] := by
    rw [hlogs, charges_concat, inv.charges_new]
    rfl
  have htrial : (S.createdInput q b msg payer p currency).trial =
      Enrolment.trial ⟨msg.timestamp, firstChargeAt msg p⟩ := rfl
  exact
    { merchant := ⟨m, address, hsub ▸ hm, haddress, rfl⟩
      payer := by rw [hsub]; rfl
      amount := by rw [hsub]; rfl
      currency := hsub ▸ hcurrency
      due := by rw [hsub]; rfl
      enrolment := by
        refine ⟨⟨msg.timestamp, firstChargeAt msg p⟩, ⟨enrolmentLog b msg payer p, ?_, rfl,
          p.interval, if_pos rfl⟩, ?_, ?_⟩
        · rw [hlogs]
          exact List.mem_append_right _ (List.mem_singleton_self _)
        · rw [hcharges, hsub]
          unfold createdSubscription Enrolment.period
          rw [htrial]
          dsimp only [List.getLast?_nil]
          split
          · rfl
          · rfl
        · rw [hcharges, hsub]
          exact (Enrolment.status_new ⟨msg.timestamp, firstChargeAt msg p⟩).symm
      retries := ⟨Nat.zero_le _, fun _ => rfl⟩ }

theorem Inv.enrolled (inv : Inv S db₀ b db) (hfresh : S.Fresh db₀)
    (ht : msg.timestamp.toNat ≤ LATEST_TIME)
    (hholds : S.Holds db₀ (b.logs ++ [enrolmentLog b msg payer p])) :
    ∃ db', S.Projects b.logs.length (enrolmentLog b msg payer p) db db' ∧
      Inv S db₀ ((b.enrol msg payer p).log (enrolmentLog b msg payer p)) db' := by
  set l := enrolmentLog b msg payer p with hl
  set id := b.nextSubscriptionId with hid
  have hself : l ∈ b.logs ++ [l] := List.mem_append_right _ (List.mem_singleton_self l)
  obtain ⟨hstart, hmerchantId, htoken, m, hm, hpayout⟩ :=
    hholds.enrolled l hself id p.merchantId payer p.token p.amount p.interval _ rfl
  obtain ⟨currency, hcurrency⟩ := Option.ne_none_iff_exists'.mp htoken
  obtain ⟨address, haddress⟩ := Option.ne_none_iff_exists'.mp hpayout
  have hlength : b.logs.length + 1 ≤ MAX_INT4 := by
    have := hholds.few
    rwa [List.length_append, List.length_singleton] at this
  have hsmall : id ≤ MAX_INT4 := Nat.le_trans inv.few hlength
  set q := S.places b.logs.length with hq
  set in_ := S.createdInput q b msg payer p currency with hin
  have hnoRow : db.subscriptions (id : Int) = none := by
    by_contra hrow
    obtain ⟨i, -, hi, heq⟩ := inv.noOtherRows _ hrow
    omega
  have hnoEnrolment : db.enrolments q.txHash = none := by
    by_contra henrol
    rcases inv.enrolments _ henrol with hold | ⟨n, l', hl', hcreated, hhash⟩
    · exact hold (hfresh.enrolments _)
    · have hn := (List.getElem?_eq_some_iff.mp hl').1
      have heq := hholds.apart n b.logs.length l' l
        ((List.getElem?_append_left hn).trans hl') List.getElem?_concat_length hcreated
        (Option.some_ne_none id) hhash
      omega
  have hmerchant : db.merchantByOnchain (int64 p.merchantId) = some m := by
    rw [int64_small hmerchantId, Db.merchantByOnchain, inv.merchants]
    exact hm
  have happly : upsertSubscriptionFromOnchain in_ db = .ok (1, db.createSubscription in_ m.id) := by
    refine upsertSubscriptionFromOnchain_eq_ok.mpr ⟨?_, int4_small hmerchantId, m, hmerchant,
      int4_small hsmall, createdInput_dated m.id ht hstart, .inr ⟨?_, hnoEnrolment, rfl, rfl⟩⟩
    · have htime : in_.blockTimestamp = msg.timestamp.toNat := unix_of_le ht
      rw [htime, ZERO_TIME]
      omega
    · have hinput : in_.onchainSubscriptionId = id := rfl
      rw [hinput, int64_small hsmall, hnoRow]
  refine ⟨_, .of_apply (Billing.tokenSymbol_bind_eq_ok.mpr ⟨currency, hcurrency,
    drop_eq_ok.mpr ⟨1, happly⟩⟩), ?_⟩
  have hinput : int64 in_.onchainSubscriptionId = id := int64_small hsmall
  rw [Db.createSubscription, hinput]
  set b' := (b.enrol msg payer p).log l with hb'
  have hlogs : b'.logs = b.logs ++ [l] := rfl
  have hold : ∀ i ≠ id, b'.subscriptions i = b.subscriptions i := fun i hi =>
    Function.update_of_ne hi _ _
  have hat : ∀ {n : Nat} {l'}, b.logs[n]? = some l' → b'.logs[n]? = some l' := by
    intro n l' h
    rw [hlogs, List.getElem?_append_left (List.getElem?_eq_some_iff.mp h).1, h]
  have hmem : ∀ {l'}, l' ∈ b.logs → l' ∈ b'.logs := fun h => List.mem_append_left _ h
  exact
    { rows := by
        intro i hi1 hi2
        by_cases hi : i = id
        · subst hi
          exact ⟨_, Function.update_self _ _ _, inv.new_shows hm haddress hcurrency
            (Function.update_self _ _ _) rfl⟩
        · obtain ⟨row, hrow, hshows⟩ := inv.rows i hi1 (by have : i < id + 1 := hi2; omega)
          have hother : (i : Int) ≠ id := by omega
          exact ⟨row, (Function.update_of_ne hother _ _).trans hrow,
            hshows.carry (hold i hi) hlogs rfl fun _ => Nat.le_refl _⟩
      noOtherRows := by
        intro i hi
        by_cases hid : i = id
        · exact ⟨id, inv.first, Nat.lt_succ_self _, hid⟩
        · obtain ⟨j, hj1, hj2, hj⟩ := inv.noOtherRows i fun hnone =>
            hi ((Function.update_of_ne hid _ _).trans hnone)
          exact ⟨j, hj1, Nat.lt_succ_of_lt hj2, hj⟩
      charges := by
        intro n l' h x hx
        rcases getElem?_concat_cases h with h | ⟨rfl, rfl⟩
        · have hlt := (inv.settled l' (List.mem_of_getElem? h) x hx).2.2
          rw [hold x.id (Nat.ne_of_lt hlt)]
          exact { inv.charges n l' h x hx with }
        · cases hx
      noOtherCharges := by
        intro a r hr hstatus
        obtain ⟨l', hl', x, hx⟩ := inv.noOtherCharges a r hr hstatus
        exact ⟨l', hmem hl', x, hx⟩
      noOtherTransactions := by
        intro k hk
        obtain ⟨n, l', h, hx⟩ := inv.noOtherTransactions k hk
        exact ⟨n, l', hat h, hx⟩
      chargedEvents := by
        have hrefs := inv.chargedEvents
        rw [hlogs, List.mapIdx_concat, List.flatten_concat, ← List.append_assoc, ← hrefs]
        simp [refsOf, List.filter_append, Setup.chargedRef, settledOf, hl, enrolmentLog,
          Db.enrolPayer]
      createdEvents := by
        have hrefs := inv.createdEvents
        rw [hlogs, List.flatMap_append, ← List.append_assoc, ← hrefs]
        simp [refsOf, List.filter_append, createdRef, createdOf, hl, enrolmentLog, Db.enrolPayer,
          hid]
      merchants := inv.merchants
      attempts := by
        intro a r hr
        rw [hlogs, List.length_append]
        exact Nat.le_trans (inv.attempts a r hr) (Nat.le_add_right _ _)
      payments := by
        intro a ha
        obtain ⟨l', hl', x, hx⟩ := inv.payments a ha
        exact ⟨l', hmem hl', x, hx⟩
      enrolments := by
        intro h henrol
        by_cases hhash : h = q.txHash
        · exact .inr ⟨b.logs.length, l, List.getElem?_concat_length, Option.some_ne_none id,
            hhash.symm⟩
        · rcases inv.enrolments h fun hnone =>
            henrol ((Function.update_of_ne hhash _ _).trans hnone) with h' | ⟨n, l', h', hrest⟩
          · exact .inl h'
          · exact .inr ⟨n, l', hat h', hrest⟩
      settled := by
        intro l' hl' x hx
        rcases List.mem_append.mp hl' with hl' | hl'
        · obtain ⟨hused, hx1, hx2⟩ := inv.settled l' hl' x hx
          exact ⟨hused, hx1, Nat.lt_succ_of_lt hx2⟩
        · rw [List.mem_singleton.mp hl'] at hx
          cases hx
      first := Nat.le_succ_of_le inv.first
      few := by
        rw [hlogs, List.length_append]
        exact Nat.succ_le_succ inv.few
      unborn := by
        intro i hi
        by_cases hid : i = id
        · exact ⟨hid ▸ inv.first, hid ▸ Nat.lt_succ_self _⟩
        · rw [hold i hid] at hi
          obtain ⟨hi1, hi2⟩ := inv.unborn i hi
          exact ⟨hi1, Nat.lt_succ_of_lt hi2⟩ }

end Strimz.SubscriptionMirror
