import Strimz.ReferenceToken
import Strimz.SubscriptionSteps

/-!
# Cancellation is final unless the operator did it

`FlagStep` is what a transaction can do to one subscription's `cancelled` flag
and its `operatorCancelledAt` marker. The marker is set only by an operator's
cancel and only while the flag goes up, and cleared only by the reinstate that
takes the flag down again; so a cancel by a party, which leaves no marker, cannot
be undone, and a reinstate undoes the one operator cancel whose marker it finds.
-/

namespace Strimz.Subscriptions

open Tx Runs

variable {ξ δ : Type} {O : Outside ξ δ} {this : Address} {l : Label ξ} {id : Nat}
  {c c' : Ctx Storage ξ}

/-! ## One transaction -/

def Storage.cancelled (s : Storage) (id : Nat) : Bool := (s.subscriptions id).cancelled

def Storage.payer (s : Storage) (id : Nat) : Address := (s.subscriptions id).payer

/-- Whether `msg.sender` is the payer, or the owner the merchant has at the moment. -/
def PartyAt (O : Outside ξ δ) (c : Ctx Storage ξ) (msg : Msg) (id : Nat) (party : Bool) : Prop :=
  ∃ m, O.getMerchant c.storage.registry (c.storage.subscriptions id).merchantId c.ext = .ok m ∧
    isParty msg (c.storage.subscriptions id) m = party

/-- What one transaction does to the flag and the marker of subscription `id`. -/
inductive FlagStep (O : Outside ξ δ) (l : Label ξ) (id : Nat) (c c' : Ctx Storage ξ) : Prop
  | same (hflag : c'.storage.cancelled id = c.storage.cancelled id)
      (hmarker : c'.storage.operatorCancelledAt id = c.storage.operatorCancelledAt id)
      (hpayer : c'.storage.payer id = c.storage.payer id)
  | enrolled (hid : c.storage.nextSubscriptionId ≤ id)
      (hnext : id < c'.storage.nextSubscriptionId) (hflag : c'.storage.cancelled id = false)
      (hmarker : c'.storage.operatorCancelledAt id = c.storage.operatorCancelledAt id)
  | party (haction : l.action = .cancel id) (hknown : c.storage.payer id ≠ 0) (hparty : PartyAt O c l.msg id true)
      (hlive : c.storage.cancelled id = false) (hflag : c'.storage.cancelled id = true)
      (hmarker : c'.storage.operatorCancelledAt id = c.storage.operatorCancelledAt id)
  | operator (haction : l.action = .cancel id) (hknown : c.storage.payer id ≠ 0) (hparty : PartyAt O c l.msg id false)
      (hoperator : c.storage.hasRole .subscriptionCanceller l.msg.sender = true)
      (hlive : c.storage.cancelled id = false) (hflag : c'.storage.cancelled id = true)
      (hmarker : c'.storage.operatorCancelledAt id = l.msg.timestamp)
  | reinstated (haction : l.action = .reinstate id)
      (hadmin : c.storage.hasRole .admin l.msg.sender = true)
      (hmarked : c.storage.operatorCancelledAt id ≠ 0)
      (hwindow : l.time ≤ (c.storage.operatorCancelledAt id).toNat + REINSTATE_WINDOW.toNat)
      (hflag : c'.storage.cancelled id = false) (hmarker : c'.storage.operatorCancelledAt id = 0)

/-- A row of a batch touches neither, and charges a live subscription only. -/
theorem Row.flags {msg : Msg} {attempt : Bytes32} {outcome : ChargeOutcome} {i : Nat}
    (h : Row O this msg i attempt c c' outcome) (id : Nat) :
    c'.storage.cancelled id = c.storage.cancelled id ∧
      c'.storage.operatorCancelledAt id = c.storage.operatorCancelledAt id ∧
      c'.storage.payer id = c.storage.payer id ∧
      c'.storage.nextSubscriptionId = c.storage.nextSubscriptionId ∧
      (outcome = .charged → c.storage.cancelled i = false) := by
  cases h with
  | skipped hcharged _ h =>
      subst h
      exact ⟨rfl, rfl, rfl, rfl, fun h => absurd h hcharged⟩
  | failed m hdue h =>
      subst h
      exact ⟨rfl, rfl, rfl, rfl, fun _ => hdue.live⟩
  | charged m hdue x _ h =>
      subst h
      by_cases hid : id = i
      · subst hid
        exact ⟨by simp [Storage.cancelled, Storage.advanced], rfl,
          by simp [Storage.payer, Storage.advanced], rfl, fun _ => hdue.live⟩
      · exact ⟨by simp [Storage.cancelled, Storage.advanced, hid], rfl,
          by simp [Storage.payer, Storage.advanced, hid], rfl, fun _ => hdue.live⟩

theorem Rows.flags {msg : Msg} {rows : List (Nat × Bytes32)} {outcomes : List ChargeOutcome}
    (h : Rows O this msg rows outcomes c c') (id : Nat) :
    c'.storage.cancelled id = c.storage.cancelled id ∧
      c'.storage.operatorCancelledAt id = c.storage.operatorCancelledAt id ∧
      c'.storage.payer id = c.storage.payer id ∧
      c'.storage.nextSubscriptionId = c.storage.nextSubscriptionId ∧
      ((id, .charged) ∈ (rows.map Prod.fst).zip outcomes → c.storage.cancelled id = false) := by
  induction h with
  | nil => exact ⟨rfl, rfl, rfl, rfl, fun h => by simp at h⟩
  | cons hrow _ ih =>
      obtain ⟨hflag, hmarker, hpayer, hnext, hlive⟩ := hrow.flags id
      obtain ⟨hflag', hmarker', hpayer', hnext', hlive'⟩ := ih
      refine ⟨hflag'.trans hflag, hmarker'.trans hmarker, hpayer'.trans hpayer,
        hnext'.trans hnext, fun h => ?_⟩
      rw [List.map_cons, List.zip_cons_cons, List.mem_cons] at h
      rcases h with h | h
      · obtain ⟨rfl, hcharged⟩ := Prod.mk.inj h
        exact hlive hcharged.symm
      · exact hflag.symm.trans (hlive' h)

theorem step_flags (O : Outside ξ δ) (this : Address) (c : Ctx Storage ξ) (l : Label ξ) (id : Nat) :
    FlagStep O l id c (step O this c l) ∧
      c.storage.nextSubscriptionId ≤ (step O this c l).storage.nextSubscriptionId := by
  cases step_change O this c l with
  | config h =>
      exact ⟨.same (by rw [Storage.cancelled, h.subscriptions]; rfl) (by rw [h.operatorCancelledAt])
        (by rw [Storage.payer, h.subscriptions]; rfl), h.nextId.ge⟩
  | enrolled payer p hp used _ h =>
      rw [h]
      refine ⟨?_, Nat.le_succ _⟩
      by_cases hid : id = c.storage.nextSubscriptionId
      · refine .enrolled hid.ge (by rw [h, hid]; exact Nat.lt_succ_self _) ?_ (by rw [h]; rfl)
        simp [Storage.cancelled, h, Storage.enrolled, hid, newSubscription]
      · exact .same (by simp [Storage.cancelled, h, Storage.enrolled, hid]) (by rw [h]; rfl)
          (by simp [Storage.payer, h, Storage.enrolled, hid])
  | partyCancelled i m haction hknown hm hparty hlive h =>
      refine ⟨?_, by rw [h]; exact Nat.le_refl _⟩
      by_cases hid : id = i
      · subst hid
        exact .party haction hknown ⟨m, hm, hparty⟩ hlive (by simp [Storage.cancelled, h])
          (by rw [h]; rfl)
      · exact .same (by simp [Storage.cancelled, h, hid]) (by rw [h]; rfl)
          (by simp [Storage.payer, h, hid])
  | operatorCancelled i m haction hknown hm hparty hoperator hlive h =>
      refine ⟨?_, by rw [h]; exact Nat.le_refl _⟩
      by_cases hid : id = i
      · subst hid
        exact .operator haction hknown ⟨m, hm, hparty⟩ hoperator hlive
          (by simp [Storage.cancelled, h]) (by simp [h])
      · exact .same (by simp [Storage.cancelled, h, hid]) (by simp [h, hid])
          (by simp [Storage.payer, h, hid])
  | reinstated i haction hadmin hmarked hcancelled hwindow h =>
      refine ⟨?_, by rw [h]; exact Nat.le_refl _⟩
      by_cases hid : id = i
      · subst hid
        exact .reinstated haction hadmin hmarked hwindow (by simp [Storage.cancelled, h])
          (by simp [h])
      · exact .same (by simp [Storage.cancelled, h, hid]) (by simp [h, hid])
          (by simp [Storage.payer, h, hid])
  | charged rows outcomes c₁ hrows h =>
      rw [h]
      obtain ⟨hflag, hmarker, hpayer, hnext, -⟩ := hrows.flags id
      exact ⟨.same hflag hmarker hpayer, hnext.ge⟩

/-- Neither a cancel nor a reinstate touches anything of any subscription but the flag. -/
theorem cancel_or_reinstate_keeps (c : Ctx Storage ξ)
    (haction : l.action = .cancel id ∨ l.action = .reinstate id) (i : Nat) :
    (step O this c l).storage.subscriptions i =
      { c.storage.subscriptions i with cancelled := (step O this c l).storage.cancelled i } := by
  refine commit_cases (P := fun c' : Ctx Storage ξ => c'.storage.subscriptions i =
    { c.storage.subscriptions i with cancelled := c'.storage.cancelled i }) rfl fun _ c' h => ?_
  rcases haction with haction | haction
  · rw [haction] at h
    obtain ⟨-, m, -, -, -, ⟨-, rfl⟩ | ⟨-, rfl⟩⟩ := cancel_eq_ok.mp h
    all_goals by_cases hid : i = id <;> simp [Storage.cancelled, hid]
  · rw [haction] at h
    obtain ⟨-, -, -, -, rfl⟩ := reinstate_eq_ok.mp h
    by_cases hid : i = id <;> simp [Storage.cancelled, hid]

/-! ## Reachable states -/

/-- Ids not handed out are blank, and a marker means cancelled. -/
structure CancelInv (s : Storage) : Prop where
  fresh : ∀ id, s.nextSubscriptionId ≤ id →
    s.cancelled id = false ∧ s.operatorCancelledAt id = 0 ∧ s.payer id = 0
  marked : ∀ id, s.operatorCancelledAt id ≠ 0 → s.cancelled id = true

theorem CancelInv.deployed (hasRole : RoleTable) (registry feeCollector tokenWhitelist : Address) :
    CancelInv (deployed hasRole registry feeCollector tokenWhitelist) where
  fresh _ _ := ⟨rfl, rfl, rfl⟩
  marked _ h := absurd rfl h

theorem CancelInv.step {c : Ctx Storage ξ} (inv : CancelInv c.storage) (l : Label ξ) :
    CancelInv (step O this c l).storage where
  fresh id hid := by
    obtain ⟨hstep, hnext⟩ := step_flags O this c l id
    obtain ⟨hlive, hunmarked, hblank⟩ := inv.fresh id (Nat.le_trans hnext hid)
    cases hstep with
    | same hflag hmarker hpayer =>
        exact ⟨hflag.trans hlive, hmarker.trans hunmarked, hpayer.trans hblank⟩
    | enrolled _ hlt _ _ => omega
    | party _ hknown _ _ _ _ => exact absurd hblank hknown
    | operator _ hknown _ _ _ _ _ => exact absurd hblank hknown
    | reinstated _ _ hmarked _ _ _ => exact absurd hunmarked hmarked
  marked id hmarked := by
    obtain ⟨hstep, -⟩ := step_flags O this c l id
    cases hstep with
    | same hflag hmarker _ => rw [hflag]; exact inv.marked id (hmarker ▸ hmarked)
    | enrolled hid _ _ hmarker => exact absurd (hmarker.trans (inv.fresh id hid).2.1) hmarked
    | party _ _ _ _ hflag _ => exact hflag
    | operator _ _ _ _ _ hflag _ => exact hflag
    | reinstated _ _ _ _ _ hmarker => exact absurd hmarker hmarked

/-- Cancelled without a marker: no later transaction changes that. -/
theorem step_final {c : Ctx Storage ξ} (inv : CancelInv c.storage) (l : Label ξ)
    (hflag : c.storage.cancelled id = true) (hmarker : c.storage.operatorCancelledAt id = 0) :
    (step O this c l).storage.cancelled id = true ∧
      (step O this c l).storage.operatorCancelledAt id = 0 := by
  obtain ⟨hstep, -⟩ := step_flags O this c l id
  cases hstep with
  | same hflag' hmarker' _ => exact ⟨hflag'.trans hflag, hmarker'.trans hmarker⟩
  | enrolled hid _ _ _ => simp [(inv.fresh id hid).1] at hflag
  | party _ _ _ hlive _ _ => simp [hflag] at hlive
  | operator _ _ _ _ hlive _ _ => simp [hflag] at hlive
  | reinstated _ _ hmarked _ _ _ => exact absurd hmarker hmarked

/-- A party's cancel raises the flag and leaves no marker. -/
theorem party_cancel {msg : Msg} (inv : CancelInv c.storage)
    (h : cancel O msg id c = .ok ((), c')) (hparty : PartyAt O c msg id true) :
    c'.storage.cancelled id = true ∧ c'.storage.operatorCancelledAt id = 0 := by
  obtain ⟨m, hm, hparty⟩ := hparty
  obtain ⟨-, m', hm', -, hlive, ⟨hnot, -⟩ | ⟨-, rfl⟩⟩ := cancel_eq_ok.mp h
  · obtain rfl := Except.ok.inj (hm.symm.trans hm')
    exact absurd (hparty.symm.trans hnot) (by decide)
  · refine ⟨by simp [Storage.cancelled], ?_⟩
    by_contra hmarked
    exact absurd ((inv.marked id hmarked).symm.trans hlive) (by decide)

/-! ## Runs -/

/-- Call `n` of the run is a reinstate by an admin that takes back the operator
cancel made by call `j`, within the window and with the flag up ever since, and
consumes its marker. -/
structure Reverses (O : Outside ξ δ) (c : Nat → Ctx Storage ξ) (ls : List (Label ξ))
    (id n j : Nat) : Prop where
  before : j < n
  reinstate : ∃ l, ls[n]? = some l ∧ l.action = .reinstate id ∧
    (c n).storage.hasRole .admin l.msg.sender = true ∧
    l.time ≤ ((c n).storage.operatorCancelledAt id).toNat + REINSTATE_WINDOW.toNat
  cancel : ∃ a, ls[j]? = some a ∧ a.action = .cancel id ∧ PartyAt O (c j) a.msg id false ∧
    (c j).storage.hasRole .subscriptionCanceller a.msg.sender = true ∧
    (c j).storage.cancelled id = false ∧ (c n).storage.operatorCancelledAt id = a.msg.timestamp
  since : ∀ k, j < k → k ≤ n → (c k).storage.cancelled id = true ∧
    (c k).storage.operatorCancelledAt id = (c n).storage.operatorCancelledAt id
  lowered : (c (n + 1)).storage.cancelled id = false
  consumed : (c (n + 1)).storage.operatorCancelledAt id = 0

/-- One cancel is reversed at most once. -/
theorem Reverses.unique {c : Nat → Ctx Storage ξ} {ls : List (Label ξ)} {n n' j : Nat}
    (h : Reverses O c ls id n j) (h' : Reverses O c ls id n' j) : n = n' := by
  rcases Nat.lt_trichotomy n n' with hlt | heq | hlt
  · have hup := (h'.since (n + 1) (Nat.lt_succ_of_lt h.before) hlt).1
    exact absurd (hup.symm.trans h.lowered) (by decide)
  · exact heq
  · have hup := (h.since (n' + 1) (Nat.lt_succ_of_lt h'.before) hlt).1
    exact absurd (hup.symm.trans h'.lowered) (by decide)

section Run

variable {hasRole : RoleTable} {registry feeCollector tokenWhitelist : Address} {x : ξ}
  {ls : List (Label ξ)}

theorem cancelInv_runAt (n : Nat) :
    CancelInv (runAt O this hasRole registry feeCollector tokenWhitelist x ls n).storage :=
  exec_invariant (P := fun c : Ctx Storage ξ => CancelInv c.storage)
    (CancelInv.deployed hasRole registry feeCollector tokenWhitelist) fun _ l _ inv => inv.step l

/-- Cancelled without a marker, cancelled for good. -/
theorem runAt_final {m n : Nat} (hmn : m ≤ n)
    (h : (runAt O this hasRole registry feeCollector tokenWhitelist x ls m).storage.cancelled id =
      true)
    (hmarker : (runAt O this hasRole registry feeCollector tokenWhitelist x ls
      m).storage.operatorCancelledAt id = 0) :
    (runAt O this hasRole registry feeCollector tokenWhitelist x ls n).storage.cancelled id = true :=
  (stateAt_invariant (P := fun c : Ctx Storage ξ => CancelInv c.storage ∧
    c.storage.cancelled id = true ∧ c.storage.operatorCancelledAt id = 0) hmn
    ⟨cancelInv_runAt m, h, hmarker⟩ fun _ l _ ⟨inv, hflag, hmarker⟩ =>
      ⟨inv.step l, step_final inv l hflag hmarker⟩).2.1

/-- A flag that goes down is an operator cancel reversed. -/
theorem exists_reverses {n : Nat} {l : Label ξ} (hl : ls[n]? = some l)
    (hup : (runAt O this hasRole registry feeCollector tokenWhitelist x ls n).storage.cancelled id =
      true)
    (hdown : (runAt O this hasRole registry feeCollector tokenWhitelist x ls
      (n + 1)).storage.cancelled id = false) :
    ∃ j, Reverses O (runAt O this hasRole registry feeCollector tokenWhitelist x ls) ls id n j := by
  obtain ⟨c, hc⟩ : ∃ c, c = runAt O this hasRole registry feeCollector tokenWhitelist x ls :=
    ⟨_, rfl⟩
  have hinv : ∀ k, CancelInv (c k).storage := fun k => hc ▸ cancelInv_runAt k
  have hsucc : ∀ k a, ls[k]? = some a → c (k + 1) = step O this (c k) a := fun k a ha => by
    rw [hc]
    exact stateAt_succ _ _ ha
  rw [← hc] at hup hdown ⊢
  obtain ⟨hstep, -⟩ := step_flags O this (c n) l id
  rw [← hsucc n l hl] at hstep
  cases hstep with
  | same hflag _ _ => exact absurd (hdown.symm.trans (hflag.trans hup)) (by decide)
  | enrolled hid _ _ _ => exact absurd (((hinv n).fresh id hid).1.symm.trans hup) (by decide)
  | party _ _ _ _ hflag _ => exact absurd (hdown.symm.trans hflag) (by decide)
  | operator _ _ _ _ _ hflag _ => exact absurd (hdown.symm.trans hflag) (by decide)
  | reinstated haction hadmin hmarked hwindow _ hconsumed =>
      -- the marker found at `n` rose at some `j` and has stood since
      have h0 : ¬ (c 0).storage.operatorCancelledAt id = (c n).storage.operatorCancelledAt id := by
        rw [hc]
        intro h0
        rw [hc] at hmarked
        exact hmarked h0.symm
      obtain ⟨j, hjn, hj, hsince⟩ := exists_rise (P := fun k =>
        (c k).storage.operatorCancelledAt id = (c n).storage.operatorCancelledAt id) h0 rfl
      have hlen : n < ls.length := (List.getElem?_eq_some_iff.mp hl).1
      have ha := List.getElem?_eq_getElem (Nat.lt_trans hjn hlen)
      have hnext := hsince (j + 1) (Nat.lt_succ_self j) hjn
      obtain ⟨hstep, -⟩ := step_flags O this (c j) ls[j] id
      rw [← hsucc j _ ha] at hstep
      refine ⟨j, hjn, ⟨l, hl, haction, hadmin, hwindow⟩, ?_, fun k hjk hk => ?_, hdown, hconsumed⟩
      · cases hstep with
        | same _ hmarker _ => exact absurd (hmarker.symm.trans hnext) hj
        | enrolled _ _ _ hmarker => exact absurd (hmarker.symm.trans hnext) hj
        | party _ _ _ _ _ hmarker => exact absurd (hmarker.symm.trans hnext) hj
        | operator haction' _ hparty hoperator hlive _ hmarker =>
            exact ⟨_, ha, haction', hparty, hoperator, hlive, hnext.symm.trans hmarker⟩
        | reinstated _ _ _ _ _ hmarker => exact absurd (hnext.symm.trans hmarker) hmarked
      · have hk := hsince k hjk hk
        exact ⟨(hinv k).marked id (by rw [hk]; exact hmarked), hk⟩

end Run

/-- Cancellation over any run from deployment, whatever happens outside. A marker
means cancelled; a live subscription is the only one charged; a cancel by the
payer or the merchant's owner of that moment is for good; the flag goes down only
as `Reverses` says, and once for each operator cancel; and no cancel or reinstate
changes anything else of any subscription. -/
theorem cancellation_is_final_unless_operator {ξ δ : Type} (O : Outside ξ δ) (this : Address)
    (hasRole : RoleTable) (registry feeCollector tokenWhitelist : Address) (x : ξ)
    (ls : List (Label ξ)) (id : Nat) :
    let c := runAt O this hasRole registry feeCollector tokenWhitelist x ls
    (∀ n, (c n).storage.operatorCancelledAt id ≠ 0 → (c n).storage.cancelled id = true) ∧
    (∀ n msg ids attempts outcomes c',
      batchCharge O this msg ids attempts (c n) = .ok (outcomes, c') →
      (id, ChargeOutcome.charged) ∈ ids.zip outcomes →
      (c n).storage.cancelled id = false ∧ c'.storage.cancelled id = false) ∧
    (∀ m n l c', ls[m]? = some l → l.action = .cancel id →
      dispatch O this l.msg l.action (c m) = .ok ((), c') → PartyAt O (c m) l.msg id true →
      m < n → (c n).storage.cancelled id = true) ∧
    (∀ n l, ls[n]? = some l → (c n).storage.cancelled id = true →
      (c (n + 1)).storage.cancelled id = false → ∃ j, Reverses O c ls id n j) ∧
    (∀ n n' j, Reverses O c ls id n j → Reverses O c ls id n' j → n = n') ∧
    ∀ n l, ls[n]? = some l → l.action = .cancel id ∨ l.action = .reinstate id →
      ∀ i, (c (n + 1)).storage.subscriptions i =
        { (c n).storage.subscriptions i with cancelled := (c (n + 1)).storage.cancelled i } := by
  intro c
  refine ⟨fun n => (cancelInv_runAt n).marked id, ?_, ?_,
    fun n l hl hup hdown => exists_reverses hl hup hdown,
    fun n n' j h h' => h.unique h', fun n l hl haction i => ?_⟩
  · intro n msg ids attempts outcomes c' h hmem
    obtain ⟨-, -, -, hlen, -, c₁, hrows, rfl⟩ := batchCharge_eq_ok.mp h
    obtain ⟨hflag, -, -, -, hlive⟩ := (chargeRows_ok hrows).flags id
    rw [List.map_fst_zip hlen.le] at hlive
    exact ⟨hlive hmem, hflag.trans (hlive hmem)⟩
  · intro m n l c' hl haction h hparty hmn
    have hnext : c (m + 1) = c' := (stateAt_succ _ _ hl).trans (commit_of_ok h)
    rw [haction] at h
    obtain ⟨hflag, hmarker⟩ := party_cancel (cancelInv_runAt m) h hparty
    rw [← hnext] at hflag hmarker
    exact runAt_final hmn hflag hmarker
  · rw [show c (n + 1) = step O this (c n) l from stateAt_succ _ _ hl]
    exact cancel_or_reinstate_keeps (c n) haction i

/-- The operator cancels and an admin takes it back; then the payer cancels. -/
def sampleCancels : List (Label (Peers ReferenceToken.State)) :=
  [⟨⟨300, 10⟩, .createSubscription ⟨1, 200, 1000, 3600, 0, 0⟩⟩, ⟨⟨1, 20⟩, .cancel 1⟩,
   ⟨⟨1, 30⟩, .reinstate 1⟩, ⟨⟨300, 40⟩, .cancel 1⟩, ⟨⟨1, 50⟩, .reinstate 1⟩]

theorem sampleCancels_final :
    let c := runAt (ReferenceToken.outside ReferenceToken.silent) 101 ReferenceToken.sampleRoles
      103 102 104 ReferenceToken.samplePeers sampleCancels
    (∃ j, Reverses (ReferenceToken.outside ReferenceToken.silent) c sampleCancels 1 2 j) ∧
      (c 5).storage.cancelled 1 = true := by
  intro c
  have h := cancellation_is_final_unless_operator (ReferenceToken.outside ReferenceToken.silent)
    101 ReferenceToken.sampleRoles 103 102 104 ReferenceToken.samplePeers sampleCancels 1
  refine ⟨h.2.2.2.1 2 ⟨⟨1, 30⟩, .reinstate 1⟩ rfl (by decide) (by decide), ?_⟩
  exact h.2.2.1 3 5 ⟨⟨300, 40⟩, .cancel 1⟩ (c 4) rfl rfl rfl ⟨_, rfl, by decide⟩ (by decide)

end Strimz.Subscriptions
