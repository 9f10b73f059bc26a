import Strimz.EscrowExit

/-!
# Disputes with a silent resolver

What a party gets out of a job with and without disputing it now, when the resolver never
acts and whoever can reclaim does (`Play`). An unanswered dispute pays whoever the job
was heading to at that moment (`Owed`); but a job in progress is heading to the client only
until the vendor delivers, and a disputed job can no longer be delivered.
-/

namespace Strimz.AgentEscrow

open Tx Relation Ledger Runs

/-- What an account got out of a job. -/
def received (account : Address) (r : Record) : Nat :=
  ((r.payouts.filter fun p => p.1 = account).map fun p => p.2.toNat).sum

/-- Whoever can reclaim the job does, with the first call from then on. -/
def Eager {ξ : Type} (O : Outside ξ) (this : Address) (id : Nat) (c : Ctx Storage ξ)
    (ls : List (Label ξ)) : Prop :=
  ∀ n l party readyAt, ls[n]? = some l →
    exitFor ((stateAt (step O this) c ls n).storage.record id) = some (party, readyAt) →
      readyAt ≤ l.time → l.msg.sender = party ∧ l.action = .reclaimAfterTimeout id

/-- The rest of a job's life from `now` on, with a silent resolver. -/
structure Play {ξ : Type} (O : Outside ξ) (this : Address)
    (balance : ξ → Address → Address → Nat) (id : Nat) (c : Ctx Storage ξ) (now : Uint64)
    (ls : List (Label ξ)) : Prop where
  foreign : ∀ l ∈ ls, Foreign (· ≤ ·) this balance l
  timed : Timed Label.time now.toNat ls
  eager : Eager O this id c ls
  silent : ∀ l ∈ ls, ∀ toVendor toClient, l.action ≠ .resolveDispute id toVendor toClient
  ended : ((exec (step O this) c ls).storage.record id).job.status.holds = false

/-- However the game is played after `account` disputes now, and however it is played when
nobody ever disputes, if the assessor makes the same calls in both then the dispute does not
get `account` more. -/
def DisputeNeverHelps {ξ : Type} (O : Outside ξ) (this : Address)
    (balance : ξ → Address → Address → Nat) (id : Nat) (c : Ctx Storage ξ) (account : Address)
    (now : Uint64) : Prop :=
  ∀ reason disputed calm,
    Play O this balance id (step O this c ⟨⟨account, now⟩, .dispute id reason⟩) now disputed →
    Play O this balance id c now calm →
    (∀ n, ((stateAt (step O this) c calm n).storage.record id).job.status ≠ .disputed) →
    (disputed.filter fun l => l.msg.sender = (c.storage.record id).job.assessor) =
      (calm.filter fun l => l.msg.sender = (c.storage.record id).job.assessor) →
    received account
        ((exec (step O this) (step O this c ⟨⟨account, now⟩, .dispute id reason⟩)
          disputed).storage.record id) ≤
      received account ((exec (step O this) c calm).storage.record id)

/-- The job is delivered or disputed and will pay `amount` to `party`, or has done so. -/
def Owed (party : Address) (amount : Uint256) (r : Record) : Prop :=
  (r.job.status = .delivered ∨ r.job.status = .disputed) ∧
      (exitFor r).map Prod.fst = some party ∧ r.payouts = [] ∧ r.job.amount = amount ∨
    r.job.status.closed = true ∧ r.payouts = [(party, amount)]

section Owed

variable {ξ : Type} {O : Outside ξ} {this : Address} {balance : ξ → Address → Address → Nat}
  {c : Ctx Storage ξ} {l : Label ξ} {ls : List (Label ξ)} {id : Nat} {r r' : Record}
  {party account : Address} {amount : Uint256} {now : Uint64}

theorem FreeStep.owed {timestamp : Uint64} (h : FreeStep this timestamp r r')
    (hr : Owed party amount r) : Owed party amount r' := by
  rcases hr with ⟨hstatus, hexit, hpayouts, hamount⟩ | ⟨hclosed, -⟩
  · cases h with
    | created => rcases hstatus with h | h <;> cases h
    | started h _ => rw [h] at hstatus; rcases hstatus with h | h <;> cases h
    | delivered h _ => rw [h] at hstatus; rcases hstatus with h | h <;> cases h
    | disputed h =>
        have hdelivered : r.job.status = .delivered := by
          rcases hstatus with hstatus | hstatus
          · exact hstatus
          · rw [hstatus] at h
            rcases h with h | h <;> cases h
        refine Or.inl ⟨Or.inr rfl, ?_, hpayouts, hamount⟩
        simp only [exitFor, hdelivered, Option.map_some] at hexit
        simpa [exitFor, hdelivered] using hexit
  · rw [h.not_closed] at hclosed
    cases hclosed

theorem GuardedStep.owed (h : GuardedStep l id r r')
    (hsilent : ∀ toVendor toClient, l.action ≠ .resolveDispute id toVendor toClient)
    (hr : Owed party amount r) : Owed party amount r' := by
  rcases hr with ⟨hstatus, hexit, hpayouts, hamount⟩ | ⟨hclosed, -⟩
  · cases h with
    | funded _ _ h => rw [h] at hstatus; rcases hstatus with h | h <;> cases h
    | withdrawn _ h => rw [h] at hstatus; rcases hstatus with h | h <;> cases h
    | refunded _ h => rw [h] at hstatus; rcases hstatus with h | h <;> cases h
    | resolved h _ _ => exact absurd h (hsilent _ _)
    | released _ h =>
        simp only [exitFor, h, Option.map_some, Option.some.injEq] at hexit
        exact Or.inr ⟨rfl, by simp [hpayouts, hexit, hamount]⟩
    | reclaimed _ _ h _ =>
        rw [h, Option.map_some, Option.some.injEq] at hexit
        subst hexit
        exact Or.inr ⟨rfl, by simp [hpayouts, hamount]⟩
  · rw [h.not_closed] at hclosed
    cases hclosed

theorem received_single (h : r.payouts = [(party, amount)]) :
    received account r = at_ party account amount.toNat := by
  unfold received at_
  rw [h]
  by_cases hparty : party = account <;> simp [hparty]

/-- A job that is owed to someone ends with that party paid. -/
theorem Play.receives (hO : CallbackToken (· ≤ ·) O this balance)
    (hc : Inv (· ≤ ·) this balance c) (h : Play O this balance id c now ls)
    (howed : Owed party amount (c.storage.record id)) :
    received account ((exec (step O this) c ls).storage.record id) =
      at_ party account amount.toNat := by
  have hend : Owed party amount ((exec (step O this) c ls).storage.record id) :=
    exec_record (P := Owed party amount) slack_le hO h.foreign hc
      (fun l hl _ _ hmoves hr => hmoves.preserves (P := Owed party amount) FreeStep.owed
        (fun hstep => hstep.owed (h.silent l hl)) hr) howed
  rcases hend with ⟨hstatus, -⟩ | ⟨-, hpayouts⟩
  · have hended := h.ended
    rcases hstatus with hstatus | hstatus <;> rw [hstatus] at hended <;> cases hended
  · exact received_single hpayouts

/-- A party that can reclaim from the start, and is eager to, gets the amount. -/
theorem Play.reclaimed (hO : CallbackToken (· ≤ ·) O this balance)
    (hlive : LiveToken O this balance) (hc : Inv (· ≤ ·) this balance c)
    (h : Play O this balance id c now ls) {readyAt : Nat}
    (hexit : exitFor (c.storage.record id) = some (party, readyAt)) (hready : readyAt ≤ now.toNat) :
    received party ((exec (step O this) c ls).storage.record id) =
      (c.storage.record id).job.amount.toNat := by
  have hholds := exitFor_holds hexit
  obtain ⟨hforeign, htimed, heager, -, hended⟩ := h
  cases ls with
  | nil =>
      rw [exec_nil, hholds] at hended
      cases hended
  | cons l ls =>
      have htime : readyAt ≤ l.time := Nat.le_trans hready (timed_cons.mp htimed).1
      obtain ⟨hsender, haction⟩ := heager 0 l party readyAt rfl hexit htime
      have hl := hforeign l List.mem_cons_self
      obtain ⟨c', hrun, hrecord⟩ := reclaim_pays hO hlive hc hl haction hexit hsender htime
      have hstep : step O this c l = c' := commit_of_ok hrun
      have hc' := (step_cases slack_le hO hl hc).inv slack_le hc
      rw [exec_cons, hstep]
      rw [hstep] at hc'
      rw [exec_closed slack_le hO (fun l hl => hforeign l (List.mem_cons_of_mem _ hl)) hc'
        (by rw [hrecord]; rfl), hrecord]
      have hpaid : (((c.storage.record id).close .reclaimed l.msg.timestamp).pay party
          (c.storage.record id).job.amount).payouts = [(party, (c.storage.record id).job.amount)] := by
        rw [Record.pay_payouts, Record.close_payouts, ((hc.jobs id).books.held hholds).2]
        rfl
      rw [received_single hpaid, at_self]

/-! ## Disputing -/

/-- Where a dispute leaves the escrow. -/
def disputedState (c : Ctx Storage ξ) (account : Address) (now : Uint64) (id : Nat)
    (reason : String) : Ctx Storage ξ :=
  ⟨((c.storage.putDisputedFrom id (c.storage.jobs id).status).setStatus id .disputed now).log
    (.jobDisputed id account reason), c.ext⟩

/-- Either party can dispute a job that is in progress or delivered. -/
theorem step_dispute (hc : Inv (· ≤ ·) this balance c) {reason : String}
    (hstatus : (c.storage.record id).job.status = .inProgress ∨
      (c.storage.record id).job.status = .delivered)
    (haccount : account = (c.storage.record id).job.client ∨
      account = (c.storage.record id).job.vendor) :
    step O this c ⟨⟨account, now⟩, .dispute id reason⟩ = disputedState c account now id reason := by
  have hholds : (c.storage.record id).job.status.holds = true := by
    rcases hstatus with h | h <;> rw [h] <;> rfl
  have hclient := ((hc.jobs id).books.held hholds).1.client
  refine commit_of_ok (a := ()) ?_
  simp only [dispatch, dispute, bind_eq_ok, loadJob_eq_ok, revertIf_eq_ok, setStatus_eq_ok,
    sstore_eq_ok, emit_eq_ok, Prod.mk.injEq, existsAndEq, exists_const, true_and, and_true,
    ne_eq, not_and_or, not_not]
  exact ⟨hclient, haccount, hstatus.symm, rfl⟩

theorem record_disputedState {reason : String} :
    (disputedState c account now id reason).storage.record id =
      (c.storage.record id).markDisputed.move .disputed now := by
  rw [disputedState, record_log, record_setStatus, record_putDisputedFrom]

/-- Where the vendor's delivery leaves the escrow. -/
def deliveredState (c : Ctx Storage ξ) (now : Uint64) (id : Nat) : Ctx Storage ξ :=
  ⟨((c.storage.updateJob id (Job.delivering 0)).setStatus id .delivered now).log
    (.jobDelivered id 0), c.ext⟩

theorem step_deliver (hc : Inv (· ≤ ·) this balance c)
    (hstatus : (c.storage.record id).job.status = .inProgress) :
    step O this c ⟨⟨(c.storage.record id).job.vendor, now⟩, .submitDeliverable id 0⟩ =
      deliveredState c now id := by
  have hclient := ((hc.jobs id).books.held (by rw [hstatus]; rfl)).1.client
  refine commit_of_ok (a := ()) ?_
  simp only [dispatch, submitDeliverable, bind_eq_ok, loadJob_eq_ok, revertIf_eq_ok,
    setStatus_eq_ok, sstore_eq_ok, emit_eq_ok, Prod.mk.injEq, existsAndEq, exists_const, true_and,
    and_true, ne_eq, not_not]
  exact ⟨hclient, rfl, hstatus, rfl⟩

theorem record_deliveredState :
    (deliveredState c now id).storage.record id =
      ((c.storage.record id).deliver 0).move .delivered now := by
  rw [deliveredState, record_log, record_setStatus, record_delivering]

/-- A dispute whose window runs past the end of time is never reclaimed. -/
theorem Play.no_room (hO : CallbackToken (· ≤ ·) O this balance)
    (hc : Inv (· ≤ ·) this balance c) (hstatus : (c.storage.record id).job.status = .disputed)
    (hroom : 2 ^ 64 ≤ (c.storage.record id).job.statusChangedAt.toNat + DISPUTE_TIMEOUT.toNat) :
    ¬ Play O this balance id c now ls := by
  intro h
  have hfixed : (c.storage.record id).job.status.fixed = true := by rw [hstatus]; rfl
  have hend : (exec (step O this) c ls).storage.record id = c.storage.record id := by
    refine exec_record (P := fun r => r = c.storage.record id) slack_le hO h.foreign hc
      (fun l hl r r' hmoves hr => ?_) rfl
    subst hr
    rcases hmoves with hfree | hguarded
    · exact FreeStep.fixed hfree hfixed
    · cases hguarded with
      | funded _ _ h => rw [h] at hstatus; cases hstatus
      | withdrawn _ h => rw [h] at hstatus; cases hstatus
      | refunded _ h => rw [h] at hstatus; cases hstatus
      | released _ h => rw [h] at hstatus; cases hstatus
      | resolved haction _ _ => exact absurd haction (h.silent l hl _ _)
      | reclaimed _ _ hexit hready =>
          simp only [exitFor, hstatus, Option.some.injEq, Prod.mk.injEq] at hexit
          have htime : l.time < 2 ^ 64 := l.msg.timestamp.isLt
          omega
  have hended := h.ended
  rw [hend, hstatus] at hended
  cases hended

/-- The raiser is the client of a job in progress whose delivery window is still open: the
dispute keeps the vendor from delivering. The clock has to have a dispute window left. -/
def Helps (r : Record) (account : Address) (now : Uint64) : Prop :=
  account = r.job.client ∧ r.job.status = .inProgress ∧
    now.toNat < r.job.statusChangedAt.toNat + DELIVERY_TIMEOUT.toNat ∧
    now.toNat + DISPUTE_TIMEOUT.toNat < 2 ^ 64

theorem disputeNeverHelps_of (hO : CallbackToken (· ≤ ·) O this balance)
    (hlive : LiveToken O this balance) (hc : Inv (· ≤ ·) this balance c)
    (hstatus : (c.storage.record id).job.status = .inProgress ∨
      (c.storage.record id).job.status = .delivered)
    (haccount : account = (c.storage.record id).job.client ∨
      account = (c.storage.record id).job.vendor)
    (hhelps : ¬ Helps (c.storage.record id) account now) :
    DisputeNeverHelps O this balance id c account now := by
  intro reason disputed calm hdisputed hcalm _ _
  set r := c.storage.record id with hr
  have hholds : r.job.status.holds = true := by rcases hstatus with h | h <;> rw [h] <;> rfl
  have hterms := (hc.jobs id).terms (by rcases hstatus with h | h <;> rw [← hr, h] <;> decide)
  have hpayouts := ((hc.jobs id).books.held hholds).2
  have hforeign : Foreign (· ≤ ·) this balance ⟨⟨account, now⟩, .dispute id reason⟩ := by
    refine ⟨?_, fun f hf => by cases hf⟩
    rcases haccount with h | h
    · exact h ▸ hterms.client_ne_this
    · exact h ▸ (hc.jobs id).vendor_ne_this (hstatus.imp_right Or.inl)
  have hc₁ := (step_cases slack_le hO hforeign hc).inv slack_le hc
  have hrecord : (step O this c ⟨⟨account, now⟩, .dispute id reason⟩).storage.record id =
      r.markDisputed.move .disputed now := by
    rw [step_dispute hc hstatus haccount, record_disputedState]
  rcases hstatus with hstatus | hstatus
  · have howed : Owed r.job.client r.job.amount (r.markDisputed.move .disputed now) :=
      Or.inl ⟨Or.inr rfl, by simp [exitFor, hstatus], hpayouts, rfl⟩
    rw [hdisputed.receives hO hc₁ (hrecord ▸ howed)]
    rcases haccount with rfl | rfl
    · rw [at_self]
      by_cases hroom : now.toNat + DISPUTE_TIMEOUT.toNat < 2 ^ 64
      · have hlate : r.job.statusChangedAt.toNat + DELIVERY_TIMEOUT.toNat ≤ now.toNat := by
          by_contra hlate
          exact hhelps ⟨rfl, hstatus, Nat.not_le.mp hlate, hroom⟩
        rw [hcalm.reclaimed hO hlive hc (by simp only [exitFor, ← hr, hstatus]) hlate]
      · exact absurd hdisputed (Play.no_room hO hc₁ (by rw [hrecord]; rfl)
          (by rw [hrecord]; exact Nat.not_lt.mp hroom))
    · rw [at_of_ne (Ne.symm hterms.vendor_ne_client)]
      exact Nat.zero_le _
  · have howed : Owed r.job.vendor r.job.amount (r.markDisputed.move .disputed now) :=
      Or.inl ⟨Or.inr rfl, by simp [exitFor, hstatus], hpayouts, rfl⟩
    have howed' : Owed r.job.vendor r.job.amount r :=
      Or.inl ⟨Or.inl hstatus, by simp [exitFor, hstatus], hpayouts, rfl⟩
    rw [hdisputed.receives hO hc₁ (hrecord ▸ howed), hcalm.receives hO hc howed']

/-! ## A dispute that helps -/

theorem add_timeout {window : Uint64} (h : now.toNat + window.toNat < 2 ^ 64) :
    (now + window).toNat = now.toNat + window.toNat := by
  rw [BitVec.toNat_add, Nat.mod_eq_of_lt h]

/-- A play of a single call, a reclaim at the deadline. -/
theorem play_reclaim (hO : CallbackToken (· ≤ ·) O this balance) (hlive : LiveToken O this balance)
    (hc : Inv (· ≤ ·) this balance c) (party : Address) (now later : Uint64) (hle : now.toNat ≤ later.toNat)
    (hexit : exitFor (c.storage.record id) = some (party, later.toNat)) :
    Play O this balance id c now [⟨⟨party, later⟩, .reclaimAfterTimeout id⟩] ∧
      ∃ c', step O this c ⟨⟨party, later⟩, .reclaimAfterTimeout id⟩ = c' ∧
        c'.storage.record id = ((c.storage.record id).close .reclaimed later).pay party
          (c.storage.record id).job.amount := by
  have hl : Foreign (· ≤ ·) this balance ⟨⟨party, later⟩, .reclaimAfterTimeout id⟩ :=
    ⟨(hc.jobs id).exit_ne_this hexit, fun f hf => by cases hf⟩
  obtain ⟨c', hrun, hrecord⟩ := reclaim_pays hO hlive hc hl rfl hexit rfl (Nat.le_refl _)
  have hstep : step O this c ⟨⟨party, later⟩, .reclaimAfterTimeout id⟩ = c' := commit_of_ok hrun
  refine ⟨⟨?_, ?_, ?_, ?_, ?_⟩, c', hstep, hrecord⟩
  · simpa using hl
  · exact timed_cons.mpr ⟨hle, by simp, List.Pairwise.nil⟩
  · intro n l party' readyAt hl' hexit' _
    cases n with
    | zero =>
        obtain rfl : ⟨⟨party, later⟩, .reclaimAfterTimeout id⟩ = l := by simpa using hl'
        rw [stateAt_zero, hexit] at hexit'
        exact ⟨(Prod.mk.inj (Option.some.inj hexit')).1, rfl⟩
    | succ n => simp at hl'
  · simp
  · rw [exec_cons, exec_nil, hstep, hrecord]
    rfl

/-- Another call before a play. -/
theorem Play.cons {next : Uint64} (h : Play O this balance id (step O this c l) next ls)
    (hl : Foreign (· ≤ ·) this balance l) (hnow : now.toNat ≤ l.time) (hnext : l.time = next.toNat)
    (hsilent : ∀ toVendor toClient, l.action ≠ .resolveDispute id toVendor toClient)
    (heager : ∀ party readyAt, exitFor (c.storage.record id) = some (party, readyAt) →
      l.time < readyAt) : Play O this balance id c now (l :: ls) where
  foreign := List.forall_mem_cons.mpr ⟨hl, h.foreign⟩
  timed := timed_cons.mpr ⟨hnow, hnext ▸ h.timed⟩
  eager n a party readyAt ha hexit hready := by
    cases n with
    | zero =>
        obtain rfl : l = a := by simpa using ha
        exact absurd hready (Nat.not_le.mpr (heager party readyAt hexit))
    | succ n => exact h.eager n a party readyAt (by simpa using ha) hexit hready
  silent := List.forall_mem_cons.mpr ⟨hsilent, h.silent⟩
  ended := h.ended

/-- The client of a job in progress can get more by disputing: left alone, the vendor
delivers now and is paid. -/
theorem not_disputeNeverHelps (hO : CallbackToken (· ≤ ·) O this balance)
    (hlive : LiveToken O this balance) (hc : Inv (· ≤ ·) this balance c)
    (hhelps : Helps (c.storage.record id) account now) :
    ¬ DisputeNeverHelps O this balance id c account now := by
  obtain ⟨rfl, hstatus, hearly, hroom⟩ := hhelps
  set r := c.storage.record id with hr
  have hholds : r.job.status.holds = true := by rw [hstatus]; rfl
  have hterms : Terms this r.job := (hc.jobs id).terms (by rw [← hr, hstatus]; decide)
  have hpayouts : r.payouts = [] := ((hc.jobs id).books.held hholds).2
  have hvendor : r.job.vendor ≠ this := (hc.jobs id).vendor_ne_this (Or.inl hstatus)
  -- with the dispute, the client reclaims when its window has passed
  have hforeign : Foreign (· ≤ ·) this balance ⟨⟨r.job.client, now⟩, .dispute id ""⟩ :=
    ⟨hterms.client_ne_this, fun f hf => by cases hf⟩
  have hc₁ := (step_cases slack_le hO hforeign hc).inv slack_le hc
  have hrecord₁ : (step O this c ⟨⟨r.job.client, now⟩, .dispute id ""⟩).storage.record id =
      r.markDisputed.move .disputed now := by
    rw [step_dispute hc (Or.inl hstatus) (Or.inl rfl), record_disputedState]
  obtain ⟨hdisputed, c₂, hstep₂, hrecord₂⟩ := play_reclaim hO hlive hc₁ r.job.client now
    (now + DISPUTE_TIMEOUT) (by rw [add_timeout hroom]; omega)
    (by rw [hrecord₁, add_timeout hroom]; simp [exitFor, hstatus])
  have hpaid₂ : (c₂.storage.record id).payouts = [(r.job.client, r.job.amount)] := by
    rw [hrecord₂, hrecord₁, Record.pay_payouts]
    simp [hpayouts]
  -- without it, the vendor delivers and reclaims when the approval window has passed
  have hroom' : now.toNat + APPROVAL_TIMEOUT.toNat < 2 ^ 64 :=
    Nat.lt_of_le_of_lt (Nat.add_le_add_left (by decide) _) hroom
  have hforeign' : Foreign (· ≤ ·) this balance ⟨⟨r.job.vendor, now⟩, .submitDeliverable id 0⟩ :=
    ⟨hvendor, fun f hf => by cases hf⟩
  have hc₃ := (step_cases slack_le hO hforeign' hc).inv slack_le hc
  have hrecord₃ : (step O this c ⟨⟨r.job.vendor, now⟩, .submitDeliverable id 0⟩).storage.record id =
      (r.deliver 0).move .delivered now := by
    rw [step_deliver hc hstatus, record_deliveredState]
  obtain ⟨hreclaim, c₄, hstep₄, hrecord₄⟩ := play_reclaim hO hlive hc₃ r.job.vendor now
    (now + APPROVAL_TIMEOUT) (by rw [add_timeout hroom']; omega)
    (by rw [hrecord₃, add_timeout hroom']; simp [exitFor])
  have hpaid₄ : (c₄.storage.record id).payouts = [(r.job.vendor, r.job.amount)] := by
    rw [hrecord₄, hrecord₃, Record.pay_payouts]
    simp [hpayouts]
  have hcalm : Play O this balance id c now _ := hreclaim.cons hforeign' (Nat.le_refl _) rfl (fun _ _ h => by cases h)
    fun party readyAt hexit => by
      simp only [exitFor, ← hr, hstatus, Option.some.injEq, Prod.mk.injEq] at hexit
      exact hexit.2 ▸ hearly
  intro hnever
  have hle := hnever "" _ _ hdisputed hcalm ?_ ?_
  · rw [exec_cons, exec_nil, hstep₂, exec_cons, exec_cons, exec_nil, hstep₄] at hle
    rw [received_single hpaid₂, received_single hpaid₄, at_self,
      at_of_ne hterms.vendor_ne_client] at hle
    exact hterms.amount (BitVec.eq_of_toNat_eq (Nat.le_zero.mp hle))
  · intro n
    match n with
    | 0 =>
        rw [stateAt_zero, ← hr, hstatus]
        decide
    | 1 =>
        show ((step O this c _).storage.record id).job.status ≠ _
        rw [hrecord₃]
        exact fun h => by cases h
    | n + 2 =>
        have htake : stateAt (step O this) c [⟨⟨r.job.vendor, now⟩, .submitDeliverable id 0⟩,
            ⟨⟨r.job.vendor, now + APPROVAL_TIMEOUT⟩, .reclaimAfterTimeout id⟩] (n + 2) = c₄ := by
          rw [stateAt, List.take_of_length_le (by simp), exec_cons, exec_cons, exec_nil, hstep₄]
        rw [htake, hrecord₄]
        exact fun h => by cases h
  · have hclient := Ne.symm hterms.assessor_ne_client
    have hassessor := hterms.vendor_ne_assessor
    rw [← hr]
    simp [hclient, hassessor]

end Owed

/-- With a silent resolver a dispute never gets its raiser more, in any reachable state and
for either party of a job in progress or delivered, if and only if the raiser is not the client
of a job in progress whose delivery window is still open (on a clock with a dispute window
left before it ends). -/
theorem dispute_never_helps_iff {ξ : Type} (O : Outside ξ) (this : Address)
    (balance : ξ → Address → Address → Nat) (hO : CallbackToken (· ≤ ·) O this balance)
    (hlive : LiveToken O this balance) (hasRole : RoleTable) (tokenWhitelist : Address) (x : ξ)
    (ls : List (Label ξ)) (hls : ∀ l ∈ ls, Foreign (· ≤ ·) this balance l) (id : Nat)
    (account : Address) (now : Uint64) :
    let c := exec (step O this) ⟨deployed hasRole tokenWhitelist, x⟩ ls
    let job := (c.storage.record id).job
    job.status = .inProgress ∨ job.status = .delivered →
    account = job.client ∨ account = job.vendor →
    (DisputeNeverHelps O this balance id c account now ↔
      ¬ (account = job.client ∧ job.status = .inProgress ∧
        now.toNat < job.statusChangedAt.toNat + DELIVERY_TIMEOUT.toNat ∧
        now.toNat + DISPUTE_TIMEOUT.toNat < 2 ^ 64)) := by
  intro c job hstatus haccount
  have hc : Inv (· ≤ ·) this balance c :=
    exec_inv slack_le hO hls (inv_deployed fun _ => Nat.zero_le _)
  exact ⟨fun hnever hhelps => not_disputeNeverHelps hO hlive hc hhelps hnever,
    disputeNeverHelps_of hO hlive hc hstatus haccount⟩

theorem sampleEscrow_inv : Inv (· ≤ ·) 100 Wallets.balance sampleEscrowState :=
  exec_inv slack_le sampleToken_callback sampleEscrowRun_foreign
    (inv_deployed fun _ => Nat.zero_le _)

/-- Job 2 of the sample run is in progress since 7: a dispute of its client at 8 gets it the
money that it would lose to a delivery. -/
theorem sampleEscrow_dispute_helps :
    ¬ DisputeNeverHelps sampleToken 100 Wallets.balance 2 sampleEscrowState 10 8 :=
  not_disputeNeverHelps sampleToken_callback sampleToken_live sampleEscrow_inv
    (by unfold Helps; decide)

theorem sampleEscrow_vendor_dispute :
    DisputeNeverHelps sampleToken 100 Wallets.balance 2 sampleEscrowState 20 8 :=
  (dispute_never_helps_iff sampleToken 100 Wallets.balance sampleToken_callback sampleToken_live
    (fun _ _ => false) 300 (Wallets.ofOwner 10 2000 (by decide)) sampleEscrowRun
    sampleEscrowRun_foreign 2 20 8 (by decide) (by decide)).mpr (by decide)

end Strimz.AgentEscrow
