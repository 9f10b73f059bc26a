import Strimz.ChargePeriods
import Strimz.Projector

/-!
# The ends of periods, read off the log

What the indexer's row of a subscription shows as the end of the current period, as a fold
over the contract's log (`periodEnd`), and how that relates to the due time in storage: the
whole log gives the due time itself, except before the first charge of a subscription that
started at once, where it gives the due time and one interval. Shorter prefixes of the log give older ends.
-/

namespace Strimz.Subscriptions

open Tx Indexer

variable {ξ δ : Type} {O : Outside ξ δ} {this : Address} {msg : Msg} {c c' : Ctx Storage ξ}
  {s s' s'' : Storage} {id : Nat} {l : Log} {key : Option Int} {e : Int}

/-! ## The log only grows -/

/-- The log is extended, and no attempt id is burned but these. -/
structure Appends (attempts : List Bytes32) (s s' : Storage) : Prop where
  logs : ∃ new, s'.logs = s.logs ++ new
  used : ∀ a, s'.usedAttempts a = true → s.usedAttempts a = true ∨ a ∈ attempts

/-- The attempt ids a transaction names. -/
def Action.attempts : Action ξ → List Bytes32
  | .batchCharge _ attempts => attempts
  | _ => []

theorem Appends.refl (attempts : List Bytes32) (s : Storage) : Appends attempts s s :=
  ⟨⟨[], (List.append_nil _).symm⟩, fun _ h => .inl h⟩

theorem Appends.of_used {attempts : List Bytes32} {new : List Log}
    (hlogs : s'.logs = s.logs ++ new) (hused : s'.usedAttempts = s.usedAttempts) :
    Appends attempts s s' :=
  ⟨⟨new, hlogs⟩, fun _ h => .inl (hused ▸ h)⟩

theorem Appends.trans {attempts attempts' : List Bytes32} (h : Appends attempts s s')
    (h' : Appends attempts' s' s'') : Appends (attempts ++ attempts') s s'' where
  logs := by
    obtain ⟨new, hnew⟩ := h.logs
    obtain ⟨new', hnew'⟩ := h'.logs
    exact ⟨new ++ new', by rw [hnew', hnew, List.append_assoc]⟩
  used a ha := by
    rcases h'.used a ha with ha | ha
    · exact (h.used a ha).imp_right (List.mem_append_left _)
    · exact .inr (List.mem_append_right _ ha)

theorem useAttempt_used {attempt a : Bytes32} (h : (s.useAttempt attempt).usedAttempts a = true) :
    s.usedAttempts a = true ∨ a ∈ [attempt] := by
  by_cases ha : a = attempt
  · exact .inr (List.mem_singleton.mpr ha)
  · rw [Storage.useAttempt_usedAttempts, Function.update_of_ne ha] at h
    exact .inl h

theorem row_appends {attempt : Bytes32} {outcome : ChargeOutcome}
    (h : Row O this msg id attempt c c' outcome) : Appends [attempt] c.storage c'.storage := by
  cases h with
  | skipped _ _ h =>
      subst h
      exact .of_used rfl rfl
  | failed m _ h =>
      subst h
      exact ⟨⟨_, rfl⟩, fun _ => useAttempt_used⟩
  | charged m _ x _ h =>
      subst h
      exact ⟨⟨_, List.append_assoc ..⟩, fun _ => useAttempt_used⟩

theorem rows_appends {rows : List (Nat × Bytes32)} {outcomes : List ChargeOutcome}
    (h : Rows O this msg rows outcomes c c') :
    Appends (rows.map Prod.snd) c.storage c'.storage := by
  induction h with
  | nil => exact .refl _ _
  | cons hrow _ ih => exact (row_appends hrow).trans ih

theorem setDependency_appends {name : String} {write : Address → Storage → Storage} {v : Address}
    {attempts : List Bytes32} (hwrite : ∀ s, (write v s).logs = s.logs)
    (hused : ∀ s, (write v s).usedAttempts = s.usedAttempts)
    (h : setDependency msg name write v c = .ok ((), c')) :
    Appends attempts c.storage c'.storage := by
  simp only [setDependency, emit, bind_eq_ok, sload_eq_ok, onlyRole_eq_ok, whenPaused_eq_ok,
    revertIf_eq_ok, sstore_eq_ok, Prod.mk.injEq, existsAndEq, exists_const, true_and, and_true] at h
  obtain ⟨-, -, -, rfl⟩ := h
  exact .of_used (congrArg (· ++ _) (hwrite c.storage)) (hused c.storage)

theorem step_appends (O : Outside ξ δ) (this : Address) (c : Ctx Storage ξ) (l : Label ξ) :
    Appends l.action.attempts c.storage (step O this c l).storage := by
  refine commit_cases (P := fun c' : Ctx Storage ξ => Appends l.action.attempts c.storage
    c'.storage) (.refl _ _) fun _ c' h => ?_
  cases haction : l.action with
  | createSubscription p =>
      simp only [haction, dispatch, bind_eq_ok, pure_eq_ok, Prod.mk.injEq, existsAndEq, true_and,
        and_true] at h
      obtain ⟨id, h⟩ := h
      obtain ⟨-, -, -, -, h⟩ := createSubscription_eq_ok.mp h
      obtain ⟨-, -, -, rfl⟩ := enrol_eq_ok.mp h
      exact .of_used rfl rfl
  | permitAndCreateSubscription p nonce permitData permitSig intentSig =>
      simp only [haction, dispatch, bind_eq_ok, pure_eq_ok, Prod.mk.injEq, existsAndEq, true_and,
        and_true] at h
      obtain ⟨id, h⟩ := h
      obtain ⟨-, -, -, -, -, -, -, -, permit, x, -, -, h⟩ := permitAndCreateSubscription_eq_ok.mp h
      obtain ⟨-, -, -, rfl⟩ := enrol_eq_ok.mp h
      exact .of_used rfl rfl
  | cancel id =>
      rw [haction] at h
      obtain ⟨-, m, -, -, -, ⟨-, rfl⟩ | ⟨-, rfl⟩⟩ := cancel_eq_ok.mp h
      · exact .of_used rfl rfl
      · exact .of_used rfl rfl
  | reinstate id =>
      rw [haction] at h
      obtain ⟨-, -, -, -, rfl⟩ := reinstate_eq_ok.mp h
      exact .of_used rfl rfl
  | batchCharge ids attempts =>
      simp only [haction, dispatch, bind_eq_ok, pure_eq_ok, Prod.mk.injEq, existsAndEq, true_and,
        and_true] at h
      obtain ⟨outcomes, h⟩ := h
      obtain ⟨-, -, -, hlen, -, c₁, hrows, rfl⟩ := batchCharge_eq_ok.mp h
      obtain ⟨hlogs, hused⟩ := rows_appends (chargeRows_ok hrows)
      rw [List.map_snd_zip hlen.ge] at hused
      exact ⟨hlogs, hused⟩
  | settleCharge payer token collector merchantId feeAmount payout netAmount =>
      rw [haction] at h
      obtain ⟨-, x, -, rfl⟩ := settleCharge_ok h
      exact .refl _ _
  | pause =>
      simp only [haction, dispatch, pause, bind_eq_ok, sload_eq_ok, onlyRole_eq_ok,
        whenNotPaused_eq_ok, sstore_eq_ok, Prod.mk.injEq, existsAndEq, exists_const, true_and,
        and_true] at h
      obtain ⟨-, -, rfl⟩ := h
      exact .of_used (List.append_nil _).symm rfl
  | unpause =>
      simp only [haction, dispatch, unpause, bind_eq_ok, sload_eq_ok, onlyRole_eq_ok,
        whenPaused_eq_ok, sstore_eq_ok, Prod.mk.injEq, existsAndEq, exists_const, true_and,
        and_true] at h
      obtain ⟨-, -, rfl⟩ := h
      exact .of_used (List.append_nil _).symm rfl
  | setRegistry v =>
      simp only [haction, dispatch, setRegistry] at h
      exact setDependency_appends (fun _ => rfl) (fun _ => rfl) h
  | setFeeCollector v =>
      simp only [haction, dispatch, setFeeCollector] at h
      exact setDependency_appends (fun _ => rfl) (fun _ => rfl) h
  | setTokenWhitelist v =>
      simp only [haction, dispatch, setTokenWhitelist] at h
      exact setDependency_appends (fun _ => rfl) (fun _ => rfl) h
  | rescue token to_ amount =>
      simp only [haction, dispatch, rescue, nonReentrant, emit, bind_eq_ok, sload_eq_ok,
        onlyRole_eq_ok, guarded_eq_ok, revertIf_eq_ok, call_eq_ok, sstore_eq_ok, Prod.mk.injEq,
        existsAndEq, exists_const, true_and, and_true] at h
      obtain ⟨-, -, x, -, rfl⟩ := h
      exact .of_used rfl rfl
  | setRoles hasRole =>
      simp only [haction, dispatch, sstore_eq_ok, Prod.mk.injEq, true_and] at h
      subst h
      exact .of_used (List.append_nil _).symm rfl
  | external f =>
      simp only [haction, dispatch, modify_eq_ok, Prod.mk.injEq, true_and] at h
      subst h
      exact .of_used (List.append_nil _).symm rfl

/-! ## The end of the current period -/

/-- What the row shows after one more log: a new row shows the end of the trial, or of the
first period; a charge moves it to the next due time. -/
def nextKey (id : Nat) (key : Option Int) (l : Log) : Option Int :=
  match enrolmentOf id l, chargeOf id l with
  | some (interval, startAt), _ =>
      some (key.getD (if unix l.timestamp < unix startAt then unix startAt
        else unix startAt + interval.toNat))
  | none, some (_, nextChargeAt) => key.map fun _ => (nextChargeAt : Int)
  | none, none => key

def periodEnd (id : Nat) (logs : List Log) : Option Int := logs.foldl (nextKey id) none

theorem periodEnd_append (id : Nat) (logs new : List Log) :
    periodEnd id (logs ++ new) = new.foldl (nextKey id) (periodEnd id logs) :=
  List.foldl_append

/-- A log that neither enrols nor charges. -/
def Log.Quiet (l : Log) : Prop := ∀ id, enrolmentOf id l = none ∧ chargeOf id l = none

theorem nextKey_quiet (h : l.Quiet) : nextKey id key l = key := by
  rw [nextKey, (h id).1, (h id).2]

theorem foldl_quiet {new : List Log} (h : ∀ l ∈ new, l.Quiet) : new.foldl (nextKey id) key = key := by
  induction new with
  | nil => rfl
  | cons l new ih =>
      rw [List.foldl_cons, nextKey_quiet (h l List.mem_cons_self)]
      exact ih fun l' hl' => h l' (List.mem_cons_of_mem _ hl')

/-- The subscription started in the block that enrolled it. -/
def StartsAtOnce (l : Log) (startAt : Uint64) : Prop := ¬ unix l.timestamp < unix startAt

/-- An end a row of this subscription can show: not past the due time, or the first one. -/
def KeyOk (s : Storage) (id : Nat) (e : Int) : Prop :=
  ∃ l ∈ s.logs, ∃ interval startAt, enrolmentOf id l = some (interval, startAt) ∧
    unix startAt ≤ e ∧ (e ≤ unix (s.subscriptions id).nextChargeAt ∨
      StartsAtOnce l startAt ∧ e = unix startAt + interval.toNat)

structure KeysInv (s : Storage) : Prop where
  /-- Only ids that were handed out are in the log. -/
  known : ∀ l ∈ s.logs, ∀ id, s.nextSubscriptionId ≤ id → enrolmentOf id l = none ∧
    chargeOf id l = none
  small : ∀ l ∈ s.logs, ∀ id charge, chargeOf id l = some charge → charge.2 < 2 ^ 63
  started : ∀ l ∈ s.logs, ∀ id interval startAt, enrolmentOf id l = some (interval, startAt) →
    startAt.toNat ≤ (s.subscriptions id).nextChargeAt.toNat
  older : ∀ p, p <+: s.logs → ∀ id e, periodEnd id p = some e → KeyOk s id e
  latest : ∀ id e, periodEnd id s.logs = some e →
    e = unix (s.subscriptions id).nextChargeAt ∨
      ∃ l ∈ s.logs, ∃ interval startAt, enrolmentOf id l = some (interval, startAt) ∧
        StartsAtOnce l startAt ∧ startAt = (s.subscriptions id).nextChargeAt ∧
          e = unix startAt + interval.toNat

/-- What a step leaves of the book: the log is extended, ids handed out are not enrolled
again, and a due time only moves forward. -/
structure Grows (s s' : Storage) : Prop where
  logs : ∃ new, s'.logs = s.logs ++ new
  nextId : s.nextSubscriptionId ≤ s'.nextSubscriptionId
  due : ∀ id < s.nextSubscriptionId,
    (s'.subscriptions id).nextChargeAt = (s.subscriptions id).nextChargeAt ∨
      (s.subscriptions id).nextChargeAt.toNat ≤ (s'.subscriptions id).nextChargeAt.toNat ∧
        (s'.subscriptions id).nextChargeAt.toNat < 2 ^ 63
  enrolments : ∀ id < s.nextSubscriptionId, ∀ l ∈ s'.logs, enrolmentOf id l ≠ none → l ∈ s.logs

theorem Grows.refl (s : Storage) : Grows s s :=
  ⟨⟨[], (List.append_nil _).symm⟩, Nat.le_refl _, fun _ _ => .inl rfl, fun _ _ _ hl _ => hl⟩

theorem Grows.mem (h : Grows s s') (hl : l ∈ s.logs) : l ∈ s'.logs := by
  obtain ⟨new, hnew⟩ := h.logs
  rw [hnew]
  exact List.mem_append_left _ hl

theorem Grows.due_le (h : Grows s s') (hid : id < s.nextSubscriptionId) :
    (s.subscriptions id).nextChargeAt.toNat ≤ (s'.subscriptions id).nextChargeAt.toNat := by
  rcases h.due id hid with heq | ⟨hle, -⟩
  · rw [heq]
  · exact hle

theorem Grows.trans (h : Grows s s') (h' : Grows s' s'') : Grows s s'' where
  logs := by
    obtain ⟨new, hnew⟩ := h.logs
    obtain ⟨new', hnew'⟩ := h'.logs
    exact ⟨new ++ new', by rw [hnew', hnew, List.append_assoc]⟩
  nextId := Nat.le_trans h.nextId h'.nextId
  due id hid := by
    have hid' := Nat.lt_of_lt_of_le hid h.nextId
    rcases h'.due id hid' with heq' | ⟨hle', hlt'⟩
    · rw [heq']
      exact h.due id hid
    · exact .inr ⟨Nat.le_trans (h.due_le hid) hle', hlt'⟩
  enrolments id hid l hl henrol :=
    h.enrolments id hid l (h'.enrolments id (Nat.lt_of_lt_of_le hid h.nextId) l hl henrol) henrol

theorem unix_of_lt {t : Uint64} (h : t.toNat < 2 ^ 63) : unix t = t.toNat := by
  rw [unix, BitVec.toInt_eq_toNat_of_lt (by omega)]

theorem Grows.unix_le (h : Grows s s') (hid : id < s.nextSubscriptionId) :
    unix (s.subscriptions id).nextChargeAt ≤ unix (s'.subscriptions id).nextChargeAt := by
  rcases h.due id hid with heq | ⟨hle, hlt⟩
  · rw [heq]
  · rw [unix_of_lt hlt, unix_of_lt (Nat.lt_of_le_of_lt hle hlt)]
    exact_mod_cast hle

theorem KeyOk.lt (inv : KeysInv s) (h : KeyOk s id e) : id < s.nextSubscriptionId := by
  obtain ⟨l, hl, interval, startAt, henrol, -⟩ := h
  by_contra hge
  rw [(inv.known l hl id (Nat.le_of_not_lt hge)).1] at henrol
  exact nomatch henrol

theorem KeyOk.mono (h : KeyOk s id e) (inv : KeysInv s) (hg : Grows s s') : KeyOk s' id e := by
  have hid := h.lt inv
  obtain ⟨l, hl, interval, startAt, henrol, hle, hend⟩ := h
  refine ⟨l, hg.mem hl, interval, startAt, henrol, hle, ?_⟩
  rcases hend with hend | hend
  · exact .inl (le_trans hend (hg.unix_le hid))
  · exact .inr hend

/-! ## One transaction -/

/-- A prefix of an extended log is a prefix of the old one, or extends it. -/
theorem prefix_cases {p logs new : List Log} (h : p <+: logs ++ new) :
    p <+: logs ∨ ∃ q, q <+: new ∧ p = logs ++ q := by
  rcases List.prefix_or_prefix_of_prefix h (List.prefix_append logs new) with h' | ⟨q, rfl⟩
  · exact .inl h'
  · exact .inr ⟨q, (List.prefix_append_right_inj logs).mp h, rfl⟩

/-- Logs that say nothing of enrolments and charges, and due times as they were. -/
theorem KeysInv.quiet {new : List Log} (inv : KeysInv s) (hlogs : s'.logs = s.logs ++ new)
    (hquiet : ∀ l ∈ new, l.Quiet) (hnextId : s'.nextSubscriptionId = s.nextSubscriptionId)
    (hdue : ∀ id, (s'.subscriptions id).nextChargeAt = (s.subscriptions id).nextChargeAt) :
    KeysInv s' ∧ Grows s s' := by
  have hcases : ∀ l ∈ s'.logs, l ∈ s.logs ∨ l.Quiet := by
    intro l hl
    rw [hlogs] at hl
    exact (List.mem_append.mp hl).imp_right (hquiet l)
  have hgrows : Grows s s' := by
    refine ⟨⟨new, hlogs⟩, hnextId.ge, fun id _ => .inl (hdue id), fun id _ l hl henrol => ?_⟩
    exact (hcases l hl).resolve_right fun hq => henrol (hq id).1
  refine ⟨⟨?known, ?small, ?started, ?older, ?latest⟩, hgrows⟩
  case known =>
    intro l hl id hid
    rcases hcases l hl with hl | hl
    · exact inv.known l hl id (hnextId ▸ hid)
    · exact hl id
  case small =>
    intro l hl id charge hcharge
    rcases hcases l hl with hl | hl
    · exact inv.small l hl id charge hcharge
    · rw [(hl id).2] at hcharge
      exact nomatch hcharge
  case started =>
    intro l hl id interval startAt henrol
    rw [hdue]
    rcases hcases l hl with hl | hl
    · exact inv.started l hl id interval startAt henrol
    · rw [(hl id).1] at henrol
      exact nomatch henrol
  case older =>
    intro p hp id e he
    rw [hlogs] at hp
    rcases prefix_cases hp with hp | ⟨q, hq, rfl⟩
    · exact (inv.older p hp id e he).mono inv hgrows
    · rw [periodEnd_append, foldl_quiet fun l hl => hquiet l (hq.subset hl)] at he
      exact (inv.older _ List.prefix_rfl id e he).mono inv hgrows
  case latest =>
    intro id e he
    rw [hlogs, periodEnd_append, foldl_quiet hquiet] at he
    rw [hdue]
    rcases inv.latest id e he with he | ⟨l, hl, hrest⟩
    · exact .inl he
    · exact .inr ⟨l, hgrows.mem hl, hrest⟩

/-- The new id was not in the log. -/
theorem KeysInv.periodEnd_new (inv : KeysInv s) : periodEnd s.nextSubscriptionId s.logs = none := by
  by_contra h
  obtain ⟨e, he⟩ := Option.ne_none_iff_exists'.mp h
  exact Nat.lt_irrefl _ ((inv.older _ List.prefix_rfl _ e he).lt inv)

theorem KeysInv.enrolled {payer : Address} {p : Terms} (inv : KeysInv s) :
    KeysInv (s.enrolled msg payer p) ∧ Grows s (s.enrolled msg payer p) := by
  set l : Log := ⟨msg.timestamp, .subscriptionCreated s.nextSubscriptionId p.merchantId payer
    p.token p.amount p.interval (firstChargeAt msg p)⟩ with hl
  have hlogs : (s.enrolled msg payer p).logs = s.logs ++ [l] := rfl
  have hcharge : ∀ id, chargeOf id l = none := fun _ => rfl
  have henrol : ∀ id, enrolmentOf id l =
      if s.nextSubscriptionId = id then some (p.interval, firstChargeAt msg p) else none :=
    fun _ => rfl
  have hnew : ((s.enrolled msg payer p).subscriptions s.nextSubscriptionId).nextChargeAt =
      firstChargeAt msg p := by
    rw [(enrolled_views s msg payer p _).1, if_pos rfl]
    rfl
  have hold : ∀ id ≠ s.nextSubscriptionId,
      (s.enrolled msg payer p).subscriptions id = s.subscriptions id := by
    intro id hid
    rw [(enrolled_views s msg payer p id).1, if_neg hid]
  have hcases : ∀ l' ∈ (s.enrolled msg payer p).logs, l' ∈ s.logs ∨ l' = l := by
    intro l' hl'
    rw [hlogs] at hl'
    exact (List.mem_append.mp hl').imp_right List.mem_singleton.mp
  have hgrows : Grows s (s.enrolled msg payer p) := by
    refine ⟨⟨[l], hlogs⟩, Nat.le_succ _, fun id hid => ?_, fun id hid l' hl' hne => ?_⟩
    · rw [hold id hid.ne]
      exact .inl rfl
    · rcases hcases l' hl' with hl' | rfl
      · exact hl'
      · rw [henrol, if_neg hid.ne'] at hne
        exact absurd rfl hne
  -- what the new log says of each id
  have hkey : ∀ id, nextKey id (periodEnd id s.logs) l = if id = s.nextSubscriptionId then
      some (if unix l.timestamp < unix (firstChargeAt msg p) then unix (firstChargeAt msg p)
        else unix (firstChargeAt msg p) + p.interval.toNat)
      else periodEnd id s.logs := by
    intro id
    by_cases hid : id = s.nextSubscriptionId
    · rw [hid, nextKey, henrol, if_pos rfl, if_pos rfl, inv.periodEnd_new]
      rfl
    · rw [nextKey, henrol, if_neg (Ne.symm hid), hcharge, if_neg hid]
  have hfirst : ∀ e, (if unix l.timestamp < unix (firstChargeAt msg p) then
        unix (firstChargeAt msg p) else unix (firstChargeAt msg p) + p.interval.toNat) = e →
      e = unix (firstChargeAt msg p) ∨
        StartsAtOnce l (firstChargeAt msg p) ∧ e = unix (firstChargeAt msg p) + p.interval.toNat := by
    intro e he
    split at he
    next => exact .inl he.symm
    next hstart => exact .inr ⟨hstart, he.symm⟩
  have hlmem : l ∈ (s.enrolled msg payer p).logs := by
    rw [hlogs]
    exact List.mem_append_right _ (List.mem_singleton_self l)
  have hlenrol : enrolmentOf s.nextSubscriptionId l = some (p.interval, firstChargeAt msg p) := by
    rw [henrol, if_pos rfl]
  refine ⟨⟨?known, ?small, ?started, ?older, ?latest⟩, hgrows⟩
  case known =>
    intro l' hl' id hid
    have hlt : s.nextSubscriptionId < id := hid
    rcases hcases l' hl' with hl' | rfl
    · exact inv.known l' hl' id hlt.le
    · exact ⟨by rw [henrol, if_neg hlt.ne], hcharge id⟩
  case small =>
    intro l' hl' id charge heq
    rcases hcases l' hl' with hl' | rfl
    · exact inv.small l' hl' id charge heq
    · exact nomatch heq
  case started =>
    intro l' hl' id interval startAt heq
    rcases hcases l' hl' with hl' | rfl
    · have hid : id < s.nextSubscriptionId := by
        by_contra hge
        rw [(inv.known l' hl' id (Nat.le_of_not_lt hge)).1] at heq
        exact nomatch heq
      rw [hold id hid.ne]
      exact inv.started l' hl' id interval startAt heq
    · rw [henrol] at heq
      split at heq
      next hid =>
        cases heq
        rw [← hid, hnew]
      next => exact nomatch heq
  case older =>
    intro q hq id e he
    rw [hlogs] at hq
    rcases List.prefix_concat_iff.mp hq with rfl | hq
    · rw [periodEnd_append, List.foldl_cons, List.foldl_nil, hkey] at he
      by_cases hid : id = s.nextSubscriptionId
      · rw [if_pos hid] at he
        subst hid
        refine ⟨l, hlmem, _, _, hlenrol, ?_⟩
        rw [hnew]
        rcases hfirst e (Option.some.inj he) with rfl | ⟨hstart, rfl⟩
        · exact ⟨le_refl _, .inl (le_refl _)⟩
        · exact ⟨by omega, .inr ⟨hstart, rfl⟩⟩
      · rw [if_neg hid] at he
        exact (inv.older _ List.prefix_rfl id e he).mono inv hgrows
    · exact (inv.older q hq id e he).mono inv hgrows
  case latest =>
    intro id e he
    rw [hlogs, periodEnd_append, List.foldl_cons, List.foldl_nil, hkey] at he
    by_cases hid : id = s.nextSubscriptionId
    · rw [if_pos hid] at he
      subst hid
      rw [hnew]
      rcases hfirst e (Option.some.inj he) with rfl | ⟨hstart, rfl⟩
      · exact .inl rfl
      · exact .inr ⟨l, hlmem, _, _, hlenrol, hstart, rfl, rfl⟩
    · rw [if_neg hid] at he
      rw [hold id hid]
      rcases inv.latest id e he with he | ⟨l', hl', hrest⟩
      · exact .inl he
      · exact .inr ⟨l', hgrows.mem hl', hrest⟩

/-- A charge shows its own next due time, which is the new one. -/
theorem KeysInv.charged {t next : Uint64} {attempt : Bytes32} {amount feeAmount netAmount : Uint256}
    (inv : KeysInv s)
    (hlogs : s'.logs =
      s.logs ++ [⟨t, .subscriptionCharged id attempt amount feeAmount netAmount next⟩])
    (hnextId : s'.nextSubscriptionId = s.nextSubscriptionId) (hid : id < s.nextSubscriptionId)
    (hdue : ∀ i, (s'.subscriptions i).nextChargeAt =
      if i = id then next else (s.subscriptions i).nextChargeAt)
    (hle : (s.subscriptions id).nextChargeAt.toNat ≤ next.toNat) (hlt : next.toNat < 2 ^ 63) :
    KeysInv s' ∧ Grows s s' := by
  set l : Log := ⟨t, .subscriptionCharged id attempt amount feeAmount netAmount next⟩ with hl
  have henrol : ∀ i, enrolmentOf i l = none := fun _ => rfl
  have hcharge : ∀ i, chargeOf i l = if id = i then some (t.toNat, next.toNat) else none :=
    fun _ => rfl
  have hcases : ∀ l' ∈ s'.logs, l' ∈ s.logs ∨ l' = l := by
    intro l' hl'
    rw [hlogs] at hl'
    exact (List.mem_append.mp hl').imp_right List.mem_singleton.mp
  have hgrows : Grows s s' := by
    refine ⟨⟨[l], hlogs⟩, hnextId.ge, fun i _ => ?_, fun i _ l' hl' hne => ?_⟩
    · rw [hdue]
      split
      next heq => exact .inr ⟨heq ▸ hle, hlt⟩
      next => exact .inl rfl
    · rcases hcases l' hl' with hl' | rfl
      · exact hl'
      · exact absurd (henrol i) hne
  have hkey : ∀ i, nextKey i (periodEnd i s.logs) l =
      if i = id then (periodEnd i s.logs).map fun _ => (next.toNat : Int)
      else periodEnd i s.logs := by
    intro i
    by_cases hi : i = id
    · rw [nextKey, henrol, hcharge, if_pos hi.symm, if_pos hi]
    · rw [nextKey, henrol, hcharge, if_neg (Ne.symm hi), if_neg hi]
  refine ⟨⟨?known, ?small, ?started, ?older, ?latest⟩, hgrows⟩
  case known =>
    intro l' hl' i hi
    rw [hnextId] at hi
    rcases hcases l' hl' with hl' | rfl
    · exact inv.known l' hl' i hi
    · exact ⟨henrol i, by rw [hcharge, if_neg (Nat.ne_of_lt (Nat.lt_of_lt_of_le hid hi))]⟩
  case small =>
    intro l' hl' i charge heq
    rcases hcases l' hl' with hl' | rfl
    · exact inv.small l' hl' i charge heq
    · rw [hcharge] at heq
      split at heq
      next =>
        cases heq
        exact hlt
      next => exact nomatch heq
  case started =>
    intro l' hl' i interval startAt heq
    rcases hcases l' hl' with hl' | rfl
    · have hstart := inv.started l' hl' i interval startAt heq
      rw [hdue]
      split
      next hi => exact Nat.le_trans hstart (hi ▸ hle)
      next => exact hstart
    · exact nomatch heq
  case older =>
    intro q hq i e he
    rw [hlogs] at hq
    rcases List.prefix_concat_iff.mp hq with rfl | hq
    · rw [periodEnd_append, List.foldl_cons, List.foldl_nil, hkey] at he
      by_cases hi : i = id
      · rw [if_pos hi] at he
        obtain ⟨e₀, he₀, rfl⟩ := Option.map_eq_some_iff.mp he
        obtain ⟨l', hl', interval, startAt, heq, -, -⟩ := inv.older _ List.prefix_rfl i e₀ he₀
        have hstart := inv.started l' hl' i interval startAt heq
        have hlow : startAt.toNat ≤ next.toNat := Nat.le_trans hstart (hi ▸ hle)
        refine ⟨l', hgrows.mem hl', interval, startAt, heq, ?_, .inl ?_⟩
        · rw [unix_of_lt (Nat.lt_of_le_of_lt hlow hlt)]
          exact_mod_cast hlow
        · rw [hdue, if_pos hi, unix_of_lt hlt]
      · rw [if_neg hi] at he
        exact (inv.older _ List.prefix_rfl i e he).mono inv hgrows
    · exact (inv.older q hq i e he).mono inv hgrows
  case latest =>
    intro i e he
    rw [hlogs, periodEnd_append, List.foldl_cons, List.foldl_nil, hkey] at he
    rw [hdue]
    by_cases hi : i = id
    · rw [if_pos hi] at he
      obtain ⟨e₀, -, rfl⟩ := Option.map_eq_some_iff.mp he
      rw [if_pos hi, unix_of_lt hlt]
      exact .inl rfl
    · rw [if_neg hi] at he
      rw [if_neg hi]
      rcases inv.latest i e he with he | ⟨l', hl', hrest⟩
      · exact .inl he
      · exact .inr ⟨l', hgrows.mem hl', hrest⟩

theorem KeysInv.row {attempt : Bytes32} {outcome : ChargeOutcome} (inv : KeysInv c.storage)
    (hbill : BillingInv c.storage) (ht : msg.timestamp.toNat < 2 ^ 62)
    (hrow : Row O this msg id attempt c c' outcome) :
    KeysInv c'.storage ∧ Grows c.storage c'.storage := by
  cases hrow with
  | skipped _ _ h =>
      subst h
      exact inv.quiet rfl (by simp [Log.Quiet, enrolmentOf, chargeOf]) rfl fun _ => rfl
  | failed m _ h =>
      subst h
      exact inv.quiet rfl (by simp [Log.Quiet, enrolmentOf, chargeOf]) rfl fun _ => rfl
  | charged m hdue x _ h =>
      subst h
      generalize hsub : c.storage.subscriptions id = sub at *
      have hid : id < c.storage.nextSubscriptionId := by
        rcases hbill id with ⟨hlt, -⟩ | hblank
        · exact hlt
        · exact absurd (congrArg Account.interval hblank) hdue.interval
      have hready : sub.nextChargeAt ≤ msg.timestamp := hsub ▸ hdue.due
      have hnext := toNat_advanced hready (Nat.lt_of_lt_of_le ht (by norm_num))
      have hstart := paidPeriodStart_le hready
      have hinterval := sub.interval.isLt
      have hlow : sub.nextChargeAt.toNat ≤ paidPeriodStart msg sub := Nat.le_add_right _ _
      have hnow : (c.storage.subscriptions id).nextChargeAt = sub.nextChargeAt := by rw [hsub]
      -- the skipped periods are logged first
      set s₁ := (c.storage.useAttempt attempt).logSkipped msg id (periodsSkipped msg sub)
        (BitVec.ofNat 64 (paidPeriodStart msg sub)) with hs₁
      set s₂ := (c.storage.useAttempt attempt).advanced msg id attempt sub
        (feeOf sub.amount m.feeBps) (sub.amount - feeOf sub.amount m.feeBps)
        (BitVec.ofNat 64 (paidPeriodStart msg sub)) with hs₂
      obtain ⟨inv₁, hgrows⟩ : KeysInv s₁ ∧ Grows c.storage s₁ := inv.quiet rfl
        (by split <;> simp [Log.Quiet, enrolmentOf, chargeOf]) rfl fun _ => rfl
      obtain ⟨inv₂, hgrows'⟩ : KeysInv s₂ ∧ Grows s₁ s₂ := inv₁.charged rfl rfl hid
        (fun i => by
          rw [(advanced_views ..).1]
          split <;> rfl)
        (by
          rw [hnext]
          exact Nat.le_trans (Nat.le_of_eq (congrArg BitVec.toNat hnow))
            (Nat.le_trans hlow (Nat.le_add_right _ _)))
        (by omega)
      exact ⟨inv₂, hgrows.trans hgrows'⟩

theorem KeysInv.rows {rows : List (Nat × Bytes32)} {outcomes : List ChargeOutcome}
    (inv : KeysInv c.storage) (hbill : BillingInv c.storage) (ht : msg.timestamp.toNat < 2 ^ 62)
    (hrows : Rows O this msg rows outcomes c c') :
    KeysInv c'.storage ∧ Grows c.storage c'.storage := by
  induction hrows with
  | nil => exact ⟨inv, .refl _⟩
  | cons hrow _ ih =>
      obtain ⟨inv₁, hgrows⟩ := inv.row hbill ht hrow
      obtain ⟨inv₂, hgrows'⟩ := ih inv₁ (hbill.row (Nat.lt_of_lt_of_le ht (by norm_num)) hrow)
      exact ⟨inv₂, hgrows.trans hgrows'⟩

/-- A log that leaves every charge and enrolment as it was is quiet. -/
theorem quiet_of_sameBook {new : List Log} (h : SameBook s s') (hlogs : s'.logs = s.logs ++ new) :
    ∀ l ∈ new, l.Quiet := by
  intro l hl id
  have henrol := h.enrolments id
  have hcharge := h.charges id
  rw [Storage.enrolments, Storage.enrolments, hlogs, List.filterMap_append,
    List.append_right_eq_self] at henrol
  rw [Storage.charges, Storage.charges, hlogs, List.filterMap_append,
    List.append_right_eq_self] at hcharge
  exact ⟨List.filterMap_eq_nil_iff.mp henrol l hl, List.filterMap_eq_nil_iff.mp hcharge l hl⟩

theorem KeysInv.step {l : Label ξ} (inv : KeysInv c.storage) (hbill : BillingInv c.storage)
    (ht : l.time < 2 ^ 62) :
    KeysInv (step O this c l).storage ∧ Grows c.storage (step O this c l).storage := by
  have hput : ∀ {s' : Storage} {sub : Subscription} {e : Event} {i : Nat},
      s'.logs = c.storage.logs ++ [⟨l.msg.timestamp, e⟩] →
      s'.subscriptions = Function.update c.storage.subscriptions i sub →
      s'.nextSubscriptionId = c.storage.nextSubscriptionId →
      sub.nextChargeAt = (c.storage.subscriptions i).nextChargeAt →
      (∀ id, enrolmentOf id ⟨l.msg.timestamp, e⟩ = none ∧
        chargeOf id ⟨l.msg.timestamp, e⟩ = none) → KeysInv s' ∧ Grows c.storage s' := by
    intro s' sub e i hlogs hsubs hnextId hnext hquiet
    refine inv.quiet hlogs (fun l' hl' => List.mem_singleton.mp hl' ▸ hquiet) hnextId fun id => ?_
    rw [hsubs]
    by_cases hid : id = i
    · rw [hid, Function.update_self, hnext]
    · rw [Function.update_of_ne hid]
  cases step_change O this c l with
  | config h =>
      obtain ⟨new, hlogs⟩ := (step_appends O this c l).logs
      exact inv.quiet hlogs (quiet_of_sameBook h hlogs) h.nextId fun id => by rw [h.subscriptions]
  | enrolled payer p _ used _ h =>
      rw [h]
      have inv' : KeysInv { c.storage with usedIntentNonces := used } :=
        ⟨inv.known, inv.small, inv.started, inv.older, inv.latest⟩
      obtain ⟨inv₁, hgrows⟩ := inv'.enrolled (p := p)
      exact ⟨inv₁, hgrows.logs, hgrows.nextId, hgrows.due, hgrows.enrolments⟩
  | partyCancelled id m _ _ _ _ _ h =>
      rw [h]
      exact hput rfl rfl rfl rfl fun _ => ⟨rfl, rfl⟩
  | operatorCancelled id m _ _ _ _ _ _ h =>
      rw [h]
      exact hput rfl rfl rfl rfl fun _ => ⟨rfl, rfl⟩
  | reinstated id _ _ _ _ _ h =>
      rw [h]
      exact hput rfl rfl rfl rfl fun _ => ⟨rfl, rfl⟩
  | charged rows outcomes c₁ hrows h =>
      rw [h]
      have inv' : KeysInv (c.storage.setEntered true) :=
        ⟨inv.known, inv.small, inv.started, inv.older, inv.latest⟩
      have hbill' : BillingInv (c.storage.setEntered true) := hbill.of_same rfl fun _ => rfl
      obtain ⟨inv₁, hgrows⟩ := KeysInv.rows (c := ⟨c.storage.setEntered true, c.ext⟩) inv' hbill'
        ht hrows
      exact ⟨⟨inv₁.known, inv₁.small, inv₁.started, inv₁.older, inv₁.latest⟩,
        ⟨hgrows.logs, hgrows.nextId, hgrows.due, hgrows.enrolments⟩⟩

theorem KeysInv.deployed (hasRole : RoleTable) (registry feeCollector tokenWhitelist : Address) :
    KeysInv (deployed hasRole registry feeCollector tokenWhitelist) where
  known l hl := absurd hl List.not_mem_nil
  small l hl := absurd hl List.not_mem_nil
  started l hl := absurd hl List.not_mem_nil
  older p hp id e he := by
    obtain rfl := List.prefix_nil.mp hp
    exact nomatch he
  latest id e he := nomatch he

end Strimz.Subscriptions
