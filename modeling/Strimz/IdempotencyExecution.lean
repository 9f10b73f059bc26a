import Strimz.IdempotencyRuns

/-!
# One execution per key

Within a day only one execution of a key acts or answers, as long as no claim runs out under an
execution that is under way, has acted or has answered: a process that dies before its handler
does anything costs the key its minute and nothing else.
-/

namespace Strimz.Idempotency

open Runs InFlight

section Invariant

variable {δ : Type} {S : Setup δ} {w w' : World δ} {l : Label}

/-! ## The execution a key is held by -/

/-- The key's live record names this execution. -/
def HeldBy (w : World δ) (key : Text) (exec : Nat) : Prop :=
  ∃ r, w.live key = some r ∧ r.exec = exec

theorem HeldBy.eq {key : Text} {e e' : Nat} (h : HeldBy w key e) (h' : HeldBy w key e') :
    e = e' := by
  obtain ⟨r, hr, rfl⟩ := h
  obtain ⟨r', hr', rfl⟩ := h'
  rw [Option.some.inj (hr.symm.trans hr')]

/-- Whatever is under way, has acted or has answered holds its key. -/
structure Held (w : World δ) : Prop where
  call : ∀ c ∈ w.calls, ∀ e, c.exec? = some e → HeldBy w (redisKey c.req) e
  acted : ∀ (e : Nat) (x : Execution), w.execs[e]? = some x → x.acted = true →
    HeldBy w (redisKey x.req) e
  answered : ∀ a ∈ w.answers, ∀ e status body, a.response = .result e status body →
    HeldBy w (redisKey a.req) e

/-- Nothing of this key is under way, has acted or has answered. -/
structure World.Untouched (w : World δ) (key : Text) : Prop where
  calls : ∀ c ∈ w.calls, c.exec?.isSome → redisKey c.req ≠ key
  execs : ∀ x ∈ w.execs, x.acted = true → redisKey x.req ≠ key
  answers : ∀ a ∈ w.answers, a.isResult = true → redisKey a.req ≠ key

instance (w : World δ) (key : Text) : Decidable (w.Untouched key) :=
  decidable_of_iff ((∀ c ∈ w.calls, c.exec?.isSome → redisKey c.req ≠ key) ∧
      (∀ x ∈ w.execs, x.acted = true → redisKey x.req ≠ key) ∧
      ∀ a ∈ w.answers, a.isResult = true → redisKey a.req ≠ key)
    ⟨fun h => ⟨h.1, h.2.1, h.2.2⟩, fun h => ⟨h.calls, h.execs, h.answers⟩⟩

/-- If the key's claim runs out while the clock moves on by `d`, nothing came of it. -/
def World.RunsOutIdle (w : World δ) (key : Text) (d : Nat) : Prop :=
  match w.redis key with
  | some (⟨_, none, _⟩, expiresAt) => w.now < expiresAt → expiresAt ≤ w.now + d → w.Untouched key
  | _ => True

instance (w : World δ) (key : Text) (d : Nat) : Decidable (w.RunsOutIdle key d) := by
  unfold World.RunsOutIdle
  split <;> infer_instance

/-- No claim of a key runs out under an execution. -/
def NotOverrun (w : World δ) : Label → Prop
  | .elapse d => ∀ x ∈ w.execs, w.RunsOutIdle (redisKey x.req) d
  | _ => True

instance (w : World δ) : (l : Label) → Decidable (NotOverrun w l)
  | .elapse d => inferInstanceAs (Decidable (∀ x ∈ w.execs, w.RunsOutIdle (redisKey x.req) d))
  | .arrive _ | .redis _ _ | .act _ | .finish _ _ | .crash _ => isTrue trivial

/-- A result stays for the rest of the day that began at `dawn`. -/
def Kept (dawn : Nat) (w : World δ) : Prop :=
  ∀ key r expiresAt, w.redis key = some (r, expiresAt) → r.done ≠ none →
    dawn + RESULT_TTL ≤ expiresAt

/-- What held its key before a step and what is new hold theirs after it, if a record that
something came of stays. -/
theorem Held.carry (h : Held w)
    (hmono : ∀ key e, HeldBy w key e → ¬ w.Untouched key → HeldBy w' key e)
    (hcalls : ∀ c ∈ w'.calls, ∀ e, c.exec? = some e →
      (∃ c₀ ∈ w.calls, c₀.exec? = some e ∧ c₀.req = c.req) ∨ HeldBy w' (redisKey c.req) e)
    (hexecs : ∀ (e : Nat) (x' : Execution), w'.execs[e]? = some x' → x'.acted = true →
      (∃ x : Execution, w.execs[e]? = some x ∧ x.acted = true ∧ x.req = x'.req) ∨
        HeldBy w' (redisKey x'.req) e)
    (hanswers : ∀ a ∈ w'.answers, ∀ e status body, a.response = .result e status body →
      a ∈ w.answers ∨ HeldBy w' (redisKey a.req) e) : Held w' where
  call := by
    intro c hc e he
    rcases hcalls c hc e he with ⟨c₀, hc₀, he₀, hreq⟩ | hheld
    · have hold := hreq ▸ h.call c₀ hc₀ e he₀
      refine hmono _ _ hold fun hnone => hnone.calls c₀ hc₀ ?_ (by rw [hreq])
      rw [he₀]
      rfl
    · exact hheld
  acted := by
    intro e x' hx' hacted
    rcases hexecs e x' hx' hacted with ⟨x, hx, hold, hreq⟩ | hheld
    · exact hmono _ _ (hreq ▸ h.acted e x hx hold) fun hnone =>
        hnone.execs x (List.mem_of_getElem? hx) hold (by rw [hreq])
    · exact hheld
  answered := by
    intro a ha e status body hresponse
    rcases hanswers a ha e status body hresponse with hold | hheld
    · refine hmono _ _ (h.answered a hold e status body hresponse) fun hnone =>
        hnone.answers a hold ?_ rfl
      rw [Answer.isResult, hresponse]
    · exact hheld

/-- A step after which the store is the same. -/
theorem HeldBy.of_live {key : Text} {e : Nat} (h : HeldBy w key e)
    (hlive : w'.live key = w.live key) : HeldBy w' key e := by
  obtain ⟨r, hr, he⟩ := h
  exact ⟨r, hlive.trans hr, he⟩

theorem mem_leave {k : Nat} {c : Call} {e : Nat} (h : c ∈ (w.leave k).calls)
    (he : c.exec? = some e) : ∃ c₀ ∈ w.calls, c₀.exec? = some e ∧ c₀.req = c.req :=
  ⟨c, List.mem_of_mem_eraseIdx h, he, rfl⟩

theorem mem_enter {req : Keyed} {stage : Stage} {c : Call} (h : c ∈ (w.enter req stage).calls) :
    c ∈ w.calls ∨ c = ⟨req, stage⟩ :=
  (List.mem_append.mp h).imp_right List.mem_singleton.mp

theorem mem_answer {req : Keyed} {response : Response} {a : Answer}
    (h : a ∈ (w.answer req response).answers) : a ∈ w.answers ∨ a = ⟨req, response⟩ :=
  (List.mem_append.mp h).imp_right List.mem_singleton.mp

/-- A claim takes over no live record. -/
theorem Held.claim (h : Held w) {req : Keyed} (hfree : w.live (redisKey req) = none) :
    Held (w.claim S req) ∧ HeldBy (w.claim S req) (redisKey req) w.execs.length := by
  have hmine : HeldBy (w.claim S req) (redisKey req) w.execs.length :=
    ⟨_, World.live_put_self (by decide), rfl⟩
  refine ⟨h.carry ?_ ?_ ?_ fun a ha _ _ _ _ => .inl ha, hmine⟩
  · intro key e hheld _
    by_cases hkey : key = redisKey req
    · obtain ⟨r, hr, -⟩ := hheld
      rw [hkey, hfree] at hr
      cases hr
    · exact hheld.of_live (World.live_put_of_ne hkey)
  · exact fun c hc e he => .inl ⟨c, hc, he, rfl⟩
  · intro e x' hx' hacted
    rcases getElem?_concat_cases hx' with hx | ⟨-, rfl⟩
    · exact .inl ⟨x', hx, hacted, rfl⟩
    · cases hacted

/-- A result replaces the record of its own execution. -/
theorem Held.store (h : Held w) {req : Keyed} {exec : Nat} {outcome : Outcome}
    (hheld : HeldBy w (redisKey req) exec) :
    Held (w.store S req exec outcome) ∧
      HeldBy (w.store S req exec outcome) (redisKey req) exec := by
  have hmine : HeldBy (w.store S req exec outcome) (redisKey req) exec :=
    ⟨_, World.live_put_self (by decide), rfl⟩
  refine ⟨h.carry ?_ (fun c hc e he => .inl ⟨c, hc, he, rfl⟩)
    (fun e x' hx' hacted => .inl ⟨x', hx', hacted, rfl⟩) fun a ha _ _ _ _ => .inl ha, hmine⟩
  intro key e hother _
  by_cases hkey : key = redisKey req
  · rw [hkey] at hother ⊢
    rw [hother.eq hheld]
    exact hmine
  · exact hother.of_live (World.live_put_of_ne hkey)

theorem Held.leave (h : Held w) (k : Nat) : Held (w.leave k) :=
  h.carry (fun _ _ hheld _ => hheld) (fun _ hc _ he => .inl (mem_leave hc he))
    (fun _ x' hx' hacted => .inl ⟨x', hx', hacted, rfl⟩) fun _ ha _ _ _ _ => .inl ha

theorem Held.enter (h : Held w) {req : Keyed} {stage : Stage}
    (hheld : ∀ e, Call.exec? ⟨req, stage⟩ = some e → HeldBy w (redisKey req) e) :
    Held (w.enter req stage) := by
  refine h.carry (fun _ _ hheld _ => hheld) ?_
    (fun _ x' hx' hacted => .inl ⟨x', hx', hacted, rfl⟩) fun _ ha _ _ _ _ => .inl ha
  intro c hc e he
  rcases mem_enter hc with hc | rfl
  · exact .inl ⟨c, hc, he, rfl⟩
  · exact .inr (hheld e he)

theorem Held.answer (h : Held w) {req : Keyed} {response : Response}
    (hheld : ∀ e status body, response = .result e status body → HeldBy w (redisKey req) e) :
    Held (w.answer req response) := by
  refine h.carry (fun _ _ hheld _ => hheld) (fun c hc _ he => .inl ⟨c, hc, he, rfl⟩)
    (fun _ x' hx' hacted => .inl ⟨x', hx', hacted, rfl⟩) ?_
  intro a ha e status body hresponse
  rcases mem_answer ha with ha | rfl
  · exact .inl ha
  · exact .inr (hheld e status body hresponse)

theorem Held.updateExec (h : Held w) {exec : Nat} {f : Execution → Execution}
    (hreq : ∀ x, (f x).req = x.req)
    (hacted : ∀ x : Execution, w.execs[exec]? = some x → (f x).acted = true →
      x.acted = true ∨ HeldBy w (redisKey x.req) exec) : Held (w.updateExec exec f) := by
  refine h.carry (fun _ _ hheld _ => hheld) (fun c hc _ he => .inl ⟨c, hc, he, rfl⟩) ?_
    fun _ ha _ _ _ _ => .inl ha
  intro e x' hx' hnow
  change (w.execs.modify exec f)[e]? = _ at hx'
  by_cases he : exec = e
  · subst he
    rw [List.getElem?_modify_eq] at hx'
    obtain ⟨x, hx, rfl⟩ := Option.map_eq_some_iff.mp hx'
    rcases hacted x hx hnow with hold | hheld
    · exact .inl ⟨x, hx, hold, (hreq x).symm⟩
    · rw [hreq]
      exact .inr hheld
  · rw [List.getElem?_modify_ne _ _ he] at hx'
    exact .inl ⟨x', hx', hnow, rfl⟩

/-- Time takes away only claims that nothing came of. -/
theorem Held.elapse (h : Held w) (hbase : Base S w) {dawn d : Nat} (hkept : Kept dawn w)
    (hday : w.now + d < dawn + RESULT_TTL) (hok : NotOverrun w (.elapse d)) :
    Held { w with now := w.now + d } := by
  refine h.carry ?_ (fun c hc _ he => .inl ⟨c, hc, he, rfl⟩)
    (fun _ x' hx' hacted => .inl ⟨x', hx', hacted, rfl⟩) fun _ ha _ _ _ _ => .inl ha
  rintro key e ⟨r, hlive, he⟩ htouched
  obtain ⟨expiresAt, hr, hlt⟩ := World.live_eq_some.mp hlive
  refine ⟨r, World.live_eq_some.mpr ⟨expiresAt, hr, Nat.lt_of_not_le fun hexpired => ?_⟩, he⟩
  cases hdone : r.done with
  | none =>
      obtain ⟨x, hx, rfl, -⟩ := hbase.record key r expiresAt hr
      obtain ⟨fingerprint, done, exec⟩ := r
      obtain rfl : done = none := hdone
      have hidle := hok x (List.mem_of_getElem? hx)
      rw [World.RunsOutIdle, hr] at hidle
      exact htouched (hidle hlt hexpired)
  | some result =>
      have hlong := hkept key r expiresAt hr (by rw [hdone]; exact Option.some_ne_none _)
      exact Nat.lt_irrefl _ (Nat.lt_of_lt_of_le hday (Nat.le_trans hlong hexpired))

theorem Held.moved (h : Held w) (hbase : Base S w) {dawn : Nat} (hkept : Kept dawn w)
    (hday : w'.now < dawn + RESULT_TTL) (hok : NotOverrun w l) (hw : Moved S w l w') :
    Held w' := by
  have hcall : ∀ {k : Nat} {c : Call} {e : Nat}, w.calls[k]? = some c → c.exec? = some e →
      HeldBy w (redisKey c.req) e := fun hk he => h.call _ (List.mem_of_getElem? hk) _ he
  cases hw with
  | same _ => exact h
  | arrived req => exact h.enter fun _ h => nomatch h
  | left k => exact h.leave k
  | turned k req stage hidle =>
      exact (h.leave k).enter fun e he => by rw [hidle] at he; cases he
  | claimed k req hfree =>
      obtain ⟨hclaim, hmine⟩ := (h.leave k).claim (S := S) hfree
      exact hclaim.enter fun e he => Option.some.inj he ▸ hmine
  | claimLost k req hfree =>
      obtain ⟨hclaim, -⟩ := (h.leave k).claim (S := S) hfree
      exact hclaim.answer fun _ _ _ h => nomatch h
  | refused k req response hresponse =>
      exact (h.leave k).answer fun e status body heq => absurd heq (hresponse e status body)
  | replayed k req r result hlive _ _ =>
      refine (h.leave k).answer fun e status body hresponse => ?_
      have hexec : e = r.exec := by
        unfold replayOf at hresponse
        split at hresponse <;> exact (Response.result.inj hresponse).1.symm
      exact ⟨r, hlive, hexec.symm⟩
  | stored k req exec outcome hk =>
      have hpair : Held ((w.leave k).store S req exec outcome) ∧
          HeldBy ((w.leave k).store S req exec outcome) (redisKey req) exec :=
        (h.leave k).store (hcall hk rfl)
      obtain ⟨hstore, hmine⟩ := hpair
      refine hstore.answer fun e status body hresponse => ?_
      exact (Response.result.inj hresponse).1 ▸ hmine
  | unstored k req exec outcome hk =>
      refine (h.leave k).answer fun e status body hresponse => ?_
      exact (Response.result.inj hresponse).1 ▸ hcall hk rfl
  | acted k req exec hk =>
      refine h.updateExec (fun _ => rfl) fun x hx _ => .inr ?_
      obtain ⟨y, hy, hreq, -⟩ := hbase.call _ (List.mem_of_getElem? hk) exec rfl
      obtain rfl : y = x := Option.some.inj (hy.symm.trans hx)
      exact hreq ▸ hcall hk rfl
  | finished k req exec outcome hk =>
      have hset : Held ((w.leave k).updateExec exec fun x => { x with outcome := some outcome }) :=
        (h.leave k).updateExec (fun _ => rfl) fun x _ hacted => .inl hacted
      exact hset.enter fun e he => Option.some.inj he ▸ hcall hk rfl
  | elapsed d => exact h.elapse hbase hkept hday hok

theorem Kept.moved {dawn : Nat} (h : Kept dawn w) (hdawn : dawn ≤ w.now) (hw : Moved S w l w') :
    Kept dawn w' := by
  intro key r expiresAt hr hdone
  have hput : ∀ (k : Text) (r' : Record δ) (ttl : Nat), (r'.done ≠ none → ttl = RESULT_TTL) →
      Function.update w.redis k (some (r', w.now + ttl)) key = some (r, expiresAt) →
      dawn + RESULT_TTL ≤ expiresAt := by
    intro k r' ttl hlong hupdate
    by_cases hkey : key = k
    · rw [hkey, Function.update_self] at hupdate
      obtain ⟨rfl, rfl⟩ := Prod.mk.inj (Option.some.inj hupdate)
      rw [hlong hdone]
      exact Nat.add_le_add_right hdawn _
    · rw [Function.update_of_ne hkey] at hupdate
      exact h key r expiresAt hupdate hdone
  cases hw with
  | claimed k req _ => exact hput _ _ _ (fun hnone => absurd rfl hnone) hr
  | claimLost k req _ => exact hput _ _ _ (fun hnone => absurd rfl hnone) hr
  | stored k req exec outcome _ => exact hput _ _ _ (fun _ => rfl) hr
  | _ => exact h key r expiresAt hr hdone

end Invariant

/-! ## Runs -/

section Runs

variable {δ : Type} [DecidableEq δ]

/-- No request has arrived, and the store is empty. -/
structure World.Launched (w : World δ) : Prop where
  redis : ∀ key, w.redis key = none
  calls : w.calls = []
  execs : w.execs = []
  answers : w.answers = []

section Launch

omit [DecidableEq δ]

variable {S : Setup δ} {w : World δ}

theorem World.Launched.base (h : w.Launched) : Base S w where
  record := by simp [h.redis]
  done := by simp [h.redis]
  call := by simp [h.calls]
  single := by simp [h.calls]
  answered := by simp [h.answers]

theorem World.Launched.spaced (h : w.Launched) : Spaced w where
  kept := by simp [h.execs]
  apart := by simp [h.execs]

theorem World.Launched.held (h : w.Launched) : Held w where
  call := by simp [h.calls]
  acted := by simp [h.execs]
  answered := by simp [h.answers]

theorem World.Launched.kept (h : w.Launched) {dawn : Nat} : Kept dawn w := by
  simp [Kept, h.redis]

end Launch

/-- What the keys guarantee of one state. -/
structure OneExecution (w : World δ) : Prop where
  /-- At most one execution of a key has a side effect. -/
  acts : ∀ (e e' : Nat) (x x' : Execution), w.execs[e]? = some x → w.execs[e']? = some x' →
    SameKey x.req x'.req → x.acted = true → x'.acted = true → e = e'
  /-- All results of a key are the same one, of the execution that had the side effect. -/
  results : ∀ a ∈ w.answers, ∀ a' ∈ w.answers, ∀ e e' status status' body body',
    SameKey a.req a'.req → a.response = .result e status body →
    a'.response = .result e' status' body' → e = e' ∧ status = status' ∧ body = body'
  acting : ∀ a ∈ w.answers, ∀ (e e' status : Nat) (body : Json) (x : Execution),
    a.response = .result e status body → w.execs[e']? = some x → x.acted = true →
    SameKey x.req a.req → e' = e
  /-- Requests of a key that got results are the same request. -/
  requests : ∀ a ∈ w.answers, ∀ a' ∈ w.answers, SameKey a.req a'.req → a.isResult = true →
    a'.isResult = true →
    a.req.method = a'.req.method ∧ a.req.url = a'.req.url ∧ a.req.body = a'.req.body

/-- What holds whatever dies or runs out. -/
structure OwnExecutions (S : Setup δ) (w : World δ) : Prop where
  /-- A result is that of an execution of the same key and the same request. -/
  own : ∀ a ∈ w.answers, ∀ e status body, a.response = .result e status body →
    ∃ (x : Execution) (o : Outcome), w.execs[e]? = some x ∧ SameKey x.req a.req ∧
      x.req.body = a.req.body ∧ x.outcome = some o ∧ (status, body) = resultOf S x.req o
  /-- Two executions of a key start at least a minute apart. -/
  apart : ∀ (e e' : Nat) (x x' : Execution), e < e' → w.execs[e]? = some x →
    w.execs[e']? = some x' → SameKey x.req x'.req → x.startedAt + IN_PROGRESS_TTL ≤ x'.startedAt

omit [DecidableEq δ] in
theorem ownExecutions_of_base {S : Setup δ} {w : World δ} (hS : CollisionFree S) (h : Base S w)
    (hspaced : Spaced w) : OwnExecutions S w where
  own := by
    intro a ha e status body hresponse
    obtain ⟨x, o, hx, hkey, hfingerprint, ho, hresult⟩ := h.answered a ha e status body hresponse
    exact ⟨x, o, hx, redisKey_inj.mp hkey, (fingerprintText_inj (hS _ _ hfingerprint)).2.2, ho,
      hresult⟩
  apart := fun e e' x x' hlt hx hx' hkey => hspaced.apart e e' x x' hlt hx hx' (redisKey_inj.mpr hkey)

theorem isResult_iff {a : Answer} :
    a.isResult = true ↔ ∃ e status body, a.response = .result e status body := by
  unfold Answer.isResult
  cases a.response <;> simp

omit [DecidableEq δ] in
theorem oneExecution_of_held {S : Setup δ} {w : World δ} (hS : CollisionFree S) (h : Base S w)
    (hheld : Held w) : OneExecution w where
  acts := by
    intro e e' x x' hx hx' hkey hacted hacted'
    have hmine := hheld.acted e x hx hacted
    rw [redisKey_inj.mpr hkey] at hmine
    exact hmine.eq (hheld.acted e' x' hx' hacted')
  results := by
    intro a ha a' ha' e e' status status' body body' hkey hresponse hresponse'
    have hmine := hheld.answered a ha e status body hresponse
    rw [redisKey_inj.mpr hkey] at hmine
    obtain rfl := hmine.eq (hheld.answered a' ha' e' status' body' hresponse')
    obtain ⟨x, o, hx, -, -, ho, hresult⟩ := h.answered a ha e status body hresponse
    obtain ⟨x', o', hx', -, -, ho', hresult'⟩ := h.answered a' ha' e status' body' hresponse'
    obtain rfl : x = x' := Option.some.inj (hx.symm.trans hx')
    obtain rfl : o = o' := Option.some.inj (ho.symm.trans ho')
    exact ⟨rfl, Prod.mk.inj (hresult.trans hresult'.symm)⟩
  acting := by
    intro a ha e e' status body x hresponse hx hacted hkey
    have hmine := hheld.acted e' x hx hacted
    rw [redisKey_inj.mpr hkey] at hmine
    exact hmine.eq (hheld.answered a ha e status body hresponse)
  requests := by
    intro a ha a' ha' hkey hresult hresult'
    obtain ⟨e, status, body, hresponse⟩ := isResult_iff.mp hresult
    obtain ⟨e', status', body', hresponse'⟩ := isResult_iff.mp hresult'
    have hmine := hheld.answered a ha e status body hresponse
    rw [redisKey_inj.mpr hkey] at hmine
    obtain rfl := hmine.eq (hheld.answered a' ha' e' status' body' hresponse')
    obtain ⟨x, o, hx, -, hfingerprint, -⟩ := h.answered a ha e status body hresponse
    obtain ⟨x', o', hx', -, hfingerprint', -⟩ := h.answered a' ha' e status' body' hresponse'
    obtain rfl : x = x' := Option.some.inj (hx.symm.trans hx')
    exact fingerprintText_inj (hS _ _ (hfingerprint.symm.trans hfingerprint'))

variable (S : Setup δ) (w₀ : World δ) (ls : List Label)

/-- The run takes less than a day. -/
def WithinDay : Prop := ∀ n, (stateAt (step S) w₀ ls n).now < w₀.now + RESULT_TTL

/-- No claim runs out under an execution that is under way, has acted or has answered. -/
def NeverOverrun : Prop := ∀ n l, ls[n]? = some l → NotOverrun (stateAt (step S) w₀ ls n) l

/-- Whatever fails, a result is that of an execution of the same key, and executions of a key
are a minute apart. Within a day, if no claim runs out under its execution, there is one
execution of a key that acts and answers. -/
theorem one_execution_per_key (hS : CollisionFree S) (h0 : w₀.Launched) :
    (∀ n, OwnExecutions S (stateAt (step S) w₀ ls n)) ∧
      (WithinDay S w₀ ls → NeverOverrun S w₀ ls → ∀ n, OneExecution (stateAt (step S) w₀ ls n)) := by
  have hbase : ∀ n, Base S (stateAt (step S) w₀ ls n) ∧ Spaced (stateAt (step S) w₀ ls n) := by
    intro n
    refine stateAt_induct (m := 0) (P := fun w => Base S w ∧ Spaced w) ⟨h0.base, h0.spaced⟩ ?_
      (Nat.zero_le n)
    intro i l _ _ hi
    exact ⟨hi.1.moved hS (step_moved l), hi.2.moved (step_moved (S := S) l)⟩
  refine ⟨fun n => ownExecutions_of_base hS (hbase n).1 (hbase n).2, fun hday hok n => ?_⟩
  have hheld : ∀ n, Held (stateAt (step S) w₀ ls n) ∧ Kept w₀.now (stateAt (step S) w₀ ls n) ∧
      w₀.now ≤ (stateAt (step S) w₀ ls n).now := by
    intro n
    refine stateAt_induct (m := 0)
      (P := fun w => Held w ∧ Kept w₀.now w ∧ w₀.now ≤ w.now) ⟨h0.held, h0.kept, Nat.le_refl _⟩ ?_
      (Nat.zero_le n)
    rintro i l - hl ⟨hi, hkept, hdawn⟩
    have hnext : step S (stateAt (step S) w₀ ls i) l = stateAt (step S) w₀ ls (i + 1) :=
      (stateAt_succ (step S) w₀ hl).symm
    refine ⟨hi.moved (hbase i).1 hkept (hnext ▸ hday (i + 1)) (hok i l hl) (step_moved l),
      hkept.moved hdawn (step_moved (S := S) l), Nat.le_trans hdawn ?_⟩
    exact (step_moved (S := S) l).now_le
  exact oneExecution_of_held hS (hbase n).1 (hheld n).1

end Runs

/-! ## A process that dies -/

section Dies

/-- A deployment whose hash is the text itself. -/
def api : Setup Text := ⟨id, fun _ _ => 201, fun _ _ => by decide⟩

theorem collisionFree_api : CollisionFree api := fun _ _ h => h

def launched : World Text := ⟨0, fun _ => none, [], [], []⟩

theorem launched_launched : launched.Launched := ⟨fun _ => rfl, rfl, rfl, rfl⟩

def createSession : HttpRequest where
  method := .post
  url := ⟨"/v1/payment-sessions".toList, by decide⟩
  header := some "order-1234".toList
  merchant := some (⟨"m1".toList, by decide⟩, .test)
  body := "\x7b\"amount\":\"5\"\x7d".toList
  skipIdempotency := false

/-- The process dies between the side effect and the store, and the client retries a minute
later. -/
def diesAfterEffect : List Label :=
  [.arrive createSession, .redis 0 .ok, .act 0, .crash 0, .elapse 60000,
   .arrive createSession, .redis 0 .ok, .act 0]

theorem death_runs_key_again :
    ¬ OneExecution (stateAt (step api) launched diesAfterEffect diesAfterEffect.length) := by
  intro h
  obtain ⟨x, hx, hacted⟩ : ∃ x, (stateAt (step api) launched diesAfterEffect
      diesAfterEffect.length).execs = [x, { x with startedAt := 60000 }] ∧ x.acted = true :=
    ⟨⟨⟨⟨"m1".toList, by decide⟩, .test, "order-1234".toList, .post,
      ⟨"/v1/payment-sessions".toList, by decide⟩, createSession.body⟩, 0, true, none⟩,
      by decide +kernel, rfl⟩
  have hsame := h.acts 0 1 x { x with startedAt := 60000 } (by rw [hx]; rfl) (by rw [hx]; rfl)
    ⟨rfl, rfl, rfl⟩ hacted hacted
  cases hsame

/-- The process dies before the side effect; a minute later two requests come at once. -/
def diesBeforeEffect : List Label :=
  [.arrive createSession, .redis 0 .ok, .crash 0, .elapse 60000, .arrive createSession,
   .arrive createSession, .redis 0 .ok, .redis 0 .ok, .act 0, .finish 0 (.value "{}".toList),
   .redis 1 .ok, .redis 0 .ok, .arrive createSession, .redis 0 .ok, .redis 0 .ok]

theorem one_execution_per_key_diesBeforeEffect :
    OneExecution (stateAt (step api) launched diesBeforeEffect diesBeforeEffect.length) := by
  have hnow : ∀ n ≤ diesBeforeEffect.length,
      (stateAt (step api) launched diesBeforeEffect n).now < RESULT_TTL := by decide +kernel
  have hall : ∀ n, (h : n < diesBeforeEffect.length) →
      NotOverrun (stateAt (step api) launched diesBeforeEffect n) diesBeforeEffect[n] := by
    decide +kernel
  refine (one_execution_per_key api launched diesBeforeEffect collisionFree_api
    launched_launched).2 (fun n => ?_) (fun n l hl => ?_) diesBeforeEffect.length
  · rw [stateAt_min]
    exact Nat.lt_of_lt_of_le (hnow _ (Nat.min_le_right _ _)) (Nat.le_add_left _ _)
  · obtain ⟨hn, rfl⟩ := List.getElem?_eq_some_iff.mp hl
    exact hall n hn

end Dies

end Strimz.Idempotency
