import Strimz.Idempotency
import Strimz.InFlight

/-!
# What the interceptor's steps keep

`Base` holds in every run: a record names an execution of its own key, an execution under way is
the one its request made, and a result that went out is the outcome of an execution of the same
key and fingerprint. Everything that fails when a claim runs out early is in `Held`: an execution
that is under way, has acted or has answered is the one the key's live record names.
-/

namespace Strimz.Idempotency

open Runs InFlight

section Steps

variable {δ : Type} {S : Setup δ} {w w' : World δ} {key : Text} {r : Record δ}

/-- The execution a request has under way. -/
def Call.exec? (c : Call) : Option Nat :=
  match c.stage with
  | .running exec => some exec
  | .storing exec _ => some exec
  | .claiming | .reading => none

/-- What its handler has come to. -/
def Call.outcome? (c : Call) : Option Outcome :=
  match c.stage with
  | .storing _ outcome => some outcome
  | .claiming | .reading | .running _ => none

/-! ## The store -/

theorem World.live_eq_some : w.live key = some r ↔
    ∃ expiresAt, w.redis key = some (r, expiresAt) ∧ w.now < expiresAt := by
  unfold World.live
  cases h : w.redis key with
  | none => simp
  | some p =>
      obtain ⟨r', expiresAt⟩ := p
      by_cases hlive : w.now < expiresAt
      · simp [hlive]
      · simp [hlive]

@[simp] theorem World.put_redis (ttl : Nat) :
    (w.put key r ttl).redis = Function.update w.redis key (some (r, w.now + ttl)) := rfl

theorem World.live_put_self {ttl : Nat} (httl : 0 < ttl) : (w.put key r ttl).live key = some r := by
  refine World.live_eq_some.mpr ⟨w.now + ttl, ?_, Nat.lt_add_of_pos_right httl⟩
  rw [World.put_redis, Function.update_self]

theorem World.live_put_of_ne {ttl : Nat} {other : Text} (h : other ≠ key) :
    (w.put key r ttl).live other = w.live other := by
  unfold World.live
  rw [World.put_redis, Function.update_of_ne h]
  rfl

/-! ## Executions -/

/-- Executions stay what they are, and their outcome once they have one. -/
def Evolves (w w' : World δ) : Prop :=
  ∀ (e : Nat) (x : Execution), w.execs[e]? = some x →
    ∃ x' : Execution, w'.execs[e]? = some x' ∧ x'.req = x.req ∧ x'.startedAt = x.startedAt ∧
      (x.outcome ≠ none → x'.outcome = x.outcome)

theorem evolves_of_execs (h : w'.execs = w.execs) : Evolves w w' := fun _ x hx =>
  ⟨x, h ▸ hx, rfl, rfl, fun _ => rfl⟩

theorem evolves_claim (req : Keyed) : Evolves w (w.claim S req) := by
  intro e x hx
  obtain ⟨he, -⟩ := List.getElem?_eq_some_iff.mp hx
  refine ⟨x, ?_, rfl, rfl, fun _ => rfl⟩
  show (w.execs ++ _)[e]? = _
  rw [List.getElem?_append_left he, hx]

theorem evolves_updateExec {exec : Nat} {f : Execution → Execution} (hreq : ∀ x, (f x).req = x.req)
    (hstarted : ∀ x, (f x).startedAt = x.startedAt)
    (houtcome : ∀ x, w.execs[exec]? = some x → x.outcome ≠ none → (f x).outcome = x.outcome) :
    Evolves w (w.updateExec exec f) := by
  intro e x hx
  by_cases he : exec = e
  · subst he
    refine ⟨f x, ?_, hreq x, hstarted x, houtcome x hx⟩
    show (w.execs.modify exec f)[exec]? = _
    rw [List.getElem?_modify_eq, hx]
    rfl
  · refine ⟨x, ?_, rfl, rfl, fun _ => rfl⟩
    show (w.execs.modify exec f)[e]? = _
    rw [List.getElem?_modify_ne _ _ he, hx]

/-! ## In every run -/

/-- This result is the outcome of this execution, which has this key and fingerprint. -/
def ResultOf (S : Setup δ) (w : World δ) (exec : Nat) (key : Text) (fingerprint : δ)
    (result : Nat × Json) : Prop :=
  ∃ (x : Execution) (o : Outcome), w.execs[exec]? = some x ∧ redisKey x.req = key ∧
    fingerprintOf S x.req = fingerprint ∧ x.outcome = some o ∧ result = resultOf S x.req o

theorem ResultOf.mono {exec : Nat} {fingerprint : δ} {result : Nat × Json} (hw : Evolves w w')
    (h : ResultOf S w exec key fingerprint result) : ResultOf S w' exec key fingerprint result := by
  obtain ⟨x, o, hx, hkey, hfingerprint, ho, hresult⟩ := h
  obtain ⟨x', hx', hreq, -, houtcome⟩ := hw exec x hx
  exact ⟨x', o, hx', hreq ▸ hkey, hreq ▸ hfingerprint,
    (houtcome (by rw [ho]; exact Option.some_ne_none o)).trans ho, hreq ▸ hresult⟩

structure Base (S : Setup δ) (w : World δ) : Prop where
  record : ∀ key r expiresAt, w.redis key = some (r, expiresAt) →
    ∃ x : Execution, w.execs[r.exec]? = some x ∧ redisKey x.req = key ∧
      fingerprintOf S x.req = r.fingerprint
  done : ∀ key r expiresAt result, w.redis key = some (r, expiresAt) → r.done = some result →
    ResultOf S w r.exec key r.fingerprint result
  call : ∀ c ∈ w.calls, ∀ e, c.exec? = some e →
    ∃ x : Execution, w.execs[e]? = some x ∧ x.req = c.req ∧ x.outcome = c.outcome?
  single : ∀ e, w.calls.countP (·.exec? = some e) ≤ 1
  answered : ∀ a ∈ w.answers, ∀ e status body, a.response = .result e status body →
    ResultOf S w e (redisKey a.req) (fingerprintOf S a.req) (status, body)

theorem Base.leave (h : Base S w) (k : Nat) : Base S (w.leave k) where
  record := h.record
  done := h.done
  call := fun c hc => h.call c (List.mem_of_mem_eraseIdx hc)
  single := fun e => Nat.le_trans (countP_erase_le _) (h.single e)
  answered := h.answered

/-- A request that is not under way goes on. -/
theorem Base.enter (h : Base S w) {req : Keyed} {stage : Stage}
    (hidle : Call.exec? ⟨req, stage⟩ = none) : Base S (w.enter req stage) where
  record := h.record
  done := h.done
  call := by
    intro c hc e he
    rcases List.mem_append.mp hc with hc | hc
    · exact h.call c hc e he
    · rw [List.mem_singleton.mp hc, hidle] at he
      cases he
  single := by
    intro e
    show (w.calls ++ _).countP _ ≤ 1
    rw [List.countP_append]
    simpa [hidle] using h.single e
  answered := h.answered

/-- A request whose execution no other request has under way goes on with it. -/
theorem Base.enterExec (h : Base S w) {req : Keyed} {stage : Stage} {exec : Nat} {x : Execution}
    (hexec : Call.exec? ⟨req, stage⟩ = some exec) (hx : w.execs[exec]? = some x)
    (hreq : x.req = req) (houtcome : x.outcome = Call.outcome? ⟨req, stage⟩)
    (hfree : w.calls.countP (·.exec? = some exec) = 0) : Base S (w.enter req stage) where
  record := h.record
  done := h.done
  call := by
    intro c hc e he
    rcases List.mem_append.mp hc with hc | hc
    · exact h.call c hc e he
    · rw [List.mem_singleton.mp hc] at he ⊢
      obtain rfl : exec = e := Option.some.inj (hexec.symm.trans he)
      exact ⟨x, hx, hreq, houtcome⟩
  single := by
    intro e
    show (w.calls ++ _).countP _ ≤ 1
    rw [List.countP_append]
    by_cases he : exec = e
    · subst he
      rw [hfree]
      exact Nat.le_trans (Nat.zero_add _ ▸ List.countP_le_length) (Nat.le_refl 1)
    · have hother : ¬ Call.exec? ⟨req, stage⟩ = some e := fun heq =>
        he (Option.some.inj (hexec.symm.trans heq))
      simpa [hother] using h.single e
  answered := h.answered

theorem Base.answer (h : Base S w) {req : Keyed} {response : Response}
    (hresult : ∀ e status body, response = .result e status body →
      ResultOf S w e (redisKey req) (fingerprintOf S req) (status, body)) :
    Base S (w.answer req response) where
  record := h.record
  done := h.done
  call := h.call
  single := h.single
  answered := by
    intro a ha e status body hresponse
    rcases List.mem_append.mp ha with ha | ha
    · exact h.answered a ha e status body hresponse
    · rw [List.mem_singleton.mp ha] at hresponse ⊢
      exact hresult e status body hresponse

theorem Base.claim (h : Base S w) (req : Keyed) : Base S (w.claim S req) where
  record := by
    intro key r expiresAt hr
    change Function.update w.redis _ _ key = _ at hr
    by_cases hkey : key = redisKey req
    · rw [hkey, Function.update_self] at hr
      obtain ⟨rfl, -⟩ := Prod.mk.inj (Option.some.inj hr)
      exact ⟨⟨req, w.now, false, none⟩, List.getElem?_concat_length, hkey.symm, rfl⟩
    · rw [Function.update_of_ne hkey] at hr
      obtain ⟨x, hx, hxkey, hfingerprint⟩ := h.record key r expiresAt hr
      obtain ⟨x', hx', hreq, -⟩ := evolves_claim (S := S) req _ x hx
      exact ⟨x', hx', hreq ▸ hxkey, hreq ▸ hfingerprint⟩
  done := by
    intro key r expiresAt result hr hdone
    change Function.update w.redis _ _ key = _ at hr
    by_cases hkey : key = redisKey req
    · rw [hkey, Function.update_self] at hr
      obtain ⟨rfl, -⟩ := Prod.mk.inj (Option.some.inj hr)
      cases hdone
    · rw [Function.update_of_ne hkey] at hr
      exact (h.done key r expiresAt result hr hdone).mono (evolves_claim req)
  call := by
    intro c hc e he
    obtain ⟨x, hx, hreq, houtcome⟩ := h.call c hc e he
    obtain ⟨hlt, -⟩ := List.getElem?_eq_some_iff.mp hx
    refine ⟨x, ?_, hreq, houtcome⟩
    show (w.execs ++ _)[e]? = _
    rw [List.getElem?_append_left hlt, hx]
  single := h.single
  answered := fun a ha e status body hresponse =>
    (h.answered a ha e status body hresponse).mono (evolves_claim req)

theorem Base.store (h : Base S w) {req : Keyed} {exec : Nat} {outcome : Outcome}
    (hresult : ResultOf S w exec (redisKey req) (fingerprintOf S req) (resultOf S req outcome)) :
    Base S (w.store S req exec outcome) where
  record := by
    intro key r expiresAt hr
    change Function.update w.redis _ _ key = _ at hr
    by_cases hkey : key = redisKey req
    · rw [hkey, Function.update_self] at hr
      obtain ⟨rfl, -⟩ := Prod.mk.inj (Option.some.inj hr)
      obtain ⟨x, o, hx, hxkey, hfingerprint, -⟩ := hresult
      exact ⟨x, hx, hxkey.trans hkey.symm, hfingerprint⟩
    · rw [Function.update_of_ne hkey] at hr
      exact h.record key r expiresAt hr
  done := by
    intro key r expiresAt result hr hdone
    change Function.update w.redis _ _ key = _ at hr
    by_cases hkey : key = redisKey req
    · rw [hkey, Function.update_self] at hr
      obtain ⟨rfl, -⟩ := Prod.mk.inj (Option.some.inj hr)
      obtain rfl := Option.some.inj hdone
      exact hkey ▸ hresult
    · rw [Function.update_of_ne hkey] at hr
      exact h.done key r expiresAt result hr hdone
  call := h.call
  single := h.single
  answered := h.answered

/-- An execution moves on: its outcome may be set, while no request has it under way. -/
theorem Base.updateExec (h : Base S w) {exec : Nat} {f : Execution → Execution}
    (hw : Evolves w (w.updateExec exec f))
    (hcall : ∀ c ∈ w.calls, c.exec? = some exec → ∀ x, (f x).outcome = x.outcome) :
    Base S (w.updateExec exec f) where
  record := by
    intro key r expiresAt hr
    obtain ⟨x, hx, hkey, hfingerprint⟩ := h.record key r expiresAt hr
    obtain ⟨x', hx', hreq, -⟩ := hw _ x hx
    exact ⟨x', hx', hreq ▸ hkey, hreq ▸ hfingerprint⟩
  done := fun key r expiresAt result hr hdone => (h.done key r expiresAt result hr hdone).mono hw
  call := by
    intro c hc e he
    obtain ⟨x, hx, hreq, houtcome⟩ := h.call c hc e he
    obtain ⟨x', hx', hreq', -, -⟩ := hw e x hx
    refine ⟨x', hx', hreq'.trans hreq, ?_⟩
    change (w.execs.modify exec f)[e]? = _ at hx'
    by_cases hexec : exec = e
    · subst hexec
      rw [List.getElem?_modify_eq, hx] at hx'
      obtain rfl := Option.some.inj hx'
      rw [← houtcome, hcall c hc he]
    · rw [List.getElem?_modify_ne _ _ hexec, hx] at hx'
      obtain rfl := Option.some.inj hx'
      exact houtcome
  single := h.single
  answered := fun a ha e status body hresponse =>
    (h.answered a ha e status body hresponse).mono hw

theorem Base.resultOf_storing (h : Base S w) {k exec : Nat} {req : Keyed} {outcome : Outcome}
    (hcall : w.calls[k]? = some ⟨req, .storing exec outcome⟩) :
    ResultOf S w exec (redisKey req) (fingerprintOf S req) (resultOf S req outcome) := by
  obtain ⟨x, hx, rfl, houtcome⟩ := h.call _ (List.mem_of_getElem? hcall) exec rfl
  exact ⟨x, outcome, hx, rfl, rfl, houtcome, rfl⟩

end Steps

end Strimz.Idempotency
