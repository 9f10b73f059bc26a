import Strimz.IdempotencySteps

/-!
# Every run of the interceptor

`Moved` says once what a step can do. In every run, whatever dies or expires, `Base` holds and
two executions of one key start at least a minute apart (`Spaced`): a claim is only made when the
key has no live record, and every claim stays for a minute.
-/

namespace Strimz.Idempotency

open Runs InFlight

/-- The hash tells the texts of two requests apart. -/
def CollisionFree {δ : Type} (S : Setup δ) : Prop :=
  ∀ r r', fingerprintOf S r = fingerprintOf S r' → fingerprintText r = fingerprintText r'

section Steps

variable {δ : Type} [DecidableEq δ] {S : Setup δ} {w : World δ}

/-- What a step can do. -/
inductive Moved (S : Setup δ) (w : World δ) : Label → World δ → Prop where
  | same {l : Label} (hl : ∀ d, l ≠ .elapse d) : Moved S w l w
  | arrived {l : Label} (req : Keyed) : Moved S w l (w.enter req .claiming)
  | left {l : Label} (k : Nat) : Moved S w l (w.leave k)
  | turned {l : Label} (k : Nat) (req : Keyed) (stage : Stage)
      (hidle : Call.exec? ⟨req, stage⟩ = none) : Moved S w l ((w.leave k).enter req stage)
  | claimed {l : Label} (k : Nat) (req : Keyed) (hfree : w.live (redisKey req) = none) :
      Moved S w l (((w.leave k).claim S req).enter req (.running w.execs.length))
  | claimLost {l : Label} (k : Nat) (req : Keyed) (hfree : w.live (redisKey req) = none) :
      Moved S w l (((w.leave k).claim S req).answer req .serviceUnavailable)
  | refused {l : Label} (k : Nat) (req : Keyed) (response : Response)
      (hresponse : ∀ e status body, response ≠ .result e status body) :
      Moved S w l ((w.leave k).answer req response)
  | replayed {l : Label} (k : Nat) (req : Keyed) (r : Record δ) (result : Nat × Json)
      (hlive : w.live (redisKey req) = some r) (hfingerprint : r.fingerprint = fingerprintOf S req)
      (hdone : r.done = some result) :
      Moved S w l ((w.leave k).answer req (replayOf S req r.exec result.1 result.2))
  | stored {l : Label} (k : Nat) (req : Keyed) (exec : Nat) (outcome : Outcome)
      (hcall : w.calls[k]? = some ⟨req, .storing exec outcome⟩) :
      Moved S w l (((w.leave k).store S req exec outcome).answer req
        (.result exec (resultOf S req outcome).1 (resultOf S req outcome).2))
  | unstored {l : Label} (k : Nat) (req : Keyed) (exec : Nat) (outcome : Outcome)
      (hcall : w.calls[k]? = some ⟨req, .storing exec outcome⟩) :
      Moved S w l ((w.leave k).answer req
        (.result exec (resultOf S req outcome).1 (resultOf S req outcome).2))
  | acted {l : Label} (k : Nat) (req : Keyed) (exec : Nat)
      (hcall : w.calls[k]? = some ⟨req, .running exec⟩) :
      Moved S w l (w.updateExec exec fun x => { x with acted := true })
  | finished {l : Label} (k : Nat) (req : Keyed) (exec : Nat) (outcome : Outcome)
      (hcall : w.calls[k]? = some ⟨req, .running exec⟩) :
      Moved S w l (((w.leave k).updateExec exec fun x => { x with outcome := some outcome }).enter
        req (.storing exec outcome))
  | elapsed (d : Nat) : Moved S w (.elapse d) { w with now := w.now + d }

theorem redisStep_moved {k : Nat} {redis : RedisAnswer} :
    Moved S w (.redis k redis) (redisStep S w k redis) := by
  cases hcall : w.calls[k]? with
  | none =>
      have hstep : redisStep S w k redis = w := by rw [redisStep, hcall]
      rw [hstep]
      exact .same fun _ h => nomatch h
  | some c =>
      obtain ⟨req, stage⟩ := c
      cases stage with
      | claiming =>
          cases hlive : w.live (redisKey req) with
          | none =>
              cases redis <;> simp only [redisStep, hcall, hlive]
              · exact .claimed k req hlive
              · exact .refused k req _ fun _ _ _ h => nomatch h
              · exact .claimLost k req hlive
          | some r =>
              cases redis <;> simp only [redisStep, hcall, hlive]
              · exact .turned k req .reading rfl
              · exact .refused k req _ fun _ _ _ h => nomatch h
              · exact .refused k req _ fun _ _ _ h => nomatch h
      | reading =>
          cases redis <;> simp only [redisStep, hcall]
          · cases hlive : w.live (redisKey req) with
            | none => exact .turned k req .claiming rfl
            | some r =>
                rw [readRecord]
                split
                · exact .refused k req _ fun _ _ _ h => nomatch h
                · rename_i hfingerprint
                  cases hdone : r.done with
                  | none => exact .refused k req _ fun _ _ _ h => nomatch h
                  | some result =>
                      exact .replayed k req r result hlive (not_not.mp hfingerprint) hdone
          · exact .refused k req _ fun _ _ _ h => nomatch h
          · exact .refused k req _ fun _ _ _ h => nomatch h
      | running exec =>
          simp only [redisStep, hcall]
          exact .same fun _ h => nomatch h
      | storing exec outcome =>
          cases redis <;> simp only [redisStep, hcall]
          · exact .stored k req exec outcome hcall
          · exact .unstored k req exec outcome hcall
          · exact .stored k req exec outcome hcall

theorem step_moved (l : Label) : Moved S w l (step S w l) := by
  cases l with
  | arrive r =>
      show Moved S w _ (arrive w r)
      unfold arrive
      split
      · exact .arrived _
      · exact .same fun _ h => nomatch h
      · exact .same fun _ h => nomatch h
  | redis k answer => exact redisStep_moved
  | act k =>
      show Moved S w _ (act w k)
      unfold act
      split
      · rename_i req exec hcall
        exact .acted k req exec hcall
      · exact .same fun _ h => nomatch h
  | finish k outcome =>
      show Moved S w _ (finish w k outcome)
      unfold finish
      split
      · rename_i req exec hcall
        exact .finished k req exec outcome hcall
      · exact .same fun _ h => nomatch h
  | crash k => exact .left k
  | elapse d => exact .elapsed d

end Steps

/-! ## The invariant of every run -/

section Invariant

variable {δ : Type} {S : Setup δ} {w w' : World δ} {l : Label}

/-- A replay of a result is that result. -/
theorem replayOf_eq (hS : CollisionFree S) {req req' : Keyed} {exec : Nat} {o : Outcome}
    (h : fingerprintOf S req' = fingerprintOf S req) :
    replayOf S req exec (resultOf S req' o).1 (resultOf S req' o).2 =
      .result exec (resultOf S req' o).1 (resultOf S req' o).2 := by
  obtain ⟨hmethod, hurl, -⟩ := fingerprintText_inj (hS _ _ h)
  unfold replayOf
  cases o with
  | value body =>
      show (if S.successStatus req'.method req'.url < 400 then _ else _) = _
      rw [if_pos (S.success _ _)]
      show Response.result exec (S.successStatus req.method req.url) body =
        .result exec (S.successStatus req'.method req'.url) body
      rw [hmethod, hurl]
  | threw err =>
      have herror : ¬ (errorRecord err).1 < 400 := by
        cases err with
        | http e => exact Nat.not_lt.mpr e.isError
        | other => decide
      exact if_neg herror

theorem free_of_leave (h : Base S w) {k : Nat} {c : Call} {exec : Nat}
    (hcall : w.calls[k]? = some c) (hexec : c.exec? = some exec) :
    (w.leave k).calls.countP (·.exec? = some exec) = 0 := by
  have hcount := countP_erase hcall (·.exec? = some exec)
  have hsingle := h.single exec
  simp only [hexec, decide_true, if_true] at hcount
  show (w.calls.eraseIdx k).countP _ = 0
  omega

theorem Base.moved (hS : CollisionFree S) (h : Base S w) (hw : Moved S w l w') : Base S w' := by
  cases hw with
  | same _ => exact h
  | arrived req => exact h.enter rfl
  | left k => exact h.leave k
  | turned k req stage hidle => exact (h.leave k).enter hidle
  | claimed k req _ =>
      have hx : ((w.leave k).claim S req).execs[w.execs.length]? =
          some ⟨req, w.now, false, none⟩ := List.getElem?_concat_length
      refine ((h.leave k).claim req).enterExec rfl hx rfl rfl ?_
      refine List.countP_eq_zero.mpr fun c hc hexec => ?_
      obtain ⟨x, hx, -⟩ := (h.leave k).call c hc _ (of_decide_eq_true hexec)
      obtain ⟨hlt, -⟩ := List.getElem?_eq_some_iff.mp hx
      exact Nat.lt_irrefl _ hlt
  | claimLost k req _ => exact ((h.leave k).claim req).answer fun _ _ _ h => nomatch h
  | refused k req response hresponse =>
      exact (h.leave k).answer fun e status body heq => absurd heq (hresponse e status body)
  | replayed k req r result hlive hfingerprint hdone =>
      obtain ⟨expiresAt, hr, -⟩ := World.live_eq_some.mp hlive
      obtain ⟨x, o, hx, hkey, hsame, ho, rfl⟩ := h.done _ r expiresAt _ hr hdone
      refine (h.leave k).answer fun e status body hresponse => ?_
      rw [replayOf_eq hS (hsame.trans hfingerprint)] at hresponse
      obtain ⟨rfl, rfl, rfl⟩ := by simpa using hresponse
      exact ⟨x, o, hx, hkey, hsame.trans hfingerprint, ho, rfl⟩
  | stored k req exec outcome hcall =>
      have hresult := h.resultOf_storing hcall
      refine ((h.leave k).store hresult).answer fun e status body hresponse => ?_
      obtain ⟨rfl, rfl, rfl⟩ := by simpa using hresponse
      exact hresult
  | unstored k req exec outcome hcall =>
      refine (h.leave k).answer fun e status body hresponse => ?_
      obtain ⟨rfl, rfl, rfl⟩ := by simpa using hresponse
      exact h.resultOf_storing hcall
  | acted k req exec hcall =>
      exact h.updateExec (evolves_updateExec (fun _ => rfl) (fun _ => rfl) fun _ _ _ => rfl)
        fun _ _ _ _ => rfl
  | finished k req exec outcome hcall =>
      obtain ⟨x, hx, hreq, houtcome⟩ := h.call _ (List.mem_of_getElem? hcall) exec rfl
      have hfree := free_of_leave h hcall rfl
      have hw : Evolves (w.leave k) ((w.leave k).updateExec exec fun x =>
          { x with outcome := some outcome }) :=
        evolves_updateExec (fun _ => rfl) (fun _ => rfl) fun y hy hsome => by
          obtain rfl : y = x := Option.some.inj (hy.symm.trans hx)
          exact absurd houtcome hsome
      have hnew : ((w.leave k).updateExec exec fun x =>
          { x with outcome := some outcome }).execs[exec]? =
            some { x with outcome := some outcome } := by
        show (w.execs.modify exec _)[exec]? = _
        rw [List.getElem?_modify_eq, hx]
        rfl
      refine ((h.leave k).updateExec hw fun c hc hexec => ?_).enterExec rfl hnew hreq rfl hfree
      exact absurd (decide_eq_true hexec) (List.countP_eq_zero.mp hfree c hc)
  | elapsed d => exact ⟨h.record, h.done, h.call, h.single, h.answered⟩

theorem Moved.now_le (hw : Moved S w l w') : w.now ≤ w'.now := by
  cases hw with
  | elapsed d => exact Nat.le_add_right _ _
  | _ => exact Nat.le_refl _

/-! ## Claims of one key -/

/-- Executions of a key are a minute apart: until then the record of the earlier one is live. -/
structure Spaced (w : World δ) : Prop where
  kept : ∀ (e : Nat) (x : Execution), w.execs[e]? = some x → x.startedAt ≤ w.now ∧
    ∃ r expiresAt, w.redis (redisKey x.req) = some (r, expiresAt) ∧
      x.startedAt + IN_PROGRESS_TTL ≤ expiresAt
  apart : ∀ (e e' : Nat) (x x' : Execution), e < e' → w.execs[e]? = some x → w.execs[e']? = some x' →
    redisKey x.req = redisKey x'.req → x.startedAt + IN_PROGRESS_TTL ≤ x'.startedAt

/-- A step that makes no claim and takes no record away. -/
theorem Spaced.keep (h : Spaced w) (hnow : w.now ≤ w'.now)
    (hexecs : ∀ (e : Nat) (x' : Execution), w'.execs[e]? = some x' →
      ∃ x : Execution, w.execs[e]? = some x ∧ x'.req = x.req ∧ x'.startedAt = x.startedAt)
    (hredis : ∀ key r expiresAt, w.redis key = some (r, expiresAt) →
      w'.redis key = some (r, expiresAt) ∨ ∃ r', w'.redis key = some (r', w.now + RESULT_TTL)) :
    Spaced w' where
  kept := by
    intro e x' hx'
    obtain ⟨x, hx, hreq, hstarted⟩ := hexecs e x' hx'
    obtain ⟨hle, r, expiresAt, hr, hexpires⟩ := h.kept e x hx
    rw [hreq, hstarted]
    refine ⟨Nat.le_trans hle hnow, ?_⟩
    rcases hredis _ r expiresAt hr with hr' | ⟨r', hr'⟩
    · exact ⟨r, expiresAt, hr', hexpires⟩
    · exact ⟨r', _, hr', Nat.add_le_add hle (by decide)⟩
  apart := by
    intro e e' x₁ x₁' hlt hx₁ hx₁' hkey
    obtain ⟨x, hx, hreq, hstarted⟩ := hexecs e x₁ hx₁
    obtain ⟨x', hx', hreq', hstarted'⟩ := hexecs e' x₁' hx₁'
    rw [hreq, hreq'] at hkey
    rw [hstarted, hstarted']
    exact h.apart e e' x x' hlt hx hx' hkey

theorem Spaced.claim (h : Spaced w) {req : Keyed} (hfree : w.live (redisKey req) = none) :
    Spaced (w.claim S req) := by
  -- what an earlier execution of the key left has expired
  have hold : ∀ (e : Nat) (x : Execution), w.execs[e]? = some x → redisKey x.req = redisKey req →
      x.startedAt + IN_PROGRESS_TTL ≤ w.now := by
    intro e x hx hkey
    obtain ⟨-, r, expiresAt, hr, hexpires⟩ := h.kept e x hx
    rw [hkey] at hr
    refine Nat.le_of_not_lt fun hlt => ?_
    rw [World.live_eq_some.mpr ⟨expiresAt, hr, by omega⟩] at hfree
    cases hfree
  have hexecs : (w.claim S req).execs = w.execs ++ [⟨req, w.now, false, none⟩] := rfl
  have hredis : (w.claim S req).redis = Function.update w.redis (redisKey req)
      (some (⟨fingerprintOf S req, none, w.execs.length⟩, w.now + IN_PROGRESS_TTL)) := rfl
  constructor
  · intro e x hx
    show x.startedAt ≤ w.now ∧ _
    rw [hredis]
    by_cases hkey : redisKey x.req = redisKey req
    · rw [hkey, Function.update_self]
      rcases getElem?_concat_cases (hexecs ▸ hx) with hx | ⟨-, rfl⟩
      · exact ⟨(h.kept e x hx).1, _, _, rfl, Nat.add_le_add_right (h.kept e x hx).1 _⟩
      · exact ⟨Nat.le_refl _, _, _, rfl, Nat.le_refl _⟩
    · rw [Function.update_of_ne hkey]
      rcases getElem?_concat_cases (hexecs ▸ hx) with hx | ⟨-, rfl⟩
      · exact h.kept e x hx
      · exact absurd rfl hkey
  · intro e e' x x' hlt hx hx' hkey
    rcases getElem?_concat_cases (hexecs ▸ hx) with hx | ⟨he, rfl⟩
    · rcases getElem?_concat_cases (hexecs ▸ hx') with hx' | ⟨-, rfl⟩
      · exact h.apart e e' x x' hlt hx hx' hkey
      · exact hold e x hx hkey
    · obtain ⟨hlen, -⟩ := List.getElem?_eq_some_iff.mp hx'
      rw [hexecs, List.length_append, List.length_singleton] at hlen
      omega

/-- The same history and the same store. -/
theorem Spaced.same (h : Spaced w) (hnow : w'.now = w.now) (hexecs : w'.execs = w.execs)
    (hredis : w'.redis = w.redis) : Spaced w' :=
  h.keep (Nat.le_of_eq hnow.symm) (fun _ x' hx' => ⟨x', hexecs ▸ hx', rfl, rfl⟩)
    fun _ _ _ hr => .inl (hredis ▸ hr)

theorem Spaced.updateExec (h : Spaced w) {exec : Nat} {f : Execution → Execution}
    (hreq : ∀ x, (f x).req = x.req) (hstarted : ∀ x, (f x).startedAt = x.startedAt) :
    Spaced (w.updateExec exec f) := by
  refine h.keep (Nat.le_refl _) (fun e x' hx' => ?_) fun key r expiresAt hr => .inl hr
  change (w.execs.modify exec f)[e]? = _ at hx'
  by_cases he : exec = e
  · subst he
    rw [List.getElem?_modify_eq] at hx'
    obtain ⟨x, hx, rfl⟩ := Option.map_eq_some_iff.mp hx'
    exact ⟨x, hx, hreq x, hstarted x⟩
  · rw [List.getElem?_modify_ne _ _ he] at hx'
    exact ⟨x', hx', rfl, rfl⟩

theorem Spaced.moved (h : Spaced w) (hw : Moved S w l w') : Spaced w' := by
  cases hw with
  | claimed k req hfree => exact (Spaced.claim (w := w) h hfree).same rfl rfl rfl
  | claimLost k req hfree => exact (Spaced.claim (w := w) h hfree).same rfl rfl rfl
  | stored k req exec outcome hcall =>
      refine h.keep (Nat.le_refl _) (fun e x' hx' => ⟨x', hx', rfl, rfl⟩)
        fun key r expiresAt hr => ?_
      show Function.update w.redis _ _ key = _ ∨ ∃ r', Function.update w.redis _ _ key = _
      by_cases hkey : key = redisKey req
      · rw [hkey, Function.update_self]
        exact .inr ⟨_, rfl⟩
      · rw [Function.update_of_ne hkey]
        exact .inl hr
  | acted k req exec hcall => exact h.updateExec (fun _ => rfl) fun _ => rfl
  | finished k req exec outcome hcall =>
      have hset : Spaced (w.updateExec exec fun x => { x with outcome := some outcome }) :=
        h.updateExec (fun _ => rfl) fun _ => rfl
      exact hset.same rfl rfl rfl
  | elapsed d =>
      exact h.keep (Nat.le_add_right _ _) (fun e x' hx' => ⟨x', hx', rfl, rfl⟩)
        fun key r expiresAt hr => .inl hr
  | _ => exact h.same rfl rfl rfl

end Invariant

end Strimz.Idempotency
