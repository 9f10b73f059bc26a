import Strimz.FixedWindow

/-!
# The rate limiter

`RateLimitInterceptor` of the API: one process keeps a `Map` of buckets by route and subject,
swept by a timer and, past a size, on the way. Times are `Date.now()` in milliseconds.
-/

namespace Strimz.RateLimit

open FixedWindow Runs

inductive KeyBy where
  | ip
  | actor
deriving Repr, DecidableEq

structure RateLimitOptions where
  max : Nat
  windowMs : Nat
  keyBy : KeyBy
  label : Option String
deriving Repr, DecidableEq

/-- What the interceptor reads of a request. -/
structure Request where
  method : String
  routeUrl : Option String
  url : String
  merchantId : Option String
  adminId : Option String
  ip : Option String
deriving Repr, DecidableEq

/-- The entries of a `Map`, in insertion order. -/
abbrev Buckets := List (String × Bucket)

def SIZE_CEILING : Nat := 10000

/-- `Map.set` -/
def put (key : String) (b : Bucket) : Buckets → Buckets
  | [] => [(key, b)]
  | e :: buckets => if e.1 = key then (key, b) :: buckets else e :: put key b buckets

def sweep (now : Nat) (buckets : Buckets) : Buckets := buckets.filter fun e => now < e.2.resetAt

def Request.routeKey (req : Request) : String := req.method ++ ":" ++ req.routeUrl.getD req.url

def Request.subjectKey (req : Request) (keyBy : KeyBy) : String :=
  let ip := "ip:" ++ req.ip.getD "unknown"
  match keyBy, req.merchantId.filter (· ≠ ""), req.adminId.filter (· ≠ "") with
  | .ip, _, _ => ip
  | .actor, some merchantId, _ => "m:" ++ merchantId
  | .actor, none, some adminId => "a:" ++ adminId
  | .actor, none, none => ip

def Request.bucketKey (req : Request) (opts : RateLimitOptions) : String :=
  req.routeKey ++ ":" ++ req.subjectKey opts.keyBy

inductive Outcome where
  | handled
  | limited (message : String) (retryAfterSec : Nat)
deriving Repr, DecidableEq

/-- A new bucket; a large map is swept first. -/
def start (key : String) (opts : RateLimitOptions) (now : Nat) (buckets : Buckets) : Buckets :=
  put key ⟨1, now + opts.windowMs⟩
    (if SIZE_CEILING ≤ buckets.length then sweep now buckets else buckets)

def intercept (opts : Option RateLimitOptions) (req : Request) (now : Nat) (buckets : Buckets) :
    Outcome × Buckets :=
  match opts with
  | none => (.handled, buckets)
  | some opts =>
      match buckets.lookup (req.bucketKey opts) with
      | none => (.handled, start (req.bucketKey opts) opts now buckets)
      | some bucket =>
          if bucket.resetAt ≤ now then (.handled, start (req.bucketKey opts) opts now buckets)
          else if opts.max ≤ bucket.count then
            (.limited ("rate limit exceeded for " ++ opts.label.getD req.routeKey)
              ((bucket.resetAt - now + 999) / 1000), buckets)
          else (.handled, put (req.bucketKey opts) ⟨bucket.count + 1, bucket.resetAt⟩ buckets)

inductive Event where
  | request (opts : Option RateLimitOptions) (req : Request)
  | sweepTimer

structure Label where
  now : Nat
  event : Event

def step (buckets : Buckets) (l : Label) : Buckets :=
  match l.event with
  | .request opts req => (intercept opts req l.now buckets).2
  | .sweepTimer => sweep l.now buckets

/-- What a request is told. -/
def outcome (buckets : Buckets) (l : Label) : Option Outcome :=
  match l.event with
  | .request opts req => some (intercept opts req l.now buckets).1
  | .sweepTimer => none

/-- The bucket a request counts in. -/
def Label.on (l : Label) : Option (String × RateLimitOptions) :=
  match l.event with
  | .request (some opts) req => some (req.bucketKey opts, opts)
  | _ => none

/-! ## The map -/

section Map

variable {buckets : Buckets} {key other : String} {b : Bucket} {now : Nat}

theorem lookup_put : (put key b buckets).lookup other =
    if other = key then some b else buckets.lookup other := by
  induction buckets with
  | nil => by_cases h : other = key <;> simp [put, List.lookup_cons, h, beq_false_of_ne]
  | cons e buckets ih =>
      obtain ⟨k, c⟩ := e
      by_cases hk : k = key
      · subst hk
        by_cases h : other = k <;> simp [put, List.lookup_cons, h, beq_false_of_ne]
      · rw [put, if_neg hk, List.lookup_cons, ih, List.lookup_cons]
        by_cases h : other = k
        · subst h
          simp [hk]
        · simp [beq_false_of_ne h]

theorem keys_put (key : String) (b : Bucket) (buckets : Buckets) :
    (put key b buckets).map Prod.fst =
      if key ∈ buckets.map Prod.fst then buckets.map Prod.fst
      else buckets.map Prod.fst ++ [key] := by
  induction buckets with
  | nil => rfl
  | cons e buckets ih =>
      rw [put]
      by_cases hk : e.1 = key
      · simp [hk]
      · rw [if_neg hk, List.map_cons, ih, List.map_cons]
        have hne : key ≠ e.1 := Ne.symm hk
        by_cases hmem : key ∈ buckets.map Prod.fst
        · rw [if_pos hmem, if_pos (List.mem_cons_of_mem _ hmem)]
        · rw [if_neg hmem, if_neg (by simp only [List.mem_cons, hne, hmem, or_self, not_false_eq_true]),
            List.cons_append]

theorem nodup_put (h : (buckets.map Prod.fst).Nodup) :
    ((put key b buckets).map Prod.fst).Nodup := by
  rw [keys_put]
  split
  · exact h
  · next hmem => exact List.nodup_append.mpr ⟨h, List.nodup_singleton _, fun a ha c hc heq => hmem (by
      rw [← List.mem_singleton.mp hc, ← heq]
      exact ha)⟩

theorem nodup_sweep (h : (buckets.map Prod.fst).Nodup) :
    ((sweep now buckets).map Prod.fst).Nodup :=
  h.sublist (List.filter_sublist.map _)

theorem lookup_eq_none_of_notMem (h : key ∉ buckets.map Prod.fst) : buckets.lookup key = none := by
  rw [List.lookup_eq_none_iff]
  intro e he
  have hne : key ≠ e.1 := fun heq => h (heq.symm ▸ List.mem_map_of_mem (f := Prod.fst) he)
  simp [hne]

theorem lookup_sweep (h : (buckets.map Prod.fst).Nodup) :
    (sweep now buckets).lookup key = live now (buckets.lookup key) := by
  induction buckets with
  | nil => rfl
  | cons e buckets ih =>
      obtain ⟨k, c⟩ := e
      obtain ⟨hnew, hnodup⟩ := List.nodup_cons.mp h
      have htail := ih hnodup
      rw [sweep] at htail ⊢
      by_cases hk : key = k
      · subst hk
        rw [List.lookup_cons_self, live_some, List.filter_cons]
        by_cases hlive : now < c.resetAt
        · simp only [hlive, decide_true, if_true, List.lookup_cons_self]
        · simp only [hlive, decide_false, Bool.false_eq_true, if_false]
          rw [htail, lookup_eq_none_of_notMem hnew]
          rfl
      · rw [List.lookup_cons, beq_false_of_ne hk, List.filter_cons]
        split
        · rw [List.lookup_cons, beq_false_of_ne hk]
          exact htail
        · exact htail

end Map

/-! ## One event -/

section Step

variable {buckets : Buckets} {l : Label} {key : String} {opts : RateLimitOptions}

/-- The keys of the map are distinct. -/
def Keyed (buckets : Buckets) : Prop := (buckets.map Prod.fst).Nodup

theorem lookup_start {now later : Nat} {other : String} (h : Keyed buckets) (hle : now ≤ later) :
    live later ((start key opts now buckets).lookup other) =
      live later (if other = key then some ⟨1, now + opts.windowMs⟩ else buckets.lookup other) := by
  rw [start, lookup_put]
  split
  · rfl
  · split
    · rw [lookup_sweep h, live_live hle]
    · rfl

theorem keyed_start {now : Nat} (h : Keyed buckets) : Keyed (start key opts now buckets) := by
  refine nodup_put ?_
  split
  · exact nodup_sweep h
  · exact h

theorem intercept_keyed (h : Keyed buckets) (opts : Option RateLimitOptions) (req : Request)
    (now : Nat) : Keyed (intercept opts req now buckets).2 := by
  cases opts with
  | none => exact h
  | some opts =>
      rw [intercept.eq_def]
      dsimp only
      cases buckets.lookup (req.bucketKey opts) with
      | none => exact keyed_start h
      | some bucket =>
          dsimp only
          split
          · exact keyed_start h
          · split
            · exact h
            · exact nodup_put h

theorem step_keyed (h : Keyed buckets) (l : Label) : Keyed (step buckets l) := by
  rw [step]
  split
  · exact intercept_keyed h _ _ _
  · exact nodup_sweep h

theorem on_eq_some : l.on = some (key, opts) ↔
    ∃ req, l.event = .request (some opts) req ∧ req.bucketKey opts = key := by
  rw [Label.on]
  split
  · next o req hevent =>
      simp only [Option.some.injEq, Prod.mk.injEq, hevent, Event.request.injEq]
      constructor
      · rintro ⟨hkey, rfl⟩
        exact ⟨req, ⟨rfl, rfl⟩, hkey⟩
      · rintro ⟨req', ⟨rfl, rfl⟩, hkey⟩
        exact ⟨hkey, rfl⟩
  · next hevent =>
      refine iff_of_false (Option.some_ne_none _).symm ?_
      rintro ⟨req, heq, -⟩
      exact hevent opts req heq

/-- A request on a bucket is one request of its counter, and leaves the other buckets alone. -/
theorem intercept_spec (h : Keyed buckets) (req : Request) (now : Nat) :
    ((intercept (some opts) req now buckets).1 = .handled ↔
      (take opts.max opts.windowMs now (buckets.lookup (req.bucketKey opts))).2 = true) ∧
    ∀ other later, now ≤ later →
      live later ((intercept (some opts) req now buckets).2.lookup other) =
        live later (if other = req.bucketKey opts then
          some (take opts.max opts.windowMs now (buckets.lookup (req.bucketKey opts))).1
          else buckets.lookup other) := by
  rw [intercept.eq_def, take]
  dsimp only
  cases hlookup : buckets.lookup (req.bucketKey opts) with
  | none => exact ⟨by simp [live], fun other later hle => lookup_start h hle⟩
  | some bucket =>
      dsimp only
      by_cases hdead : bucket.resetAt ≤ now
      · have hlive : live now (some bucket) = none := by rw [live_some, if_neg (by omega)]
        rw [hlive, if_pos hdead]
        exact ⟨by simp, fun other later hle => lookup_start h hle⟩
      · have hlive : live now (some bucket) = some bucket := by rw [live_some, if_pos (by omega)]
        rw [hlive, if_neg hdead]
        dsimp only
        by_cases hfull : opts.max ≤ bucket.count
        · rw [if_pos hfull, if_pos hfull]
          refine ⟨by simp, fun other later hle => ?_⟩
          split
          · next heq => rw [heq, hlookup]
          · rfl
        · rw [if_neg hfull, if_neg hfull]
          exact ⟨by simp, fun other later hle => by rw [lookup_put]⟩

/-- Everything else leaves a bucket as it is while it is live. -/
theorem step_other (h : Keyed buckets) (hon : ∀ opts, l.on ≠ some (key, opts)) {later : Nat}
    (hle : l.now ≤ later) :
    live later ((step buckets l).lookup key) = live later (buckets.lookup key) := by
  rw [step]
  split
  · next o req hevent =>
      cases o with
      | none => rfl
      | some o =>
          rw [(intercept_spec h req l.now).2 key later hle, if_neg]
          rintro rfl
          exact hon o (on_eq_some.mpr ⟨req, hevent, rfl⟩)
  · rw [lookup_sweep h, live_live hle]

theorem outcome_request {req : Request} (hevent : l.event = .request (some opts) req) :
    outcome buckets l = some (intercept (some opts) req l.now buckets).1 := by
  rw [outcome, hevent]

end Step

/-! ## Runs -/

section Run

variable {buckets : Buckets} {l : Label} {ls : List Label} {key : String} {opts : RateLimitOptions}

/-- When the requests on a bucket come. -/
def requestsOn (key : String) (ls : List Label) : List Nat :=
  ls.filterMap fun l => if l.on.map Prod.fst = some key then some l.now else none

/-- When the requests on a bucket are handled. -/
def handledOn (key : String) (buckets : Buckets) (ls : List Label) : List Nat :=
  collect step (fun buckets l =>
    if l.on.map Prod.fst = some key ∧ outcome buckets l = some .handled then [l.now] else [])
    buckets ls

/-- The requests on one bucket are handled as a counter of their own would have it, whatever the
other requests and the sweeps. -/
theorem handledOn_eq (hopts : ∀ l ∈ ls, ∀ o, l.on = some (key, o) → o = opts) (h : Keyed buckets)
    {t : Nat} {b : Option Bucket} (hb : live t (buckets.lookup key) = live t b)
    (hT : Timed Label.now t ls) :
    handledOn key buckets ls = served opts.max opts.windowMs b (requestsOn key ls) := by
  induction ls generalizing buckets t b with
  | nil => rfl
  | cons l ls ih =>
      obtain ⟨hle, hT⟩ := timed_cons.mp hT
      have htail := fun l' hl' => hopts l' (List.mem_cons_of_mem _ hl')
      have hkeyed := step_keyed h l
      rw [handledOn, collect, requestsOn, List.filterMap_cons]
      cases hon : l.on with
      | none =>
          simp only [Option.map_none, reduceCtorEq, false_and, if_false, List.nil_append]
          refine ih htail hkeyed ?_ hT
          rw [step_other h (by simp [hon]) le_rfl]
          exact live_congr hb hle
      | some p =>
          obtain ⟨k, o⟩ := p
          by_cases hk : k = key
          · subst hk
            obtain rfl : o = opts := hopts l List.mem_cons_self o hon
            obtain ⟨req, hevent, rfl⟩ := on_eq_some.mp hon
            have htake : take o.max o.windowMs l.now (buckets.lookup (req.bucketKey o)) =
                take o.max o.windowMs l.now b := take_live (live_congr hb hle)
            obtain ⟨hhandled, hlookup⟩ := @intercept_spec _ o h req l.now
            rw [htake] at hhandled hlookup
            simp only [Option.map_some, true_and, if_true, outcome_request hevent,
              Option.some.injEq, hhandled]
            rw [served]
            congr 1
            refine ih htail hkeyed ?_ hT
            rw [step, hevent, hlookup _ _ le_rfl, if_pos rfl]
          · simp only [Option.map_some, Option.some.injEq, hk, false_and, if_false,
              List.nil_append]
            refine ih htail hkeyed ?_ hT
            rw [step_other h (by simp [hon, hk]) le_rfl]
            exact live_congr hb hle

theorem keyed_nil : Keyed [] := List.nodup_nil

theorem exec_keyed (h : Keyed buckets) (ls : List Label) : Keyed (exec step buckets ls) :=
  exec_invariant h fun _ l _ h => step_keyed h l

/-- A bucket on which nothing is handled stays as it is while it is live. -/
theorem live_of_handledOn_nil (hopts : ∀ l ∈ ls, ∀ o, l.on = some (key, o) → o = opts)
    (h : Keyed buckets) {t later : Nat} (hT : Timed Label.now t ls)
    (hnone : handledOn key buckets ls = []) (hlater : ∀ l ∈ ls, l.now ≤ later) :
    live later ((exec step buckets ls).lookup key) = live later (buckets.lookup key) := by
  induction ls generalizing buckets t with
  | nil => rfl
  | cons l ls ih =>
      obtain ⟨hle, hT⟩ := timed_cons.mp hT
      have htail := fun l' hl' => hopts l' (List.mem_cons_of_mem _ hl')
      have hl := hlater l List.mem_cons_self
      rw [handledOn, collect, List.append_eq_nil_iff] at hnone
      rw [exec_cons, ih htail (step_keyed h l) hT hnone.2
        fun l' hl' => hlater l' (List.mem_cons_of_mem _ hl')]
      cases hon : l.on with
      | none => exact step_other h (by simp [hon]) hl
      | some p =>
          obtain ⟨k, o⟩ := p
          by_cases hk : k = key
          · subst hk
            obtain ⟨req, hevent, rfl⟩ := on_eq_some.mp hon
            obtain ⟨hhandled, hlookup⟩ := @intercept_spec _ o h req l.now
            have hrefused : ¬ (intercept (some o) req l.now buckets).1 = .handled := by
              intro hhandled
              simp [hon, outcome_request hevent, hhandled] at hnone
            rw [step, hevent, hlookup _ _ hl, if_pos rfl,
              take_refused (mt hhandled.mpr hrefused)]
          · exact step_other h (by simp [hon, hk]) hl

/-- A refusal leaves the map alone and names the end of the window, rounded up. -/
theorem intercept_limited {req : Request} {now sec : Nat} {message : String}
    (h : (intercept (some opts) req now buckets).1 = .limited message sec) :
    ∃ bucket, buckets.lookup (req.bucketKey opts) = some bucket ∧
      bucket.resetAt ≤ now + 1000 * sec ∧ (intercept (some opts) req now buckets).2 = buckets := by
  rw [intercept.eq_def] at h ⊢
  dsimp only at h ⊢
  cases hlookup : buckets.lookup (req.bucketKey opts) with
  | none =>
      rw [hlookup] at h
      cases h
  | some bucket =>
      rw [hlookup] at h
      dsimp only at h ⊢
      split at h
      · cases h
      · next hlive =>
          split at h
          · next hfull =>
              obtain ⟨-, rfl⟩ := Outcome.limited.inj h
              refine ⟨bucket, rfl, by omega, ?_⟩
              rw [if_neg hlive, if_pos hfull]
          · cases h

/-- The limiter over any run of requests and sweeps on a clock that does not run backwards, for
a bucket whose requests carry one set of options: it is a fixed-window counter that no other
request and no sweep disturbs; a stretch of `windowMs` sees at most two windows' worth handled;
and who waits out `retryAfterSec` is handled, unless another request on the bucket was in
between. -/
theorem rate_limit (ls : List Label) (hT : Timed Label.now 0 ls) (key : String)
    (opts : RateLimitOptions) (hopts : ∀ l ∈ ls, ∀ o, l.on = some (key, o) → o = opts) :
    handledOn key [] ls = served opts.max opts.windowMs none (requestsOn key ls) ∧
    (∀ t, within opts.windowMs t (handledOn key [] ls) ≤ 2 * Nat.max 1 opts.max) ∧
    ∀ before l mid l' after message sec, ls = before ++ l :: (mid ++ l' :: after) →
      l.on = some (key, opts) → l'.on = some (key, opts) →
      outcome (exec step [] before) l = some (.limited message sec) →
      handledOn key (exec step [] (before ++ [l])) mid = [] → l.now + 1000 * sec ≤ l'.now →
      outcome (exec step [] (before ++ l :: mid)) l' = some .handled := by
  have hserved := handledOn_eq hopts keyed_nil (b := none) rfl hT
  refine ⟨hserved, fun t => ?_, ?_⟩
  · rw [hserved]
    refine served_window _ _ t (hT.2.filterMap _ fun a b hab u hu v hv => ?_)
    simp only [Option.ite_none_right_eq_some, Option.some.injEq] at hu hv
    rw [← hu.2, ← hv.2]
    exact hab
  · rintro before l mid l' after message sec rfl hon hon' hlimited hnone hwait
    obtain ⟨-, hafter, -⟩ := List.pairwise_append.mp hT.2
    obtain ⟨hl, hrest⟩ := List.pairwise_cons.mp hafter
    obtain ⟨hmid, -, hmid'⟩ := List.pairwise_append.mp hrest
    have hkeyed := exec_keyed keyed_nil before
    obtain ⟨req, hevent, rfl⟩ := on_eq_some.mp hon
    obtain ⟨req', hevent', hkey'⟩ := on_eq_some.mp hon'
    rw [outcome_request hevent, Option.some.injEq] at hlimited
    obtain ⟨bucket, hlookup, hreset, hsame⟩ := intercept_limited hlimited
    have hstep : step (exec step [] before) l = exec step [] before := by
      rw [step, hevent]
      exact hsame
    rw [exec_append, exec_cons, exec_nil, hstep] at hnone
    -- nothing handled in between: the bucket is still the one that refused
    have hlive : live l'.now ((exec step (exec step [] before) mid).lookup (req.bucketKey opts)) =
        live l'.now ((exec step [] before).lookup (req.bucketKey opts)) := live_of_handledOn_nil
      (fun a ha => hopts a (List.mem_append_right _ (List.mem_cons_of_mem _
        (List.mem_append_left _ ha)))) hkeyed
      ⟨fun a ha => hl a (List.mem_append_left _ ha), hmid⟩ hnone
      fun a ha => hmid' a ha l' List.mem_cons_self
    rw [hlookup, live_some, if_neg (by omega)] at hlive
    rw [exec_append, exec_cons, hstep, outcome_request hevent', Option.some.injEq,
      (intercept_spec (exec_keyed hkeyed mid) req' l'.now).1, hkey', take, hlive]

end Run

def sampleOptions : RateLimitOptions := ⟨1, 60000, .actor, some "relay.payments"⟩

def sampleRequest : Request := ⟨"POST", some "/v1/relay/payments", "/v1/relay/payments", some "mrc_1",
  none, some "10.0.0.1"⟩

/-- A request, one too many, and one that has waited. -/
def sampleRun : List Label :=
  [⟨1000, .request (some sampleOptions) sampleRequest⟩,
    ⟨2500, .request (some sampleOptions) sampleRequest⟩, ⟨30000, .sweepTimer⟩,
    ⟨61500, .request (some sampleOptions) sampleRequest⟩]

theorem sampleRun_options (key : String) :
    ∀ l ∈ sampleRun, ∀ o, l.on = some (key, o) → o = sampleOptions := by
  intro l hl o hon
  simp only [sampleRun, List.mem_cons, List.not_mem_nil, or_false] at hl
  rcases hl with rfl | rfl | rfl | rfl
  · exact (Prod.mk.inj (Option.some.inj hon)).2.symm
  · exact (Prod.mk.inj (Option.some.inj hon)).2.symm
  · cases hon
  · exact (Prod.mk.inj (Option.some.inj hon)).2.symm

theorem rate_limit_sample :
    outcome (exec step [] (sampleRun.take 3)) ⟨61500, .request (some sampleOptions) sampleRequest⟩ =
      some .handled := by
  have h := (rate_limit sampleRun ⟨fun _ _ => Nat.zero_le _, by decide⟩ (sampleRequest.bucketKey sampleOptions)
    sampleOptions (sampleRun_options _)).2.2
  refine h (sampleRun.take 1) ⟨2500, .request (some sampleOptions) sampleRequest⟩
    [⟨30000, .sweepTimer⟩] _ [] "rate limit exceeded for relay.payments" 59 rfl rfl rfl ?_ ?_ ?_
  · decide +kernel
  · decide +kernel
  · decide

end Strimz.RateLimit
