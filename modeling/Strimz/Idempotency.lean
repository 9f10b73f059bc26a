import Strimz.IndexerEvents
import Strimz.Runs

/-!
# Idempotency keys

The global interceptor of the API (`common/interceptors/idempotency.interceptor.ts`). A request
that carries a key claims it with `SET NX` for a minute, runs its handler, and overwrites the
claim with the result for a day; a request that finds a claim or a result does not run. Each
call to Redis is a step of its own and can fail before or after it took effect, handlers take
any time, and the process can die between any two steps.

Texts are lists of characters. A response is what the interceptor hands on, before the exception
filter puts the request's id into an error. Executions are numbered by the claims they made; the
numbers in records and responses are history, which the code does not read.
-/

namespace Strimz.Idempotency

open Indexer

abbrev Text := List Char

/-- The text of a JSON value. -/
abbrev Json := Text

/-- A `cuid`. -/
@[ext]
structure MerchantId where
  text : Text
  plain : ':' ∉ text
deriving DecidableEq

/-- A request target. -/
@[ext]
structure Url where
  text : Text
  line : '\n' ∉ text
deriving DecidableEq

inductive Method where
  | get
  | post
  | patch
  | put
  | delete
deriving Repr, DecidableEq

def Method.name : Method → Text
  | .get => "GET".toList
  | .post => "POST".toList
  | .patch => "PATCH".toList
  | .put => "PUT".toList
  | .delete => "DELETE".toList

def modeName : Mode → Text
  | .test => "test".toList
  | .live => "live".toList

/-- What the interceptor reads of a request and of its route. -/
structure HttpRequest where
  method : Method
  url : Url
  header : Option Text
  merchant : Option (MerchantId × Mode)
  body : Json
  skipIdempotency : Bool

/-- A request the interceptor takes on. -/
structure Keyed where
  merchantId : MerchantId
  mode : Mode
  key : Text
  method : Method
  url : Url
  body : Json
deriving DecidableEq

/-- `KEY_PATTERN` -/
def validKey (header : Text) : Bool :=
  1 ≤ header.length && header.length ≤ 255 && header.all fun c => '!' ≤ c && c ≤ '~'

inductive Entry where
  /-- `next.handle()` -/
  | passed
  | invalidKey
  | keyed (req : Keyed)
deriving DecidableEq

/-- `intercept`, up to the claim. -/
def entry (r : HttpRequest) : Entry :=
  match r.header, r.merchant with
  | some header, some (merchantId, mode) =>
      if r.method ≠ .post ∧ r.method ≠ .patch then .passed
      else if r.skipIdempotency then .passed
      else if validKey header then .keyed ⟨merchantId, mode, header, r.method, r.url, r.body⟩
      else .invalidKey
  | _, _ => .passed

def redisKey (r : Keyed) : Text :=
  "idem:".toList ++ (r.merchantId.text ++ ':' :: (modeName r.mode ++ ':' :: r.key))

/-- What `fingerprintOf` hashes. -/
def fingerprintText (r : Keyed) : Text := r.method.name ++ '\n' :: (r.url.text ++ '\n' :: r.body)

/-- 60 seconds, in milliseconds. -/
def IN_PROGRESS_TTL : Nat := 60000

/-- A day, in milliseconds. -/
def RESULT_TTL : Nat := 86400000

structure HttpError where
  status : Nat
  body : Json
  isError : 400 ≤ status
deriving DecidableEq

inductive HandlerError where
  | http (e : HttpError)
  | other
deriving DecidableEq

inductive Outcome where
  | value (body : Json)
  | threw (err : HandlerError)
deriving DecidableEq

/-- The body an error that is no `HttpException` is stored with. -/
def internalError : Json :=
  "\x7b\"error\":\x7b\"code\":\"api_error\",\"message\":\"Internal server error\"\x7d\x7d".toList

def errorRecord : HandlerError → Nat × Json
  | .http e => (e.status, e.body)
  | .other => (500, internalError)

/-- What a deployment fixes: the hash, and the status each route answers a success with. -/
structure Setup (δ : Type) where
  sha256 : Text → δ
  successStatus : Method → Url → Nat
  success : ∀ method url, successStatus method url < 400

/-- `InProgress`, or `Done` with its status and body. -/
structure Record (δ : Type) where
  fingerprint : δ
  done : Option (Nat × Json)
  exec : Nat

/-- What becomes of a call to Redis. -/
inductive RedisAnswer where
  | ok
  | failed
  /-- It took effect, and the answer is lost. -/
  | lost
deriving Repr, DecidableEq

inductive Stage where
  | claiming
  | reading
  | running (exec : Nat)
  | storing (exec : Nat) (outcome : Outcome)

structure Call where
  req : Keyed
  stage : Stage

inductive Response where
  | result (exec status : Nat) (body : Json)
  | idempotencyError
  | inProgress
  | serviceUnavailable

structure Answer where
  req : Keyed
  response : Response

def Answer.isResult (a : Answer) : Bool :=
  match a.response with
  | .result _ _ _ => true
  | _ => false

/-- One execution of a handler, under a claim made at `startedAt`. -/
structure Execution where
  req : Keyed
  startedAt : Nat
  acted : Bool
  outcome : Option Outcome
deriving DecidableEq

structure World (δ : Type) where
  now : Nat
  /-- A record and when it expires. -/
  redis : Text → Option (Record δ × Nat)
  calls : List Call
  execs : List Execution
  answers : List Answer

section Code

variable {δ : Type} [DecidableEq δ] (S : Setup δ)

def fingerprintOf (r : Keyed) : δ := S.sha256 (fingerprintText r)

/-- The status and body of an outcome. -/
def resultOf (r : Keyed) : Outcome → Nat × Json
  | .value body => (S.successStatus r.method r.url, body)
  | .threw err => errorRecord err

namespace World

/-- `GET` -/
def live (w : World δ) (key : Text) : Option (Record δ) :=
  match w.redis key with
  | none => none
  | some (r, expiresAt) => if w.now < expiresAt then some r else none

/-- `SET key record EX ttl` -/
def put (key : Text) (r : Record δ) (ttl : Nat) (w : World δ) : World δ :=
  { w with redis := Function.update w.redis key (some (r, w.now + ttl)) }

def answer (req : Keyed) (response : Response) (w : World δ) : World δ :=
  { w with answers := w.answers ++ [⟨req, response⟩] }

/-- A call that goes on. -/
def enter (req : Keyed) (stage : Stage) (w : World δ) : World δ :=
  { w with calls := w.calls ++ [⟨req, stage⟩] }

def leave (k : Nat) (w : World δ) : World δ := { w with calls := w.calls.eraseIdx k }

def updateExec (e : Nat) (f : Execution → Execution) (w : World δ) : World δ :=
  { w with execs := w.execs.modify e f }

/-- The claim's `SET NX`, when no record is in the way. -/
def claim (req : Keyed) (w : World δ) : World δ :=
  { w.put (redisKey req) ⟨fingerprintOf S req, none, w.execs.length⟩ IN_PROGRESS_TTL with
    execs := w.execs ++ [⟨req, w.now, false, none⟩] }

/-- `store`, when the write arrives. -/
def store (req : Keyed) (exec : Nat) (outcome : Outcome) (w : World δ) : World δ :=
  w.put (redisKey req) ⟨fingerprintOf S req, some (resultOf S req outcome), exec⟩ RESULT_TTL

end World

/-- A replay goes out with the route's own status when it is a success. -/
def replayOf (req : Keyed) (exec status : Nat) (body : Json) : Response :=
  if status < 400 then .result exec (S.successStatus req.method req.url) body
  else .result exec status body

/-- What a request makes of the record it finds. -/
def readRecord (req : Keyed) (w : World δ) : Option (Record δ) → World δ
  | none => w.enter req .claiming
  | some r =>
      if r.fingerprint ≠ fingerprintOf S req then w.answer req .idempotencyError
      else
        match r.done with
        | none => w.answer req .inProgress
        | some (status, body) => w.answer req (replayOf S req r.exec status body)

/-- The next call to Redis of the `k`-th request. -/
def redisStep (w : World δ) (k : Nat) (redis : RedisAnswer) : World δ :=
  match w.calls[k]? with
  | none => w
  | some ⟨req, .claiming⟩ =>
      match redis, w.live (redisKey req) with
      | .ok, none => (w.leave k).claim S req |>.enter req (.running w.execs.length)
      | .ok, some _ => (w.leave k).enter req .reading
      | .failed, _ => (w.leave k).answer req .serviceUnavailable
      | .lost, none => ((w.leave k).claim S req).answer req .serviceUnavailable
      | .lost, some _ => (w.leave k).answer req .serviceUnavailable
  | some ⟨req, .reading⟩ =>
      match redis with
      | .ok => readRecord S req (w.leave k) (w.live (redisKey req))
      | .failed | .lost => (w.leave k).answer req .serviceUnavailable
  | some ⟨_, .running _⟩ => w
  | some ⟨req, .storing exec outcome⟩ =>
      let (status, body) := resultOf S req outcome
      match redis with
      | .ok | .lost => ((w.leave k).store S req exec outcome).answer req (.result exec status body)
      | .failed => (w.leave k).answer req (.result exec status body)

/-- The `k`-th request's handler has its side effect. -/
def act (w : World δ) (k : Nat) : World δ :=
  match w.calls[k]? with
  | some ⟨_, .running exec⟩ => w.updateExec exec fun x => { x with acted := true }
  | _ => w

/-- The `k`-th request's handler comes to its end. -/
def finish (w : World δ) (k : Nat) (outcome : Outcome) : World δ :=
  match w.calls[k]? with
  | some ⟨req, .running exec⟩ =>
      ((w.leave k).updateExec exec fun x => { x with outcome := some outcome }).enter req
        (.storing exec outcome)
  | _ => w

def arrive (w : World δ) (r : HttpRequest) : World δ :=
  match entry r with
  | .keyed req => w.enter req .claiming
  | .passed | .invalidKey => w

inductive Label where
  | arrive (r : HttpRequest)
  | redis (k : Nat) (answer : RedisAnswer)
  | act (k : Nat)
  | finish (k : Nat) (outcome : Outcome)
  /-- The process dies. -/
  | crash (k : Nat)
  | elapse (d : Nat)

def step (w : World δ) : Label → World δ
  | .arrive r => arrive w r
  | .redis k answer => redisStep S w k answer
  | .act k => act w k
  | .finish k outcome => finish w k outcome
  | .crash k => w.leave k
  | .elapse d => { w with now := w.now + d }

end Code

/-! ## Keys and fingerprints -/

/-- The same merchant, mode and key. -/
def SameKey (r r' : Keyed) : Prop :=
  r.merchantId = r'.merchantId ∧ r.mode = r'.mode ∧ r.key = r'.key

/-- A separator that neither front has ends both fronts at the same place. -/
theorem append_separator_inj {c : Char} {a a' b b' : Text} (ha : c ∉ a) (ha' : c ∉ a')
    (h : a ++ c :: b = a' ++ c :: b') : a = a' ∧ b = b' := by
  induction a generalizing a' with
  | nil =>
      cases a' with
      | nil => exact ⟨rfl, (List.cons.inj h).2⟩
      | cons x xs =>
          have hx : c = x := (List.cons.inj h).1
          exact absurd (hx ▸ List.mem_cons_self) ha'
  | cons x xs ih =>
      cases a' with
      | nil =>
          have hx : x = c := (List.cons.inj h).1
          exact absurd (hx ▸ List.mem_cons_self) ha
      | cons y ys =>
          obtain ⟨rfl, htail⟩ := List.cons.inj h
          obtain ⟨rfl, hb⟩ := ih (fun hc => ha (List.mem_cons_of_mem _ hc))
            (fun hc => ha' (List.mem_cons_of_mem _ hc)) htail
          exact ⟨rfl, hb⟩

theorem modeName_plain (mode : Mode) : ':' ∉ modeName mode := by
  cases mode <;> decide

theorem modeName_inj {mode mode' : Mode} (h : modeName mode = modeName mode') : mode = mode' := by
  cases mode <;> cases mode' <;> first | rfl | exact absurd h (by decide)

/-- Different merchants, modes or keys have different records. -/
theorem redisKey_inj {r r' : Keyed} : redisKey r = redisKey r' ↔ SameKey r r' := by
  constructor
  · intro h
    have hids := List.append_cancel_left h
    obtain ⟨hmerchant, hrest⟩ :=
      append_separator_inj r.merchantId.plain r'.merchantId.plain hids
    obtain ⟨hmode, hkey⟩ := append_separator_inj (modeName_plain _) (modeName_plain _) hrest
    exact ⟨MerchantId.ext hmerchant, modeName_inj hmode, hkey⟩
  · rintro ⟨hmerchant, hmode, hkey⟩
    rw [redisKey, redisKey, hmerchant, hmode, hkey]

theorem Method.name_line (m : Method) : '\n' ∉ m.name := by
  cases m <;> decide

theorem Method.name_inj {m m' : Method} (h : m.name = m'.name) : m = m' := by
  cases m <;> cases m' <;> first | rfl | exact absurd h (by decide)

theorem fingerprintText_inj {r r' : Keyed} (h : fingerprintText r = fingerprintText r') :
    r.method = r'.method ∧ r.url = r'.url ∧ r.body = r'.body := by
  obtain ⟨hmethod, hrest⟩ := append_separator_inj r.method.name_line r'.method.name_line h
  obtain ⟨hurl, hbody⟩ := append_separator_inj r.url.line r'.url.line hrest
  exact ⟨Method.name_inj hmethod, Url.ext hurl, hbody⟩

end Strimz.Idempotency
