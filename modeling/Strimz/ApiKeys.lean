import Strimz.MerchantGuard
import Strimz.Runs
import Strimz.Table

/-!
# API keys

`ApiKeysService` behind `MerchantAuthGuard`: a caller, by a key or by a dashboard session,
creates, lists, retrieves, revokes and rotates keys. A call is a task that waits between its
statements; the two statements of `rotate`'s transaction are one step. The world keeps who
minted what, which rows the calls were handed or wrote, and the rotations that committed.
-/

namespace Strimz.ApiKeys

open Indexer MerchantGuard

/-! ## Requests -/

structure CreateApiKeyInput where
  name : String
  kind : ApiKeyKind
  mode : Mode
  scopes : List ApiKeyScope
deriving Repr, DecidableEq

structure ListParams where
  limit : Option Nat
  cursor : Option Nat
  revoked : Option Bool
deriving Repr, DecidableEq

inductive Request where
  | create (input : CreateApiKeyInput)
  | list (params : ListParams)
  | retrieve (id : Nat)
  | revoke (id : Nat)
  | rotate (id : Nat)
deriving Repr, DecidableEq

/-- The decorators of the controller. -/
def Request.route : Request → Route
  | .create _ | .revoke _ | .rotate _ => ⟨false, false, [.api_keys_write]⟩
  | .list _ | .retrieve _ => ⟨false, false, [.api_keys_read]⟩

inductive ApiKeyError where
  | guard (e : GuardError)
  | modeMismatch (held requested : Mode)
  | scopeNotHeld (scope : ApiKeyScope)
  | liveModeUnavailable
  | liveModeIneligible
  | notFound
  | uniqueViolation
  | internal
deriving Repr, DecidableEq

def ApiKeyError.code : ApiKeyError → String
  | .guard e => e.code
  | .modeMismatch _ _ | .scopeNotHeld _ => "permission_denied"
  | .liveModeUnavailable => "live_mode_unavailable"
  | .liveModeIneligible => "live_mode_ineligible"
  | .notFound => "not_found"
  | .uniqueViolation => "P2002"
  | .internal => "internal_error"

/-! ## The world -/

/-- A call behind the guard, by the statement that it runs next. -/
inductive Task where
  /-- The request's first statement. -/
  | start (caller : CurrentMerchant) (r : Request)
  /-- `create`: the insert. -/
  | creating (caller : CurrentMerchant) (input : CreateApiKeyInput)
  /-- `revoke`: the update. -/
  | revoking (caller : CurrentMerchant) (id : Nat)
  /-- `rotate`: the eligibility check on the row read. -/
  | rotating (caller : CurrentMerchant) (source : ApiKeyRow)
  /-- Its transaction. -/
  | replacing (caller : CurrentMerchant) (source : ApiKeyRow)
deriving Repr, DecidableEq

/-- A rotation that committed: the source as it was then, and the key that replaces it. -/
structure Rotation where
  source : ApiKeyRow
  minted : ApiKeyRow
deriving Repr, DecidableEq

structure World where
  now : Nat
  merchants : List MerchantRow
  keys : List ApiKeyRow
  tasks : List Task
  errors : List ApiKeyError
  /-- A key minted under another, as (minted, held). -/
  mints : List (Nat × Nat)
  /-- The rows that a call was handed or wrote. -/
  accesses : List (CurrentMerchant × ApiKeyRow)
  rotations : List Rotation
deriving DecidableEq

namespace World

def key? (w : World) (id : Nat) : Option ApiKeyRow := Table.find ApiKeyRow.id w.keys id

def spawn (t : Task) (w : World) : World := { w with tasks := w.tasks ++ [t] }

def finish (k : Nat) (w : World) : World := { w with tasks := w.tasks.eraseIdx k }

def fail (e : ApiKeyError) (w : World) : World := { w with errors := w.errors ++ [e] }

def access (caller : CurrentMerchant) (rows : List ApiKeyRow) (w : World) : World :=
  { w with accesses := w.accesses ++ rows.map fun row => (caller, row) }

/-- An id that no row has. -/
def newId (w : World) : Nat := (w.keys.map (·.id)).foldr max 0 + 1

end World

/-! ## Checks -/

/-- The `where` of `visibleTo`. -/
def visibleTo (caller : CurrentMerchant) (row : ApiKeyRow) : Bool :=
  row.merchantId = caller.merchantId ∧ (caller.apiKeyScopes ≠ none → row.mode = caller.mode)

def assertScopesHeld (held requested : List ApiKeyScope) : Except ApiKeyError Unit :=
  match requested.find? (· ∉ held) with
  | some scope => .error (.scopeNotHeld scope)
  | none => .ok ()

/-- `create`, up to its first statement. -/
def checkCreate (caller : CurrentMerchant) (input : CreateApiKeyInput) : Except ApiKeyError Unit :=
  match caller.apiKeyScopes with
  | none => .ok ()
  | some held =>
      if input.mode ≠ caller.mode then .error (.modeMismatch caller.mode input.mode)
      else assertScopesHeld held input.scopes

/-- `assertLiveKeyMintable` for a live key, else `assertDeploymentMode`; the merchant's
eligibility comes from its own service. -/
def checkMode (env : Env) (mode : Mode) (eligible : Bool) : Except ApiKeyError Unit :=
  match mode with
  | .live =>
      if env.environment ≠ .mainnet then .error .liveModeUnavailable
      else if eligible = false then .error .liveModeIneligible
      else .ok ()
  | .test =>
      match assertDeploymentMode env.environment .test with
      | .error e => .error (.guard e)
      | .ok _ => .ok ()

/-- `findMany` in the order of creation, the newest first: from the cursor's row on, which the
skip drops. -/
def page (keys : List ApiKeyRow) (caller : CurrentMerchant) (params : ListParams) :
    List ApiKeyRow :=
  let limit := min (params.limit.getD 25) 100
  let where_ (row : ApiKeyRow) : Bool :=
    visibleTo caller row && (params.revoked.all fun revoked => row.revokedAt.isSome == revoked)
  let sorted := (keys.filter where_).mergeSort fun a b => b.createdAt ≤ a.createdAt
  let rest : List ApiKeyRow := match params.cursor with
    | none => sorted
    | some cursor =>
        match keys.find? (·.id = cursor) with
        | none => []
        | some from_ => (sorted.filter fun row => row.createdAt ≤ from_.createdAt).drop 1
  rest.take limit

/-! ## Statements -/

/-- `generateApiKey`'s key as a row, from its random part. -/
def mintKey (env : Env) (w : World) (merchantId : RowId) (input : CreateApiKeyInput)
    (random : List Char) : ApiKeyRow where
  id := w.newId
  merchantId := merchantId
  name := input.name
  kind := input.kind
  mode := input.mode
  hash := env.sha256Hex (API_KEY_PREFIXES input.kind input.mode ++ random)
  scopes := input.scopes
  createdAt := w.now
  revokedAt := none

/-- What a new row leaves behind: who minted it, and that its caller was handed it. -/
def recordMint (caller : CurrentMerchant) (row : ApiKeyRow) (w : World) : World :=
  { w with mints := (caller.apiKeyId.map fun held => (row.id, held)).toList ++ w.mints,
           accesses := w.accesses ++ [(caller, row)] }

def insertKey (caller : CurrentMerchant) (row : ApiKeyRow) (w : World) : World :=
  if w.keys.any (·.hash = row.hash) then w.fail .uniqueViolation
  else recordMint caller row { w with keys := w.keys ++ [row] }

def revokeRow (now : Nat) (row : ApiKeyRow) : ApiKeyRow := { row with revokedAt := some now }

/-- `merchantApiKey.update({ where: { id }, data: { revokedAt } })` -/
def revokeKey (caller : CurrentMerchant) (id : Nat) (w : World) : World :=
  match w.key? id with
  | none => w.fail .internal
  | some row =>
      { w with keys := Table.updateWhere (·.id = id) (revokeRow w.now) w.keys }.access caller [row]

/-- The source of a rotation as the input of a new key. -/
def CreateApiKeyInput.ofSource (source : ApiKeyRow) : CreateApiKeyInput :=
  ⟨source.name, source.kind, source.mode, source.scopes⟩

/-- The transaction of `rotate`. -/
def replaceKey (env : Env) (caller : CurrentMerchant) (source : ApiKeyRow) (random : List Char)
    (w : World) : World :=
  let row := mintKey env w caller.merchantId (.ofSource source) random
  match w.key? source.id with
  | none => w.fail .internal
  | some before =>
      if w.keys.any (·.hash = row.hash) then w.fail .uniqueViolation
      else recordMint caller row
        { w with keys := Table.updateWhere (·.id = source.id) (revokeRow w.now) w.keys ++ [row],
                 accesses := w.accesses ++ [(caller, before)],
                 rotations := w.rotations ++ [⟨before, row⟩] }

/-! ## Steps -/

inductive Answer where
  /-- The statement runs; for `liveModeEligibility`, what it says. -/
  | done (eligible : Bool)
  /-- The random part of a new key. -/
  | random (secret : List Char)
  /-- The statement fails, or the process dies. -/
  | fails
deriving Repr, DecidableEq

def findVisible (w : World) (caller : CurrentMerchant) (id : Nat) : Option ApiKeyRow :=
  w.keys.find? fun row => row.id = id ∧ visibleTo caller row

/-- The first statement of a request. -/
def begin_ (env : Env) (w : World) (caller : CurrentMerchant) (eligible : Bool) :
    Request → World
  | .create input =>
      match checkCreate caller input with
      | .error e => w.fail e
      | .ok _ =>
          match checkMode env input.mode eligible with
          | .error e => w.fail e
          | .ok _ => w.spawn (.creating caller input)
  | .list params => w.access caller (page w.keys caller params)
  | .retrieve id =>
      match findVisible w caller id with
      | none => w.fail .notFound
      | some row => w.access caller [row]
  | .revoke id =>
      match findVisible w caller id with
      | none => w.fail .notFound
      | some row => (w.access caller [row]).spawn (.revoking caller id)
  | .rotate id =>
      match findVisible w caller id with
      | none => w.fail .notFound
      | some source =>
          match caller.apiKeyScopes with
          | none => (w.access caller [source]).spawn (.rotating caller source)
          | some held =>
              match assertScopesHeld held source.scopes with
              | .error e => (w.access caller [source]).fail e
              | .ok _ => (w.access caller [source]).spawn (.rotating caller source)

def runTask (env : Env) (w : World) : Task → Answer → World
  | _, .fails => w.fail .internal
  | .start caller r, .done eligible => begin_ env w caller eligible r
  | .creating caller input, .random secret =>
      insertKey caller (mintKey env w caller.merchantId input secret) w
  | .revoking caller id, .done _ => revokeKey caller id w
  | .rotating caller source, .done eligible =>
      match checkMode env source.mode eligible with
      | .error e => w.fail e
      | .ok _ => w.spawn (.replacing caller source)
  | .replacing caller source, .random secret => replaceKey env caller source secret w
  | _, _ => w.fail .internal

inductive Label where
  /-- A request and its guard. -/
  | request (authorization : Option (List Char)) (r : Request)
  /-- The `k`-th call runs its next statement. -/
  | run (k : Nat) (a : Answer)
  /-- Another service changes a merchant's status. -/
  | setMerchantStatus (merchantId : RowId) (status : MerchantStatus)
  | elapse (ms : Nat)
deriving Repr, DecidableEq

def step (env : Env) (w : World) : Label → World
  | .request authorization r =>
      match canActivate env w.merchants w.keys r.route authorization with
      | .error e => w.fail (.guard e)
      | .ok none => w
      | .ok (some caller) => w.spawn (.start caller r)
  | .run k a =>
      match w.tasks[k]? with
      | none => w
      | some t => runTask env (w.finish k) t a
  | .setMerchantStatus merchantId status =>
      { w with merchants := Table.updateWhere (·.id = merchantId)
                 (fun m => { m with status := status }) w.merchants }
  | .elapse ms => { w with now := w.now + ms }

/-- Before any call: any merchants and keys, with ids and hashes that tell the keys apart. -/
structure World.Launched (w : World) : Prop where
  ids : (w.keys.map (·.id)).Nodup
  hashes : (w.keys.map (·.hash)).Nodup
  tasks : w.tasks = []
  mints : w.mints = []
  accesses : w.accesses = []
  rotations : w.rotations = []

end Strimz.ApiKeys
