import Strimz.Database

/-!
# Who calls for a merchant

`MerchantAuthGuard`: a request comes in under an API key or under a dashboard session. A key is
looked up by the hash of its secret; a session by its Privy account. Both read the merchant's
status, and only the key path checks the route's scopes.
-/

namespace Strimz.MerchantGuard

open Indexer

/-! ## API keys -/

inductive ApiKeyKind where
  | secret
  | publishable
deriving Repr, DecidableEq

inductive ApiKeyScope where
  | sessions_read
  | sessions_write
  | subscriptions_read
  | subscriptions_write
  | refunds_read
  | refunds_write
  | transactions_read
  | webhooks_read
  | webhooks_write
  | invoices_read
  | invoices_write
  | storefronts_read
  | storefronts_write
  | agents_read
  | agents_write
  | relay_read
  | relay_write
  | api_keys_read
  | api_keys_write
  | merchants_read
  | customers_read
  | customers_write
  | analytics_read
deriving Repr, DecidableEq

structure ApiKeyRow where
  id : Nat
  merchantId : RowId
  name : String
  kind : ApiKeyKind
  mode : Mode
  hash : String
  scopes : List ApiKeyScope
  createdAt : Nat
  revokedAt : Option Nat
deriving Repr, DecidableEq

def modeText : Mode → String
  | .test => "test"
  | .live => "live"

/-- `API_KEY_PREFIXES` -/
def API_KEY_PREFIXES : ApiKeyKind → Mode → List Char
  | .secret, .test => "sk_test_".toList
  | .secret, .live => "sk_live_".toList
  | .publishable, .test => "pk_test_".toList
  | .publishable, .live => "pk_live_".toList

def modeFromKey (key : List Char) : Option Mode :=
  if "sk_test_".toList.isPrefixOf key || "pk_test_".toList.isPrefixOf key then some .test
  else if "sk_live_".toList.isPrefixOf key || "pk_live_".toList.isPrefixOf key then some .live
  else none

def kindFromKey (key : List Char) : Option ApiKeyKind :=
  if "sk_".toList.isPrefixOf key then some .secret
  else if "pk_".toList.isPrefixOf key then some .publishable
  else none

/-! ## Deployments -/

inductive ArcEnvironment where
  | testnet
  | mainnet
deriving Repr, DecidableEq

def arcModeFor : ArcEnvironment → Mode
  | .testnet => .test
  | .mainnet => .live

/-- What the guard is given: the deployment, the digest, Privy's verdict on a token and the
account that each merchant row is of. -/
structure Env where
  environment : ArcEnvironment
  sha256Hex : List Char → String
  verifyAccessToken : List Char → Option String
  merchantOf : String → Option RowId

/-! ## Errors -/

inductive GuardError where
  | missingBearerToken
  | unverifiedToken
  | publishableKey
  | invalidKeyKind
  | invalidKeyPrefix
  | modeUnavailable (mode : Mode) (environment : ArcEnvironment)
  | invalidKey
  | merchantSuspended
  | sessionOnly
  | noScope
  | missingScope (scope : ApiKeyScope)
  | notSynced
  | accountStatus (status : MerchantStatus)
deriving Repr, DecidableEq

def GuardError.code : GuardError → String
  | .missingBearerToken | .unverifiedToken | .publishableKey | .invalidKeyKind | .invalidKeyPrefix
  | .invalidKey => "authentication_error"
  | .modeUnavailable _ _ => "mode_unavailable"
  | .merchantSuspended | .sessionOnly | .noScope | .missingScope _ | .accountStatus _ =>
      "permission_denied"
  | .notSynced => "merchant_not_synced"

/-! ## The guard -/

/-- `CurrentMerchantPayload` -/
structure CurrentMerchant where
  merchantId : RowId
  apiKeyId : Option Nat
  apiKeyScopes : Option (List ApiKeyScope)
  mode : Mode
deriving Repr, DecidableEq

/-- What the route's decorators say. -/
structure Route where
  isPublic : Bool
  sessionOnly : Bool
  requiredScopes : List ApiKeyScope
deriving Repr, DecidableEq

def assertSecretKeyKind (token : List Char) : Except GuardError Unit :=
  match kindFromKey token with
  | some .secret => .ok ()
  | some .publishable => .error .publishableKey
  | none => .error .invalidKeyKind

def assertDeploymentMode (environment : ArcEnvironment) (mode : Mode) : Except GuardError Unit :=
  if mode ≠ arcModeFor environment then .error (.modeUnavailable mode environment) else .ok ()

def assertApiKeyRouteAccess (route : Route) (keyScopes : List ApiKeyScope) :
    Except GuardError Unit :=
  if route.sessionOnly then .error .sessionOnly
  else if route.requiredScopes = [] then .error .noScope
  else match route.requiredScopes.find? (· ∉ keyScopes) with
    | some scope => .error (.missingScope scope)
    | none => .ok ()

def authenticateWithApiKey (env : Env) (merchants : List MerchantRow) (keys : List ApiKeyRow)
    (route : Route) (token : List Char) : Except GuardError CurrentMerchant := do
  assertSecretKeyKind token
  let some mode := modeFromKey token | .error .invalidKeyPrefix
  assertDeploymentMode env.environment mode
  let some apiKey := keys.find? (·.hash = env.sha256Hex token) | .error .invalidKey
  if apiKey.revokedAt ≠ none then .error .invalidKey
  else
    let some merchant := merchants.find? (·.id = apiKey.merchantId) | .error .invalidKey
    if merchant.status ≠ .active then .error .merchantSuspended
    else
      assertApiKeyRouteAccess route apiKey.scopes
      return ⟨apiKey.merchantId, some apiKey.id, some apiKey.scopes, apiKey.mode⟩

def authenticateWithPrivy (env : Env) (merchants : List MerchantRow) (token : List Char) :
    Except GuardError CurrentMerchant :=
  match env.verifyAccessToken token with
  | none => .error .unverifiedToken
  | some userId =>
      match env.merchantOf userId with
      | none => .error .notSynced
      | some merchantId =>
          match merchants.find? (·.id = merchantId) with
          | none => .error .notSynced
          | some merchant =>
              if merchant.status ≠ .active then .error (.accountStatus merchant.status)
              else .ok ⟨merchant.id, none, none, arcModeFor env.environment⟩

/-- Leading and trailing blanks off, as far as a header can hold them. -/
def trim (s : List Char) : List Char :=
  ((s.dropWhile (·.isWhitespace)).reverse.dropWhile (·.isWhitespace)).reverse

/-- `canActivate`; `none` on a public route, which has no merchant. -/
def canActivate (env : Env) (merchants : List MerchantRow) (keys : List ApiKeyRow) (route : Route)
    (authorization : Option (List Char)) : Except GuardError (Option CurrentMerchant) :=
  if route.isPublic then .ok none
  else match authorization with
    | none => .error .missingBearerToken
    | some auth =>
        if "Bearer ".toList.isPrefixOf auth = false then .error .missingBearerToken
        else
          let token := trim (auth.drop "Bearer ".length)
          if "sk_".toList.isPrefixOf token || "pk_".toList.isPrefixOf token then
            (authenticateWithApiKey env merchants keys route token).map some
          else (authenticateWithPrivy env merchants token).map some

/-! ## What it lets through -/

section Accepted

variable {env : Env} {merchants : List MerchantRow} {keys : List ApiKeyRow} {route : Route}
  {token : List Char} {cm : CurrentMerchant}

/-- A merchant row that the guard found active. -/
def ActiveMerchant (merchants : List MerchantRow) (id : RowId) : Prop :=
  ∃ m, merchants.find? (·.id = id) = some m ∧ m.status = .active

/-- A key that was accepted: stored, not revoked, of an active merchant, and the caller's rights
are the key's. -/
theorem apiKey_of_ok (h : authenticateWithApiKey env merchants keys route token = .ok cm) :
    ∃ key ∈ keys, key.hash = env.sha256Hex token ∧ key.revokedAt = none ∧
      ActiveMerchant merchants key.merchantId ∧
      cm = ⟨key.merchantId, some key.id, some key.scopes, key.mode⟩ := by
  unfold authenticateWithApiKey at h
  cases hkind : assertSecretKeyKind token with
  | error e => rw [hkind] at h; cases h
  | ok =>
      rw [hkind] at h
      dsimp only [bind, Except.bind] at h
      split at h
      · rename_i mode hmode
        cases hdeployed : assertDeploymentMode env.environment mode with
        | error e => rw [hdeployed] at h; cases h
        | ok =>
            rw [hdeployed] at h
            dsimp only at h
            split at h
            · rename_i apiKey hkey
              split at h
              · cases h
              · rename_i hlive
                split at h
                · rename_i merchant hmerchant
                  split at h
                  · cases h
                  · rename_i hactive
                    cases haccess : assertApiKeyRouteAccess route apiKey.scopes with
                    | error e => rw [haccess] at h; cases h
                    | ok =>
                        rw [haccess] at h
                        cases h
                        exact ⟨apiKey, List.mem_of_find?_eq_some hkey,
                          by simpa using List.find?_some hkey, not_not.mp hlive,
                          ⟨merchant, hmerchant, not_not.mp hactive⟩, rfl⟩
                · cases h
            · cases h
      · cases h

theorem session_of_ok (h : authenticateWithPrivy env merchants token = .ok cm) :
    ActiveMerchant merchants cm.merchantId ∧ cm.apiKeyId = none ∧ cm.apiKeyScopes = none := by
  unfold authenticateWithPrivy at h
  split at h
  · cases h
  · split at h
    · cases h
    · split at h
      · cases h
      · rename_i merchantId _ _ merchant hmerchant
        split at h
        · cases h
        · rename_i hactive
          cases h
          have hid : merchant.id = merchantId := by simpa using List.find?_some hmerchant
          exact ⟨⟨merchant, hid ▸ hmerchant, not_not.mp hactive⟩, rfl, rfl⟩

/-- The two ways through the guard. -/
theorem ok_of_canActivate {authorization : Option (List Char)}
    (h : canActivate env merchants keys route authorization = .ok (some cm)) :
    ∃ token, authenticateWithApiKey env merchants keys route token = .ok cm ∨
      authenticateWithPrivy env merchants token = .ok cm := by
  have hmap {r : Except GuardError CurrentMerchant} (hr : r.map some = .ok (some cm)) :
      r = .ok cm := by
    cases r with
    | error e => cases hr
    | ok cm' => cases hr; rfl
  unfold canActivate at h
  split at h
  · cases h
  · split at h
    · cases h
    · split at h
      · cases h
      · dsimp only at h
        split at h
        · exact ⟨_, .inl (hmap h)⟩
        · exact ⟨_, .inr (hmap h)⟩

/-- Whoever gets through calls for a merchant that is active. -/
theorem active_of_canActivate {authorization : Option (List Char)}
    (h : canActivate env merchants keys route authorization = .ok (some cm)) :
    ActiveMerchant merchants cm.merchantId := by
  obtain ⟨token, h | h⟩ := ok_of_canActivate h
  · obtain ⟨key, -, -, -, hactive, rfl⟩ := apiKey_of_ok h
    exact hactive
  · exact (session_of_ok h).1

/-- Who gets through: a session, without a key's rights, or a key that is stored and not revoked,
with its rights. -/
theorem caller_of_canActivate {authorization : Option (List Char)}
    (h : canActivate env merchants keys route authorization = .ok (some cm)) :
    (cm.apiKeyId = none ∧ cm.apiKeyScopes = none) ∨ ∃ key ∈ keys, key.revokedAt = none ∧
      cm = ⟨key.merchantId, some key.id, some key.scopes, key.mode⟩ := by
  obtain ⟨token, h | h⟩ := ok_of_canActivate h
  · obtain ⟨key, hkey, -, hlive, -, hcm⟩ := apiKey_of_ok h
    exact .inr ⟨key, hkey, hlive, hcm⟩
  · exact .inl (session_of_ok h).2

end Accepted

end Strimz.MerchantGuard
