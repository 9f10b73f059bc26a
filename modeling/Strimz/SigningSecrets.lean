import Strimz.Runs

/-!
# Webhook signing secrets

One endpoint's secret in its three places: the hash and the ciphertext of its row, and the
plaintext that Redis holds for the scheduler. `createEndpoint` and `rotateSecret` of the API write
Redis first and the row second; the scheduler's `WebhookSecretCache.get` and its warm-up copy the
row back into Redis. A call is a task that waits between its statements.
-/

namespace Strimz.SigningSecrets

/-! ## The world -/

/-- SHA-256 and AES-GCM under the deployment's key; a blob decrypts to what was encrypted. -/
structure Crypto (γ : Type) where
  sha256Hex : String → String
  encryptAesGcm : Nat → String → γ
  decryptAesGcm : γ → Option String
  decrypt_encrypt : ∀ nonce plaintext,
    decryptAesGcm (encryptAesGcm nonce plaintext) = some plaintext

structure EndpointRow (γ : Type) where
  merchantId : String
  active : Bool
  signingSecretHash : String
  signingSecretPrefix : String
  signingSecretCiphertext : Option γ
deriving DecidableEq

/-- The random parts of a new secret: `randomBase64Url(32)` and the nonce of its encryption. -/
structure Random where
  secret : String
  nonce : Nat
deriving Repr, DecidableEq

/-- What is under way, by the statement that it runs next. -/
inductive Task (γ : Type) where
  /-- `createEndpoint`: the insert. -/
  | inserting (merchantId : String) (random : Random)
  /-- `rotateSecret`: the row is looked for. -/
  | finding (merchantId : String) (random : Random)
  /-- `persistSigningSecret`: the Redis write. -/
  | caching (created : Bool) (secret : String) (ciphertext : γ)
  /-- The update of the row. -/
  | storing (created : Bool) (secret : String) (ciphertext : γ)
  /-- The answer to the merchant. -/
  | returning (secret : String)
  /-- `get`: the Redis read. -/
  | getting
  /-- `rehydrate`: the read of the row. -/
  | rehydrating
  /-- The Redis write of `rehydrate` or of the warm-up. -/
  | recaching (plaintext : String)
  /-- `onModuleInit`: the read of the active endpoints. -/
  | warming
deriving DecidableEq

structure World (γ : Type) where
  row : Option (EndpointRow γ)
  redis : Option String
  tasks : List (Task γ)
  /-- The secret that the last call to succeed has returned. -/
  returned : Option String
deriving DecidableEq

section Steps

variable {γ : Type} (c : Crypto γ)

namespace World

def spawn (t : Task γ) (w : World γ) : World γ := { w with tasks := w.tasks ++ [t] }

def finish (k : Nat) (w : World γ) : World γ := { w with tasks := w.tasks.eraseIdx k }

end World

/-! ## Statements -/

inductive Answer where
  | done
  /-- The statement fails, or the process dies before it. -/
  | fails
  /-- It takes effect and its caller sees an error, or dies. -/
  | lost
deriving Repr, DecidableEq

/-- A statement that leaves the state `w` and goes on with `t`. -/
def andThen (w : World γ) (t : Task γ) (before : World γ) : Answer → World γ
  | .done => w.spawn t
  | .fails => before
  | .lost => w

def secretOf (random : Random) : String := "whsec_" ++ random.secret

def prefixOf (secret : String) : String := String.ofList (secret.toList.take 12)

/-- `merchantWebhookEndpoint.create`, of `createEndpoint`. -/
def newRow (merchantId secret : String) : EndpointRow γ where
  merchantId := merchantId
  active := true
  signingSecretHash := c.sha256Hex secret
  signingSecretPrefix := prefixOf secret
  signingSecretCiphertext := none

/-- The update of `createEndpoint`, or the one of `rotateSecret`. -/
def storeSecret (created : Bool) (secret : String) (ciphertext : γ) (row : EndpointRow γ) :
    EndpointRow γ :=
  if created then { row with signingSecretCiphertext := some ciphertext }
  else { row with signingSecretHash := c.sha256Hex secret,
                  signingSecretCiphertext := some ciphertext,
                  signingSecretPrefix := prefixOf secret }

/-- The plaintext that the row's ciphertext decrypts to. -/
def plaintextOf (row : Option (EndpointRow γ)) : Option String :=
  match row with
  | none => none
  | some row =>
      match row.signingSecretCiphertext with
      | none => none
      | some ciphertext => c.decryptAesGcm ciphertext

/-- `persistSigningSecret` from the encryption on. -/
def cachingTask (created : Bool) (random : Random) : Task γ :=
  .caching created (secretOf random) (c.encryptAesGcm random.nonce (secretOf random))

def runTask (w : World γ) : Task γ → Answer → World γ
  | .inserting merchantId random, a =>
      -- with a row already there, the call's row is another endpoint's
      match w.row with
      | some _ => w
      | none =>
          andThen { w with row := some (newRow c merchantId (secretOf random)) }
            (cachingTask c true random) w a
  | .finding merchantId random, a =>
      match w.row with
      | none => w
      | some row =>
          if row.merchantId = merchantId then andThen w (cachingTask c false random) w a else w
  | .caching created secret ciphertext, a =>
      andThen { w with redis := some secret } (.storing created secret ciphertext) w a
  | .storing created secret ciphertext, a =>
      match w.row with
      | none => w
      | some row =>
          andThen { w with row := some (storeSecret c created secret ciphertext row) }
            (.returning secret) w a
  | .returning secret, .done => { w with returned := some secret }
  | .returning _, _ => w
  | .getting, a =>
      match w.redis with
      | some _ => w
      | none => andThen w .rehydrating w a
  | .rehydrating, a =>
      match plaintextOf c w.row with
      | none => w
      | some plaintext => andThen w (.recaching plaintext) w a
  | .recaching _, .fails => w
  | .recaching plaintext, _ => { w with redis := some plaintext }
  | .warming, a =>
      match w.row with
      | none => w
      | some row =>
          if row.active then
            match plaintextOf c w.row with
            | none => w
            | some plaintext => andThen w (.recaching plaintext) w a
          else w

/-! ## Steps -/

inductive Label where
  | createEndpoint (merchantId : String) (random : Random)
  | rotateSecret (merchantId : String) (random : Random)
  /-- A delivery worker looks the secret up. -/
  | get
  /-- A scheduler boots. -/
  | onModuleInit
  | flush
  | setEndpointStatus (active : Bool)
  /-- The `k`-th task runs its next statement. -/
  | run (k : Nat) (a : Answer)
deriving Repr, DecidableEq

def step (w : World γ) : Label → World γ
  | .createEndpoint merchantId random => w.spawn (.inserting merchantId random)
  | .rotateSecret merchantId random => w.spawn (.finding merchantId random)
  | .get => w.spawn .getting
  | .onModuleInit => w.spawn .warming
  | .flush => { w with redis := none }
  | .setEndpointStatus active => { w with row := w.row.map fun row => { row with active := active } }
  | .run k a =>
      match w.tasks[k]? with
      | none => w
      | some t => runTask c (w.finish k) t a

/-- The secret that the scheduler signs with: what a lookup on its own gives. -/
def signsWith (w : World γ) : Option String :=
  match w.redis with
  | some secret => some secret
  | none => plaintextOf c w.row

/-- All three places have the secret that the merchant was given last. -/
def InStep (w : World γ) : Prop :=
  ∀ secret, w.returned = some secret → signsWith c w = some secret ∧
    plaintextOf c w.row = some secret ∧ w.row.map (·.signingSecretHash) = some (c.sha256Hex secret)

/-- Nothing is under way, and what was returned before is in step. -/
structure World.Launched (w : World γ) : Prop where
  tasks : w.tasks = []
  inStep : InStep c w

end Steps

end Strimz.SigningSecrets
