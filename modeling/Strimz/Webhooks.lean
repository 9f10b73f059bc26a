import Strimz.IndexerEvents

/-!
# Webhook rows

The three tables of `packages/db/prisma/schema/webhooks.prisma` and the payload of the
delivery queue (`packages/queue-contracts`). Texts that only reach a log, a dashboard or an
email, and the ciphertext of the signing secret, are left out. Times are milliseconds.
-/

namespace Strimz.Webhooks

open Indexer

abbrev Id := Bytes

inductive WebhookEndpointStatus where
  | active
  | disabled
deriving Repr, DecidableEq

structure MerchantWebhookEndpoint where
  id : Id
  merchantId : Id
  mode : Mode
  url : String
  events : List String
  status : WebhookEndpointStatus
  signingSecretHash : String
deriving Repr, DecidableEq

/-- The body that is posted. -/
structure Envelope where
  id : Id
  type : String
  apiVersion : String
  mode : Mode
  createdAt : Int
  data : String
deriving Repr, DecidableEq

/-- What a producer stores: ids to look up, or the body itself. -/
inductive Payload where
  | ref (kind : String) (ids : String)
  | envelope (body : Envelope)
deriving Repr, DecidableEq

structure WebhookEvent where
  id : Id
  merchantId : Id
  mode : Mode
  payload : Payload
  /-- `dispatchedAt` is set. -/
  dispatched : Bool
  dispatchError : Option String
  createdAt : Int
deriving Repr, DecidableEq

inductive WebhookDeliveryStatus where
  | pending
  | delivered
  | retrying
  | permanently_failed
deriving Repr, DecidableEq

structure WebhookDelivery where
  id : Id
  merchantId : Id
  endpointId : Id
  eventId : Id
  eventName : String
  status : WebhookDeliveryStatus
  attempt : Nat
  responseCode : Option Nat
  lastError : Option String
  nextAttemptAt : Option Int
  deliveredAt : Option Int
  createdAt : Int
deriving Repr, DecidableEq

structure WebhookDeliveryJob where
  deliveryId : Id
  endpointId : Id
  url : String
  signingSecretHash : String
  eventId : Id
deriving Repr, DecidableEq

/-- `webhookDeliveryJobSchema.parse`, of a row's ids and its endpoint's columns. -/
def deliveryJob (d : WebhookDelivery) (ep : MerchantWebhookEndpoint) : WebhookDeliveryJob :=
  ⟨d.id, ep.id, ep.url, ep.signingSecretHash, d.eventId⟩

/-- `wireType.replace(/\./g, '_')` -/
def prismaEventName (wireType : String) : String :=
  String.ofList (wireType.toList.map fun c => if c = '.' then '_' else c)

end Strimz.Webhooks
