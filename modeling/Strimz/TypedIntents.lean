import Strimz.Interfaces
import Strimz.TypedData

/-!
# The intents payers sign

The typed data of the SDK (`packages/sdk/src/eip712`) next to what the contracts hash:
`payIntentDigest` of `StrimzPayments` and `subscriptionIntentDigest` of `StrimzSubscriptions`.
A `bigint` is an integer, and hex strings are the words they spell.
-/

namespace Strimz.TypedIntents

open Eip712

/-- A deployed contract: its chain and address. -/
@[ext]
structure Deployment where
  chainId : Nat
  address : Address
  inRange : chainId < 2 ^ 256

/-! ## The SDK's builders -/

structure PayIntentParams where
  chainId : Nat
  verifyingContract : Address
  merchantId : Int
  token : Address
  amount : Int
  nonce : Bytes32
  validBefore : Int
  ref : Bytes32

def PAY_INTENT_TYPES : List (String × List Field) :=
  [("PayIntent",
    [⟨"merchantId", "uint256"⟩, ⟨"token", "address"⟩, ⟨"amount", "uint256"⟩, ⟨"nonce", "bytes32"⟩,
      ⟨"validBefore", "uint256"⟩, ⟨"ref", "bytes32"⟩])]

def buildPayIntentTypedData (params : PayIntentParams) : TypedData where
  domain := ⟨"StrimzPayments", "1", params.chainId, params.verifyingContract⟩
  types := PAY_INTENT_TYPES
  primaryType := "PayIntent"
  message :=
    [("merchantId", .integer params.merchantId), ("token", .address params.token),
      ("amount", .integer params.amount), ("nonce", .bytes32 params.nonce),
      ("validBefore", .integer params.validBefore), ("ref", .bytes32 params.ref)]

structure SubscriptionIntentParams where
  chainId : Nat
  verifyingContract : Address
  merchantId : Int
  token : Address
  amount : Int
  interval : Nat
  startAt : Int
  endAt : Int
  permitDeadline : Int

def SUBSCRIPTION_INTENT_TYPES : List (String × List Field) :=
  [("SubscriptionIntent",
    [⟨"merchantId", "uint256"⟩, ⟨"token", "address"⟩, ⟨"amount", "uint256"⟩,
      ⟨"interval", "uint32"⟩, ⟨"startAt", "uint64"⟩, ⟨"endAt", "uint64"⟩,
      ⟨"permitDeadline", "uint256"⟩])]

def buildSubscriptionIntentTypedData (params : SubscriptionIntentParams) : TypedData where
  domain := ⟨"StrimzSubscriptions", "1", params.chainId, params.verifyingContract⟩
  types := SUBSCRIPTION_INTENT_TYPES
  primaryType := "SubscriptionIntent"
  message :=
    [("merchantId", .integer params.merchantId), ("token", .address params.token),
      ("amount", .integer params.amount), ("interval", .integer params.interval),
      ("startAt", .integer params.startAt), ("endAt", .integer params.endAt),
      ("permitDeadline", .integer params.permitDeadline)]

structure PermitParams where
  chainId : Nat
  token : Address
  tokenName : String
  tokenVersion : String
  owner : Address
  spender : Address
  value : Int
  nonce : Int
  deadline : Int

def PERMIT_TYPES : List (String × List Field) :=
  [("Permit",
    [⟨"owner", "address"⟩, ⟨"spender", "address"⟩, ⟨"value", "uint256"⟩, ⟨"nonce", "uint256"⟩,
      ⟨"deadline", "uint256"⟩])]

def buildPermitTypedData (params : PermitParams) : TypedData where
  domain := ⟨params.tokenName, params.tokenVersion, params.chainId, params.token⟩
  types := PERMIT_TYPES
  primaryType := "Permit"
  message :=
    [("owner", .address params.owner), ("spender", .address params.spender),
      ("value", .integer params.value), ("nonce", .integer params.nonce),
      ("deadline", .integer params.deadline)]

structure ReceiveWithAuthorizationParams where
  chainId : Nat
  token : Address
  tokenName : String
  tokenVersion : String
  from_ : Address
  to_ : Address
  value : Int
  validAfter : Int
  validBefore : Int
  nonce : Bytes32

def RECEIVE_WITH_AUTHORIZATION_TYPES : List (String × List Field) :=
  [("ReceiveWithAuthorization",
    [⟨"from", "address"⟩, ⟨"to", "address"⟩, ⟨"value", "uint256"⟩, ⟨"validAfter", "uint256"⟩,
      ⟨"validBefore", "uint256"⟩, ⟨"nonce", "bytes32"⟩])]

def buildReceiveWithAuthorizationTypedData (params : ReceiveWithAuthorizationParams) :
    TypedData where
  domain := ⟨params.tokenName, params.tokenVersion, params.chainId, params.token⟩
  types := RECEIVE_WITH_AUTHORIZATION_TYPES
  primaryType := "ReceiveWithAuthorization"
  message :=
    [("from", .address params.from_), ("to", .address params.to_), ("value", .integer params.value),
      ("validAfter", .integer params.validAfter), ("validBefore", .integer params.validBefore),
      ("nonce", .bytes32 params.nonce)]

/-! ## The contracts' digests -/

section Contracts

variable (keccak : List UInt8 → Bytes32)

/-- OpenZeppelin's `EIP712`: the separator of a contract that was constructed with a name and
version. -/
def domainSeparator (name version : String) (this : Deployment) : Bytes32 :=
  keccak (abiEncode
    [keccak (utf8
        "EIP712Domain(string name,string version,uint256 chainId,address verifyingContract)"),
      keccak (utf8 name), keccak (utf8 version), BitVec.ofNat 256 this.chainId,
      this.address.setWidth 256])

/-- `_hashTypedDataV4` -/
def hashTypedDataV4 (name version : String) (this : Deployment) (structHash : Bytes32) : Bytes32 :=
  keccak (0x19 :: 0x01 ::
    (wordBytes (domainSeparator keccak name version this) ++ wordBytes structHash))

def PAY_INTENT_TYPEHASH : Bytes32 :=
  keccak (utf8 ("PayIntent(uint256 merchantId,address token,uint256 amount,bytes32 nonce," ++
    "uint256 validBefore,bytes32 ref)"))

/-- `StrimzPayments.payIntentDigest` -/
def payIntentDigest (this : Deployment) (i : PayIntent) : Bytes32 :=
  hashTypedDataV4 keccak "StrimzPayments" "1" this (keccak (abiEncode
    [PAY_INTENT_TYPEHASH keccak, BitVec.ofNat 256 i.merchantId, i.token.setWidth 256, i.amount,
      i.nonce, i.validBefore, i.ref]))

def SUBSCRIPTION_INTENT_TYPEHASH : Bytes32 :=
  keccak (utf8 ("SubscriptionIntent(uint256 merchantId,address token,uint256 amount," ++
    "uint32 interval,uint64 startAt,uint64 endAt,uint256 permitDeadline,uint256 permitValue," ++
    "bytes32 nonce)"))

/-- `StrimzSubscriptions.subscriptionIntentDigest` -/
def subscriptionIntentDigest (this : Deployment) (i : SubscriptionIntent) : Bytes32 :=
  hashTypedDataV4 keccak "StrimzSubscriptions" "1" this (keccak (abiEncode
    [SUBSCRIPTION_INTENT_TYPEHASH keccak, BitVec.ofNat 256 i.merchantId, i.token.setWidth 256,
      i.amount, i.interval.setWidth 256, i.startAt.setWidth 256, i.endAt.setWidth 256,
      i.permitDeadline, i.permitValue, i.nonce]))

end Contracts

/-! ## Requests -/

/-- The fields under `SUBSCRIPTION_INTENT_TYPEHASH`. -/
def onchainSubscriptionFields : List Field :=
  [⟨"merchantId", "uint256"⟩, ⟨"token", "address"⟩, ⟨"amount", "uint256"⟩,
    ⟨"interval", "uint32"⟩, ⟨"startAt", "uint64"⟩, ⟨"endAt", "uint64"⟩,
    ⟨"permitDeadline", "uint256"⟩, ⟨"permitValue", "uint256"⟩, ⟨"nonce", "bytes32"⟩]

/-- The message under `SUBSCRIPTION_INTENT_TYPEHASH`, as typed data. -/
def subscriptionTypedData (this : Deployment) (i : SubscriptionIntent) : TypedData where
  domain := ⟨"StrimzSubscriptions", "1", this.chainId, this.address⟩
  types := [("SubscriptionIntent", onchainSubscriptionFields)]
  primaryType := "SubscriptionIntent"
  message :=
    [("merchantId", .integer i.merchantId), ("token", .address i.token),
      ("amount", .integer i.amount.toNat), ("interval", .integer i.interval.toNat),
      ("startAt", .integer i.startAt.toNat), ("endAt", .integer i.endAt.toNat),
      ("permitDeadline", .integer i.permitDeadline.toNat),
      ("permitValue", .integer i.permitValue.toNat), ("nonce", .bytes32 i.nonce)]

/-- What a payer can be asked to sign: a message of one of the four builders, or the one the
subscriptions contract checks. -/
inductive Request where
  | payIntent (params : PayIntentParams)
  | subscriptionIntent (params : SubscriptionIntentParams)
  | permit (params : PermitParams)
  | receiveWithAuthorization (params : ReceiveWithAuthorizationParams)
  | onchainSubscription (this : Deployment) (i : SubscriptionIntent)

def Request.typedData : Request → TypedData
  | .payIntent params => buildPayIntentTypedData params
  | .subscriptionIntent params => buildSubscriptionIntentTypedData params
  | .permit params => buildPermitTypedData params
  | .receiveWithAuthorization params => buildReceiveWithAuthorizationTypedData params
  | .onchainSubscription this i => subscriptionTypedData this i

/-! ## Kinds of requests -/

inductive Kind where
  | payIntent
  | subscriptionIntent
  | permit
  | receiveWithAuthorization
  | onchainSubscription
deriving Repr, DecidableEq

def kinds : List Kind :=
  [.payIntent, .subscriptionIntent, .permit, .receiveWithAuthorization, .onchainSubscription]

theorem mem_kinds (k : Kind) : k ∈ kinds := by cases k <;> decide

def Kind.name : Kind → String
  | .payIntent => "PayIntent"
  | .subscriptionIntent => "SubscriptionIntent"
  | .permit => "Permit"
  | .receiveWithAuthorization => "ReceiveWithAuthorization"
  | .onchainSubscription => "SubscriptionIntent"

def Kind.types : Kind → List (String × List Field)
  | .payIntent => PAY_INTENT_TYPES
  | .subscriptionIntent => SUBSCRIPTION_INTENT_TYPES
  | .permit => PERMIT_TYPES
  | .receiveWithAuthorization => RECEIVE_WITH_AUTHORIZATION_TYPES
  | .onchainSubscription => [("SubscriptionIntent", onchainSubscriptionFields)]

def Kind.fields (k : Kind) : List Field := (k.types.lookup k.name).getD []

def Kind.type (k : Kind) : String := encodeType k.name k.fields

/-- Every field is one word. -/
theorem Kind.words (k : Kind) : ∀ f ∈ k.fields, f.type ≠ "string" := by
  have h : ∀ k ∈ kinds, ∀ f ∈ k.fields, f.type ≠ "string" := by decide
  exact h k (mem_kinds k)

theorem Kind.type_inj {k k' : Kind} (h : k.type = k'.type) : k = k' := by
  have hnodup : (kinds.map Kind.type).Nodup := by decide
  exact List.inj_on_of_nodup_map hnodup (mem_kinds k) (mem_kinds k') h

def Request.kind : Request → Kind
  | .payIntent _ => .payIntent
  | .subscriptionIntent _ => .subscriptionIntent
  | .permit _ => .permit
  | .receiveWithAuthorization _ => .receiveWithAuthorization
  | .onchainSubscription _ _ => .onchainSubscription

theorem fields_typedData (r : Request) : r.typedData.fields = r.kind.fields := by
  cases r <;> rfl

theorem type_typedData (r : Request) : r.typedData.type = r.kind.type := by
  cases r <;> rfl

theorem names_typedData (r : Request) :
    r.typedData.message.map Prod.fst = r.kind.fields.map Field.name := by
  cases r <;> rfl

theorem Kind.nodup_names (k : Kind) : (k.fields.map Field.name).Nodup := by
  have h : ∀ k ∈ kinds, (k.fields.map Field.name).Nodup := by decide
  exact h k (mem_kinds k)

/-- The kind, the domain and the message of a request are the request. -/
theorem Request.ext_typedData {r r' : Request} (hkind : r.kind = r'.kind)
    (hdomain : r.typedData.domain = r'.typedData.domain)
    (hmessage : r.typedData.message = r'.typedData.message) : r = r' := by
  cases r with
  | payIntent p =>
      cases r' with
      | payIntent q =>
          cases p
          cases q
          simp_all [Request.typedData, buildPayIntentTypedData]
      | _ => cases hkind
  | subscriptionIntent p =>
      cases r' with
      | subscriptionIntent q =>
          cases p
          cases q
          simp_all [Request.typedData, buildSubscriptionIntentTypedData]
      | _ => cases hkind
  | permit p =>
      cases r' with
      | permit q =>
          cases p
          cases q
          simp_all [Request.typedData, buildPermitTypedData]
      | _ => cases hkind
  | receiveWithAuthorization p =>
      cases r' with
      | receiveWithAuthorization q =>
          cases p
          cases q
          simp_all [Request.typedData, buildReceiveWithAuthorizationTypedData]
      | _ => cases hkind
  | onchainSubscription this i =>
      cases r' with
      | onchainSubscription this' j =>
          cases this
          cases this'
          cases i
          cases j
          simp_all [Request.typedData, subscriptionTypedData, BitVec.toNat_inj]
      | _ => cases hkind

/-- A digest names one request. -/
theorem digest_inj {keccak : List UInt8 → Bytes32} {T : Set (List UInt8)}
    (hT : Set.InjOn keccak T) {r r' : Request}
    (h : ∀ text ∈ preimages keccak r.typedData, text ∈ T)
    (h' : ∀ text ∈ preimages keccak r'.typedData, text ∈ T) {digest : Bytes32}
    (hd : hashTypedData keccak r.typedData = some digest)
    (hd' : hashTypedData keccak r'.typedData = some digest) : r = r' := by
  obtain ⟨hdomain, htype, hwords⟩ := hashTypedData_inj hT h h' hd hd'
  rw [type_typedData, type_typedData] at htype
  have hkind := Kind.type_inj htype
  rw [fields_typedData, fields_typedData, ← hkind] at hwords
  obtain ⟨-, -, struct, hstruct, -⟩ := hashTypedData_eq_some.mp hd
  obtain ⟨words, hfields, -⟩ := messageData_eq_some.mp hstruct
  rw [fields_typedData] at hfields
  refine Request.ext_typedData hkind hdomain (message_ext ?_ ?_ ?_)
  · rw [names_typedData, names_typedData, hkind]
  · rw [names_typedData]
    exact r.kind.nodup_names
  · intro name hname
    rw [names_typedData] at hname
    obtain ⟨f, hf, rfl⟩ := List.mem_map.mp hname
    exact encodeFields_inj r.kind.words hfields (hwords ▸ hfields) f hf

/-! ## The wallet's digest is the contract's -/

section Agreement

variable {keccak : List UInt8 → Bytes32} {this : Deployment}

/-- The parameters under which the SDK builds a contract's pay intent. -/
def payIntentParams (this : Deployment) (i : PayIntent) : PayIntentParams where
  chainId := this.chainId
  verifyingContract := this.address
  merchantId := i.merchantId
  token := i.token
  amount := i.amount.toNat
  nonce := i.nonce
  validBefore := i.validBefore.toNat
  ref := i.ref

theorem domain_type : encodeType "EIP712Domain" domainFields =
    "EIP712Domain(string name,string version,uint256 chainId,address verifyingContract)" := by
  decide

theorem payIntent_type : Kind.payIntent.type =
    "PayIntent(uint256 merchantId,address token,uint256 amount,bytes32 nonce," ++
      "uint256 validBefore,bytes32 ref)" := by
  decide

theorem onchainSubscription_type : Kind.onchainSubscription.type =
    "SubscriptionIntent(uint256 merchantId,address token,uint256 amount," ++
      "uint32 interval,uint64 startAt,uint64 endAt,uint256 permitDeadline,uint256 permitValue," ++
      "bytes32 nonce)" := by
  rfl

theorem encodeValue_natCast {type : String} {bits n : Nat} (hbits : uintBits type = some bits)
    (hn : n < 2 ^ bits) :
    encodeValue keccak type (.integer n) = some (BitVec.ofNat 256 n) := by
  rw [encodeValue_uint hbits, if_pos ⟨Int.natCast_nonneg n, by exact_mod_cast hn⟩,
    BitVec.ofInt_natCast]

theorem encodeValue_toNat {type : String} {bits : Nat} (hbits : uintBits type = some bits)
    (w : BitVec bits) :
    encodeValue keccak type (.integer w.toNat) = some (w.setWidth 256) := by
  rw [encodeValue_natCast hbits w.isLt, BitVec.ofNat_toNat]

/-- A request of a deployment whose words are known hashes to what `_hashTypedDataV4` makes of
them. -/
theorem hashTypedData_eq {td : TypedData} {name version : String} {words : List Bytes32}
    (hdomain : td.domain = ⟨name, version, this.chainId, this.address⟩)
    (hwords : encodeFields keccak td.message td.fields = some words) :
    hashTypedData keccak td = some (hashTypedDataV4 keccak name version this
      (keccak (abiEncode (keccak (utf8 td.type) :: words)))) := by
  refine hashTypedData_eq_some.mpr ⟨_, domainData_eq_some.mpr ⟨?_, rfl⟩, _,
    messageData_eq_some.mpr ⟨words, hwords, rfl⟩, ?_⟩
  · rw [hdomain]
    exact this.inRange
  · rw [hdomain, domain_type]
    rfl

theorem payIntent_fields : Kind.payIntent.fields =
    [⟨"merchantId", "uint256"⟩, ⟨"token", "address"⟩, ⟨"amount", "uint256"⟩,
      ⟨"nonce", "bytes32"⟩, ⟨"validBefore", "uint256"⟩, ⟨"ref", "bytes32"⟩] := by
  rfl

theorem onchainSubscription_fields :
    Kind.onchainSubscription.fields = onchainSubscriptionFields := by
  rfl

theorem uintBits_uint64 : uintBits "uint64" = some 64 := by decide

theorem uintBits_uint32 : uintBits "uint32" = some 32 := by decide

theorem hashTypedData_payIntent {i : PayIntent} (hid : i.merchantId < 2 ^ 256) :
    hashTypedData keccak (buildPayIntentTypedData (payIntentParams this i)) =
      some (payIntentDigest keccak this i) := by
  have hwords : encodeFields keccak (buildPayIntentTypedData (payIntentParams this i)).message
      Kind.payIntent.fields = some [BitVec.ofNat 256 i.merchantId, i.token.setWidth 256, i.amount,
        i.nonce, i.validBefore, i.ref] := by
    rw [payIntent_fields, encodeFields_cons rfl, encodeFields_cons rfl, encodeFields_cons rfl,
      encodeFields_cons rfl, encodeFields_cons rfl, encodeFields_cons rfl]
    simp only [payIntentParams, encodeValue_natCast uintBits_uint256 hid,
      encodeValue_toNat uintBits_uint256, BitVec.setWidth_eq]
    rfl
  rw [hashTypedData_eq rfl hwords, payIntentDigest, PAY_INTENT_TYPEHASH, ← payIntent_type]
  rfl

theorem hashTypedData_onchainSubscription {i : SubscriptionIntent}
    (hid : i.merchantId < 2 ^ 256) :
    hashTypedData keccak (subscriptionTypedData this i) =
      some (subscriptionIntentDigest keccak this i) := by
  have hwords : encodeFields keccak (subscriptionTypedData this i).message
      Kind.onchainSubscription.fields = some [BitVec.ofNat 256 i.merchantId,
        i.token.setWidth 256, i.amount, i.interval.setWidth 256, i.startAt.setWidth 256,
        i.endAt.setWidth 256, i.permitDeadline, i.permitValue, i.nonce] := by
    rw [onchainSubscription_fields, onchainSubscriptionFields, encodeFields_cons rfl,
      encodeFields_cons rfl, encodeFields_cons rfl, encodeFields_cons rfl, encodeFields_cons rfl,
      encodeFields_cons rfl, encodeFields_cons rfl, encodeFields_cons rfl, encodeFields_cons rfl]
    simp only [encodeValue_natCast uintBits_uint256 hid, encodeValue_toNat uintBits_uint256,
      encodeValue_toNat uintBits_uint64, encodeValue_toNat uintBits_uint32, BitVec.setWidth_eq]
    rfl
  rw [hashTypedData_eq rfl hwords, subscriptionIntentDigest, SUBSCRIPTION_INTENT_TYPEHASH,
    ← onchainSubscription_type]
  rfl

end Agreement

/-! ## What a signature is good for -/

section Scope

variable {keccak : List UInt8 → Bytes32} {T : Set (List UInt8)}

/-- The texts hashed for a request are among `T`. -/
def Request.Hashes (keccak : List UInt8 → Bytes32) (T : Set (List UInt8)) (r : Request) : Prop :=
  ∀ text ∈ preimages keccak r.typedData, text ∈ T

/-- A signature over one request is a signature over no other, whatever its kind, contract or
chain; and the digests the two contracts check are those of the requests they stand for. -/
theorem signature_scope (hT : Set.InjOn keccak T) {r : Request} (hr : r.Hashes keccak T)
    {digest : Bytes32} (hd : hashTypedData keccak r.typedData = some digest) :
    (∀ r' : Request, r'.Hashes keccak T →
      (hashTypedData keccak r'.typedData = some digest ↔ r' = r)) ∧
    (∀ (this : Deployment) (i : PayIntent), i.merchantId < 2 ^ 256 →
      (Request.payIntent (payIntentParams this i)).Hashes keccak T →
      (payIntentDigest keccak this i = digest ↔ Request.payIntent (payIntentParams this i) = r)) ∧
    ∀ (this : Deployment) (i : SubscriptionIntent), i.merchantId < 2 ^ 256 →
      (Request.onchainSubscription this i).Hashes keccak T →
      (subscriptionIntentDigest keccak this i = digest ↔
        Request.onchainSubscription this i = r) := by
  have hscope (r' : Request) (hr' : r'.Hashes keccak T) :
      hashTypedData keccak r'.typedData = some digest ↔ r' = r :=
    ⟨fun hd' => digest_inj hT hr' hr hd' hd, fun h => h ▸ hd⟩
  refine ⟨hscope, fun this i hid hi => ?_, fun this i hid hi => ?_⟩
  · rw [← hscope _ hi, ← Option.some_inj, ← hashTypedData_payIntent hid]
    rfl
  · rw [← hscope _ hi, ← Option.some_inj, ← hashTypedData_onchainSubscription hid]
    rfl

end Scope

def sampleDeployment : Deployment := ⟨5042002, 101, by decide⟩

def sampleIntent : SubscriptionIntent := ⟨1, 200, 1000, 3600, 0, 0, 99, 5000, 7⟩

/-- The request the checkout builds for these terms. -/
def sampleRequest : Request :=
  .subscriptionIntent ⟨5042002, 101, 1, 200, 1000, 3600, 0, 0, 99⟩

def sampleDomainHash : Bytes32 :=
  0x7545709ede6dc40ec734a12b453a8bd62ee8a8985520b05720f58a7b163f9e65

/-- Keccak-256 of the texts of the two requests. -/
def sampleHashes : List (List UInt8 × Bytes32) :=
  [(utf8 "EIP712Domain(string name,string version,uint256 chainId,address verifyingContract)",
      0x8b73c3c69bb8fe3d512ecc4cf759cc79239f7b179b0ffacaa9a75d522b39400f),
    (utf8 "StrimzSubscriptions",
      0xbb480d545f9c11e7d90832893d592dfb10e33a990afeb91df004b5162ba5372b),
    (utf8 "1", 0xc89efdaa54c0f20c7adf612882df0950f5a951637e0307cdcb4c672f298b8bc6),
    (utf8 Kind.subscriptionIntent.type,
      0x9d5a0252653269ad80d01265f16972570523e4697173aa40299fe17edfc30bef),
    (utf8 Kind.onchainSubscription.type,
      0xf9b4881ec4152941f7459654b43ca8fbb4e8c7a8778bbdf1bff66dd02fed677a),
    (abiEncode [0x8b73c3c69bb8fe3d512ecc4cf759cc79239f7b179b0ffacaa9a75d522b39400f,
      0xbb480d545f9c11e7d90832893d592dfb10e33a990afeb91df004b5162ba5372b,
      0xc89efdaa54c0f20c7adf612882df0950f5a951637e0307cdcb4c672f298b8bc6, 5042002, 101],
      sampleDomainHash),
    (abiEncode [0x9d5a0252653269ad80d01265f16972570523e4697173aa40299fe17edfc30bef, 1, 200, 1000,
      3600, 0, 0, 99], 0x355ced4dd4779bd38eb4b2966a8e7f48d6dcea270034f162b792e7b5be051670),
    (abiEncode [0xf9b4881ec4152941f7459654b43ca8fbb4e8c7a8778bbdf1bff66dd02fed677a, 1, 200, 1000,
      3600, 0, 0, 99, 5000, 7],
      0x2b6b2efb88bf46398f407b03e4213f10cb0f85d53e9e4ce9dddecf6890cb99df),
    (0x19 :: 0x01 :: (wordBytes sampleDomainHash ++
      wordBytes 0x355ced4dd4779bd38eb4b2966a8e7f48d6dcea270034f162b792e7b5be051670),
      0x5e107c81e7da87ea6b73ecda6d6c1a4a2b02215b57eb54318dcc3b7ba26b084c),
    (0x19 :: 0x01 :: (wordBytes sampleDomainHash ++
      wordBytes 0x2b6b2efb88bf46398f407b03e4213f10cb0f85d53e9e4ce9dddecf6890cb99df),
      0x91dce53da8f3440d228797ff7b9c03ecd2c26aa63dcaba8f20f9308ed71d94d4)]

def sampleKeccak (text : List UInt8) : Bytes32 := (sampleHashes.lookup text).getD 0

def sampleTexts : List (List UInt8) :=
  preimages sampleKeccak sampleRequest.typedData ++
    preimages sampleKeccak (subscriptionTypedData sampleDeployment sampleIntent)

/-- A table whose values differ tells its keys apart. -/
theorem lookup_inj {α β : Type} [BEq α] [LawfulBEq α] {table : List (α × β)} {d : β}
    (h : (table.map Prod.snd).Nodup) :
    Set.InjOn (fun a => (table.lookup a).getD d) {a | a ∈ table.map Prod.fst} := by
  have hmem : ∀ a ∈ table.map Prod.fst, (a, (table.lookup a).getD d) ∈ table := by
    intro a ha
    obtain ⟨p, hp, rfl⟩ := List.mem_map.mp ha
    have hsome : (table.lookup p.1).isSome = true :=
      List.lookup_isSome_iff.mpr ⟨p, hp, beq_self_eq_true p.1⟩
    obtain ⟨v, hv⟩ := Option.isSome_iff_exists.mp hsome
    obtain ⟨before, after, rfl, -⟩ := List.lookup_eq_some_iff.mp hv
    simp [hv]
  intro a ha b hb heq
  have hpair := List.inj_on_of_nodup_map h (hmem a ha) (hmem b hb) heq
  exact congrArg Prod.fst hpair

theorem sampleTexts_hashed : ∀ text ∈ sampleTexts, text ∈ sampleHashes.map Prod.fst := by
  decide +kernel

theorem sampleTexts_inj : Set.InjOn sampleKeccak {text | text ∈ sampleTexts} :=
  (lookup_inj (by decide)).mono sampleTexts_hashed

theorem hashes_sampleRequest : sampleRequest.Hashes sampleKeccak {text | text ∈ sampleTexts} :=
  fun _ h => List.mem_append_left _ h

theorem hashes_sampleIntent : (Request.onchainSubscription sampleDeployment sampleIntent).Hashes
    sampleKeccak {text | text ∈ sampleTexts} :=
  fun _ h => List.mem_append_right _ h

def sampleDigest : Bytes32 := 0x5e107c81e7da87ea6b73ecda6d6c1a4a2b02215b57eb54318dcc3b7ba26b084c

theorem sampleRequest_digest :
    hashTypedData sampleKeccak sampleRequest.typedData = some sampleDigest := by
  decide +kernel

/-- The checkout's signature is not one over the intent the contract checks. -/
theorem signature_scope_sample :
    subscriptionIntentDigest sampleKeccak sampleDeployment sampleIntent ≠ sampleDigest := by
  have h := signature_scope sampleTexts_inj hashes_sampleRequest sampleRequest_digest
  intro heq
  cases (h.2.2 sampleDeployment sampleIntent (by decide) hashes_sampleIntent).mp heq

end Strimz.TypedIntents
