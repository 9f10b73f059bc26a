import Strimz.Script

/-!
# Webhook signatures

`signWebhookPayload`, `verifyWebhookSignature` and what they are made of
(`packages/shared-crypto/src/webhook.ts`, `encoding.ts`, `timing-safe.ts`). HMAC-SHA256 is a
parameter that tells messages apart. A timestamp is an integer that is a number; options and the
clock are any numbers.
-/

namespace Strimz.WebhookSignature

open Script Binary64

/-! ## Hex -/

def HEX_CHARS : Str := text "0123456789abcdef"

def hexCode (n : ℕ) : CodeUnit := HEX_CHARS.getD n 0

def toHex (bytes : List UInt8) : Str :=
  bytes.flatMap fun b => [hexCode (b.toNat / 16), hexCode (b.toNat % 16)]

inductive Thrown where
  | oddLength
  | nonHexCharacter
deriving Repr, DecidableEq

def Thrown.message : Thrown → String
  | .oddLength => "fromHex: odd-length hex input"
  | .nonHexCharacter => "fromHex: non-hex character"

/-- A `0x` in front is optional. -/
def clean (hex : Str) : Str := if (text "0x").isPrefixOf hex = true then hex.drop 2 else hex

/-- `out[i] = byte` keeps the lowest eight bits. -/
def byteOf (v : ℤ) : UInt8 := UInt8.ofNat (v % 256).toNat

/-- The loop of `fromHex`. -/
def hexPairs : Str → Except Thrown (List UInt8)
  | c :: d :: rest =>
      match parseInt16 [c, d] with
      | none => .error .nonHexCharacter
      | some byte => (hexPairs rest).map (byteOf byte :: ·)
  | _ => .ok []

def fromHex (hex : Str) : Except Thrown (List UInt8) :=
  if (clean hex).length % 2 ≠ 0 then .error .oddLength else hexPairs (clean hex)

def timingSafeEqualBytes (a b : List UInt8) : Bool :=
  if a.length ≠ b.length then false
  else (List.zipWith (· ^^^ ·) a b).foldl (· ||| ·) 0 == 0

/-! ## HMAC -/

/-- HMAC-SHA256 as far as signatures rest on it. -/
structure Hmac where
  mac : List UInt8 → List UInt8 → List UInt8
  injective : ∀ key, Function.Injective (mac key)
  nonempty : ∀ key message, mac key message ≠ []

variable (H : Hmac)

def hmacSha256 (key message : Str) : List UInt8 := H.mac (utf8ToBytes key) (utf8ToBytes message)

/-! ## Signing -/

def WEBHOOK_SIGNATURE_VERSION : Str := text "v1"

/-- `${t}.${payload}` -/
def signedBody (t : ℤ) (payload : Str) : Str := integerToString t ++ 46 :: payload

def macOf (secret : Str) (t : ℤ) (payload : Str) : List UInt8 :=
  hmacSha256 H secret (signedBody t payload)

/-- `t=${t},v1=${signature}` -/
def header (t signature : Str) : Str :=
  (text "t=" ++ t) ++ 44 :: (WEBHOOK_SIGNATURE_VERSION ++ text "=" ++ signature)

def signWebhookPayload (payload secret : Str) (timestampSeconds : Option ℤ) (clock : ℤ) : Str :=
  let t := timestampSeconds.getD clock
  header (integerToString t) (toHex (macOf H secret t payload))

/-! ## Verification -/

inductive VerifyWebhookReason where
  | malformed_header
  | missing_timestamp
  | missing_signature
  | timestamp_out_of_range
  | signature_mismatch
deriving Repr, DecidableEq

inductive VerifyWebhookResult where
  | valid
  | invalid (reason : VerifyWebhookReason)
deriving Repr, DecidableEq

structure VerifyWebhookOptions where
  toleranceSeconds : Option Number
  nowSeconds : Option Number

def WEBHOOK_SIGNATURE_TOLERANCE_SECONDS : Number := .ofInt 300

def VerifyWebhookOptions.tolerance (options : VerifyWebhookOptions) : Number :=
  options.toleranceSeconds.getD WEBHOOK_SIGNATURE_TOLERANCE_SECONDS

/-- `clock` is `Math.floor(Date.now() / 1000)`. -/
def VerifyWebhookOptions.now (options : VerifyWebhookOptions) (clock : Number) : Number :=
  options.nowSeconds.getD clock

structure ParsedSignatureHeader where
  timestamp : Option ℤ
  signatureHex : Option Str
deriving Repr, DecidableEq

/-- One part of the header; the last one of a key counts. -/
def parsePart (parsed : ParsedSignatureHeader) (part : Str) : Option ParsedSignatureHeader :=
  match part.idxOf? 61 with
  | none => none
  | some 0 => none
  | some eq =>
      if trim (part.take eq) = text "t" then
        (stringToNumber (trim (part.drop (eq + 1)))).toInt?.map fun n =>
          { parsed with timestamp := some n }
      else if trim (part.take eq) = WEBHOOK_SIGNATURE_VERSION then
        some { parsed with signatureHex := some (trim (part.drop (eq + 1))) }
      else some parsed

def parseSignatureHeader (header : Str) : Option ParsedSignatureHeader :=
  if header = [] then none
  else (header.splitOn 44).foldlM parsePart ⟨none, none⟩

/-- `Math.abs(now - timestamp) > tolerance` is false. -/
def TimeAccepted (now : Number) (t : ℤ) (tolerance : Number) : Prop :=
  (now.sub (.ofInt t)).abs.gt tolerance = false

instance (now : Number) (t : ℤ) (tolerance : Number) : Decidable (TimeAccepted now t tolerance) :=
  inferInstanceAs (Decidable (_ = _))

def verifyWebhookSignature (payload signatureHeader secret : Str) (options : VerifyWebhookOptions)
    (clock : Number) : Except Thrown VerifyWebhookResult :=
  match parseSignatureHeader signatureHeader with
  | none => .ok (.invalid .malformed_header)
  | some ⟨none, _⟩ => .ok (.invalid .missing_timestamp)
  | some ⟨some _, none⟩ => .ok (.invalid .missing_signature)
  | some ⟨some t, some signatureHex⟩ =>
      if signatureHex = [] then .ok (.invalid .missing_signature)
      else if ¬ TimeAccepted (options.now clock) t options.tolerance then
        .ok (.invalid .timestamp_out_of_range)
      else match fromHex signatureHex with
        | .error _ => .ok (.invalid .signature_mismatch)
        | .ok provided =>
            if timingSafeEqualBytes (macOf H secret t payload) provided = true then .ok .valid
            else .ok (.invalid .signature_mismatch)

/-! ## Decoding -/

theorem hexCode_spec {n : ℕ} (h : n < 16) : digitOf (hexCode n) = some n ∧
    isSpace (hexCode n) = false ∧ hexCode n ≠ 44 ∧ hexCode n ≠ 45 ∧ hexCode n ≠ 103 ∧
    hexCode n ≠ 120 := by
  interval_cases n <;> decide

theorem timingSafeEqualBytes_iff {a b : List UInt8} : timingSafeEqualBytes a b = true ↔ a = b := by
  have hfold : ∀ (l : List UInt8) (x : UInt8),
      l.foldl (· ||| ·) x = 0 ↔ x = 0 ∧ ∀ y ∈ l, y = 0 := by
    intro l
    induction l with
    | nil => simp
    | cons y l ih =>
        intro x
        rw [List.foldl_cons, ih, UInt8.or_eq_zero_iff, List.forall_mem_cons, and_assoc]
  have hxor : ∀ (a b : List UInt8), a.length = b.length →
      ((∀ y ∈ List.zipWith (· ^^^ ·) a b, y = 0) ↔ a = b) := by
    intro a
    induction a with
    | nil =>
        intro b hlen
        rw [List.eq_nil_of_length_eq_zero hlen.symm]
        simp
    | cons x a ih =>
        intro b hlen
        cases b with
        | nil => cases hlen
        | cons y b =>
            rw [List.zipWith_cons_cons, List.forall_mem_cons, ih b (Nat.succ.inj hlen),
              UInt8.xor_eq_zero_iff, List.cons.injEq]
  unfold timingSafeEqualBytes
  split
  · rename_i hlen
    constructor
    · intro h
      cases h
    · rintro rfl
      exact absurd rfl hlen
  · rename_i hlen
    rw [beq_iff_eq, hfold, hxor a b (not_not.mp hlen)]
    exact and_iff_right rfl

/-- Text that spells the bytes pair by pair, without an `x`, has no `0x` in front. -/
theorem clean_flatMap (pair : UInt8 → CodeUnit × CodeUnit) (hpair : ∀ b, (pair b).2 ≠ 120)
    (bytes : List UInt8) : clean (bytes.flatMap fun b => [(pair b).1, (pair b).2]) =
      bytes.flatMap fun b => [(pair b).1, (pair b).2] := by
  cases bytes with
  | nil => rfl
  | cons b bytes =>
      rw [clean, if_neg]
      rw [List.isPrefixOf_iff_prefix]
      rintro ⟨rest, hrest⟩
      rw [List.flatMap_cons] at hrest
      exact hpair b (List.cons.inj (List.cons.inj hrest).2).1.symm

/-- It is decoded to them if every pair is. -/
theorem fromHex_flatMap (pair : UInt8 → CodeUnit × CodeUnit)
    (hpair : ∀ b, (pair b).2 ≠ 120 ∧
      (parseInt16 [(pair b).1, (pair b).2]).map byteOf = some b) (bytes : List UInt8) :
    fromHex (bytes.flatMap fun b => [(pair b).1, (pair b).2]) = .ok bytes := by
  have hpairs : hexPairs (bytes.flatMap fun b => [(pair b).1, (pair b).2]) = .ok bytes := by
    induction bytes with
    | nil => rfl
    | cons b bytes ih =>
        obtain ⟨v, hv, hb⟩ := Option.map_eq_some_iff.mp (hpair b).2
        rw [List.flatMap_cons, List.cons_append, List.cons_append, List.nil_append, hexPairs, hv,
          ih]
        show Except.ok (byteOf v :: bytes) = _
        rw [hb]
  have hlen : (bytes.flatMap fun b => [(pair b).1, (pair b).2]).length % 2 = 0 := by
    rw [List.length_flatMap]
    simp
  rw [fromHex, clean_flatMap pair (fun b => (hpair b).1), if_neg (not_not.mpr hlen), hpairs]

theorem fromHex_toHex (bytes : List UInt8) : fromHex (toHex bytes) = .ok bytes := by
  have hall : ∀ n < 256, hexCode (n % 16) ≠ 120 ∧
      (parseInt16 [hexCode (n / 16), hexCode (n % 16)]).map byteOf = some (UInt8.ofNat n) := by
    decide +kernel
  refine fromHex_flatMap (fun b => (hexCode (b.toNat / 16), hexCode (b.toNat % 16)))
    (fun b => ?_) bytes
  have hb := hall b.toNat b.toNat_lt
  rwa [UInt8.ofNat_toNat] at hb

end Strimz.WebhookSignature
