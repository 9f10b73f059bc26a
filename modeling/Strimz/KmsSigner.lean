import Strimz.Der
import Strimz.Secp256k1

/-!
# Signing with a KMS key

`AwsKmsSigner.signDigest`: it asks KMS for a signature of a digest, reads the DER, lowers `s` and
tries both parities until one recovers to the signer's address. The client, `recoverAddress` and
`serializeSignature` are third-party code and parameters; of recovery it is assumed that it is
ECDSA's (`Viem.Correct`). `returns_iff` says for which answers a signature comes back.
-/

namespace Strimz.KmsSigner

open Der
open Secp256k1 (n Point points)

def SECP256K1_N : Nat := 0xfffffffffffffffffffffffffffffffebaaedce6af48a03bbfd25e8cd0364141

def SECP256K1_HALF_N : Nat := SECP256K1_N / 2

/-! ## The signer -/

structure SignCommand where
  keyId : String
  message : List UInt8
  messageType : String
  signingAlgorithm : String
deriving Repr, DecidableEq

structure SignCommandOutput where
  signature : Option (List UInt8)
deriving Repr, DecidableEq

/-- A signature as viem has it; `r` and `s` are below `2 ^ 256`, so their 32 bytes hold them. -/
structure Signature where
  r : Nat
  s : Nat
  yParity : Nat
deriving Repr, DecidableEq

structure Viem (Address Hex : Type) where
  recoverAddress : List UInt8 → Signature → Except String Address
  serializeSignature : Signature → Hex

structure AwsKmsSigner (Address : Type) where
  address : Address
  keyId : String
  send : SignCommand → Except String SignCommandOutput

inductive SignError where
  | digestLength (length : Nat)
  | kms (message : String)
  | noSignature
  | der (e : DerError)
  | outsideOrder
  | recover (message : String)
  | otherAddress
deriving Repr, DecidableEq

def SignError.message (keyId address : String) : SignError → String
  | .digestLength length =>
      "AWS KMS signs 32 bytes digests; got " ++ toString length ++ " bytes"
  | .kms message | .recover message => message
  | .noSignature => "AWS KMS key " ++ keyId ++ " returned no signature"
  | .der e => e.message
  | .outsideOrder =>
      "AWS KMS key " ++ keyId ++ " returned a signature outside the curve order"
  | .otherAddress =>
      "AWS KMS key " ++ keyId ++ " returned a signature that does not recover to " ++ address

section Sign

variable {Address Hex : Type} [DecidableEq Address] (viem : Viem Address Hex)
  (signer : AwsKmsSigner Address)

/-- The loop over the parities. -/
def tryParities (digest : List UInt8) (r s : Nat) : List Nat → Except SignError Hex
  | [] => .error .otherAddress
  | yParity :: rest =>
      match viem.recoverAddress digest ⟨r, s, yParity⟩ with
      | .error e => .error (.recover e)
      | .ok address =>
          if address = signer.address then .ok (viem.serializeSignature ⟨r, s, yParity⟩)
          else tryParities digest r s rest

def lowS (s : Nat) : Nat := if s > SECP256K1_HALF_N then SECP256K1_N - s else s

def command (digest : List UInt8) : SignCommand where
  keyId := signer.keyId
  message := digest
  messageType := "DIGEST"
  signingAlgorithm := "ECDSA_SHA_256"

def signDigest (digest : List UInt8) : Except SignError Hex :=
  if digest.length ≠ 32 then .error (.digestLength digest.length)
  else
    match signer.send (command signer digest) with
    | .error e => .error (.kms e)
    | .ok output =>
        match output.signature with
        | none => .error .noSignature
        | some der =>
            match decodeEcdsaSignature der with
            | .error e => .error (.der e)
            | .ok (r, s) =>
                if r = 0 ∨ r ≥ SECP256K1_N ∨ s = 0 ∨ s ≥ SECP256K1_N then .error .outsideOrder
                else tryParities viem signer digest r (lowS s) [0, 1]

end Sign

/-! ## Recovery -/

def InRange (v : Nat) : Prop := 0 < v ∧ v < SECP256K1_N

instance (v : Nat) : Decidable (InRange v) := inferInstanceAs (Decidable (_ ∧ _))

theorem InRange.scalar {v : Nat} (h : InRange v) : 0 < v ∧ v < n := h

section Recovery

variable {Address Hex : Type}

/-- `recoverAddress` is ECDSA's key recovery, and rejects where there is no key to recover. -/
structure Viem.Correct (viem : Viem Address Hex) (publicKeyToAddress : Point → Address) :
    Prop where
  ok : ∀ digest r s v q, digest.length = 32 → InRange r → InRange s → v < 2 →
    points.Recovers (bytesToBigInt digest) r s v q → q ≠ 0 →
    viem.recoverAddress digest ⟨r, s, v⟩ = .ok (publicKeyToAddress q)
  rejects : ∀ digest r s v, digest.length = 32 → InRange r → InRange s → v < 2 →
    (∀ q, points.Recovers (bytesToBigInt digest) r s v q → q = 0) →
    ∃ e, viem.recoverAddress digest ⟨r, s, v⟩ = .error e

/-- The even parity, which is tried first, recovers a key: this one or another, and not the point
at infinity. -/
def FirstRecovers (q : Point) (z r s : Nat) : Prop :=
  points.y (points.nonce q z r (lowS s)) % 2 = 0 ∨ ¬ points.OtherInfinite q z r

/-- The answer is a signature of the digest by a key of the address, of the kind that a parity is
enough to recover. -/
structure Signed (publicKeyToAddress : Point → Address) (address : Address)
    (digest der : List UInt8) (q : Point) (r s : Nat) : Prop where
  der : IsSignature der r s
  key : q ≠ 0 ∧ publicKeyToAddress q = address
  valid : points.Valid q (bytesToBigInt digest) r s
  abscissa : points.x (points.nonce q (bytesToBigInt digest) r s) < SECP256K1_N
  first : FirstRecovers q (bytesToBigInt digest) r s

variable {viem : Viem Address Hex} {publicKeyToAddress : Point → Address} {digest : List UInt8}
  {q : Point} {z r s v : Nat}

theorem Viem.Correct.recovers (h : viem.Correct publicKeyToAddress) (hdigest : digest.length = 32)
    (hr : InRange r) (hs : InRange s) (hv : v < 2) {a : Address}
    (hok : viem.recoverAddress digest ⟨r, s, v⟩ = .ok a) :
    ∃ q, points.Recovers (bytesToBigInt digest) r s v q ∧ q ≠ 0 ∧ publicKeyToAddress q = a := by
  by_contra hnone
  have hrejects := h.rejects digest r s v hdigest hr hs hv fun q hq => by
    by_contra hne
    have hok' := h.ok digest r s v q hdigest hr hs hv hq hne
    rw [hok] at hok'
    exact hnone ⟨q, hq, hne, (Except.ok.inj hok').symm⟩
  obtain ⟨e, he⟩ := hrejects
  rw [hok] at he
  cases he

/-! ## The lower half -/

theorem lowS_range (hs : InRange s) : 0 < lowS s ∧ lowS s ≤ SECP256K1_HALF_N := by
  have hhalf : SECP256K1_N = 2 * SECP256K1_HALF_N + 1 := by decide
  obtain ⟨hpos, hlt⟩ := hs
  unfold lowS
  split <;> omega

theorem lowS_inRange (hs : InRange s) : InRange (lowS s) := by
  obtain ⟨hpos, hle⟩ := lowS_range hs
  have hhalf : SECP256K1_HALF_N < SECP256K1_N := by decide
  exact ⟨hpos, by omega⟩

theorem nonce_lowS (hs : InRange s) :
    points.nonce q z r (lowS s) = points.nonce q z r s ∨
      points.nonce q z r (lowS s) = -points.nonce q z r s := by
  unfold lowS
  split
  · exact .inr (Ecdsa.Curve.nonce_neg (show s ≤ n from hs.2.le))
  · exact .inl rfl

theorem abscissa_lowS (hs : InRange s) :
    points.x (points.nonce q z r (lowS s)) = points.x (points.nonce q z r s) := by
  rcases nonce_lowS hs with h | h
  · rw [h]
  · rw [h, points.x_neg]

theorem valid_lowS (hs : InRange s) : points.Valid q z r (lowS s) ↔ points.Valid q z r s := by
  constructor
  · intro h
    refine ⟨h.r_range, hs, ?_, ?_⟩
    · rcases nonce_lowS hs with heq | heq
      · exact heq ▸ h.finite
      · exact neg_ne_zero.mp (heq ▸ h.finite)
    · rw [← abscissa_lowS hs]
      exact h.abscissa
  · intro h
    refine ⟨h.r_range, lowS_inRange hs, ?_, ?_⟩
    · rcases nonce_lowS hs with heq | heq
      · exact heq ▸ h.finite
      · exact heq ▸ neg_ne_zero.mpr h.finite
    · rw [abscissa_lowS hs]
      exact h.abscissa

end Recovery

/-! ## Which answers are returned -/

section Returns

variable {Address Hex : Type} [DecidableEq Address] {viem : Viem Address Hex}
  {signer : AwsKmsSigner Address} {publicKeyToAddress : Point → Address} {digest : List UInt8}
  {r s : Nat}

theorem tryParities_eq_ok {hex : Hex} :
    tryParities viem signer digest r s [0, 1] = .ok hex ↔
      (viem.recoverAddress digest ⟨r, s, 0⟩ = .ok signer.address ∧
          hex = viem.serializeSignature ⟨r, s, 0⟩) ∨
        ((∃ a, viem.recoverAddress digest ⟨r, s, 0⟩ = .ok a ∧ a ≠ signer.address) ∧
          viem.recoverAddress digest ⟨r, s, 1⟩ = .ok signer.address ∧
            hex = viem.serializeSignature ⟨r, s, 1⟩) := by
  unfold tryParities
  cases h₀ : viem.recoverAddress digest ⟨r, s, 0⟩ with
  | error e => simp
  | ok a =>
      dsimp only
      by_cases ha : a = signer.address
      · simp [ha, eq_comm]
      · rw [if_neg ha]
        unfold tryParities
        cases h₁ : viem.recoverAddress digest ⟨r, s, 1⟩ with
        | error e => simp [ha]
        | ok b =>
            dsimp only
            by_cases hb : b = signer.address
            · simp [ha, hb, eq_comm]
            · simp [ha, hb, tryParities]

theorem signDigest_eq_ok {hex : Hex} :
    signDigest viem signer digest = .ok hex ↔ digest.length = 32 ∧ ∃ der r s,
      signer.send (command signer digest) = .ok ⟨some der⟩ ∧ IsSignature der r s ∧ InRange r ∧
        InRange s ∧ tryParities viem signer digest r (lowS s) [0, 1] = .ok hex := by
  constructor
  · intro h
    unfold signDigest at h
    split at h
    · cases h
    rename_i hdigest
    cases hsend : signer.send (command signer digest) with
    | error e => rw [hsend] at h; cases h
    | ok output =>
    obtain ⟨signature⟩ := output
    rw [hsend] at h
    dsimp only at h
    cases signature with
    | none => cases h
    | some der =>
    dsimp only at h
    cases hdecode : decodeEcdsaSignature der with
    | error e => rw [hdecode] at h; cases h
    | ok rs =>
    obtain ⟨r, s⟩ := rs
    rw [hdecode] at h
    dsimp only at h
    split at h
    · cases h
    rename_i hrange
    exact ⟨not_not.mp hdigest, der, r, s, rfl, decode_iff.mp hdecode, ⟨by omega, by omega⟩,
      ⟨by omega, by omega⟩, h⟩
  · rintro ⟨hdigest, der, r, s, hsend, hder, ⟨hr, hrN⟩, ⟨hs, hsN⟩, htry⟩
    have hrange : ¬ (r = 0 ∨ r ≥ SECP256K1_N ∨ s = 0 ∨ s ≥ SECP256K1_N) := by omega
    unfold signDigest
    rw [if_neg (not_not.mpr hdigest), hsend]
    dsimp only
    rw [decode_iff.mpr hder]
    dsimp only
    rw [if_neg hrange, htry]

variable (hviem : viem.Correct publicKeyToAddress)

include hviem

/-- What a returned signature says of the answer. -/
theorem signed_of_tryParities (hdigest : digest.length = 32) {der : List UInt8}
    (hder : IsSignature der r s) (hr : InRange r) (hs : InRange s) {hex : Hex}
    (h : tryParities viem signer digest r (lowS s) [0, 1] = .ok hex) :
    ∃ q, Signed publicKeyToAddress signer.address digest der q r s := by
  have hlow := lowS_inRange hs
  have hback {q : Point} {v : Nat} (hq : points.Recovers (bytesToBigInt digest) r (lowS s) v q) :
      points.Valid q (bytesToBigInt digest) r s ∧
        points.x (points.nonce q (bytesToBigInt digest) r s) < SECP256K1_N := by
    obtain ⟨hvalid, hx⟩ := hq.valid hr hlow
    rw [abscissa_lowS hs] at hx
    exact ⟨(valid_lowS hs).mp hvalid, hx⟩
  rcases tryParities_eq_ok.mp h with ⟨heven, -⟩ | ⟨⟨a, hfirst, -⟩, hodd, -⟩
  · obtain ⟨q, hq, hne, haddress⟩ := hviem.recovers hdigest hr hlow (by omega) heven
    obtain ⟨hvalid, hx⟩ := hback hq
    obtain ⟨-, -, hparity⟩ := (Ecdsa.Curve.recovers_iff hr.scalar hlow.scalar).mp hq
    exact ⟨q, hder, ⟨hne, haddress⟩, hvalid, hx, .inl hparity⟩
  · obtain ⟨q, hq, hne, haddress⟩ := hviem.recovers hdigest hr hlow (by omega) hodd
    obtain ⟨q₀, hq₀, hne₀, -⟩ := hviem.recovers hdigest hr hlow (by omega) hfirst
    obtain ⟨hvalid, hx⟩ := hback hq
    refine ⟨q, hder, ⟨hne, haddress⟩, hvalid, hx, .inr fun hinfinite => hne₀ ?_⟩
    rw [hq₀.unique (hq.other hr)]
    exact (Ecdsa.Curve.otherInfinite_iff hr.scalar).mp hinfinite

/-- Every answer of that kind is returned. -/
theorem tryParities_of_signed (hdigest : digest.length = 32) {der : List UInt8} {q : Point}
    (h : Signed publicKeyToAddress signer.address digest der q r s) :
    ∃ hex, tryParities viem signer digest r (lowS s) [0, 1] = .ok hex := by
  have hr : InRange r := h.valid.r_range
  have hs : InRange s := h.valid.s_range
  have hlow := lowS_inRange hs
  have hx := h.abscissa
  rw [← abscissa_lowS hs] at hx
  have hq := ((valid_lowS hs).mpr h.valid).recovers hx
  obtain ⟨hne, haddress⟩ := h.key
  rcases Nat.mod_two_eq_zero_or_one
      (points.y (points.nonce q (bytesToBigInt digest) r (lowS s))) with heven | hodd
  · rw [heven] at hq
    have hok := hviem.ok digest r (lowS s) 0 q hdigest hr hlow (by omega) hq hne
    rw [haddress] at hok
    exact ⟨_, tryParities_eq_ok.mpr (.inl ⟨hok, rfl⟩)⟩
  · rw [hodd] at hq
    have hok := hviem.ok digest r (lowS s) 1 q hdigest hr hlow (by omega) hq hne
    rw [haddress] at hok
    obtain ⟨q₀, hq₀, hne₀⟩ : ∃ q₀,
        points.Recovers (bytesToBigInt digest) r (lowS s) 0 q₀ ∧ q₀ ≠ 0 := by
      refine ⟨_, hq.other hr.scalar, fun hzero => ?_⟩
      rcases h.first with heven | hfinite
      · rw [hodd] at heven
        cases heven
      · exact hfinite ((Ecdsa.Curve.otherInfinite_iff hr.scalar).mpr hzero)
    have hfirst := hviem.ok digest r (lowS s) 0 q₀ hdigest hr hlow (by omega) hq₀ hne₀
    by_cases hsame : publicKeyToAddress q₀ = signer.address
    · rw [hsame] at hfirst
      exact ⟨_, tryParities_eq_ok.mpr (.inl ⟨hfirst, rfl⟩)⟩
    · exact ⟨_, tryParities_eq_ok.mpr (.inr ⟨⟨_, hfirst, hsame⟩, hok, rfl⟩)⟩

theorem returns_iff : (∃ hex, signDigest viem signer digest = .ok hex) ↔
    digest.length = 32 ∧ ∃ der q r s, signer.send (command signer digest) = .ok ⟨some der⟩ ∧
      Signed publicKeyToAddress signer.address digest der q r s := by
  constructor
  · rintro ⟨hex, h⟩
    obtain ⟨hdigest, der, r, s, hsend, hder, hr, hs, htry⟩ := signDigest_eq_ok.mp h
    obtain ⟨q, hsigned⟩ := signed_of_tryParities hviem hdigest hder hr hs htry
    exact ⟨hdigest, der, q, r, s, hsend, hsigned⟩
  · rintro ⟨hdigest, der, q, r, s, hsend, hsigned⟩
    obtain ⟨hex, htry⟩ := tryParities_of_signed hviem hdigest hsigned
    exact ⟨hex, signDigest_eq_ok.mpr ⟨hdigest, der, r, s, hsend, hsigned.der,
      hsigned.valid.r_range, hsigned.valid.s_range, htry⟩⟩

omit hviem

/-- What comes back is in the lower half and recovers to the signer's address. -/
theorem returned {hex : Hex} (h : signDigest viem signer digest = .ok hex) :
    ∃ signature, hex = viem.serializeSignature signature ∧ 1 ≤ signature.s ∧
      signature.s ≤ SECP256K1_HALF_N ∧
      viem.recoverAddress digest signature = .ok signer.address := by
  obtain ⟨-, der, r, s, -, -, -, hs, htry⟩ := signDigest_eq_ok.mp h
  obtain ⟨hpos, hhalf⟩ := lowS_range hs
  rcases tryParities_eq_ok.mp htry with ⟨hok, rfl⟩ | ⟨-, hok, rfl⟩
  · exact ⟨_, rfl, hpos, hhalf, hok⟩
  · exact ⟨_, rfl, hpos, hhalf, hok⟩

end Returns

theorem decode_encode_inRange {r s : Nat} (hr : InRange r) (hs : InRange s) :
    decodeEcdsaSignature (encodeSignature r s) = .ok (r, s) := by
  have hN : SECP256K1_N < 256 ^ 32 := by decide
  exact decode_encode (show 32 ≤ 32000 by decide) (hr.2.trans hN) (hs.2.trans hN)

/-- The reader is exact, and a signature comes back for exactly the answers that are signatures by
a key of the signer's address whose nonce point a parity can say. -/
theorem kms_signature_exact {Address Hex : Type} [DecidableEq Address] (viem : Viem Address Hex)
    (publicKeyToAddress : Point → Address) (hviem : viem.Correct publicKeyToAddress) :
    (∀ r s, InRange r → InRange s →
        decodeEcdsaSignature (encodeSignature r s) = .ok (r, s)) ∧
      (∀ der r s, decodeEcdsaSignature der = .ok (r, s) ↔ IsSignature der r s) ∧
      (∀ signer digest hex, signDigest viem signer digest = .ok hex → ∃ signature,
        hex = viem.serializeSignature signature ∧ 1 ≤ signature.s ∧
          signature.s ≤ SECP256K1_HALF_N ∧
          viem.recoverAddress digest signature = .ok signer.address) ∧
      ∀ signer digest, (∃ hex, signDigest viem signer digest = .ok hex) ↔ digest.length = 32 ∧
        ∃ der q r s, signer.send (command signer digest) = .ok ⟨some der⟩ ∧
          Signed publicKeyToAddress signer.address digest der q r s :=
  ⟨fun _ _ => decode_encode_inRange, fun _ _ _ => decode_iff, fun _ _ _ => returned,
    fun _ _ => returns_iff hviem⟩

/-! ## Samples -/

section Samples

open Classical in
/-- Key recovery itself, and the signature in place of its text. -/
noncomputable def sec1 {Address : Type} (publicKeyToAddress : Point → Address) :
    Viem Address Signature where
  recoverAddress digest signature :=
    if h : ∃ q, points.Recovers (bytesToBigInt digest) signature.r signature.s signature.yParity q ∧
        q ≠ 0 then .ok (publicKeyToAddress h.choose)
    else .error "no key to recover"
  serializeSignature := id

theorem sec1_correct {Address : Type} (publicKeyToAddress : Point → Address) :
    (sec1 publicKeyToAddress).Correct publicKeyToAddress where
  ok := by
    intro digest r s v q _ _ _ _ hq hne
    have hex : ∃ q, points.Recovers (bytesToBigInt digest) r s v q ∧ q ≠ 0 := ⟨q, hq, hne⟩
    have hchoose : hex.choose = q := hex.choose_spec.1.unique hq
    unfold sec1
    dsimp only
    rw [dif_pos hex, hchoose]
  rejects := by
    intro digest r s v _ _ _ _ hnone
    have hno : ¬ ∃ q, points.Recovers (bytesToBigInt digest) r s v q ∧ q ≠ 0 := by
      rintro ⟨q, hq, hne⟩
      exact hne (hnone q hq)
    exact ⟨"no key to recover", dif_neg hno⟩

def zeroDigest : List UInt8 := List.replicate 32 0

theorem value_zeroDigest : bytesToBigInt zeroDigest = 0 := by decide

/-- For the digest 0, a signature with `s = r` has the key itself as its nonce point. -/
theorem nonce_zero {r : Nat} (hr : InRange r) (q : Point) : points.nonce q 0 r r = q := by
  have hr₀ := Ecdsa.Curve.cast_ne_zero hr.scalar
  have hzero : (0 : ZMod n) • points.g = 0 := zero_smul (ZMod n) points.g
  have hone : (1 : ZMod n) • q = q := one_smul (ZMod n) q
  unfold Ecdsa.Curve.nonce
  rw [Nat.cast_zero, zero_mul, hzero, zero_add, mul_inv_cancel₀ hr₀, hone]

/-- A key that signs the digest 0 by its own abscissa. -/
def answering {Address : Type} (address : Address) (r : Nat) : AwsKmsSigner Address where
  address := address
  keyId := "alias/strimz-testnet-relayer"
  send := fun _ => .ok ⟨some (encodeSignature r r)⟩

/-- The address of the generator, which is the key 1's. -/
def addressOf (q : Point) : String :=
  if Secp256k1.key q = Secp256k1.key Secp256k1.G then "0x7E5F4552091A69125d5DfCb7b8C2659029395Bdf"
  else "0x0000000000000000000000000000000000000000"

theorem kms_signature_exact_generator :
    ∃ hex, signDigest (sec1 addressOf)
      (answering "0x7E5F4552091A69125d5DfCb7b8C2659029395Bdf" Secp256k1.gx) zeroDigest = .ok hex := by
  have hr : InRange Secp256k1.gx := by decide
  have hnonce := nonce_zero hr Secp256k1.G
  have hx : points.x Secp256k1.G = Secp256k1.gx :=
    ZMod.val_natCast_of_lt (show Secp256k1.gx < Secp256k1.p by decide)
  have hy : points.y Secp256k1.G = Secp256k1.gy :=
    ZMod.val_natCast_of_lt (show Secp256k1.gy < Secp256k1.p by decide)
  have hlow : lowS Secp256k1.gx = Secp256k1.gx := by decide
  refine ((kms_signature_exact (sec1 addressOf) addressOf (sec1_correct addressOf)).2.2.2 _ _).mpr
    ⟨rfl, _, Secp256k1.G, Secp256k1.gx, Secp256k1.gx, rfl,
      decode_iff.mp (decode_encode_inRange hr hr), ⟨Secp256k1.G_ne_zero, if_pos rfl⟩, ?_, ?_, .inl ?_⟩
  · rw [value_zeroDigest]
    refine ⟨hr.scalar, hr.scalar, ?_, ?_⟩
    · rw [hnonce]
      exact Secp256k1.G_ne_zero
    · rw [hnonce, hx, Nat.mod_eq_of_lt hr.scalar.2]
  · rw [value_zeroDigest, hnonce, hx]
    exact hr.2
  · rw [value_zeroDigest, hlow, hnonce, hy]
    decide

/-- A key whose abscissa is `n + 7`. -/
def rareKey : Point :=
  .some ((n + 7 : Nat) : ZMod Secp256k1.p)
    (0x9ce90df86a3b117434993f3a6ac78d7420a2f6a4ddbd7692bab595cb954d6b26 : Nat)
    (Secp256k1.nonsingular_of_mod (by decide +kernel))

/-- Its signature `(7, 7)` of the digest 0 is valid, and rejected: no point has the abscissa 7. -/
theorem rare_signature_rejected :
    IsSignature (encodeSignature 7 7) 7 7 ∧ points.Valid rareKey (bytesToBigInt zeroDigest) 7 7 ∧
      (sec1 Secp256k1.key).Correct Secp256k1.key ∧
      ∃ e, signDigest (sec1 Secp256k1.key) (answering (Secp256k1.key rareKey) 7) zeroDigest =
        .error e := by
  have hr : InRange 7 := by decide
  have hnonce := nonce_zero hr rareKey
  have hx : points.x rareKey = n + 7 :=
    ZMod.val_natCast_of_lt (show n + 7 < Secp256k1.p by decide)
  have hder := decode_iff.mp (decode_encode_inRange hr hr)
  refine ⟨hder, ?_, sec1_correct _, ?_⟩
  · rw [value_zeroDigest]
    refine ⟨hr.scalar, hr.scalar, ?_, ?_⟩
    · rw [hnonce]
      exact WeierstrassCurve.Affine.Point.some_ne_zero _
    · rw [hnonce, hx]
      decide
  · cases hsign : signDigest (sec1 Secp256k1.key) (answering (Secp256k1.key rareKey) 7)
        zeroDigest with
    | error e => exact ⟨e, rfl⟩
    | ok hex =>
        obtain ⟨-, der, q, r, s, hsend, hsigned⟩ :=
          (returns_iff (sec1_correct Secp256k1.key)).mp ⟨hex, hsign⟩
        obtain rfl : encodeSignature 7 7 = der := by
          have heq := Except.ok.inj hsend
          exact Option.some.inj (congrArg SignCommandOutput.signature heq)
        have hdecode := decode_iff.mpr hsigned.der
        rw [decode_iff.mpr hder] at hdecode
        obtain ⟨rfl, rfl⟩ := Prod.mk.inj (Except.ok.inj hdecode)
        obtain rfl : q = rareKey := Secp256k1.key_injective hsigned.key.2
        have habscissa := hsigned.abscissa
        rw [value_zeroDigest, hnonce, hx] at habscissa
        exact absurd habscissa (by decide)

end Samples

end Strimz.KmsSigner
