import Strimz.WebhookSignature

/-!
# What a verified webhook signature says

A header that verifies should carry the time and the MAC of exactly one signing of the payload.
The decoder of the MAC is looser than hex: of two code units, `parseInt` also takes a digit in
front of anything, and a sign or a blank in front of a digit. `verifiesExactly_iff` says what the
signed messages, the clock and the tolerance must be like for that not to matter.
-/

namespace Strimz.WebhookSignature

open Script Binary64

/-! ## What is claimed -/

/-- An integer below `10 ^ 21` that is a number: its spelling has digits only. -/
structure Timestamp where
  value : ℤ
  isNumber : IsNumber value
  small : value.natAbs < 10 ^ 21

/-- What the holder of the secret signed. -/
structure Signed where
  payload : Str
  timestamp : Timestamp

def Signed.header (H : Hmac) (secret : Str) (x : Signed) : Str :=
  signWebhookPayload H x.payload secret (some x.timestamp.value) 0

def Signed.mac (H : Hmac) (secret : Str) (x : Signed) : List UInt8 :=
  macOf H secret x.timestamp.value x.payload

/-- `|now - t| ≤ tolerance`, not rounded. -/
def Within : Number → ℤ → Number → Prop
  | .finite a, t, .finite tolerance => |a - t * ONE| ≤ tolerance
  | .finite _, _, .infinite negative => negative = false
  | .infinite _, _, .infinite negative => negative = false
  | _, _, _ => False

def lower (c : CodeUnit) : CodeUnit := if 65 ≤ c ∧ c ≤ 90 then c + 32 else c

/-- The hex spelling of the bytes, up to letter case and `0x` in front. -/
def Spells (s : Str) (bytes : List UInt8) : Prop := (clean s).map lower = toHex bytes

section Claim

variable (H : Hmac) (secret : Str) (log : List Signed) (now tolerance : Number)

/-- `verifyWebhookSignature` with these options. -/
def verify (payload header : Str) : Except Thrown VerifyWebhookResult :=
  verifyWebhookSignature H payload header secret ⟨some tolerance, some now⟩ now

/-- If the header shows the MAC of this payload at its time, the holder has made that MAC. -/
def NotForged (payload header : Str) : Prop :=
  ∀ t s, parseSignatureHeader header = some ⟨some t, some s⟩ →
    fromHex s = .ok (macOf H secret t payload) → ∃ x ∈ log, x.mac H secret = macOf H secret t payload

/-- The holder signed exactly this payload at exactly the header's time, which is recent, and the
header spells the MAC. -/
def Genuine (payload header : Str) : Prop :=
  ∃ x ∈ log, ∃ s, parseSignatureHeader header = some ⟨some x.timestamp.value, some s⟩ ∧
    x.payload = payload ∧ Within now x.timestamp.value tolerance ∧ Spells s (x.mac H secret)

/-- Signatures verify exactly what was signed, and nothing throws. -/
structure VerifiesExactly : Prop where
  accepts : ∀ x ∈ log, verify H secret now tolerance x.payload (x.header H secret) = .ok .valid ↔
    Within now x.timestamp.value tolerance
  sound : ∀ payload header, NotForged H secret log payload header →
    verify H secret now tolerance payload header = .ok .valid →
      Genuine H secret log now tolerance payload header
  total : ∀ payload header, ∃ r, verify H secret now tolerance payload header = .ok r

/-- What has to be so of the signed messages. -/
structure Unambiguous : Prop where
  /-- No rounding of `now - t` crosses the tolerance, and none of the two is `NaN`. -/
  rounding : ∀ x ∈ log, TimeAccepted now x.timestamp.value tolerance ↔
    Within now x.timestamp.value tolerance
  /-- No byte of the MAC of a recent message is one digit, or the negative of one. -/
  bytes : ∀ x ∈ log, TimeAccepted now x.timestamp.value tolerance →
    ∀ b ∈ x.mac H secret, 16 ≤ b.toNat ∧ b.toNat ≤ 240
  /-- A payload with the same UTF-8 was signed as well. -/
  encoding : ∀ x ∈ log, TimeAccepted now x.timestamp.value tolerance →
    ∀ payload, utf8ToBytes payload = utf8ToBytes x.payload →
      ∃ y ∈ log, y.timestamp.value = x.timestamp.value ∧ y.payload = payload
  /-- No recent time from `10 ^ 21` on is spelled, with its exponent, like the time of a message
  and the beginning of its payload. -/
  spelling : ∀ x ∈ log, ∀ t payload, IsNumber t → 10 ^ 21 ≤ t.natAbs →
    utf8ToBytes (signedBody t payload) = utf8ToBytes (signedBody x.timestamp.value x.payload) →
      ¬ TimeAccepted now t tolerance

end Claim

/-! ## A header that is taken apart -/

section Header

variable {H : Hmac} {secret payload : Str} {now tolerance : Number}

theorem verify_total (header : Str) : ∃ r, verify H secret now tolerance payload header = .ok r := by
  unfold verify verifyWebhookSignature
  split
  · exact ⟨_, rfl⟩
  · exact ⟨_, rfl⟩
  · exact ⟨_, rfl⟩
  · split
    · exact ⟨_, rfl⟩
    · split
      · exact ⟨_, rfl⟩
      · split
        · exact ⟨_, rfl⟩
        · split <;> exact ⟨_, rfl⟩

/-- What a header that verifies consists of. -/
theorem verify_eq_valid {header : Str} :
    verify H secret now tolerance payload header = .ok .valid ↔
      ∃ t s, parseSignatureHeader header = some ⟨some t, some s⟩ ∧ s ≠ [] ∧
        TimeAccepted now t tolerance ∧ fromHex s = .ok (macOf H secret t payload) := by
  unfold verify verifyWebhookSignature
  cases hparse : parseSignatureHeader header with
  | none => simp
  | some parsed =>
      obtain ⟨t, s⟩ := parsed
      cases t with
      | none => simp
      | some t =>
          cases s with
          | none => simp
          | some s =>
              by_cases hs : s = []
              · simp [hs]
              · by_cases htime : TimeAccepted now t tolerance
                · cases hhex : fromHex s with
                  | error e =>
                      simp [hs, hhex, VerifyWebhookOptions.now, VerifyWebhookOptions.tolerance,
                        htime]
                  | ok provided =>
                      have hmac := (timingSafeEqualBytes_iff (a := macOf H secret t payload)
                        (b := provided)).trans eq_comm
                      simp [hs, hhex, VerifyWebhookOptions.now, VerifyWebhookOptions.tolerance,
                        htime, hmac]
                · simp [hs, VerifyWebhookOptions.now, VerifyWebhookOptions.tolerance, htime]

/-- Code units that neither end a part nor are trimmed away. -/
def Inert (s : Str) : Prop := ∀ c ∈ s, c ≠ 44 ∧ isSpace c = false

theorem parsePart_append {parsed : ParsedSignatureHeader} {key value : Str} (hne : key ≠ [])
    (hkey : 61 ∉ key) :
    parsePart parsed (key ++ 61 :: value) =
      if trim key = text "t" then
        (stringToNumber (trim value)).toInt?.map fun n => { parsed with timestamp := some n }
      else if trim key = WEBHOOK_SIGNATURE_VERSION then
        some { parsed with signatureHex := some (trim value) }
      else some parsed := by
  obtain ⟨n, hn⟩ : ∃ n, key.length = n + 1 :=
    Nat.exists_eq_succ_of_ne_zero (mt List.length_eq_zero_iff.mp hne)
  have hidx : (key ++ 61 :: value).idxOf? 61 = some (n + 1) := by
    rw [← hn, List.idxOf?_eq_some_iff]
    refine ⟨by simp, by simp, fun j hj heq => hkey ?_⟩
    rw [List.getElem_append_left hj] at heq
    exact heq ▸ List.getElem_mem hj
  have htake : (key ++ 61 :: value).take (n + 1) = key := by rw [← hn, List.take_left]
  have hdrop : (key ++ 61 :: value).drop (n + 1 + 1) = value := by
    rw [← hn, List.drop_append, List.drop_of_length_le (Nat.le_succ _), Nat.add_sub_cancel_left]
    rfl
  simp only [parsePart, hidx, htake, hdrop]

theorem parsePart_timestamp {parsed : ParsedSignatureHeader} {τ : Str} {t : ℤ} (hτ : Inert τ)
    (hread : stringToNumber τ = .ofInt t) :
    parsePart parsed (text "t=" ++ τ) = some { parsed with timestamp := some t } := by
  have hvalue : trim τ = τ := trim_of_all fun c hc => (hτ c hc).2
  have hpart : text "t=" ++ τ = text "t" ++ 61 :: τ := rfl
  rw [hpart, parsePart_append (by decide) (by decide), if_pos (by decide), hvalue, hread,
    toInt?_ofInt]
  rfl

theorem parsePart_signature {parsed : ParsedSignatureHeader} {s : Str} (hs : Inert s) :
    parsePart parsed (WEBHOOK_SIGNATURE_VERSION ++ text "=" ++ s) =
      some { parsed with signatureHex := some s } := by
  have hvalue : trim s = s := trim_of_all fun c hc => (hs c hc).2
  have hpart : WEBHOOK_SIGNATURE_VERSION ++ text "=" ++ s =
      WEBHOOK_SIGNATURE_VERSION ++ 61 :: s := rfl
  rw [hpart, parsePart_append (by decide) (by decide), if_neg (by decide), if_pos (by decide),
    hvalue]

theorem parseSignatureHeader_header {τ s : Str} {t : ℤ} (hτ : Inert τ) (hs : Inert s)
    (hread : stringToNumber τ = .ofInt t) :
    parseSignatureHeader (header τ s) = some ⟨some t, some s⟩ := by
  have hkey : ∀ (key value : Str), key.all (· != 44) = true → Inert value →
      ∀ c ∈ key ++ value, (c == 44) = false := by
    intro key value hall hvalue c hc
    rcases List.mem_append.mp hc with h | h
    · exact beq_false_of_ne (bne_iff_ne.mp (List.all_eq_true.mp hall c h))
    · exact beq_false_of_ne (hvalue c h).1
  have hfirst := hkey (text "t=") τ rfl hτ
  have hsecond := hkey (WEBHOOK_SIGNATURE_VERSION ++ text "=") s rfl hs
  have hsplit : (header τ s).splitOn 44 =
      [text "t=" ++ τ, WEBHOOK_SIGNATURE_VERSION ++ text "=" ++ s] := by
    rw [List.splitOn, header, List.splitOnP_append_cons_of_forall_mem hfirst _ (by decide),
      List.splitOnP_eq_singleton hsecond]
  have hne : header τ s ≠ [] := List.append_ne_nil_of_right_ne_nil _ (List.cons_ne_nil _ _)
  rw [parseSignatureHeader, if_neg hne, hsplit]
  simp only [List.foldlM_cons, List.foldlM_nil, parsePart_timestamp hτ hread,
    parsePart_signature hs, Option.bind_eq_bind, Option.bind_some, Option.pure_def]

/-- A header put together from a spelling of the time and one of the MAC. -/
theorem verify_header {τ s : Str} {t : ℤ} (hτ : Inert τ) (hs : Inert s) (hne : s ≠ [])
    (hread : stringToNumber τ = .ofInt t) (hhex : fromHex s = .ok (macOf H secret t payload)) :
    verify H secret now tolerance payload (header τ s) = .ok .valid ↔
      TimeAccepted now t tolerance := by
  rw [verify_eq_valid, parseSignatureHeader_header hτ hs hread]
  constructor
  · rintro ⟨t', s', hparse, -, htime, -⟩
    obtain ⟨ht, -⟩ := ParsedSignatureHeader.mk.inj (Option.some.inj hparse)
    rwa [Option.some.inj ht]
  · exact fun htime => ⟨t, s, rfl, hne, htime, hhex⟩

end Header

/-! ## Strict and loose hex -/

theorem digitOf_spec {c : CodeUnit} {h : ℕ} (hd : digitOf c = some h) :
    h < 16 ∧ lower c = hexCode h := by
  have hall : ∀ n < 128, ∀ h ∈ digitOf (UInt16.ofNat n), h < 16 ∧
      lower (UInt16.ofNat n) = hexCode h := by decide +kernel
  have hlt : c.toNat < 128 := by
    unfold digitOf at hd
    simp only [UInt16.le_iff_toNat_le] at hd
    split at hd
    · rename_i hr
      exact Nat.lt_of_le_of_lt hr.2 (by decide)
    · split at hd
      · rename_i hr
        exact Nat.lt_of_le_of_lt hr.2 (by decide)
      · split at hd
        · rename_i hr
          exact Nat.lt_of_le_of_lt hr.2 (by decide)
        · cases hd
  have hofNat : UInt16.ofNat c.toNat = c := UInt16.ofNat_toNat
  rw [← hofNat] at hd ⊢
  exact hall c.toNat hlt h hd

theorem hexValue_single (negative : Bool) (d : CodeUnit) :
    hexValue negative [d] =
      (digitOf d).map fun h : ℕ => if negative = true then -(h : ℤ) else h := by
  cases hd : digitOf d with
  | none => simp [hexValue, skipHexPrefix, hd]
  | some h => simp [hexValue, skipHexPrefix, hd, Nat.ofDigits]

/-- Two digits, or one and something else. -/
theorem hexValue_pair {c d : CodeUnit} {v : ℤ} (h : hexValue false [c, d] = some v) :
    ∃ x, digitOf c = some x ∧ (v = x ∨ ∃ y, digitOf d = some y ∧ v = 16 * x + y) := by
  have hskip : skipHexPrefix [c, d] = if c = 48 ∧ (d = 120 ∨ d = 88) then [] else [c, d] := rfl
  rw [hexValue, hskip] at h
  by_cases hx : c = 48 ∧ (d = 120 ∨ d = 88)
  · rw [if_pos hx] at h
    cases h
  · rw [if_neg hx] at h
    cases hc : digitOf c with
    | none => simp [hc] at h
    | some x =>
        refine ⟨x, rfl, ?_⟩
        cases hd : digitOf d with
        | none =>
            left
            simp [hc, hd, Nat.ofDigits] at h
            exact h.symm
        | some y =>
            right
            refine ⟨y, rfl, ?_⟩
            simp [hc, hd, Nat.ofDigits] at h
            omega

theorem splitSign_cons (c : CodeUnit) (rest : Str) : splitSign (c :: rest) = (true, rest) ∨
    splitSign (c :: rest) = (false, rest) ∨ splitSign (c :: rest) = (false, c :: rest) := by
  have hsplit : splitSign (c :: rest) =
      if c = 45 then (true, rest) else if c = 43 then (false, rest) else (false, c :: rest) := rfl
  rw [hsplit]
  split
  · exact Or.inl rfl
  · split
    · exact Or.inr (Or.inl rfl)
    · exact Or.inr (Or.inr rfl)

theorem trimStart_pair (c d : CodeUnit) : trimStart [c, d] = [] ∨ trimStart [c, d] = [d] ∨
    trimStart [c, d] = [c, d] := by
  unfold trimStart
  rw [List.dropWhile_cons]
  split
  · rw [List.dropWhile_cons]
    split
    · exact Or.inl rfl
    · exact Or.inr (Or.inl rfl)
  · exact Or.inr (Or.inr rfl)

/-- A byte that is neither one digit nor the negative of one is read from two digits only. -/
theorem parsePair {c d : CodeUnit} {v : ℤ} (h : parseInt16 [c, d] = some v)
    (hlow : 16 ≤ (byteOf v).toNat) (hhigh : (byteOf v).toNat ≤ 240) :
    [lower c, lower d] = [hexCode ((byteOf v).toNat / 16), hexCode ((byteOf v).toNat % 16)] := by
  have hbyte : (byteOf v).toNat = (v % 256).toNat := by
    rw [byteOf, UInt8.toNat_ofNat']
    omega
  rw [hbyte] at hlow hhigh ⊢
  have hsingle (negative : Bool) (e : CodeUnit) (hv : hexValue negative [e] = some v) : False := by
    rw [hexValue_single] at hv
    obtain ⟨x, hx, rfl⟩ := Option.map_eq_some_iff.mp hv
    have hx16 := (digitOf_spec hx).1
    cases negative with
    | false =>
        simp only [Bool.false_eq_true, if_false] at hlow hhigh
        omega
    | true =>
        simp only [if_true] at hlow hhigh
        omega
  have hrest (hv : hexValue false [c, d] = some v) :
      [lower c, lower d] = [hexCode ((v % 256).toNat / 16), hexCode ((v % 256).toNat % 16)] := by
    obtain ⟨x, hx, hv | ⟨y, hy, hv⟩⟩ := hexValue_pair hv
    · have hx16 := (digitOf_spec hx).1
      omega
    · obtain ⟨hx16, hcx⟩ := digitOf_spec hx
      obtain ⟨hy16, hdy⟩ := digitOf_spec hy
      have hdiv : (v % 256).toNat / 16 = x := by omega
      have hmod : (v % 256).toNat % 16 = y := by omega
      rw [hdiv, hmod, hcx, hdy]
  have hempty (negative : Bool) (hv : hexValue negative [] = some v) : False := by cases hv
  unfold parseInt16 at h
  rcases trimStart_pair c d with ht | ht | ht
  · rw [ht] at h
    exact (hempty false h).elim
  · rw [ht] at h
    rcases splitSign_cons d [] with hs | hs | hs
    · rw [hs] at h
      exact (hempty true h).elim
    · rw [hs] at h
      exact (hempty false h).elim
    · rw [hs] at h
      exact (hsingle false d h).elim
  · rw [ht] at h
    rcases splitSign_cons c [d] with hs | hs | hs
    · rw [hs] at h
      exact (hsingle true d h).elim
    · rw [hs] at h
      exact (hsingle false d h).elim
    · rw [hs] at h
      exact hrest h

/-- Bytes of two digits each are spelled by hex and nothing else. -/
theorem hexPairs_strict {s : Str} {bytes : List UInt8} (hlen : s.length % 2 = 0)
    (h : hexPairs s = .ok bytes) (hbytes : ∀ b ∈ bytes, 16 ≤ b.toNat ∧ b.toNat ≤ 240) :
    s.map lower = toHex bytes := by
  induction s using hexPairs.induct generalizing bytes with
  | case1 c d rest hnone =>
      rw [hexPairs, hnone] at h
      cases h
  | case2 c d rest v hv ih =>
      rw [hexPairs, hv] at h
      cases hrest : hexPairs rest with
      | error e =>
          rw [hrest] at h
          cases h
      | ok tail =>
          rw [hrest] at h
          obtain rfl : byteOf v :: tail = bytes := Except.ok.inj h
          have hhead := hbytes _ List.mem_cons_self
          have htail := ih (by simp only [List.length_cons] at hlen; omega) hrest
            fun b hb => hbytes b (List.mem_cons_of_mem _ hb)
          have hpair := parsePair hv hhead.1 hhead.2
          rw [List.cons.injEq, List.cons.injEq] at hpair
          rw [List.map_cons, List.map_cons, htail, hpair.1, hpair.2.1]
          rfl
  | case3 s hshort =>
      rcases s with _ | ⟨c, _ | ⟨d, rest⟩⟩
      · obtain rfl : [] = bytes := Except.ok.inj h
        rfl
      · cases hlen
      · exact absurd rfl (hshort c d rest)

/-! ## The spelling of the time -/

theorem isDigit_inert {c : CodeUnit} (h : isDigit c = true) : c ≠ 44 ∧ isSpace c = false :=
  ⟨isDigit_ne h (Or.inl (by decide)), (isDigit_spec h).1⟩

theorem inert_integerToString {t : ℤ} (h : t.natAbs < 10 ^ 21) : Inert (integerToString t) := by
  intro c hc
  rcases integerToString_codes h c hc with rfl | hd
  · decide
  · exact isDigit_inert hd

theorem inert_decimal (negative : Bool) (n : ℕ) :
    Inert ((if negative = true then [45] else []) ++ decimal n) := by
  intro c hc
  rcases List.mem_append.mp hc with hsign | hd
  · cases negative with
    | false => cases hsign
    | true =>
        obtain rfl := List.mem_singleton.mp hsign
        decide
  · exact isDigit_inert (isDigit_decimal n c hd)

theorem stringToNumber_isNumber {s : Str} {t : ℤ} (h : (stringToNumber s).toInt? = some t) :
    IsNumber t := by
  unfold stringToNumber at h
  split at h
  · have hzero : t = 0 := by
      have hofInt : Number.finite 0 = Number.ofInt 0 := by rw [Number.ofInt, Int.zero_mul]
      rw [hofInt, toInt?_ofInt] at h
      exact (Option.some.inj h).symm
    rw [hzero]
    exact isNumber_zero
  · unfold numericLiteral at h
    split at h
    · split at h
      · exact isNumber_of_ofRatio h
      · cases h
    · dsimp only at h
      split at h
      · cases h
      · split at h
        · exact isNumber_of_ofRatio h
        · cases h

/-- The time that a header carries is a number. -/
theorem parseSignatureHeader_isNumber {header : Str} {t : ℤ} {s : Option Str}
    (h : parseSignatureHeader header = some ⟨some t, s⟩) : IsNumber t := by
  have hpart : ∀ (parsed parsed' : ParsedSignatureHeader) (part : Str),
      (∀ n ∈ parsed.timestamp, IsNumber n) → parsePart parsed part = some parsed' →
        ∀ n ∈ parsed'.timestamp, IsNumber n := by
    intro parsed parsed' part hparsed hpart n hn
    unfold parsePart at hpart
    split at hpart
    · cases hpart
    · cases hpart
    · split at hpart
      · obtain ⟨m, hm, rfl⟩ := Option.map_eq_some_iff.mp hpart
        obtain rfl : m = n := Option.some.inj hn
        exact stringToNumber_isNumber hm
      · split at hpart
        · obtain rfl := Option.some.inj hpart
          exact hparsed n hn
        · obtain rfl := Option.some.inj hpart
          exact hparsed n hn
  have hfold : ∀ (parts : List Str) (parsed parsed' : ParsedSignatureHeader),
      (∀ n ∈ parsed.timestamp, IsNumber n) → parts.foldlM parsePart parsed = some parsed' →
        ∀ n ∈ parsed'.timestamp, IsNumber n := by
    intro parts
    induction parts with
    | nil =>
        intro parsed parsed' hparsed h
        obtain rfl := Option.some.inj h
        exact hparsed
    | cons part parts ih =>
        intro parsed parsed' hparsed h
        rw [List.foldlM_cons] at h
        obtain ⟨next, hnext, hrest⟩ := Option.bind_eq_some_iff.mp h
        exact ih next parsed' (hpart parsed next part hparsed hnext) hrest
  unfold parseSignatureHeader at h
  split at h
  · cases h
  · exact hfold _ _ _ (fun n hn => by cases hn) h t rfl

/-! ## The signed body -/

/-- A code unit of a time without exponent, or the point behind it. -/
def Plain (c : CodeUnit) : Prop := c.toNat < 128

theorem scalarOf_plain {c : CodeUnit} (h : Plain c) : (scalarOf c).toNat = c.toNat := by
  have hall : ∀ n < 128, (scalarOf (UInt16.ofNat n)).toNat = n := by decide +kernel
  have hc := hall c.toNat h
  rwa [UInt16.ofNat_toNat] at hc

theorem isHigh_plain {c : CodeUnit} (h : Plain c) : isHigh c = false := by
  rw [isHigh, decide_eq_false_iff_not, UInt16.le_iff_toNat_le]
  intro hc
  have hge : (0xD800 : CodeUnit).toNat ≤ c.toNat := hc.1
  exact absurd (Nat.lt_of_le_of_lt hge h) (by decide)

theorem plain_integerToString {t : ℤ} (h : t.natAbs < 10 ^ 21) :
    ∀ c ∈ integerToString t, Plain c ∧ c ≠ 46 := by
  intro c hc
  rcases integerToString_codes h c hc with rfl | hd
  · exact ⟨by unfold Plain; decide, by decide⟩
  · have hle := (isDigit_spec hd).2.2
    exact ⟨Nat.lt_of_le_of_lt hle (by decide), isDigit_ne hd (Or.inl (by decide))⟩

theorem scalars_signedBody {t : ℤ} (h : t.natAbs < 10 ^ 21) (payload : Str) :
    scalars (signedBody t payload) =
      (integerToString t).map scalarOf ++ scalarOf 46 :: scalars payload := by
  rw [signedBody, scalars_append fun c hc => isHigh_plain (plain_integerToString h c hc).1,
    scalars_cons (by decide)]

/-- The first occurrence of a mark is in one place. -/
theorem append_cons_inj {α : Type} {mark : α} {a b r s : List α} (ha : mark ∉ a) (hb : mark ∉ b)
    (h : a ++ mark :: r = b ++ mark :: s) : a = b ∧ r = s := by
  induction a generalizing b with
  | nil =>
      cases b with
      | nil => exact ⟨rfl, (List.cons.inj h).2⟩
      | cons y b => exact absurd ((List.cons.inj h).1 ▸ List.mem_cons_self) hb
  | cons x a ih =>
      cases b with
      | nil => exact absurd ((List.cons.inj h).1 ▸ List.mem_cons_self) ha
      | cons y b =>
          obtain ⟨rfl, hrest⟩ := List.cons.inj h
          obtain ⟨rfl, hrs⟩ := ih (fun hm => ha (List.mem_cons_of_mem _ hm))
            (fun hm => hb (List.mem_cons_of_mem _ hm)) hrest
          exact ⟨rfl, hrs⟩

/-- A message tells its time and its payload apart. -/
theorem signedBody_inj {t u : ℤ} {payload payload' : Str} (ht : IsNumber t) (hu : IsNumber u)
    (ht' : t.natAbs < 10 ^ 21) (hu' : u.natAbs < 10 ^ 21)
    (h : utf8ToBytes (signedBody t payload) = utf8ToBytes (signedBody u payload')) :
    t = u ∧ utf8ToBytes payload = utf8ToBytes payload' := by
  have hinj : ∀ c d : CodeUnit, Plain c → Plain d → scalarOf c = scalarOf d → c = d := by
    intro c d hc hd heq
    refine UInt16.toNat_inj.mp ?_
    rw [← scalarOf_plain hc, ← scalarOf_plain hd, heq]
  have hpoint : ∀ v : ℤ, v.natAbs < 10 ^ 21 → scalarOf 46 ∉ (integerToString v).map scalarOf := by
    intro v hv hmem
    obtain ⟨c, hc, heq⟩ := List.mem_map.mp hmem
    obtain ⟨hplain, hne⟩ := plain_integerToString hv c hc
    exact hne (hinj c 46 hplain (by unfold Plain; decide) heq)
  have hscalars := scalars_of_utf8ToBytes h
  rw [scalars_signedBody ht', scalars_signedBody hu'] at hscalars
  obtain ⟨htime, hpayload⟩ := append_cons_inj (hpoint t ht') (hpoint u hu') hscalars
  have hmap : ∀ a b : Str, (∀ c ∈ a, Plain c) → (∀ c ∈ b, Plain c) →
      a.map scalarOf = b.map scalarOf → a = b := by
    intro a
    induction a with
    | nil =>
        intro b _ _ hab
        exact (List.map_eq_nil_iff.mp hab.symm).symm
    | cons c a ih =>
        intro b ha hb hab
        cases b with
        | nil => cases hab
        | cons d b =>
            rw [List.map_cons, List.map_cons, List.cons.injEq] at hab
            rw [List.forall_mem_cons] at ha hb
            rw [hinj c d ha.1 hb.1 hab.1, ih b ha.2 hb.2 hab.2]
  refine ⟨integerToString_injective ht hu ht' hu' (hmap _ _ ?_ ?_ htime), ?_⟩
  · exact fun c hc => (plain_integerToString ht' c hc).1
  · exact fun c hc => (plain_integerToString hu' c hc).1
  · rw [utf8ToBytes, utf8ToBytes, hpayload]

/-! ## A loose spelling of the MAC -/

/-- A byte of one digit with a `g` behind it, the negative of a digit with its sign. -/
def loosePair (b : UInt8) : CodeUnit × CodeUnit :=
  if b.toNat < 16 then (hexCode b.toNat, 103)
  else if 240 < b.toNat then (45, hexCode (256 - b.toNat))
  else (hexCode (b.toNat / 16), hexCode (b.toNat % 16))

def looseHex (bytes : List UInt8) : Str :=
  bytes.flatMap fun b => [(loosePair b).1, (loosePair b).2]

theorem loosePair_spec (b : UInt8) : (loosePair b).2 ≠ 120 ∧
    (parseInt16 [(loosePair b).1, (loosePair b).2]).map byteOf = some b ∧
    Inert [(loosePair b).1, (loosePair b).2] := by
  have hall : ∀ n < 256, (loosePair (UInt8.ofNat n)).2 ≠ 120 ∧
      (parseInt16 [(loosePair (UInt8.ofNat n)).1, (loosePair (UInt8.ofNat n)).2]).map byteOf =
        some (UInt8.ofNat n) ∧
      ((loosePair (UInt8.ofNat n)).1 ≠ 44 ∧ isSpace (loosePair (UInt8.ofNat n)).1 = false) ∧
      ((loosePair (UInt8.ofNat n)).2 ≠ 44 ∧ isSpace (loosePair (UInt8.ofNat n)).2 = false) := by
    decide +kernel
  obtain ⟨hx, hread, hfst, hsnd⟩ := hall b.toNat b.toNat_lt
  rw [UInt8.ofNat_toNat] at hx hread hfst hsnd
  refine ⟨hx, hread, fun c hc => ?_⟩
  rcases List.mem_cons.mp hc with rfl | hc
  · exact hfst
  · obtain rfl := List.mem_singleton.mp hc
    exact hsnd

theorem fromHex_looseHex (bytes : List UInt8) : fromHex (looseHex bytes) = .ok bytes :=
  fromHex_flatMap loosePair (fun b => ⟨(loosePair_spec b).1, (loosePair_spec b).2.1⟩) bytes

theorem inert_looseHex (bytes : List UInt8) : Inert (looseHex bytes) := by
  intro c hc
  obtain ⟨b, -, hcb⟩ := List.mem_flatMap.mp hc
  exact (loosePair_spec b).2.2 c hcb

theorem toHex_codes (bytes : List UInt8) : ∀ c ∈ toHex bytes,
    (c ≠ 44 ∧ isSpace c = false) ∧ c ≠ 45 ∧ c ≠ 103 := by
  intro c hc
  obtain ⟨b, -, hcb⟩ := List.mem_flatMap.mp hc
  have hlt := b.toNat_lt
  have hcode : ∃ n, n < 16 ∧ c = hexCode n := by
    rcases List.mem_cons.mp hcb with rfl | hcb
    · exact ⟨b.toNat / 16, by omega, rfl⟩
    · exact ⟨b.toNat % 16, by omega, List.mem_singleton.mp hcb⟩
  obtain ⟨n, hn, rfl⟩ := hcode
  obtain ⟨-, hspace, hcomma, hsign, hg, -⟩ := hexCode_spec hn
  exact ⟨⟨hcomma, hspace⟩, hsign, hg⟩

theorem toHex_ne_nil {bytes : List UInt8} (h : bytes ≠ []) : toHex bytes ≠ [] := by
  cases bytes with
  | nil => exact absurd rfl h
  | cons b bytes => exact List.cons_ne_nil _ _

theorem looseHex_ne_nil {bytes : List UInt8} (h : bytes ≠ []) : looseHex bytes ≠ [] := by
  cases bytes with
  | nil => exact absurd rfl h
  | cons b bytes => exact List.cons_ne_nil _ _

/-- What is spelled loosely is not hex. -/
theorem not_spells_looseHex {bytes : List UInt8} {b : UInt8} (hb : b ∈ bytes)
    (hloose : b.toNat < 16 ∨ 240 < b.toNat) : ¬ Spells (looseHex bytes) bytes := by
  intro hspells
  have hclean : clean (looseHex bytes) = looseHex bytes :=
    clean_flatMap loosePair (fun b => (loosePair_spec b).1) bytes
  rw [Spells, hclean] at hspells
  have hmem : ∀ c ∈ [(loosePair b).1, (loosePair b).2], lower c ∈ toHex bytes := by
    intro c hc
    rw [← hspells]
    exact List.mem_map_of_mem (List.mem_flatMap.mpr ⟨b, hb, hc⟩)
  by_cases hlow : b.toNat < 16
  · have hg : (103 : CodeUnit) ∈ toHex bytes := by
      refine hmem 103 ?_
      rw [loosePair, if_pos hlow]
      exact List.mem_cons_of_mem _ List.mem_cons_self
    exact (toHex_codes bytes 103 hg).2.2 rfl
  · have hhigh : 240 < b.toNat := hloose.resolve_left hlow
    have hsign : (45 : CodeUnit) ∈ toHex bytes := by
      refine hmem 45 ?_
      rw [loosePair, if_neg hlow, if_pos hhigh]
      exact List.mem_cons_self
    exact (toHex_codes bytes 45 hsign).2.1 rfl

/-! ## Exactly what was signed -/

section Exactness

variable {H : Hmac} {secret : Str} {log : List Signed} {now tolerance : Number}

/-- A header with the time and the MAC of a message verifies while the time is recent. -/
theorem verify_signed (x : Signed) {payload s : Str}
    (hpayload : utf8ToBytes payload = utf8ToBytes x.payload) (hs : Inert s) (hne : s ≠ [])
    (hhex : fromHex s = .ok (x.mac H secret)) :
    verify H secret now tolerance payload (header (integerToString x.timestamp.value) s) =
      .ok .valid ↔ TimeAccepted now x.timestamp.value tolerance := by
  have hmac : x.mac H secret = macOf H secret x.timestamp.value payload := by
    have hbody := scalars_signedBody x.timestamp.small
    rw [Signed.mac, macOf, macOf, hmacSha256, hmacSha256]
    congr 1
    rw [utf8ToBytes, utf8ToBytes, hbody, hbody, scalars_of_utf8ToBytes hpayload]
  rw [hmac] at hhex
  exact verify_header (inert_integerToString x.timestamp.small) hs hne
    (stringToNumber_integerToString x.timestamp.isNumber x.timestamp.small) hhex

theorem parse_signed (x : Signed) {s : Str} (hs : Inert s) :
    parseSignatureHeader (header (integerToString x.timestamp.value) s) =
      some ⟨some x.timestamp.value, some s⟩ :=
  parseSignatureHeader_header (inert_integerToString x.timestamp.small) hs
    (stringToNumber_integerToString x.timestamp.isNumber x.timestamp.small)

/-- A header that carries a MAC of the log is not forged. -/
theorem notForged_of_mem {payload τ s : Str} {t : ℤ} {x : Signed} (hx : x ∈ log)
    (hparse : parseSignatureHeader (header τ s) = some ⟨some t, some s⟩)
    (hmac : x.mac H secret = macOf H secret t payload) :
    NotForged H secret log payload (header τ s) := by
  intro t' s' hparse' _
  rw [hparse] at hparse'
  obtain ⟨ht, -⟩ := ParsedSignatureHeader.mk.inj (Option.some.inj hparse')
  exact ⟨x, hx, by rw [hmac, Option.some.inj ht]⟩

theorem mac_inj {x : Signed} {t : ℤ} {payload : Str}
    (h : x.mac H secret = macOf H secret t payload) :
    utf8ToBytes (signedBody t payload) = utf8ToBytes (signedBody x.timestamp.value x.payload) :=
  H.injective (utf8ToBytes secret) h.symm

theorem mac_congr {t u : ℤ} {payload payload' : Str}
    (h : utf8ToBytes (signedBody t payload) = utf8ToBytes (signedBody u payload')) :
    macOf H secret t payload = macOf H secret u payload' := by
  rw [macOf, macOf, hmacSha256, hmacSha256, h]

theorem utf8ToBytes_signedBody {t : ℤ} (ht : t.natAbs < 10 ^ 21) {payload payload' : Str}
    (h : utf8ToBytes payload = utf8ToBytes payload') :
    utf8ToBytes (signedBody t payload) = utf8ToBytes (signedBody t payload') := by
  rw [utf8ToBytes, utf8ToBytes, scalars_signedBody ht, scalars_signedBody ht,
    scalars_of_utf8ToBytes h]

theorem unambiguous_of_verifiesExactly (h : VerifiesExactly H secret log now tolerance) :
    Unambiguous H secret log now tolerance where
  rounding x hx := by
    have htoHex := toHex_codes (x.mac H secret)
    exact (verify_signed x rfl (fun c hc => (htoHex c hc).1)
      (toHex_ne_nil (H.nonempty _ _)) (fromHex_toHex _)).symm.trans (h.accepts x hx)
  bytes x hx htime b hb := by
    by_contra hloose
    have hverify : verify H secret now tolerance x.payload
        (header (integerToString x.timestamp.value) (looseHex (x.mac H secret))) = .ok .valid :=
      (verify_signed x rfl (inert_looseHex _) (looseHex_ne_nil (H.nonempty _ _))
        (fromHex_looseHex _)).mpr htime
    have hparse := parse_signed x (inert_looseHex (x.mac H secret))
    obtain ⟨y, -, s, hy, hpayload, -, hspells⟩ := h.sound x.payload _
      (notForged_of_mem hx hparse rfl) hverify
    rw [hparse] at hy
    obtain ⟨ht, hs⟩ := ParsedSignatureHeader.mk.inj (Option.some.inj hy)
    have hmac : y.mac H secret = x.mac H secret := by
      rw [Signed.mac, Signed.mac, hpayload, Option.some.inj ht]
    rw [← Option.some.inj hs, hmac] at hspells
    exact not_spells_looseHex hb (by omega) hspells
  encoding x hx htime payload hpayload := by
    have hinert : Inert (toHex (x.mac H secret)) := fun c hc => (toHex_codes _ c hc).1
    have hverify : verify H secret now tolerance payload
        (header (integerToString x.timestamp.value) (toHex (x.mac H secret))) = .ok .valid :=
      (verify_signed x hpayload hinert (toHex_ne_nil (H.nonempty _ _)) (fromHex_toHex _)).mpr htime
    have hparse := parse_signed x hinert
    have hmac : x.mac H secret = macOf H secret x.timestamp.value payload :=
      mac_congr (utf8ToBytes_signedBody x.timestamp.small hpayload.symm)
    obtain ⟨y, hy, s, hyparse, hypayload, -, -⟩ := h.sound payload _
      (notForged_of_mem hx hparse hmac) hverify
    rw [hparse] at hyparse
    obtain ⟨ht, -⟩ := ParsedSignatureHeader.mk.inj (Option.some.inj hyparse)
    exact ⟨y, hy, (Option.some.inj ht).symm, hypayload⟩
  spelling x hx t payload hnumber hlarge hbody htime := by
    have hmac : x.mac H secret = macOf H secret t payload := mac_congr hbody.symm
    have hread : stringToNumber ((if decide (t < 0) = true then [45] else []) ++ decimal t.natAbs) =
        .ofInt t := by
      rw [stringToNumber_decimal]
      refine ofRatio_of_isNumber hnumber hnumber.1 ?_
      simp only [decide_eq_true_eq]
      split <;> omega
    have hinert : Inert (toHex (x.mac H secret)) := fun c hc => (toHex_codes _ c hc).1
    have hparse := parseSignatureHeader_header (inert_decimal _ _) hinert hread
    have hverify : verify H secret now tolerance payload
        (header ((if decide (t < 0) = true then [45] else []) ++ decimal t.natAbs)
          (toHex (x.mac H secret))) = .ok .valid :=
      (verify_header (inert_decimal _ _) hinert (toHex_ne_nil (H.nonempty _ _)) hread
        (by rw [fromHex_toHex, hmac])).mpr htime
    obtain ⟨y, -, s, hy, -, -, -⟩ := h.sound payload _ (notForged_of_mem hx hparse hmac) hverify
    rw [hparse] at hy
    obtain ⟨ht, -⟩ := ParsedSignatureHeader.mk.inj (Option.some.inj hy)
    have hsmall := y.timestamp.small
    rw [← Option.some.inj ht] at hsmall
    exact absurd hsmall (Nat.not_lt.mpr hlarge)

/-- A header that verifies carries the MAC of one message of the log, and its time. -/
theorem genuine_of_unambiguous (h : Unambiguous H secret log now tolerance) {payload header : Str}
    (hforged : NotForged H secret log payload header)
    (hvalid : verify H secret now tolerance payload header = .ok .valid) :
    Genuine H secret log now tolerance payload header := by
  obtain ⟨t, s, hparse, -, htime, hhex⟩ := verify_eq_valid.mp hvalid
  obtain ⟨x, hx, hmac⟩ := hforged t s hparse hhex
  have hnumber := parseSignatureHeader_isNumber hparse
  have hbody := mac_inj hmac
  have hsmall : t.natAbs < 10 ^ 21 := by
    by_contra hlarge
    exact h.spelling x hx t payload hnumber (Nat.not_lt.mp hlarge) hbody htime
  obtain ⟨rfl, hpayload⟩ := signedBody_inj hnumber x.timestamp.isNumber hsmall x.timestamp.small
    hbody
  obtain ⟨y, hy, hyt, rfl⟩ := h.encoding x hx htime payload hpayload
  have hymac : y.mac H secret = x.mac H secret := by
    rw [Signed.mac, hyt, hmac]
  refine ⟨y, hy, s, by rw [hparse, hyt], rfl, ?_, ?_⟩
  · rw [hyt]
    exact (h.rounding x hx).mp htime
  · rw [hymac]
    rw [← hmac, fromHex] at hhex
    split at hhex
    · cases hhex
    · rename_i hlen
      exact hexPairs_strict (not_not.mp hlen) hhex (h.bytes x hx htime)

theorem verifiesExactly_iff : VerifiesExactly H secret log now tolerance ↔
    Unambiguous H secret log now tolerance := by
  constructor
  · exact unambiguous_of_verifiesExactly
  · intro h
    refine ⟨fun x hx => ?_, fun payload header => genuine_of_unambiguous h,
      fun payload header => verify_total header⟩
    have htoHex := toHex_codes (x.mac H secret)
    exact (verify_signed x rfl (fun c hc => (htoHex c hc).1)
      (toHex_ne_nil (H.nonempty _ _)) (fromHex_toHex _)).trans (h.rounding x hx)

/-- Whole seconds that are not too far apart are compared without rounding. -/
theorem timeAccepted_iff_within {n t k : ℤ} (h : (n - t).natAbs ≤ 2 ^ 53) :
    TimeAccepted (.ofInt n) t (.ofInt k) ↔ Within (.ofInt n) t (.ofInt k) := by
  have hunits : n * (ONE : ℤ) - t * ONE = (n - t) * ONE := by ring
  have habs : ((n - t) * (ONE : ℤ)).natAbs = (n - t).natAbs * ONE := by
    rw [Int.natAbs_mul, Int.natAbs_natCast]
  have hround : roundMag ((n - t).natAbs * ONE) 1 = (n - t).natAbs * ONE :=
    roundMag_of_representable (representable_mul_one h)
  have hlimit : (n - t).natAbs * ONE < LIMIT := by
    refine Nat.lt_of_le_of_lt (Nat.mul_le_mul_right ONE h) ?_
    rw [ONE, LIMIT, ← pow_add, Nat.pow_lt_pow_iff_right (by omega)]
    omega
  have hsub : ((Number.ofInt n).sub (Number.ofInt t)).abs = .finite |(n - t) * (ONE : ℤ)| := by
    rw [Number.ofInt, Number.ofInt, Number.sub, hunits, habs, hround, Number.ofMag,
      if_neg (Nat.not_le.mpr hlimit), Number.abs]
    rw [Int.abs_eq_natAbs ((n - t) * (ONE : ℤ)), habs]
    congr 1
    split
    · rw [abs_neg, Int.abs_eq_natAbs, Int.natAbs_natCast]
    · rw [Int.abs_eq_natAbs, Int.natAbs_natCast]
  unfold TimeAccepted
  rw [hsub, Number.ofInt, Number.ofInt, Number.gt, Within, hunits, decide_eq_false_iff_not, not_lt]

end Exactness

/-! ## A `g` in the place of a digit -/

def sampleSecret : Str := text "whsec_test_1234567890abcdef"

def sampleSigned : Signed :=
  ⟨text "paid", 1735000000, by decide +kernel, by decide⟩

/-- The real MAC of the sample, and some injective function otherwise. -/
def sampleMac (key message : List UInt8) : List UInt8 :=
  if key = utf8ToBytes sampleSecret ∧ message = utf8ToBytes (text "1735000000.paid") then
    [0xa2, 0x31, 0x6d, 0x72, 0xc0, 0xa5, 0x16, 0xe5, 0x1b, 0x51, 0x00, 0x51, 0xe6, 0xe8, 0x74,
     0xeb, 0xe5, 0x8a, 0xf5, 0xbf, 0x7c, 0x4f, 0xf6, 0x34, 0x25, 0x18, 0x1d, 0xd2, 0xa5, 0xfd,
     0x43, 0xf8]
  else List.replicate 33 0 ++ message

def sampleHmac : Hmac where
  mac := sampleMac
  injective key m n h := by
    unfold sampleMac at h
    split at h
    · rename_i hm
      split at h
      · rename_i hn
        rw [hm.2, hn.2]
      · exact absurd (congrArg List.length h) (by simp)
    · split at h
      · exact absurd (congrArg List.length h) (by simp)
      · exact List.append_cancel_left h
  nonempty key message := by
    unfold sampleMac
    split
    · exact List.cons_ne_nil _ _
    · exact List.cons_ne_nil _ _

/-- The MAC of the sample with its byte `00` written as `0g`. -/
def sampleLoose : Str :=
  text "t=1735000000,v1=a2316d72c0a516e51b510g51e6e874ebe58af5bf7c4ff63425181dd2a5fd43f8"

/-- It verifies, but it is not the hex spelling of the MAC. -/
theorem loose_spelling_verifies :
    ¬ VerifiesExactly sampleHmac sampleSecret [sampleSigned] (.ofInt 1735000000) (.ofInt 300) := by
  intro h
  have hverify : verify sampleHmac sampleSecret (.ofInt 1735000000) (.ofInt 300) (text "paid")
      sampleLoose = .ok .valid := by decide +kernel
  have hparse : parseSignatureHeader sampleLoose = some ⟨some 1735000000,
      some (text "a2316d72c0a516e51b510g51e6e874ebe58af5bf7c4ff63425181dd2a5fd43f8")⟩ := by
    decide +kernel
  have hforged : NotForged sampleHmac sampleSecret [sampleSigned] (text "paid") sampleLoose := by
    intro t s ht _
    rw [hparse] at ht
    obtain ⟨ht, -⟩ := ParsedSignatureHeader.mk.inj (Option.some.inj ht)
    exact ⟨sampleSigned, List.mem_cons_self, by rw [← Option.some.inj ht]; rfl⟩
  obtain ⟨x, hx, s, hs, -, -, hspells⟩ := h.sound _ _ hforged hverify
  rw [hparse] at hs
  obtain ⟨-, hs⟩ := ParsedSignatureHeader.mk.inj (Option.some.inj hs)
  rw [List.mem_singleton.mp hx, ← Option.some.inj hs] at hspells
  exact absurd hspells (by unfold Spells; decide +kernel)

end Strimz.WebhookSignature
