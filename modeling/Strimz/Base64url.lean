import Strimz.Script

/-!
# base64url

Bytes in groups of three as four code units of six bits, without padding. Reading skips what is in
neither alphabet, as `Buffer.from(s, 'base64url')` does.
-/

namespace Base64url

open Script

/-- The code unit of six bits. -/
def digit (n : ℕ) : CodeUnit :=
  UInt16.ofNat <|
    if n < 26 then 65 + n
    else if n < 52 then 97 + (n - 26)
    else if n < 62 then 48 + (n - 52)
    else if n = 62 then 45
    else 95

/-- The six bits of a code unit, in either alphabet. -/
def digitValue (c : CodeUnit) : Option ℕ :=
  let n := c.toNat
  if 65 ≤ n ∧ n ≤ 90 then some (n - 65)
  else if 97 ≤ n ∧ n ≤ 122 then some (n - 97 + 26)
  else if 48 ≤ n ∧ n ≤ 57 then some (n - 48 + 52)
  else if n = 45 ∨ n = 43 then some 62
  else if n = 95 ∨ n = 47 then some 63
  else none

/-- Bytes in six bits each. -/
def sextets : List UInt8 → List ℕ
  | [] => []
  | [a] => [a.toNat / 4, a.toNat % 4 * 16]
  | [a, b] => [a.toNat / 4, a.toNat % 4 * 16 + b.toNat / 16, b.toNat % 16 * 4]
  | a :: b :: c :: rest =>
      a.toNat / 4 :: (a.toNat % 4 * 16 + b.toNat / 16) :: (b.toNat % 16 * 4 + c.toNat / 64) ::
        c.toNat % 64 :: sextets rest

/-- Six bits each in bytes; bits that fill no byte are dropped. -/
def octets : List ℕ → List UInt8
  | [] | [_] => []
  | [x, y] => [UInt8.ofNat (x * 4 + y / 16)]
  | [x, y, z] => [UInt8.ofNat (x * 4 + y / 16), UInt8.ofNat (y % 16 * 16 + z / 4)]
  | x :: y :: z :: w :: rest =>
      UInt8.ofNat (x * 4 + y / 16) :: UInt8.ofNat (y % 16 * 16 + z / 4) ::
        UInt8.ofNat (z % 4 * 64 + w) :: octets rest

def encode (bytes : List UInt8) : Str := (sextets bytes).map digit

def decode (s : Str) : List UInt8 := octets (s.filterMap digitValue)

theorem digitValue_digit {n : ℕ} (h : n < 64) : digitValue (digit n) = some n := by
  interval_cases n <;> rfl

theorem sextets_lt (bytes : List UInt8) : ∀ n ∈ sextets bytes, n < 64 := by
  induction bytes using sextets.induct with
  | case1 => exact fun _ h => absurd h List.not_mem_nil
  | case2 a =>
      have := a.toNat_lt
      simp only [sextets, List.forall_mem_cons, List.not_mem_nil, false_implies, implies_true,
        and_true]
      omega
  | case3 a b =>
      have := a.toNat_lt
      have := b.toNat_lt
      simp only [sextets, List.forall_mem_cons, List.not_mem_nil, false_implies, implies_true,
        and_true]
      omega
  | case4 a b c rest ih =>
      have := a.toNat_lt
      have := b.toNat_lt
      have := c.toNat_lt
      simp only [sextets, List.forall_mem_cons]
      exact ⟨by omega, by omega, by omega, by omega, ih⟩

theorem ofNat_eq {n : ℕ} {b : UInt8} (h : n = b.toNat) : UInt8.ofNat n = b := by
  rw [h, UInt8.ofNat_toNat]

theorem octets_sextets (bytes : List UInt8) : octets (sextets bytes) = bytes := by
  induction bytes using sextets.induct with
  | case1 => rfl
  | case2 a =>
      have := a.toNat_lt
      rw [sextets, octets, ofNat_eq (b := a) (by omega)]
  | case3 a b =>
      have := a.toNat_lt
      have := b.toNat_lt
      rw [sextets, octets, ofNat_eq (b := a) (by omega), ofNat_eq (b := b) (by omega)]
  | case4 a b c rest ih =>
      have := a.toNat_lt
      have := b.toNat_lt
      have := c.toNat_lt
      rw [sextets, octets, ih, ofNat_eq (b := a) (by omega), ofNat_eq (b := b) (by omega),
        ofNat_eq (b := c) (by omega)]

/-- What was written is read back. -/
theorem decode_encode (bytes : List UInt8) : decode (encode bytes) = bytes := by
  have hdigits : ∀ ns : List ℕ, (∀ n ∈ ns, n < 64) → (ns.map digit).filterMap digitValue = ns := by
    intro ns h
    induction ns with
    | nil => rfl
    | cons n ns ih =>
        rw [List.map_cons, List.filterMap_cons, digitValue_digit (h n List.mem_cons_self)]
        exact congrArg (n :: ·) (ih fun m hm => h m (List.mem_cons_of_mem _ hm))
  rw [decode, encode, hdigits _ (sextets_lt bytes), octets_sextets]

/-- Four code units for three bytes. -/
theorem length_encode (bytes : List UInt8) : (encode bytes).length = (4 * bytes.length + 2) / 3 := by
  rw [encode, List.length_map]
  induction bytes using sextets.induct with
  | case1 => rfl
  | case2 a => simp only [sextets, List.length_cons, List.length_nil]
  | case3 a b => simp only [sextets, List.length_cons, List.length_nil]
  | case4 a b c rest ih =>
      simp only [sextets, List.length_cons, ih]
      omega

end Base64url
