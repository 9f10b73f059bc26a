import Mathlib.Data.List.DropRight
import Mathlib.Data.List.TakeWhile
import Mathlib.Data.Nat.Digits.Lemmas
import Strimz.Binary64

/-!
# Text and numbers of the script language

What the built-in functions of JavaScript do that turn text into numbers and back: strings are
lists of UTF-16 code units, `Number(s)` reads the grammar of numeric strings, an integer is
spelled with the fewest digits that still name it, `parseInt(s, 16)` stops at the first code unit
that is no digit, and a string is encoded as the UTF-8 of its scalar values.
-/

namespace Script

open Binary64

abbrev CodeUnit := UInt16

abbrev Str := List CodeUnit

/-- A literal; all of them are ASCII. -/
def text (s : String) : Str := s.toList.map fun c => UInt16.ofNat c.toNat

/-! ## Trimming -/

/-- White space and line terminators. -/
def SPACES : Str :=
  [0x9, 0xA, 0xB, 0xC, 0xD, 0x20, 0xA0, 0x1680, 0x2000, 0x2001, 0x2002, 0x2003, 0x2004, 0x2005,
   0x2006, 0x2007, 0x2008, 0x2009, 0x200A, 0x2028, 0x2029, 0x202F, 0x205F, 0x3000, 0xFEFF]

def isSpace (c : CodeUnit) : Bool := SPACES.contains c

def trimStart (s : Str) : Str := s.dropWhile isSpace

/-- `s.trim()` -/
def trim (s : Str) : Str := (trimStart (trimStart s).reverse).reverse

theorem trimStart_of_all {s : Str} (h : ∀ c ∈ s, isSpace c = false) : trimStart s = s := by
  cases s with
  | nil => rfl
  | cons c s => rw [trimStart, List.dropWhile_cons, h c List.mem_cons_self, if_neg (by decide)]

theorem trim_of_all {s : Str} (h : ∀ c ∈ s, isSpace c = false) : trim s = s := by
  rw [trim, trimStart_of_all h, trimStart_of_all fun c hc => h c (List.mem_reverse.mp hc),
    List.reverse_reverse]

/-! ## Case -/

/-- `s.toLowerCase()`, where the text is ASCII. -/
def toLowerCase (s : Str) : Str := s.map fun c => if 65 ≤ c ∧ c ≤ 90 then c + 32 else c

theorem toLowerCase_idem (s : Str) : toLowerCase (toLowerCase s) = toLowerCase s := by
  rw [toLowerCase, toLowerCase, List.map_map]
  refine List.map_congr_left fun c _ => ?_
  simp only [Function.comp_apply]
  by_cases hupper : 65 ≤ c ∧ c ≤ 90
  · have hlower : ¬ (65 ≤ c + 32 ∧ c + 32 ≤ 90) := by
      simp only [UInt16.le_iff_toNat_le, UInt16.toNat_add] at hupper ⊢
      have h65 : (65 : CodeUnit).toNat = 65 := rfl
      have h90 : (90 : CodeUnit).toNat = 90 := rfl
      have h32 : (32 : CodeUnit).toNat = 32 := rfl
      omega
    rw [if_pos hupper, if_neg hlower]
  · rw [if_neg hupper, if_neg hupper]

/-! ## Digits -/

def isDigit (c : CodeUnit) : Bool := decide (48 ≤ c ∧ c ≤ 57)

def digitCode (d : ℕ) : CodeUnit := UInt16.ofNat (48 + d)

/-- What decimal digits say. -/
def digitsValue (ds : Str) : ℕ := Nat.ofDigits 10 (ds.map fun c => c.toNat - 48).reverse

/-- A natural number in decimal. -/
def decimal (n : ℕ) : Str :=
  if n = 0 then [48] else (Nat.digits 10 n).reverse.map digitCode

theorem digitCode_spec {d : ℕ} (h : d < 10) :
    isDigit (digitCode d) = true ∧ (digitCode d).toNat - 48 = d := by
  interval_cases d <;> exact ⟨rfl, rfl⟩

theorem isDigit_decimal (n : ℕ) : ∀ c ∈ decimal n, isDigit c = true := by
  intro c hc
  unfold decimal at hc
  split at hc
  · obtain rfl := List.mem_singleton.mp hc
    rfl
  · obtain ⟨d, hd, rfl⟩ := List.mem_map.mp hc
    exact (digitCode_spec (Nat.digits_lt_base (by omega) (List.mem_reverse.mp hd))).1

theorem decimal_ne_nil (n : ℕ) : decimal n ≠ [] := by
  unfold decimal
  split
  · exact List.cons_ne_nil _ _
  · rename_i hn
    simpa using Nat.digits_ne_nil_iff_ne_zero.mpr hn

theorem digitsValue_decimal (n : ℕ) : digitsValue (decimal n) = n := by
  unfold digitsValue decimal
  split
  · rename_i hn
    rw [hn]
    rfl
  · have hmap : (Nat.digits 10 n).map ((fun c : CodeUnit => c.toNat - 48) ∘ digitCode) =
        Nat.digits 10 n := by
      conv_rhs => rw [← List.map_id (Nat.digits 10 n)]
      exact List.map_congr_left fun d hd => (digitCode_spec (Nat.digits_lt_base (by omega) hd)).2
    rw [List.map_reverse, List.map_reverse, List.reverse_reverse, List.map_map, hmap,
      Nat.ofDigits_digits]

theorem decimal_length_le {n k : ℕ} (hk : 0 < k) (h : n < 10 ^ k) : (decimal n).length ≤ k := by
  unfold decimal
  split
  · exact hk
  · rw [List.length_map, List.length_reverse]
    exact (Nat.digits_length_le_iff (by omega) n).mpr h

/-- A digit is no white space, and none of the marks of a number. -/
theorem isDigit_spec {c : CodeUnit} (h : isDigit c = true) :
    isSpace c = false ∧ 48 ≤ c.toNat ∧ c.toNat ≤ 57 := by
  obtain ⟨h1, h2⟩ := of_decide_eq_true h
  have h1 : 48 ≤ c.toNat := UInt16.le_iff_toNat_le.mp h1
  have h2 : c.toNat ≤ 57 := UInt16.le_iff_toNat_le.mp h2
  refine ⟨?_, h1, h2⟩
  rw [isSpace, List.contains_eq_mem, decide_eq_false_iff_not]
  intro hmem
  simp only [SPACES, List.mem_cons, List.not_mem_nil, or_false] at hmem
  rcases hmem with rfl | rfl | rfl | rfl | rfl | rfl | rfl | rfl | rfl | rfl | rfl | rfl | rfl |
    rfl | rfl | rfl | rfl | rfl | rfl | rfl | rfl | rfl | rfl | rfl | rfl <;>
    first | exact absurd h1 (by decide) | exact absurd h2 (by decide)

theorem isDigit_ne {c d : CodeUnit} (h : isDigit c = true) (hd : d.toNat < 48 ∨ 57 < d.toNat) :
    c ≠ d := by
  rintro rfl
  obtain ⟨-, h1, h2⟩ := isDigit_spec h
  omega

/-! ## `Number(s)` -/

/-- The value of a digit of a base up to 16. -/
def digitOf (c : CodeUnit) : Option ℕ :=
  if 48 ≤ c ∧ c ≤ 57 then some (c.toNat - 48)
  else if 97 ≤ c ∧ c ≤ 102 then some (c.toNat - 87)
  else if 65 ≤ c ∧ c ≤ 70 then some (c.toNat - 55)
  else none

/-- The base that the letter behind a leading zero announces. -/
def radixMark (c : CodeUnit) : Option ℕ :=
  if c = 120 ∨ c = 88 then some 16
  else if c = 111 ∨ c = 79 then some 8
  else if c = 98 ∨ c = 66 then some 2
  else none

def radixPrefix : Str → Option ℕ
  | c :: mark :: _ => if c = 48 then radixMark mark else none
  | _ => none

def radixDigits (radix : ℕ) (ds : Str) : Option ℕ :=
  if ds ≠ [] ∧ ds.all (fun c => (digitOf c).any (· < radix)) = true then
    some (Nat.ofDigits radix (ds.filterMap digitOf).reverse)
  else none

/-- The sign in front, and the rest. -/
def splitSign : Str → Bool × Str
  | c :: rest => if c = 45 then (true, rest) else if c = 43 then (false, rest) else (false, c :: rest)
  | [] => (false, [])

def exponentDigits (negative : Bool) (ds : Str) : Option ℤ :=
  if ds ≠ [] ∧ ds.all isDigit = true then
    some (if negative = true then -(digitsValue ds : ℤ) else digitsValue ds)
  else none

def exponentPart : Str → Option ℤ
  | [] => some 0
  | e :: rest =>
      if e = 101 ∨ e = 69 then exponentDigits (splitSign rest).1 (splitSign rest).2 else none

/-- The digits behind a point, and the rest. -/
def fraction : Str → Str × Str
  | c :: rest =>
      if c = 46 then (rest.takeWhile isDigit, rest.dropWhile isDigit) else ([], c :: rest)
  | [] => ([], [])

/-- A decimal literal without its sign, as a ratio. -/
def unsignedDecimal (s : Str) : Option (ℕ × ℕ) :=
  let whole := s.takeWhile isDigit
  let (frac, rest) := fraction (s.dropWhile isDigit)
  if whole = [] ∧ frac = [] then none
  else (exponentPart rest).map fun e : ℤ =>
    (digitsValue (whole ++ frac) * 10 ^ (e - frac.length).toNat, 10 ^ (frac.length - e).toNat)

def numericLiteral (s : Str) : Number :=
  match radixPrefix s with
  | some radix =>
      match radixDigits radix (s.drop 2) with
      | some n => .ofRatio false n 1
      | none => .nan
  | none =>
      let (negative, unsigned) := splitSign s
      if unsigned = text "Infinity" then .infinite negative
      else match unsignedDecimal unsigned with
        | some (a, d) => .ofRatio negative a d
        | none => .nan

/-- `Number(s)` -/
def stringToNumber (s : Str) : Number :=
  if trim s = [] then .finite 0 else numericLiteral (trim s)

theorem radixMark_digit {c : CodeUnit} (h : isDigit c = true) : radixMark c = none := by
  have hne (d : CodeUnit) (hd : 57 < d.toNat) : c ≠ d := isDigit_ne h (Or.inr hd)
  simp [radixMark, hne 120 (by decide), hne 88 (by decide), hne 111 (by decide),
    hne 79 (by decide), hne 98 (by decide), hne 66 (by decide)]

theorem radixPrefix_digits {s : Str} (h : ∀ c ∈ s.tail, isDigit c = true) :
    radixPrefix s = none := by
  match s with
  | [] => rfl
  | [_] => rfl
  | c :: d :: rest =>
      have hd : isDigit d = true := h d List.mem_cons_self
      rw [radixPrefix, radixMark_digit hd, ite_self]

theorem splitSign_digits {s : Str} (h : ∀ c ∈ s, isDigit c = true) : splitSign s = (false, s) := by
  cases s with
  | nil => rfl
  | cons c rest =>
      have hne (d : CodeUnit) (hd : d.toNat < 48) : c ≠ d :=
        isDigit_ne (h c List.mem_cons_self) (Or.inl hd)
      rw [splitSign, if_neg (hne 45 (by decide)), if_neg (hne 43 (by decide))]

theorem unsignedDecimal_digits {s : Str} (hne : s ≠ []) (h : ∀ c ∈ s, isDigit c = true) :
    unsignedDecimal s = some (digitsValue s, 1) := by
  have htake : s.takeWhile isDigit = s := List.takeWhile_eq_self_iff.mpr h
  have hdrop : s.dropWhile isDigit = [] := List.dropWhile_eq_nil_iff.mpr h
  simp [unsignedDecimal, htake, hdrop, fraction, hne, exponentPart]

/-- The sign and the digits of an integer are read as they stand. -/
theorem stringToNumber_decimal (negative : Bool) (n : ℕ) :
    stringToNumber ((if negative = true then [45] else []) ++ decimal n) =
      .ofRatio negative n 1 := by
  have hdigits := isDigit_decimal n
  have hspace : ∀ c ∈ (if negative = true then [45] else []) ++ decimal n, isSpace c = false := by
    intro c hc
    rcases List.mem_append.mp hc with hsign | hd
    · cases negative with
      | false => cases hsign
      | true =>
          obtain rfl := List.mem_singleton.mp hsign
          rfl
    · exact (isDigit_spec (hdigits c hd)).1
  have hinfinity : decimal n ≠ text "Infinity" := by
    intro heq
    have hI : (73 : CodeUnit) ∈ decimal n := by rw [heq]; decide
    exact absurd (hdigits 73 hI) (by decide)
  have hprefix : radixPrefix ((if negative = true then [45] else []) ++ decimal n) = none := by
    refine radixPrefix_digits fun c hc => hdigits c ?_
    cases negative with
    | false => exact List.mem_of_mem_tail hc
    | true => exact hc
  have hsplit : splitSign ((if negative = true then [45] else []) ++ decimal n) =
      (negative, decimal n) := by
    cases negative with
    | false => exact splitSign_digits hdigits
    | true => rfl
  rw [stringToNumber, trim_of_all hspace,
    if_neg (List.append_ne_nil_of_right_ne_nil _ (decimal_ne_nil n)), numericLiteral, hprefix,
    hsplit]
  simp only [if_neg hinfinity, unsignedDecimal_digits (decimal_ne_nil n) hdigits,
    digitsValue_decimal]

/-! ## The spelling of an integer -/

/-- Whether `v` is read as the number `m`. -/
def Names (m v : ℕ) : Prop := roundMag (v * ONE) 1 = m * ONE

instance (m v : ℕ) : Decidable (Names m v) := inferInstanceAs (Decidable (_ = _))

/-- The multiple of `p` closest to `m` that is read as `m`, if there is one. -/
def closest (m p : ℕ) : Option ℕ :=
  let lo := m / p * p
  let hi := lo + p
  if Names m lo ∧ Names m hi then
    some (if m - lo < hi - m then lo else if hi - m < m - lo then hi
      else if m / p % 2 = 0 then lo else hi)
  else if Names m lo then some lo
  else if Names m hi then some hi
  else none

/-- The first of the multiples of `10 ^ k`, …, `10`, `1` that is read as `m`. -/
def shortestFrom (m : ℕ) : ℕ → ℕ
  | 0 => m
  | k + 1 => (closest m (10 ^ (k + 1))).getD (shortestFrom m k)

/-- The number with the fewest digits that is read as `m`, with zeros behind them. -/
def shortest (m : ℕ) : ℕ := shortestFrom m ((Nat.digits 10 m).length - 1)

/-- `d` or `d.ddd` -/
def pointed : Str → Str
  | d :: e :: rest => d :: 46 :: e :: rest
  | ds => ds

/-- `String(n)` of an integer: plain digits up to 21 of them, and an exponent from there on. -/
def integerToString (n : ℤ) : Str :=
  let ds := decimal (shortest n.natAbs)
  (if n < 0 then [45] else []) ++
    if ds.length ≤ 21 then ds
    else pointed (ds.rdropWhile (· = 48)) ++ text "e+" ++ decimal (ds.length - 1)

theorem closest_names {m p v : ℕ} (h : closest m p = some v) :
    Names m v ∧ (v = m / p * p ∨ v = m / p * p + p) := by
  unfold closest at h
  dsimp only at h
  split at h
  · rename_i hboth
    obtain rfl := Option.some.inj h
    split
    · exact ⟨hboth.1, Or.inl rfl⟩
    · split
      · exact ⟨hboth.2, Or.inr rfl⟩
      · split
        · exact ⟨hboth.1, Or.inl rfl⟩
        · exact ⟨hboth.2, Or.inr rfl⟩
  · split at h
    · rename_i hlo
      obtain rfl := Option.some.inj h
      exact ⟨hlo, Or.inl rfl⟩
    · split at h
      · rename_i hhi
        obtain rfl := Option.some.inj h
        exact ⟨hhi, Or.inr rfl⟩
      · cases h

/-- A spelling is read back as the number it spells. -/
theorem names_shortest {m : ℕ} (h : Names m m) : Names m (shortest m) := by
  have hfrom : ∀ k, Names m (shortestFrom m k) := by
    intro k
    induction k with
    | zero => exact h
    | succ k ih =>
        rw [shortestFrom]
        cases hc : closest m (10 ^ (k + 1)) with
        | none => exact ih
        | some v => exact (closest_names hc).1
  exact hfrom _

/-- `10 ^ j` is read as itself, so no smaller number is spelled like it. -/
theorem shortestFrom_lt {m j : ℕ} (hm : m < 10 ^ j) (hj : Names (10 ^ j) (10 ^ j)) :
    ∀ k, k ≤ j → shortestFrom m k < 10 ^ j := by
  intro k
  induction k with
  | zero => exact fun _ => hm
  | succ k ih =>
      intro hk
      rw [shortestFrom]
      cases hc : closest m (10 ^ (k + 1)) with
      | none => exact ih (by omega)
      | some v =>
          obtain ⟨hnames, hv⟩ := closest_names hc
          obtain ⟨q, hq⟩ : 10 ^ (k + 1) ∣ 10 ^ j := Nat.pow_dvd_pow 10 hk
          have hlo : m / 10 ^ (k + 1) < q := Nat.div_lt_of_lt_mul (by rwa [← hq])
          have hle : v ≤ 10 ^ j := by
            have hmul : (m / 10 ^ (k + 1) + 1) * 10 ^ (k + 1) ≤ q * 10 ^ (k + 1) :=
              Nat.mul_le_mul_right _ hlo
            rw [Nat.add_mul, Nat.one_mul, Nat.mul_comm q, ← hq] at hmul
            rcases hv with rfl | rfl
            · exact Nat.le_trans (Nat.le_add_right _ _) hmul
            · exact hmul
          refine Nat.lt_of_le_of_ne hle fun heq => ?_
          rw [Option.getD_some] at heq
          have hsame : m * ONE = 10 ^ j * ONE := by
            rw [← hnames, heq]
            exact hj
          exact Nat.ne_of_lt hm (Nat.eq_of_mul_eq_mul_right ONE_pos hsame)

theorem shortest_lt {m : ℕ} (hm : m < 10 ^ 21) : shortest m < 10 ^ 21 := by
  refine shortestFrom_lt hm ?_ _ ?_
  · exact roundMag_of_representable ⟨5 ^ 21, 21 + 1074, by norm_num,
      by rw [pow_add, ← Nat.mul_assoc, show (5 : ℕ) ^ 21 * 2 ^ 21 = 10 ^ 21 by norm_num, ONE]⟩
  · have hlen := (Nat.digits_length_le_iff (b := 10) (k := 21) (by omega) m).mpr hm
    omega

theorem integerToString_of_lt {n : ℤ} (h : n.natAbs < 10 ^ 21) :
    integerToString n = (if n < 0 then [45] else []) ++ decimal (shortest n.natAbs) := by
  rw [integerToString, if_pos (decimal_length_le (by omega) (shortest_lt h))]

/-- Reading back what was spelled. -/
theorem stringToNumber_integerToString {n : ℤ} (hn : IsNumber n) (h : n.natAbs < 10 ^ 21) :
    stringToNumber (integerToString n) = .ofInt n := by
  have hread := stringToNumber_decimal (decide (n < 0)) (shortest n.natAbs)
  simp only [decide_eq_true_eq] at hread
  rw [integerToString_of_lt h, hread]
  refine ofRatio_of_isNumber hn (names_shortest hn.1) ?_
  simp only [decide_eq_true_eq]
  split <;> omega

/-- No other integer is spelled the same. -/
theorem integerToString_injective {m n : ℤ} (hm : IsNumber m) (hn : IsNumber n)
    (hm' : m.natAbs < 10 ^ 21) (hn' : n.natAbs < 10 ^ 21)
    (h : integerToString m = integerToString n) : m = n := by
  have hnum : Number.ofInt m = Number.ofInt n := by
    rw [← stringToNumber_integerToString hm hm', h, stringToNumber_integerToString hn hn']
  have hint : (Number.ofInt m).toInt? = (Number.ofInt n).toInt? := by rw [hnum]
  rw [toInt?_ofInt, toInt?_ofInt] at hint
  exact Option.some.inj hint

/-- What a spelling without exponent is made of. -/
theorem integerToString_codes {n : ℤ} (h : n.natAbs < 10 ^ 21) :
    ∀ c ∈ integerToString n, c = 45 ∨ isDigit c = true := by
  intro c hc
  rw [integerToString_of_lt h] at hc
  rcases List.mem_append.mp hc with hsign | hd
  · split at hsign
    · exact Or.inl (List.mem_singleton.mp hsign)
    · cases hsign
  · exact Or.inr (isDigit_decimal _ c hd)

/-! ## `parseInt(s, 16)` -/

/-- `0x` in front is skipped. -/
def skipHexPrefix : Str → Str
  | c :: x :: rest => if c = 48 ∧ (x = 120 ∨ x = 88) then rest else c :: x :: rest
  | s => s

/-- What the digits in front say; `none` is `NaN`. -/
def hexValue (negative : Bool) (s : Str) : Option ℤ :=
  let ds := (skipHexPrefix s).takeWhile fun c => (digitOf c).isSome
  if ds = [] then none
  else
    let value := Nat.ofDigits 16 (ds.filterMap digitOf).reverse
    some (if negative = true then -(value : ℤ) else value)

def parseInt16 (s : Str) : Option ℤ :=
  hexValue (splitSign (trimStart s)).1 (splitSign (trimStart s)).2

/-! ## UTF-8 -/

def isHigh (c : CodeUnit) : Bool := decide (0xD800 ≤ c ∧ c ≤ 0xDBFF)

def isLow (c : CodeUnit) : Bool := decide (0xDC00 ≤ c ∧ c ≤ 0xDFFF)

/-- The scalar value of a code unit on its own; a surrogate is replaced. -/
def scalarOf (c : CodeUnit) : Char :=
  if isHigh c || isLow c then Char.ofNat 0xFFFD else Char.ofNat c.toNat

def pairOf (c d : CodeUnit) : Char :=
  Char.ofNat (0x10000 + (c.toNat - 0xD800) * 0x400 + (d.toNat - 0xDC00))

def scalars : Str → List Char
  | [] => []
  | [c] => [scalarOf c]
  | c :: d :: rest =>
      if isHigh c && isLow d then pairOf c d :: scalars rest
      else scalarOf c :: scalars (d :: rest)

/-- `new TextEncoder().encode(s)` -/
def utf8ToBytes (s : Str) : List UInt8 := (scalars s).flatMap String.utf8EncodeChar

theorem scalars_of_utf8ToBytes {s t : Str} (h : utf8ToBytes s = utf8ToBytes t) :
    scalars s = scalars t := by
  have hbytes : (scalars s).utf8Encode = (scalars t).utf8Encode := by
    simp only [utf8ToBytes] at h
    simp only [List.utf8Encode, h]
  refine String.ofList_injective ?_
  rw [← String.toByteArray_inj, String.toByteArray_ofList, String.toByteArray_ofList, hbytes]

theorem scalars_cons {c : CodeUnit} (h : isHigh c = false) (s : Str) :
    scalars (c :: s) = scalarOf c :: scalars s := by
  cases s with
  | nil => rfl
  | cons d rest => rw [scalars, h, Bool.false_and, if_neg (by decide)]

theorem scalars_append {s : Str} (h : ∀ c ∈ s, isHigh c = false) (t : Str) :
    scalars (s ++ t) = s.map scalarOf ++ scalars t := by
  induction s with
  | nil => rfl
  | cons c s ih =>
      rw [List.cons_append, scalars_cons (h c List.mem_cons_self),
        ih fun d hd => h d (List.mem_cons_of_mem _ hd), List.map_cons, List.cons_append]

/-! ## Scalar values -/

section ScalarValues

variable {s : Str} {u : CodeUnit} {c : Char}

theorem toNat_charOfNat {n : ℕ} (h : n.isValidChar) : (Char.ofNat n).toNat = n := by
  rw [Char.ofNat, dif_pos h]
  rfl

/-- A visible ASCII code unit is a scalar value of its own. -/
theorem scalarOf_ascii (h : u.toNat ≤ 0x7E) :
    (scalarOf u).toNat = u.toNat ∧ isHigh u = false := by
  have hhigh : isHigh u = false := by
    rw [isHigh, decide_eq_false_iff_not, UInt16.le_iff_toNat_le]
    have : (0xD800 : CodeUnit).toNat = 0xD800 := rfl
    omega
  have hlow : isLow u = false := by
    rw [isLow, decide_eq_false_iff_not, UInt16.le_iff_toNat_le]
    have : (0xDC00 : CodeUnit).toNat = 0xDC00 := rfl
    omega
  refine ⟨?_, hhigh⟩
  rw [scalarOf, hhigh, hlow, if_neg (by decide)]
  exact toNat_charOfNat (.inl (by omega))

/-- A code unit on its own is what it stands for, unless it is a surrogate. -/
theorem scalarOf_toNat (u : CodeUnit) :
    (scalarOf u).toNat = u.toNat ∨ (scalarOf u).toNat = 0xFFFD := by
  unfold scalarOf
  split
  · exact .inr rfl
  · rename_i hsurrogate
    refine .inl (toNat_charOfNat ?_)
    simp only [isHigh, isLow, Bool.or_eq_true, decide_eq_true_eq, UInt16.le_iff_toNat_le,
      UInt16.reduceToNat] at hsurrogate
    have := u.toNat_lt
    unfold Nat.isValidChar
    omega

/-- A surrogate pair is beyond the code units. -/
theorem pairOf_toNat {v : CodeUnit} (hu : isHigh u = true) (hv : isLow v = true) :
    0x10000 ≤ (pairOf u v).toNat := by
  simp only [isHigh, isLow, decide_eq_true_eq, UInt16.le_iff_toNat_le,
    UInt16.reduceToNat] at hu hv
  rw [pairOf, toNat_charOfNat]
  · omega
  · unfold Nat.isValidChar
    omega

/-- The first ASCII scalar value of a text is its first code unit. -/
theorem scalars_head (h : (scalars (u :: s)).head? = some c) (hc : c.toNat < 0x80) :
    c.toNat = u.toNat := by
  have halone : (scalarOf u).toNat < 0x80 → (scalarOf u).toNat = u.toNat := by
    intro hlt
    rcases scalarOf_toNat u with heq | heq
    · exact heq
    · omega
  cases s with
  | nil =>
      rw [← Option.some.inj h] at hc ⊢
      exact halone hc
  | cons v s =>
      rw [scalars] at h
      split at h
      · rename_i hpair
        rw [Bool.and_eq_true] at hpair
        rw [← Option.some.inj h] at hc
        have := pairOf_toNat hpair.1 hpair.2
        omega
      · rw [← Option.some.inj h] at hc ⊢
        exact halone hc

/-- An ASCII scalar value of a text is one of its code units. -/
theorem mem_scalars (h : c ∈ scalars s) (hc : c.toNat < 0x80) : ∃ u ∈ s, u.toNat = c.toNat := by
  induction s using scalars.induct with
  | case1 => cases h
  | case2 u =>
      refine ⟨u, List.mem_singleton_self u, ?_⟩
      rw [scalars, List.mem_singleton] at h
      subst h
      rcases scalarOf_toNat u with heq | heq
      · exact heq.symm
      · omega
  | case3 u v rest hpair ih =>
      rw [scalars, if_pos hpair] at h
      rw [Bool.and_eq_true] at hpair
      rcases List.mem_cons.mp h with h | h
      · have := pairOf_toNat hpair.1 hpair.2
        rw [h] at hc
        omega
      · obtain ⟨w, hw, heq⟩ := ih h
        exact ⟨w, List.mem_cons_of_mem _ (List.mem_cons_of_mem _ hw), heq⟩
  | case4 u v rest hpair ih =>
      have hfirst : (scalars (u :: v :: rest)).head? = some (scalarOf u) := by
        rw [scalars, if_neg hpair]
        rfl
      rw [scalars, if_neg hpair] at h
      rcases List.mem_cons.mp h with rfl | h
      · exact ⟨u, List.mem_cons_self, (scalars_head hfirst hc).symm⟩
      · obtain ⟨w, hw, heq⟩ := ih h
        exact ⟨w, List.mem_cons_of_mem _ hw, heq⟩

theorem utf8ToBytes_ascii (h : ∀ u ∈ s, u.toNat ≤ 0x7E) :
    utf8ToBytes s = s.map fun u => UInt8.ofNat u.toNat := by
  induction s with
  | nil => rfl
  | cons u s ih =>
      obtain ⟨htoNat, hhigh⟩ := scalarOf_ascii (h u List.mem_cons_self)
      have hbyte : String.utf8EncodeChar (scalarOf u) = [UInt8.ofNat u.toNat] := by
        have hsmall := h u List.mem_cons_self
        have hval : (scalarOf u).val.toNat = u.toNat := htoNat
        rw [String.utf8EncodeChar]
        simp only [hval]
        rw [if_pos (by omega)]
      rw [utf8ToBytes, scalars_cons hhigh, List.flatMap_cons, hbyte, List.map_cons]
      exact congrArg (_ :: ·) (ih fun v hv => h v (List.mem_cons_of_mem _ hv))

end ScalarValues

end Script
