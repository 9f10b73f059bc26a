import Mathlib.Data.Nat.Digits.Lemmas

/-!
# The DER reader

`readElement` and what `decodeEcdsaSignature` builds on it, over the bytes as a list. A `Tlv` is
a tag, a length in one of the forms that the reader knows, and a content; `decode_iff` says that
the reader accepts a byte string exactly when it is one SEQUENCE of two non-negative INTEGERs,
and with what values.
-/

namespace Strimz.Der

/-! ## The reader -/

def SEQUENCE : UInt8 := 0x30

def INTEGER : UInt8 := 0x02

inductive DerError where
  | expectedTag (tag : UInt8) (offset : Nat)
  | truncatedLength
  | unsupportedLength (size : Nat)
  | pastEnd
  | trailingSequence
  | emptyInteger
  | negativeInteger
  | trailingS
deriving Repr, DecidableEq

def DerError.message : DerError → String
  | .expectedTag tag offset =>
      "DER: expected tag 0x" ++ String.ofList (Nat.toDigits 16 tag.toNat) ++ " at byte " ++
        toString offset
  | .truncatedLength => "DER: truncated length"
  | .unsupportedLength size => "DER: unsupported length of " ++ toString size ++ " bytes"
  | .pastEnd => "DER: element runs past the end of the input"
  | .trailingSequence => "DER: trailing bytes after the sequence"
  | .emptyInteger => "DER: empty integer"
  | .negativeInteger => "DER: negative integer"
  | .trailingS => "DER: trailing bytes after s"

structure DerElement where
  content : List UInt8
  end_ : Nat
deriving Repr, DecidableEq

/-- The loop over the bytes of a long form. -/
def readLong (bytes : List UInt8) (start : Nat) : Nat → Nat → Nat → Except DerError Nat
  | 0, _, length => .ok length
  | size + 1, i, length =>
      match bytes[start + i]? with
      | none => .error .truncatedLength
      | some byte => readLong bytes start size (i + 1) (length <<< 8 ||| byte.toNat)

/-- The length of an element from its first byte on, and where its content starts. -/
def readLength (bytes : List UInt8) (offset : Nat) (first : UInt8) :
    Except DerError (Nat × Nat) :=
  if first.toNat &&& 0x80 ≠ 0 then
    let size := first.toNat &&& 0x7f
    if size = 0 ∨ size > 2 then .error (.unsupportedLength size)
    else
      match readLong bytes (offset + 2) size 0 0 with
      | .error e => .error e
      | .ok length => .ok (length, offset + 2 + size)
  else .ok (first.toNat, offset + 2)

def readElement (bytes : List UInt8) (offset : Nat) (tag : UInt8) : Except DerError DerElement :=
  if bytes[offset]? ≠ some tag then .error (.expectedTag tag offset)
  else
    match bytes[offset + 1]? with
    | none => .error .truncatedLength
    | some first =>
        match readLength bytes offset first with
        | .error e => .error e
        | .ok (length, start) =>
            if start + length > bytes.length then .error .pastEnd
            else .ok ⟨(bytes.drop start).take length, start + length⟩

def readSequence (bytes : List UInt8) : Except DerError (List UInt8) :=
  match readElement bytes 0 SEQUENCE with
  | .error e => .error e
  | .ok sequence =>
      if sequence.end_ ≠ bytes.length then .error .trailingSequence else .ok sequence.content

def bytesToBigInt (bytes : List UInt8) : Nat :=
  bytes.foldl (fun acc byte => acc * 256 + byte.toNat) 0

def positiveInteger (content : List UInt8) : Except DerError Nat :=
  match content.head? with
  | none => .error .emptyInteger
  | some first =>
      if first.toNat &&& 0x80 ≠ 0 then .error .negativeInteger else .ok (bytesToBigInt content)

/-- `decodeEcdsaSignature`; the bytes of `r` are looked at before those of `s`. -/
def decodeEcdsaSignature (der : List UInt8) : Except DerError (Nat × Nat) :=
  match readSequence der with
  | .error e => .error e
  | .ok body =>
      match readElement body 0 INTEGER with
      | .error e => .error e
      | .ok r =>
          match readElement body r.end_ INTEGER with
          | .error e => .error e
          | .ok s =>
              if s.end_ ≠ body.length then .error .trailingS
              else
                match positiveInteger r.content with
                | .error e => .error e
                | .ok rValue =>
                    match positiveInteger s.content with
                    | .error e => .error e
                    | .ok sValue => .ok (rValue, sValue)

/-! ## What it reads -/

/-- The bytes of a length: the short form, or one or two bytes after their number. -/
inductive LengthForm : List UInt8 → Nat → Prop where
  | short (b : UInt8) (h : b.toNat < 128) : LengthForm [b] b.toNat
  | one (b : UInt8) : LengthForm [0x81, b] b.toNat
  | two (hi lo : UInt8) : LengthForm [0x82, hi, lo] (hi.toNat * 256 + lo.toNat)

/-- The bytes are the tag, a length and the content. -/
def Tlv (tag : UInt8) (content bytes : List UInt8) : Prop :=
  ∃ form, LengthForm form content.length ∧ bytes = tag :: (form ++ content)

/-- The content of a non-negative INTEGER. -/
def Spells (content : List UInt8) (value : Nat) : Prop :=
  (∃ first rest, content = first :: rest ∧ first.toNat < 128) ∧ bytesToBigInt content = value

/-- One SEQUENCE of two non-negative INTEGERs, and no byte outside them. -/
def IsSignature (der : List UInt8) (r s : Nat) : Prop :=
  ∃ rBytes sBytes rContent sContent, Tlv SEQUENCE (rBytes ++ sBytes) der ∧
    Tlv INTEGER rContent rBytes ∧ Tlv INTEGER sContent sBytes ∧ Spells rContent r ∧
    Spells sContent s

theorem and_128 {n : Nat} (h : n < 256) : n &&& 0x80 ≠ 0 ↔ 128 ≤ n := by
  have hall : ∀ n < 256, (n &&& 0x80 ≠ 0 ↔ 128 ≤ n) := by decide +kernel
  exact hall n h

theorem and_127 (n : Nat) : n &&& 0x7f = n % 128 := Nat.and_two_pow_sub_one_eq_mod n 7

theorem shift_or (length : Nat) (byte : UInt8) :
    length <<< 8 ||| byte.toNat = length * 256 + byte.toNat := by
  rw [← Nat.shiftLeft_add_eq_or_of_lt byte.toNat_lt, Nat.shiftLeft_eq]

theorem drop_of_getElem? {bytes : List UInt8} {i : Nat} {byte : UInt8}
    (h : bytes[i]? = some byte) : bytes.drop i = byte :: bytes.drop (i + 1) := by
  obtain ⟨hi, rfl⟩ := List.getElem?_eq_some_iff.mp h
  exact List.drop_eq_getElem_cons hi

theorem getElem?_of_drop {bytes rest : List UInt8} {i : Nat} {byte : UInt8}
    (h : bytes.drop i = byte :: rest) : bytes[i]? = some byte ∧ bytes.drop (i + 1) = rest := by
  constructor
  · have hget : (bytes.drop i)[0]? = some byte := by rw [h]; rfl
    rwa [List.getElem?_drop, Nat.add_zero] at hget
  · rw [← List.drop_drop, h]
    rfl

/-! ## The elements -/

theorem readLong_eq_ok {bytes : List UInt8} {start size i acc length : Nat} :
    readLong bytes start size i acc = .ok length ↔
      ∃ digits rest, digits.length = size ∧ bytes.drop (start + i) = digits ++ rest ∧
        length = digits.foldl (fun acc byte => acc * 256 + byte.toNat) acc := by
  induction size generalizing i acc with
  | zero =>
      constructor
      · intro h
        exact ⟨[], _, rfl, rfl, (Except.ok.inj h).symm⟩
      · rintro ⟨digits, rest, hnil, -, rfl⟩
        obtain rfl := List.eq_nil_of_length_eq_zero hnil
        rfl
  | succ size ih =>
      unfold readLong
      constructor
      · intro h
        cases hbyte : bytes[start + i]? with
        | none => rw [hbyte] at h; cases h
        | some byte =>
            rw [hbyte] at h
            dsimp only at h
            rw [shift_or] at h
            obtain ⟨digits, rest, hlength, hdrop, rfl⟩ := ih.mp h
            refine ⟨byte :: digits, rest, by rw [List.length_cons, hlength], ?_, rfl⟩
            rw [drop_of_getElem? hbyte, Nat.add_assoc, hdrop]
            rfl
      · rintro ⟨digits, rest, hlength, hdrop, rfl⟩
        cases digits with
        | nil => cases hlength
        | cons byte digits =>
            obtain ⟨hbyte, hrest⟩ := getElem?_of_drop hdrop
            rw [hbyte]
            dsimp only
            rw [shift_or]
            refine ih.mpr ⟨digits, rest, Nat.succ.inj hlength, ?_, rfl⟩
            rwa [← Nat.add_assoc]

theorem readLength_eq_ok {bytes : List UInt8} {offset length start : Nat} {first : UInt8} :
    readLength bytes offset first = .ok (length, start) ↔
      ∃ more rest, bytes.drop (offset + 2) = more ++ rest ∧ LengthForm (first :: more) length ∧
        start = offset + 2 + more.length := by
  have hfirst : first.toNat < 256 := first.toNat_lt
  constructor
  · intro h
    unfold readLength at h
    split at h
    · rename_i hlong
      rw [and_128 hfirst] at hlong
      rw [and_127] at h
      dsimp only at h
      split at h
      · cases h
      · rename_i hsize
        cases hread : readLong bytes (offset + 2) (first.toNat % 128) 0 0 with
        | error e => rw [hread] at h; cases h
        | ok l =>
            rw [hread] at h
            obtain ⟨rfl, rfl⟩ := Prod.mk.inj (Except.ok.inj h)
            obtain ⟨digits, rest, hdigits, hdrop, rfl⟩ := readLong_eq_ok.mp hread
            refine ⟨digits, rest, hdrop, ?_, by rw [hdigits]⟩
            match digits, hdigits with
            | [], hdigits =>
                rw [List.length_nil] at hdigits
                omega
            | [b], hdigits =>
                rw [List.length_singleton] at hdigits
                obtain rfl : first = 0x81 := UInt8.toNat_inj.mp (by simp; omega)
                simpa using LengthForm.one b
            | [hi, lo], hdigits =>
                simp only [List.length_cons, List.length_nil] at hdigits
                obtain rfl : first = 0x82 := UInt8.toNat_inj.mp (by simp; omega)
                simpa using LengthForm.two hi lo
            | _ :: _ :: _ :: more, hdigits =>
                simp only [List.length_cons] at hdigits
                omega
    · rename_i hshort
      rw [and_128 hfirst] at hshort
      obtain ⟨rfl, rfl⟩ := Prod.mk.inj (Except.ok.inj h)
      exact ⟨[], _, rfl, .short first (by omega), rfl⟩
  · rintro ⟨more, rest, hdrop, hform, rfl⟩
    cases hform with
    | short h =>
        unfold readLength
        rw [if_neg (by rw [and_128 hfirst]; omega)]
        rfl
    | one b =>
        have hread : readLong bytes (offset + 2) 1 0 0 = .ok b.toNat :=
          readLong_eq_ok.mpr ⟨[b], rest, rfl, hdrop, by simp⟩
        have hlong : readLength bytes offset 0x81 =
            match readLong bytes (offset + 2) 1 0 0 with
            | .error e => .error e
            | .ok length => .ok (length, offset + 2 + 1) := rfl
        rw [hlong, hread]
        rfl
    | two hi lo =>
        have hread : readLong bytes (offset + 2) 2 0 0 = .ok (hi.toNat * 256 + lo.toNat) :=
          readLong_eq_ok.mpr ⟨[hi, lo], rest, rfl, hdrop, by simp⟩
        have hlong : readLength bytes offset 0x82 =
            match readLong bytes (offset + 2) 2 0 0 with
            | .error e => .error e
            | .ok length => .ok (length, offset + 2 + 2) := rfl
        rw [hlong, hread]
        rfl

theorem LengthForm.cons {form : List UInt8} {length : Nat} (h : LengthForm form length) :
    ∃ first more, form = first :: more := by
  cases h <;> exact ⟨_, _, rfl⟩

theorem readElement_eq_ok {bytes : List UInt8} {offset : Nat} {tag : UInt8} {e : DerElement} :
    readElement bytes offset tag = .ok e ↔
      ∃ tlv rest, Tlv tag e.content tlv ∧ bytes.drop offset = tlv ++ rest ∧
        e.end_ = offset + tlv.length := by
  constructor
  · intro h
    unfold readElement at h
    split at h
    · cases h
    · rename_i htag
      have hdrop := drop_of_getElem? (not_not.mp htag)
      cases hfirst : bytes[offset + 1]? with
      | none => rw [hfirst] at h; cases h
      | some first =>
          rw [hfirst] at h
          dsimp only at h
          cases hlength : readLength bytes offset first with
          | error e => rw [hlength] at h; cases h
          | ok p =>
              obtain ⟨length, start⟩ := p
              rw [hlength] at h
              dsimp only at h
              split at h
              · cases h
              · rename_i hend
                obtain rfl := Except.ok.inj h
                obtain ⟨more, rest, hmore, hform, rfl⟩ := readLength_eq_ok.mp hlength
                have hrest : bytes.drop (offset + 2 + more.length) = rest := by
                  rw [← List.drop_drop, hmore, List.drop_left]
                have hcontent : (rest.take length).length = length := by
                  rw [List.length_take, ← hrest, List.length_drop]
                  omega
                refine ⟨tag :: (first :: more ++ rest.take length), rest.drop length,
                  ⟨first :: more, ?_, by rw [hrest]⟩, ?_, ?_⟩
                · rwa [hrest, hcontent]
                · rw [hdrop, drop_of_getElem? hfirst, hmore]
                  simp
                · simp only [List.length_cons, List.length_append, hcontent]
                  omega
  · obtain ⟨content, end_⟩ := e
    rintro ⟨tlv, rest, ⟨form, hform, rfl⟩, hdrop, hend⟩
    obtain ⟨first, more, rfl⟩ := hform.cons
    obtain ⟨htag, hdrop₁⟩ := getElem?_of_drop hdrop
    obtain ⟨hfirst, hdrop₂⟩ := getElem?_of_drop hdrop₁
    have hmore : bytes.drop (offset + 2) = more ++ (content ++ rest) := by
      rw [← List.append_assoc]
      exact hdrop₂
    have hread : readLength bytes offset first = .ok (content.length, offset + 2 + more.length) :=
      readLength_eq_ok.mpr ⟨more, content ++ rest, hmore, hform, rfl⟩
    have hcontent : bytes.drop (offset + 2 + more.length) = content ++ rest := by
      rw [← List.drop_drop, hmore, List.drop_left]
    have hoffset := congrArg List.length hdrop
    simp only [List.length_drop, List.length_append, List.length_cons] at hoffset hend
    have hle : ¬ offset + 2 + more.length + content.length > bytes.length := by omega
    have hend' : end_ = offset + 2 + more.length + content.length := by omega
    unfold readElement
    rw [if_neg (not_not.mpr htag), hfirst]
    dsimp only
    rw [hread]
    dsimp only
    rw [if_neg hle, hcontent, List.take_left, hend']

theorem readSequence_eq_ok {bytes body : List UInt8} :
    readSequence bytes = .ok body ↔ Tlv SEQUENCE body bytes := by
  constructor
  · intro h
    unfold readSequence at h
    cases hread : readElement bytes 0 SEQUENCE with
    | error e => rw [hread] at h; cases h
    | ok e =>
        rw [hread] at h
        dsimp only at h
        obtain ⟨tlv, rest, htlv, hdrop, hend⟩ := readElement_eq_ok.mp hread
        split at h
        · cases h
        · rename_i hlength
          obtain rfl := Except.ok.inj h
          rw [List.drop_zero] at hdrop
          have hnil : rest = [] := by
            have hsplit := congrArg List.length hdrop
            rw [List.length_append] at hsplit
            exact List.eq_nil_of_length_eq_zero (by omega)
          rwa [hdrop, hnil, List.append_nil]
  · intro h
    have hread : readElement bytes 0 SEQUENCE = .ok ⟨body, bytes.length⟩ :=
      readElement_eq_ok.mpr ⟨bytes, [], h, by simp, by simp⟩
    unfold readSequence
    rw [hread]
    exact if_neg (not_not.mpr rfl)

theorem positiveInteger_eq_ok {content : List UInt8} {value : Nat} :
    positiveInteger content = .ok value ↔ Spells content value := by
  unfold positiveInteger Spells
  cases content with
  | nil =>
      constructor
      · intro h
        cases h
      · rintro ⟨⟨first, rest, hcons, -⟩, -⟩
        cases hcons
  | cons first rest =>
      dsimp only [List.head?_cons]
      constructor
      · intro h
        split at h
        · cases h
        · rename_i hsign
          rw [and_128 first.toNat_lt] at hsign
          exact ⟨⟨first, rest, rfl, by omega⟩, Except.ok.inj h⟩
      · rintro ⟨⟨first', rest', hcons, hlt⟩, rfl⟩
        obtain ⟨rfl, rfl⟩ := List.cons.inj hcons
        rw [if_neg (by rw [and_128 first.toNat_lt]; omega)]

/-- The reader accepts one SEQUENCE of two non-negative INTEGERs, and nothing else. -/
theorem decode_iff {der : List UInt8} {r s : Nat} :
    decodeEcdsaSignature der = .ok (r, s) ↔ IsSignature der r s := by
  constructor
  · intro h
    unfold decodeEcdsaSignature at h
    cases hbody : readSequence der with
    | error e => rw [hbody] at h; cases h
    | ok body =>
    rw [hbody] at h
    dsimp only at h
    cases hr : readElement body 0 INTEGER with
    | error e => rw [hr] at h; cases h
    | ok er =>
    rw [hr] at h
    dsimp only at h
    cases hs : readElement body er.end_ INTEGER with
    | error e => rw [hs] at h; cases h
    | ok es =>
    rw [hs] at h
    dsimp only at h
    split at h
    · cases h
    rename_i hend
    cases hrValue : positiveInteger er.content with
    | error e => rw [hrValue] at h; cases h
    | ok rValue =>
    rw [hrValue] at h
    dsimp only at h
    cases hsValue : positiveInteger es.content with
    | error e => rw [hsValue] at h; cases h
    | ok sValue =>
    rw [hsValue] at h
    obtain ⟨rfl, rfl⟩ := Prod.mk.inj (Except.ok.inj h)
    obtain ⟨rBytes, rest, hrTlv, hrDrop, hrEnd⟩ := readElement_eq_ok.mp hr
    obtain ⟨sBytes, rest', hsTlv, hsDrop, hsEnd⟩ := readElement_eq_ok.mp hs
    rw [List.drop_zero] at hrDrop
    rw [hrDrop, hrEnd, Nat.zero_add, List.drop_left] at hsDrop
    have hnil : rest' = [] := by
      have hsplit := congrArg List.length hrDrop
      have hsplit' := congrArg List.length hsDrop
      rw [List.length_append] at hsplit hsplit'
      exact List.eq_nil_of_length_eq_zero (by omega)
    rw [hnil, List.append_nil] at hsDrop
    subst hsDrop
    exact ⟨rBytes, rest, er.content, es.content, hrDrop ▸ readSequence_eq_ok.mp hbody, hrTlv,
      hsTlv, positiveInteger_eq_ok.mp hrValue, positiveInteger_eq_ok.mp hsValue⟩
  · rintro ⟨rBytes, sBytes, rContent, sContent, hbody, hr, hs, hrValue, hsValue⟩
    have hrRead : readElement (rBytes ++ sBytes) 0 INTEGER = .ok ⟨rContent, rBytes.length⟩ :=
      readElement_eq_ok.mpr ⟨rBytes, sBytes, hr, rfl, by simp⟩
    have hsRead : readElement (rBytes ++ sBytes) rBytes.length INTEGER =
        .ok ⟨sContent, (rBytes ++ sBytes).length⟩ :=
      readElement_eq_ok.mpr ⟨sBytes, [], hs, by rw [List.drop_left, List.append_nil], by simp⟩
    unfold decodeEcdsaSignature
    rw [readSequence_eq_ok.mpr hbody]
    dsimp only
    rw [hrRead]
    dsimp only
    rw [hsRead]
    dsimp only
    rw [if_neg (not_not.mpr rfl), positiveInteger_eq_ok.mpr hrValue]
    dsimp only
    rw [positiveInteger_eq_ok.mpr hsValue]

/-! ## The encoding -/

def encodeLength (length : Nat) : List UInt8 :=
  if length < 128 then [UInt8.ofNat length]
  else if length < 256 then [0x81, UInt8.ofNat length]
  else [0x82, UInt8.ofNat (length / 256), UInt8.ofNat (length % 256)]

def encodeTlv (tag : UInt8) (content : List UInt8) : List UInt8 :=
  tag :: (encodeLength content.length ++ content)

/-- The shortest big-endian bytes of a number. -/
def bytesOf (value : Nat) : List UInt8 := ((Nat.digits 256 value).map UInt8.ofNat).reverse

/-- The content of an INTEGER, with a leading zero where the sign bit would be set. -/
def encodeInteger (value : Nat) : List UInt8 :=
  match bytesOf value with
  | [] => [0]
  | first :: rest => if first.toNat < 128 then first :: rest else 0 :: first :: rest

/-- The DER encoding of a signature. -/
def encodeSignature (r s : Nat) : List UInt8 :=
  encodeTlv SEQUENCE (encodeTlv INTEGER (encodeInteger r) ++ encodeTlv INTEGER (encodeInteger s))

theorem lengthForm_encode {length : Nat} (h : length < 65536) :
    LengthForm (encodeLength length) length := by
  unfold encodeLength
  split
  · rename_i hshort
    simpa [Nat.mod_eq_of_lt (show length < 256 by omega)] using
      LengthForm.short (UInt8.ofNat length) (by simp; omega)
  · split
    · rename_i hone
      simpa [Nat.mod_eq_of_lt hone] using LengthForm.one (UInt8.ofNat length)
    · have hsum : (UInt8.ofNat (length / 256)).toNat * 256 +
          (UInt8.ofNat (length % 256)).toNat = length := by
        simp only [UInt8.toNat_ofNat']
        omega
      have hform := LengthForm.two (UInt8.ofNat (length / 256)) (UInt8.ofNat (length % 256))
      rwa [hsum] at hform

theorem tlv_encode {tag : UInt8} {content : List UInt8} (h : content.length < 65536) :
    Tlv tag content (encodeTlv tag content) :=
  ⟨_, lengthForm_encode h, rfl⟩

theorem bytesToBigInt_reverse (digits : List Nat) (h : ∀ d ∈ digits, d < 256) :
    bytesToBigInt ((digits.map UInt8.ofNat).reverse) = Nat.ofDigits 256 digits := by
  induction digits with
  | nil => rfl
  | cons d digits ih =>
      have hd : (UInt8.ofNat d).toNat = d := by
        rw [UInt8.toNat_ofNat']
        exact Nat.mod_eq_of_lt (h d List.mem_cons_self)
      have ih := ih fun e he => h e (List.mem_cons_of_mem d he)
      unfold bytesToBigInt at ih ⊢
      rw [List.map_cons, List.reverse_cons, List.foldl_append, ih, Nat.ofDigits_cons]
      simp only [List.foldl_cons, List.foldl_nil, hd]
      omega

theorem bytesToBigInt_bytesOf (value : Nat) : bytesToBigInt (bytesOf value) = value := by
  unfold bytesOf
  rw [bytesToBigInt_reverse _ fun d hd => Nat.digits_lt_base (by decide) hd,
    Nat.ofDigits_digits]

theorem spells_encode (value : Nat) : Spells (encodeInteger value) value := by
  have hvalue := bytesToBigInt_bytesOf value
  unfold encodeInteger
  split
  · rename_i hnil
    rw [hnil] at hvalue
    exact ⟨⟨0, [], rfl, by decide⟩, hvalue⟩
  · rename_i first rest hcons
    rw [hcons] at hvalue
    split
    · rename_i hlt
      exact ⟨⟨first, rest, rfl, hlt⟩, hvalue⟩
    · have hzero : bytesToBigInt (0 :: first :: rest) = bytesToBigInt (first :: rest) := by
        simp [bytesToBigInt]
      exact ⟨⟨0, first :: rest, rfl, by decide⟩, hzero.trans hvalue⟩

theorem length_encodeInteger {value k : Nat} (h : value < 256 ^ k) :
    (encodeInteger value).length ≤ k + 1 := by
  have hbytes : (bytesOf value).length ≤ k := by
    unfold bytesOf
    rw [List.length_reverse, List.length_map]
    exact (Nat.digits_length_le_iff (by decide) value).mpr h
  unfold encodeInteger
  split
  · simp
  · rename_i first rest hcons
    rw [hcons] at hbytes
    split
    · omega
    · rw [List.length_cons]
      omega

theorem length_encodeTlv (tag : UInt8) (content : List UInt8) :
    (encodeTlv tag content).length ≤ content.length + 4 := by
  unfold encodeTlv encodeLength
  split
  · simp only [List.length_cons, List.length_append, List.length_nil]
    omega
  · split <;> simp only [List.length_cons, List.length_append, List.length_nil] <;> omega

/-- What is encoded is read back, for numbers of any length that the length forms can say. -/
theorem decode_encode {r s k : Nat} (hk : k ≤ 32000) (hr : r < 256 ^ k) (hs : s < 256 ^ k) :
    decodeEcdsaSignature (encodeSignature r s) = .ok (r, s) := by
  have hrLength := length_encodeInteger hr
  have hsLength := length_encodeInteger hs
  have hrTlv := length_encodeTlv INTEGER (encodeInteger r)
  have hsTlv := length_encodeTlv INTEGER (encodeInteger s)
  refine decode_iff.mpr ⟨_, _, _, _, tlv_encode ?_, tlv_encode ?_, tlv_encode ?_,
    spells_encode r, spells_encode s⟩
  · rw [List.length_append]
    omega
  · omega
  · omega

end Strimz.Der
