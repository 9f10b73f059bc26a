import Mathlib.Data.Set.Function
import Mathlib.Data.List.OfFn
import Mathlib.Tactic

/-!
# Typed structured data

The hash of a typed message (EIP-712), for structs whose fields are words or strings. The hash
function is a parameter, and what is asked of it is that it tells apart the texts that are
hashed (`preimages`): no function to words does so for all texts. Two messages of one digest
then have the same domain, the same struct type and the same words (`hashTypedData_inj`).
-/

namespace Eip712

abbrev Word := BitVec 256

/-! ## Bytes -/

def utf8 (s : String) : List UInt8 := s.toByteArray.data.toList

theorem utf8_inj {s t : String} (h : utf8 s = utf8 t) : s = t :=
  String.toByteArray_inj.mp (ByteArray.ext (Array.toList_inj.mp h))

/-- The `i`-th byte of a word, the most significant first. -/
def wordByte (w : Word) (i : Nat) : UInt8 := ⟨w.extractLsb' (8 * (31 - i)) 8⟩

def wordBytes (w : Word) : List UInt8 := List.ofFn fun i : Fin 32 => wordByte w i

@[simp] theorem length_wordBytes (w : Word) : (wordBytes w).length = 32 := List.length_ofFn

theorem wordBytes_inj {w w' : Word} (h : wordBytes w = wordBytes w') : w = w' := by
  have hbytes := List.ofFn_injective h
  refine BitVec.eq_of_getLsbD_eq fun j hj => ?_
  have hbyte := congrFun hbytes ⟨31 - j / 8, by omega⟩
  have hbits : w.extractLsb' (8 * (j / 8)) 8 = w'.extractLsb' (8 * (j / 8)) 8 := by
    have hindex : 31 - (31 - j / 8) = j / 8 := by omega
    simpa only [wordByte, hindex, UInt8.ofBitVec.injEq] using hbyte
  have hbit := congrArg (fun b => BitVec.getLsbD b (j % 8)) hbits
  have hlt : j % 8 < 8 := Nat.mod_lt j (by decide)
  simp only [BitVec.getLsbD_extractLsb', hlt, decide_true, Bool.true_and, Nat.div_add_mod] at hbit
  exact hbit

/-- `abi.encode` of single words. -/
def abiEncode (words : List Word) : List UInt8 := words.flatMap wordBytes

theorem abiEncode_cons (w : Word) (words : List Word) :
    abiEncode (w :: words) = wordBytes w ++ abiEncode words := List.flatMap_cons

theorem abiEncode_inj {ws ws' : List Word} (h : abiEncode ws = abiEncode ws') : ws = ws' := by
  induction ws generalizing ws' with
  | nil =>
      cases ws' with
      | nil => rfl
      | cons w ws' =>
          have hlen := congrArg List.length h
          rw [abiEncode_cons, List.length_append, length_wordBytes] at hlen
          exact absurd hlen (by simp [abiEncode]; omega)
  | cons w ws ih =>
      cases ws' with
      | nil =>
          have hlen := congrArg List.length h
          rw [abiEncode_cons, List.length_append, length_wordBytes] at hlen
          exact absurd hlen (by simp [abiEncode])
      | cons w' ws' =>
          rw [abiEncode_cons, abiEncode_cons] at h
          obtain ⟨hw, hws⟩ := List.append_inj h (by simp)
          rw [wordBytes_inj hw, ih hws]

/-! ## Structs -/

structure Field where
  name : String
  type : String
deriving Repr, DecidableEq

inductive Value where
  | address (a : BitVec 160)
  | integer (n : Int)
  | bytes32 (b : Word)
  | string (s : String)
deriving Repr, DecidableEq

abbrev Message := List (String × Value)

/-- The width of an unsigned type. -/
def uintBits (type : String) : Option Nat :=
  [("uint256", 256), ("uint96", 96), ("uint64", 64), ("uint32", 32), ("uint16", 16),
    ("uint8", 8)].lookup type

/-- The type string of a struct without nested structs. -/
def encodeType (name : String) (fields : List Field) : String :=
  name ++ "(" ++ ",".intercalate (fields.map fun f => f.type ++ " " ++ f.name) ++ ")"

section Hash

variable (keccak : List UInt8 → Word)

/-- The word of one value; none if it does not fit its type. -/
def encodeValue (type : String) (value : Value) : Option Word :=
  match value with
  | .address a => if type = "address" then some (a.setWidth 256) else none
  | .bytes32 b => if type = "bytes32" then some b else none
  | .string s => if type = "string" then some (keccak (utf8 s)) else none
  | .integer n => do
      let bits ← uintBits type
      if 0 ≤ n ∧ n < 2 ^ bits then some (BitVec.ofInt 256 n) else none

def encodeFields (message : Message) : List Field → Option (List Word)
  | [] => some []
  | f :: fields => do
      let value ← message.lookup f.name
      let word ← encodeValue keccak f.type value
      let words ← encodeFields message fields
      return word :: words

/-- `encodeData` with the type hash in front. -/
def structData (name : String) (fields : List Field) (message : Message) : Option (List UInt8) :=
  (encodeFields keccak message fields).map fun words =>
    abiEncode (keccak (utf8 (encodeType name fields)) :: words)

/-! ## Typed data -/

@[ext]
structure Domain where
  name : String
  version : String
  chainId : Nat
  verifyingContract : BitVec 160
deriving Repr, DecidableEq

def domainFields : List Field :=
  [⟨"name", "string"⟩, ⟨"version", "string"⟩, ⟨"chainId", "uint256"⟩,
    ⟨"verifyingContract", "address"⟩]

def Domain.message (d : Domain) : Message :=
  [("name", .string d.name), ("version", .string d.version), ("chainId", .integer d.chainId),
    ("verifyingContract", .address d.verifyingContract)]

def Domain.words (d : Domain) : List Word :=
  [keccak (utf8 d.name), keccak (utf8 d.version), BitVec.ofNat 256 d.chainId,
    d.verifyingContract.setWidth 256]

structure TypedData where
  domain : Domain
  types : List (String × List Field)
  primaryType : String
  message : Message

/-- What is hashed last. -/
def signedText (domain struct : List UInt8) : List UInt8 :=
  0x19 :: 0x01 :: (wordBytes (keccak domain) ++ wordBytes (keccak struct))

variable (td : TypedData)

def TypedData.fields : List Field := (td.types.lookup td.primaryType).getD []

def TypedData.type : String := encodeType td.primaryType td.fields

def TypedData.domainData : Option (List UInt8) :=
  structData keccak "EIP712Domain" domainFields td.domain.message

def TypedData.messageData : Option (List UInt8) :=
  structData keccak td.primaryType td.fields td.message

/-- The digest a wallet signs. -/
def hashTypedData : Option Word := do
  let domain ← td.domainData keccak
  let struct ← td.messageData keccak
  return keccak (signedText keccak domain struct)

/-- Every text hashed on the way. -/
def preimages : List (List UInt8) :=
  utf8 (encodeType "EIP712Domain" domainFields) :: utf8 td.domain.name :: utf8 td.domain.version ::
    utf8 td.type :: ((td.domainData keccak).toList ++ ((td.messageData keccak).toList ++
      ((td.domainData keccak).bind fun domain =>
        (td.messageData keccak).map fun struct => signedText keccak domain struct).toList))

end Hash

/-! ## Two messages of one digest -/

section Injective

variable {keccak : List UInt8 → Word} {td td' : TypedData} {T : Set (List UInt8)}

theorem uintBits_uint256 : uintBits "uint256" = some 256 := by decide

theorem encodeValue_uint {type : String} {bits : Nat} (h : uintBits type = some bits) (n : Int) :
    encodeValue keccak type (.integer n) =
      if 0 ≤ n ∧ n < 2 ^ bits then some (BitVec.ofInt 256 n) else none := by
  simp only [encodeValue, h, Option.bind_eq_bind, Option.bind_some]

theorem encodeFields_cons {message : Message} {f : Field} {fields : List Field} {value : Value}
    (h : message.lookup f.name = some value) :
    encodeFields keccak message (f :: fields) = (encodeValue keccak f.type value).bind fun word =>
      (encodeFields keccak message fields).bind fun words => some (word :: words) := by
  rw [encodeFields, h]
  rfl

theorem encodeFields_domain (d : Domain) :
    encodeFields keccak d.message domainFields =
      if d.chainId < 2 ^ 256 then some (d.words keccak) else none := by
  have hiff : (0 ≤ (d.chainId : Int) ∧ (d.chainId : Int) < 2 ^ 256) ↔ d.chainId < 2 ^ 256 := by
    rw [and_iff_right (Int.natCast_nonneg _)]
    exact_mod_cast Iff.rfl
  rw [domainFields, encodeFields_cons rfl, encodeFields_cons rfl, encodeFields_cons rfl,
    encodeFields_cons rfl, encodeValue_uint uintBits_uint256]
  simp only [hiff]
  by_cases h : d.chainId < 2 ^ 256
  · rw [if_pos h, if_pos h]
    rfl
  · rw [if_neg h, if_neg h]
    rfl

theorem mem_preimages {text : List UInt8} :
    text ∈ preimages keccak td ↔
      text = utf8 (encodeType "EIP712Domain" domainFields) ∨ text = utf8 td.domain.name ∨
        text = utf8 td.domain.version ∨ text = utf8 td.type ∨
        td.domainData keccak = some text ∨ td.messageData keccak = some text ∨
        ∃ domain, td.domainData keccak = some domain ∧ ∃ struct,
          td.messageData keccak = some struct ∧ signedText keccak domain struct = text := by
  simp only [preimages, List.mem_cons, List.mem_append, Option.mem_toList,
    Option.bind_eq_some_iff, Option.map_eq_some_iff]

theorem hashTypedData_eq_some {digest : Word} :
    hashTypedData keccak td = some digest ↔ ∃ domain, td.domainData keccak = some domain ∧
      ∃ struct, td.messageData keccak = some struct ∧
        keccak (signedText keccak domain struct) = digest := by
  simp only [hashTypedData, Option.bind_eq_bind, Option.bind_eq_some_iff, Option.pure_def,
    Option.some.injEq]

theorem signedText_inj {d d' s s' : List UInt8}
    (h : signedText keccak d s = signedText keccak d' s') :
    keccak d = keccak d' ∧ keccak s = keccak s' := by
  obtain ⟨hd, hs⟩ := List.append_inj (List.cons.inj (List.cons.inj h).2).2 (by simp)
  exact ⟨wordBytes_inj hd, wordBytes_inj hs⟩

theorem messageData_eq_some {text : List UInt8} :
    td.messageData keccak = some text ↔ ∃ words,
      encodeFields keccak td.message td.fields = some words ∧
        text = abiEncode (keccak (utf8 td.type) :: words) := by
  simp only [TypedData.messageData, structData, Option.map_eq_some_iff, TypedData.type,
    eq_comm (b := text)]

theorem domainData_eq_some {text : List UInt8} :
    td.domainData keccak = some text ↔ td.domain.chainId < 2 ^ 256 ∧
      text = abiEncode (keccak (utf8 (encodeType "EIP712Domain" domainFields)) ::
        td.domain.words keccak) := by
  rw [TypedData.domainData, structData, encodeFields_domain]
  by_cases h : td.domain.chainId < 2 ^ 256
  · rw [if_pos h, Option.map_some, Option.some.injEq, and_iff_right h, eq_comm]
  · rw [if_neg h]
    simp only [Option.map_none, reduceCtorEq, h, false_and]

theorem setWidth_inj {a a' : BitVec 160} (h : a.setWidth 256 = a'.setWidth 256) : a = a' := by
  have hnat := congrArg BitVec.toNat h
  simp only [BitVec.toNat_setWidth] at hnat
  have := a.isLt
  have := a'.isLt
  exact BitVec.eq_of_toNat_eq (by omega)

/-- A digest fixes the domain. -/
theorem domain_inj (hT : Set.InjOn keccak T) {d d' : Domain} (hname : utf8 d.name ∈ T)
    (hname' : utf8 d'.name ∈ T) (hversion : utf8 d.version ∈ T) (hversion' : utf8 d'.version ∈ T)
    (hchain : d.chainId < 2 ^ 256) (hchain' : d'.chainId < 2 ^ 256)
    (h : d.words keccak = d'.words keccak) : d = d' := by
  simp only [Domain.words, List.cons.injEq, and_true] at h
  obtain ⟨h₁, h₂, h₃, h₄⟩ := h
  have hids := congrArg BitVec.toNat h₃
  rw [BitVec.toNat_ofNat, BitVec.toNat_ofNat, Nat.mod_eq_of_lt hchain, Nat.mod_eq_of_lt hchain']
    at hids
  exact Domain.ext (utf8_inj (hT hname hname' h₁)) (utf8_inj (hT hversion hversion' h₂)) hids
    (setWidth_inj h₄)

/-- Two messages of one digest have one domain, one struct type and the same words. -/
theorem hashTypedData_inj (hT : Set.InjOn keccak T) (h : ∀ text ∈ preimages keccak td, text ∈ T)
    (h' : ∀ text ∈ preimages keccak td', text ∈ T) {digest : Word}
    (hd : hashTypedData keccak td = some digest) (hd' : hashTypedData keccak td' = some digest) :
    td.domain = td'.domain ∧ td.type = td'.type ∧
      encodeFields keccak td.message td.fields = encodeFields keccak td'.message td'.fields := by
  obtain ⟨domain, hdomain, struct, hstruct, rfl⟩ := hashTypedData_eq_some.mp hd
  obtain ⟨domain', hdomain', struct', hstruct', heq⟩ := hashTypedData_eq_some.mp hd'
  have hmem {text : List UInt8} (ht : text ∈ preimages keccak td) : text ∈ T := h text ht
  have hmem' {text : List UInt8} (ht : text ∈ preimages keccak td') : text ∈ T := h' text ht
  obtain ⟨hdomains, hstructs⟩ := signedText_inj (hT
    (hmem (mem_preimages.mpr (by simp [hdomain, hstruct])))
    (hmem' (mem_preimages.mpr (by simp [hdomain', hstruct']))) heq.symm)
  obtain rfl := hT (hmem (mem_preimages.mpr (by simp [hdomain])))
    (hmem' (mem_preimages.mpr (by simp [hdomain']))) hdomains
  obtain rfl := hT (hmem (mem_preimages.mpr (by simp [hstruct])))
    (hmem' (mem_preimages.mpr (by simp [hstruct']))) hstructs
  obtain ⟨hchain, hwords⟩ := domainData_eq_some.mp hdomain
  obtain ⟨hchain', hwords'⟩ := domainData_eq_some.mp hdomain'
  obtain ⟨words, hfields, hdata⟩ := messageData_eq_some.mp hstruct
  obtain ⟨words', hfields', hdata'⟩ := messageData_eq_some.mp hstruct'
  obtain ⟨-, hsame⟩ := List.cons.inj (abiEncode_inj (hwords.symm.trans hwords'))
  obtain ⟨htype, rfl⟩ := List.cons.inj (abiEncode_inj (hdata.symm.trans hdata'))
  refine ⟨domain_inj hT ?_ ?_ ?_ ?_ hchain hchain' hsame, utf8_inj (hT ?_ ?_ htype),
    hfields.trans hfields'.symm⟩
  · exact hmem (mem_preimages.mpr (by simp))
  · exact hmem' (mem_preimages.mpr (by simp))
  · exact hmem (mem_preimages.mpr (by simp))
  · exact hmem' (mem_preimages.mpr (by simp))
  · exact hmem (mem_preimages.mpr (by simp))
  · exact hmem' (mem_preimages.mpr (by simp))

theorem uintBits_le {type : String} {bits : Nat} (h : uintBits type = some bits) : bits ≤ 256 := by
  have hmem := List.lookup_eq_some_iff.mp h
  obtain ⟨l, r, hl, -⟩ := hmem
  have hin : (type, bits) ∈ [("uint256", 256), ("uint96", 96), ("uint64", 64), ("uint32", 32),
      ("uint16", 16), ("uint8", 8)] := by
    rw [hl]
    simp
  simp only [List.mem_cons, Prod.mk.injEq, List.not_mem_nil, or_false] at hin
  omega

theorem ofInt_inj {bits : Nat} (hbits : bits ≤ 256) {n n' : Int} (hn : 0 ≤ n ∧ n < 2 ^ bits)
    (hn' : 0 ≤ n' ∧ n' < 2 ^ bits) (h : BitVec.ofInt 256 n = BitVec.ofInt 256 n') : n = n' := by
  have hpow : (2 : Int) ^ bits ≤ ((2 ^ 256 : Nat) : Int) :=
    calc (2 : Int) ^ bits = ((2 ^ bits : Nat) : Int) := (Int.natCast_pow 2 bits).symm
      _ ≤ ((2 ^ 256 : Nat) : Int) := Int.ofNat_le.mpr (Nat.pow_le_pow_right (by decide) hbits)
  have hnat := congrArg BitVec.toNat h
  rw [BitVec.toNat_ofInt, BitVec.toNat_ofInt, Int.emod_eq_of_lt hn.1 (hn.2.trans_le hpow),
    Int.emod_eq_of_lt hn'.1 (hn'.2.trans_le hpow)] at hnat
  omega

theorem encodeValue_integer {type : String} {n : Int} {w : Word} :
    encodeValue keccak type (.integer n) = some w ↔ ∃ bits, uintBits type = some bits ∧
      (0 ≤ n ∧ n < 2 ^ bits) ∧ BitVec.ofInt 256 n = w := by
  simp only [encodeValue, Option.bind_eq_bind, Option.bind_eq_some_iff, Option.ite_none_right_eq_some,
    Option.some.injEq]

theorem uintBits_ne {type : String} {bits : Nat} (h : uintBits type = some bits) :
    type ≠ "address" ∧ type ≠ "bytes32" := by
  constructor
  all_goals
    rintro rfl
    cases h.symm.trans (by decide : _ = none)

/-- A value whose type is one word is read off its word. -/
theorem encodeValue_inj {type : String} (htype : type ≠ "string") {v v' : Value} {w : Word}
    (h : encodeValue keccak type v = some w) (h' : encodeValue keccak type v' = some w) : v = v' := by
  cases v with
  | string s => simp [encodeValue, htype] at h
  | address a =>
      simp only [encodeValue, Option.ite_none_right_eq_some, Option.some.injEq] at h
      obtain ⟨rfl, rfl⟩ := h
      cases v' with
      | address a' =>
          simp only [encodeValue, if_true, Option.some.injEq] at h'
          rw [setWidth_inj h']
      | bytes32 b => simp [encodeValue] at h'
      | string s => simp [encodeValue] at h'
      | integer n =>
          obtain ⟨bits, hbits, -⟩ := encodeValue_integer.mp h'
          exact absurd rfl (uintBits_ne hbits).1
  | bytes32 b =>
      simp only [encodeValue, Option.ite_none_right_eq_some, Option.some.injEq] at h
      obtain ⟨rfl, rfl⟩ := h
      cases v' with
      | bytes32 b' =>
          simp only [encodeValue, if_true, Option.some.injEq] at h'
          rw [h']
      | address a => simp [encodeValue] at h'
      | string s => simp [encodeValue] at h'
      | integer n =>
          obtain ⟨bits, hbits, -⟩ := encodeValue_integer.mp h'
          exact absurd rfl (uintBits_ne hbits).2
  | integer n =>
      obtain ⟨bits, hbits, hn, rfl⟩ := encodeValue_integer.mp h
      cases v' with
      | integer n' =>
          obtain ⟨bits', hbits', hn', heq⟩ := encodeValue_integer.mp h'
          obtain rfl : bits = bits' := Option.some.inj (hbits.symm.trans hbits')
          rw [ofInt_inj (uintBits_le hbits) hn hn' heq.symm]
      | address a => simp [encodeValue, (uintBits_ne hbits).1] at h'
      | bytes32 b => simp [encodeValue, (uintBits_ne hbits).2] at h'
      | string s => simp [encodeValue, htype] at h'

theorem encodeFields_cons_eq_some {message : Message} {f : Field} {fields : List Field}
    {words : List Word} :
    encodeFields keccak message (f :: fields) = some words ↔ ∃ value, message.lookup f.name =
      some value ∧ ∃ word, encodeValue keccak f.type value = some word ∧ ∃ rest,
        encodeFields keccak message fields = some rest ∧ word :: rest = words := by
  simp only [encodeFields, Option.bind_eq_bind, Option.bind_eq_some_iff, Option.pure_def,
    Option.some.injEq]

/-- Messages with the same words have the same values. -/
theorem encodeFields_inj {message message' : Message} {fields : List Field} {words : List Word}
    (hfields : ∀ f ∈ fields, f.type ≠ "string")
    (h : encodeFields keccak message fields = some words)
    (h' : encodeFields keccak message' fields = some words) :
    ∀ f ∈ fields, message.lookup f.name = message'.lookup f.name := by
  induction fields generalizing words with
  | nil => exact fun f hf => absurd hf List.not_mem_nil
  | cons f fields ih =>
      obtain ⟨v, hv, w, hw, rest, hrest, rfl⟩ := encodeFields_cons_eq_some.mp h
      obtain ⟨v', hv', w', hw', rest', hrest', heq⟩ := encodeFields_cons_eq_some.mp h'
      obtain ⟨rfl, rfl⟩ := List.cons.inj heq
      intro g hg
      rcases List.mem_cons.mp hg with rfl | hg
      · rw [hv, hv', encodeValue_inj (hfields g List.mem_cons_self) hw hw']
      · exact ih (fun f hf => hfields f (List.mem_cons_of_mem _ hf)) hrest hrest' g hg

end Injective

/-- Messages with the same names, each once, and the same values are the same. -/
theorem message_ext {message message' : Message}
    (hnames : message.map Prod.fst = message'.map Prod.fst)
    (hnodup : (message.map Prod.fst).Nodup)
    (h : ∀ name ∈ message.map Prod.fst, message.lookup name = message'.lookup name) :
    message = message' := by
  induction message generalizing message' with
  | nil => exact (List.map_eq_nil_iff.mp hnames.symm).symm
  | cons entry message ih =>
      cases message' with
      | nil => cases hnames
      | cons entry' message' =>
          obtain ⟨name, value⟩ := entry
          obtain ⟨name', value'⟩ := entry'
          obtain ⟨rfl, htail⟩ := List.cons.inj hnames
          obtain ⟨hnew, hnodup⟩ := List.nodup_cons.mp hnodup
          have hvalue := h name List.mem_cons_self
          rw [List.lookup_cons_self, List.lookup_cons_self] at hvalue
          obtain rfl := Option.some.inj hvalue
          congr 1
          refine ih htail hnodup fun other hother => ?_
          have hne : (other == name) = false := beq_false_of_ne fun heq => hnew (heq ▸ hother)
          have hlookup := h other (List.mem_cons_of_mem _ hother)
          rwa [List.lookup_cons, List.lookup_cons, hne] at hlookup

end Eip712
