import Strimz.Script

/-!
# Plain objects of the script language

The values JSON can carry, with what property access and the spread `{ ...a, ...b }` make of them:
a spread copies own properties, which a string and an array have under their indices, and a later
property replaces an earlier one of its name.
-/

namespace Objects

open Script Binary64

inductive Value where
  | null
  | boolean (b : Bool)
  | number (n : Number)
  | string (s : Str)
  | array (items : List Value)
  | object (fields : List (Str × Value))

/-- Named properties; of two with one name the first is the one found. -/
abbrev Fields := List (Str × Value)

/-- Items under their indices. -/
def indexed (items : List Value) : Fields := items.zipIdx.map fun e => (decimal e.2, e.1)

/-- The own enumerable properties. -/
def Value.own : Value → Fields
  | .object fields => fields
  | .array items => indexed items
  | .string s => indexed (s.map fun c => .string [c])
  | .null | .boolean _ | .number _ => []

/-- `value[key]`, for a key that no prototype has. -/
def Value.get (value : Value) (key : Str) : Option Value := value.own.lookup key

/-- `value ?? {}` -/
def orEmpty : Option Value → Value
  | none | some .null => .object []
  | some value => value

/-- `{ ...a, ...b }` -/
def spread (a b : Fields) : Fields := a.filter (fun e => (b.lookup e.1).isNone) ++ b

/-! ## Looking up -/

variable {a b : Fields} {key : Str}

theorem lookup_filter_fields {p : Str → Bool} (hp : p key = true) :
    (a.filter fun e => p e.1).lookup key = a.lookup key := by
  induction a with
  | nil => rfl
  | cons e a ih =>
      obtain ⟨name, value⟩ := e
      by_cases hname : key = name
      · subst hname
        rw [List.filter_cons, if_pos hp, List.lookup_cons_self, List.lookup_cons_self]
      · have hne : (key == name) = false := beq_eq_false_iff_ne.mpr hname
        rw [List.lookup_cons, hne, ← ih, List.filter_cons]
        split
        · rw [List.lookup_cons, hne]
        · rfl

theorem lookup_filter_none {p : Str → Bool} (hp : p key = false) :
    (a.filter fun e => p e.1).lookup key = none := by
  rw [List.lookup_eq_none_iff]
  intro e he
  obtain ⟨-, hpe⟩ := List.mem_filter.mp he
  rw [bne_iff_ne]
  rintro rfl
  rw [hp] at hpe
  cases hpe

/-- What a spread shows under a name: the later part's property, or else the earlier one's. -/
theorem lookup_spread : (spread a b).lookup key = (b.lookup key).or (a.lookup key) := by
  rw [spread, List.lookup_append]
  cases hb : b.lookup key with
  | none =>
      rw [lookup_filter_fields (p := fun name => (b.lookup name).isNone) (by rw [hb]; rfl)]
      simp
  | some value =>
      rw [lookup_filter_none (p := fun name => (b.lookup name).isNone) (by rw [hb]; rfl)]
      rfl

/-- An index is spelled in digits. -/
theorem lookup_indexed {items : List Value} {c : CodeUnit} (hc : c ∈ key)
    (hdigit : isDigit c = false) : (indexed items).lookup key = none := by
  rw [List.lookup_eq_none_iff]
  intro e he
  obtain ⟨⟨value, i⟩, -, rfl⟩ := List.mem_map.mp he
  rw [bne_iff_ne]
  rintro rfl
  rw [isDigit_decimal i c hc] at hdigit
  cases hdigit

/-- A named property is one of an object. -/
theorem get_of_not_index {value : Value} {c : CodeUnit} (hc : c ∈ key)
    (hdigit : isDigit c = false) (hvalue : ∀ fields, value ≠ .object fields) :
    value.get key = none := by
  cases value with
  | object fields => exact absurd rfl (hvalue fields)
  | array items => exact lookup_indexed hc hdigit
  | string s => exact lookup_indexed hc hdigit
  | null | boolean b | number n => rfl

theorem own_orEmpty (value : Option Value) :
    (orEmpty value).own = (value.elim [] Value.own) := by
  cases value with
  | none => rfl
  | some value => cases value <;> rfl

end Objects
