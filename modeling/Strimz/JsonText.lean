import Strimz.Objects

/-!
# JSON texts

`JSON.parse` on strings of the script language, and what `JSON.stringify` makes of an object of
strings. The parser takes fuel; twice a text's length is more than its nesting can use up.
-/

namespace JsonText

open Script Binary64 Objects

def QUOTE : CodeUnit := 0x22

def BACKSLASH : CodeUnit := 0x5C

def isBlank (c : CodeUnit) : Bool := [0x20, 0x9, 0xA, 0xD].contains c

def skipBlanks (s : Str) : Str := s.dropWhile isBlank

/-! ## Scalars -/

/-- The code unit after a backslash. -/
def unescape (c : CodeUnit) : Option CodeUnit :=
  [(0x22, 0x22), (0x5C, 0x5C), (0x2F, 0x2F), (0x62, 0x8), (0x66, 0xC), (0x6E, 0xA), (0x72, 0xD),
    (0x74, 0x9)].lookup c

/-- Four hexadecimal digits. -/
def hex4 (a b c d : CodeUnit) : Option CodeUnit := do
  let ds ← [a, b, c, d].mapM digitOf
  some (UInt16.ofNat (ds.foldl (fun n e => n * 16 + e) 0))

/-- A string behind its opening quote, and what follows. -/
def stringBody : Str → Option (Str × Str)
  | [] => none
  | c :: rest =>
      if c = QUOTE then some ([], rest)
      else if c = BACKSLASH then
        match rest with
        | [] => none
        | e :: rest =>
            if e = 0x75 then
              match rest with
              | h₁ :: h₂ :: h₃ :: h₄ :: rest => do
                  let u ← hex4 h₁ h₂ h₃ h₄
                  let (s, rest) ← stringBody rest
                  some (u :: s, rest)
              | _ => none
            else do
              let u ← unescape e
              let (s, rest) ← stringBody rest
              some (u :: s, rest)
      else if c.toNat < 0x20 then none
      else do
        let (s, rest) ← stringBody rest
        some (c :: s, rest)

def isExponentMark (c : CodeUnit) : Bool := c == 0x65 || c == 0x45

def isSign (c : CodeUnit) : Bool := c == 0x2B || c == 0x2D

/-- The code units of a number, and what follows. -/
def numberToken (s : Str) : Str × Str :=
  s.span fun c => isDigit c || isSign c || isExponentMark c || c == 0x2E

/-- `0`, or digits without a zero in front. -/
def integerPart : Str → Bool
  | [0x30] => true
  | c :: ds => c != 0x30 && isDigit c && ds.all isDigit
  | [] => false

/-- The grammar of numbers. -/
def isNumberToken (s : Str) : Bool :=
  let unsigned := if s.head? = some 0x2D then s.tail else s
  let (mantissa, exponent) := unsigned.span fun c => !isExponentMark c
  let (whole, fraction) := mantissa.span fun c => c != 0x2E
  let digits := fun ds : Str => !ds.isEmpty && ds.all isDigit
  integerPart whole && (fraction.isEmpty || digits fraction.tail) &&
    (exponent.isEmpty || digits (if exponent.tail.head?.any isSign then exponent.tail.tail
      else exponent.tail))

/-! ## Values -/

/-- A property set; one of its name is replaced. -/
def setField (fields : Fields) (name : Str) (value : Value) : Fields :=
  spread fields [(name, value)]

mutual

def value : ℕ → Str → Option (Value × Str)
  | 0, _ => none
  | fuel + 1, s =>
      let s := skipBlanks s
      if s.head? = some QUOTE then (stringBody s.tail).map fun (t, rest) => (.string t, rest)
      else if s.head? = some 0x7B then
        let rest := skipBlanks s.tail
        if rest.head? = some 0x7D then some (.object [], rest.tail)
        else (members fuel [] rest).map fun (fields, rest) => (.object fields, rest)
      else if s.head? = some 0x5B then
        let rest := skipBlanks s.tail
        if rest.head? = some 0x5D then some (.array [], rest.tail)
        else (items fuel rest).map fun (values, rest) => (.array values, rest)
      else if (text "true").isPrefixOf s then some (.boolean true, s.drop 4)
      else if (text "false").isPrefixOf s then some (.boolean false, s.drop 5)
      else if (text "null").isPrefixOf s then some (.null, s.drop 4)
      else
        let (token, rest) := numberToken s
        if isNumberToken token then some (.number (stringToNumber token), rest) else none

/-- The members of an object up to its closing brace. -/
def members : ℕ → Fields → Str → Option (Fields × Str)
  | 0, _, _ => none
  | fuel + 1, fields, s => do
      let s := skipBlanks s
      if s.head? ≠ some QUOTE then none
      let (name, rest) ← stringBody s.tail
      let rest := skipBlanks rest
      if rest.head? ≠ some 0x3A then none
      let (v, rest) ← value fuel rest.tail
      let rest := skipBlanks rest
      if rest.head? = some 0x7D then some (setField fields name v, rest.tail)
      else if rest.head? = some 0x2C then members fuel (setField fields name v) rest.tail
      else none

/-- The items of an array up to its closing bracket. -/
def items : ℕ → Str → Option (List Value × Str)
  | 0, _ => none
  | fuel + 1, s => do
      let (v, rest) ← value fuel s
      let rest := skipBlanks rest
      if rest.head? = some 0x5D then some ([v], rest.tail)
      else if rest.head? = some 0x2C then
        let (vs, rest) ← items fuel rest.tail
        some (v :: vs, rest)
      else none

end

/-- `JSON.parse` -/
def parse (s : Str) : Option Value := do
  let (v, rest) ← value (2 * s.length + 2) s
  if (skipBlanks rest).isEmpty then some v else none

/-! ## Writing -/

/-- A code unit as `JSON.stringify` writes it in a string; well-formed text has no lone
surrogates. -/
def escape (c : CodeUnit) : Str :=
  if c = QUOTE ∨ c = BACKSLASH then [BACKSLASH, c]
  else if 0x20 ≤ c.toNat then [c]
  else
    match [(0x8, 0x62), (0x9, 0x74), (0xA, 0x6E), (0xC, 0x66), (0xD, 0x72)].lookup c with
    | some e => [BACKSLASH, e]
    | none => text "\\u00" ++ [digitCode (c.toNat / 16),
        if c.toNat % 16 < 10 then digitCode (c.toNat % 16) else UInt16.ofNat (87 + c.toNat % 16)]

def quote (s : Str) : Str := QUOTE :: s.flatMap escape ++ [QUOTE]

def fieldText (e : Str × Str) : Str := quote e.1 ++ 0x3A :: quote e.2

def membersText : List (Str × Str) → Str
  | [] => [0x7D]
  | [e] => fieldText e ++ [0x7D]
  | e :: e' :: rest => fieldText e ++ 0x2C :: membersText (e' :: rest)

/-- `JSON.stringify` of an object of strings. -/
def objectText (fields : List (Str × Str)) : Str := 0x7B :: membersText fields

/-! ## Reading what was written -/

/-- Nothing in the text needs an escape. -/
def Plain (s : Str) : Prop := ∀ c ∈ s, 0x20 ≤ c.toNat ∧ c ≠ QUOTE ∧ c ≠ BACKSLASH

section Reading

variable {s rest : Str} {c : CodeUnit}

theorem quote_plain (h : Plain s) : quote s = QUOTE :: s ++ [QUOTE] := by
  have hescape : s.flatMap escape = s := by
    induction s with
    | nil => rfl
    | cons c s ih =>
        obtain ⟨hrange, hquote, hbackslash⟩ := h c List.mem_cons_self
        rw [List.flatMap_cons, ih fun d hd => h d (List.mem_cons_of_mem _ hd), escape,
          if_neg (by simp [hquote, hbackslash]), if_pos hrange]
        rfl
  rw [quote, hescape]

theorem skipBlanks_cons (h : isBlank c = false) : skipBlanks (c :: s) = c :: s := by
  rw [skipBlanks, List.dropWhile_cons_of_neg (by rw [h]; exact Bool.false_ne_true)]

theorem stringBody_plain (h : Plain s) : stringBody (s ++ QUOTE :: rest) = some (s, rest) := by
  induction s with
  | nil => rw [List.nil_append, stringBody.eq_def]; rfl
  | cons c s ih =>
      obtain ⟨hrange, hquote, hbackslash⟩ := h c List.mem_cons_self
      rw [List.cons_append, stringBody.eq_def]
      simp only [if_neg hquote, if_neg hbackslash, if_neg (Nat.not_lt.mpr hrange),
        ih fun d hd => h d (List.mem_cons_of_mem _ hd)]
      rfl

theorem value_quote (h : Plain s) (fuel : ℕ) :
    value (fuel + 1) (quote s ++ rest) = some (.string s, rest) := by
  have htext : quote s ++ rest = QUOTE :: (s ++ QUOTE :: rest) := by
    rw [quote_plain h]
    simp
  rw [htext, value.eq_def]
  simp only [skipBlanks_cons (show isBlank QUOTE = false from rfl), List.head?_cons, if_true,
    List.tail_cons, stringBody_plain h, Option.map_some]

/-- One member, up to the comma or the brace behind it. -/
theorem members_field {e : Str × Str} (hname : Plain e.1) (hvalue : Plain e.2) (fuel : ℕ)
    (acc : Fields) (hblank : isBlank c = false) :
    members (fuel + 2) acc (fieldText e ++ c :: rest) =
      if c = 0x7D then some (setField acc e.1 (.string e.2), rest)
      else if c = 0x2C then members (fuel + 1) (setField acc e.1 (.string e.2)) rest
      else none := by
  have htext : fieldText e ++ c :: rest =
      QUOTE :: (e.1 ++ QUOTE :: 0x3A :: (quote e.2 ++ c :: rest)) := by
    rw [fieldText, quote_plain hname]
    simp
  rw [htext, members.eq_def]
  simp only [skipBlanks_cons (show isBlank QUOTE = false from rfl), List.head?_cons, ne_eq,
    not_true_eq_false, if_false, List.tail_cons, stringBody_plain hname, Option.bind_eq_bind,
    Option.bind_some, skipBlanks_cons (show isBlank 0x3A = false from rfl), value_quote hvalue,
    skipBlanks_cons hblank, Option.some.injEq]

theorem members_membersText {fields : List (Str × Str)} (hne : fields ≠ [])
    (hplain : ∀ e ∈ fields, Plain e.1 ∧ Plain e.2) {fuel : ℕ} (hfuel : fields.length ≤ fuel)
    (acc : Fields) : members (fuel + 1) acc (membersText fields ++ rest) =
      some (fields.foldl (fun acc e => setField acc e.1 (.string e.2)) acc, rest) := by
  induction fields generalizing acc fuel with
  | nil => exact absurd rfl hne
  | cons e fields ih =>
      obtain ⟨hname, hvalue⟩ := hplain e List.mem_cons_self
      obtain ⟨fuel, rfl⟩ := Nat.exists_eq_add_of_le' (Nat.le_trans (Nat.le_add_left 1 _) hfuel)
      cases fields with
      | nil =>
          rw [membersText, List.append_assoc, List.cons_append, List.nil_append,
            members_field hname hvalue fuel acc (by rfl), if_pos rfl]
          rfl
      | cons e' fields =>
          rw [membersText, List.append_assoc, List.cons_append,
            members_field hname hvalue fuel acc (by rfl), if_neg (by decide), if_pos rfl,
            ih (List.cons_ne_nil _ _) (fun x hx => hplain x (List.mem_cons_of_mem _ hx))
              (by simpa using hfuel)]
          rfl

/-- An object of plain strings is read back. -/
theorem parse_objectText {fields : List (Str × Str)} (hne : fields ≠ [])
    (hplain : ∀ e ∈ fields, Plain e.1 ∧ Plain e.2) : parse (objectText fields) =
      some (.object (fields.foldl (fun acc e => setField acc e.1 (.string e.2)) [])) := by
  have hlength : fields.length ≤ 2 * (membersText fields).length + 2 := by
    have hmembers : fields.length ≤ (membersText fields).length := by
      clear hne hplain
      induction fields with
      | nil => exact Nat.zero_le _
      | cons e fields ih =>
          cases fields with
          | nil => simp [membersText]
          | cons e' fields =>
              rw [membersText, List.length_append, List.length_cons, List.length_cons]
              exact Nat.le_trans (Nat.succ_le_succ ih) (Nat.le_add_left _ _)
    omega
  have hfirst : ∃ more, membersText fields = QUOTE :: more := by
    obtain ⟨e, fields, rfl⟩ := List.exists_cons_of_ne_nil hne
    cases fields <;> exact ⟨_, rfl⟩
  obtain ⟨more, hmore⟩ := hfirst
  have hread : members (2 * (membersText fields).length + 2 + 1) [] (membersText fields ++ []) = _ :=
    members_membersText hne hplain hlength []
  rw [List.append_nil] at hread
  have hvalue : value (2 * (objectText fields).length + 2) (objectText fields) =
      some (.object (fields.foldl (fun acc e => setField acc e.1 (.string e.2)) []), []) := by
    rw [objectText, List.length_cons, Nat.mul_add, value.eq_def]
    simp only [skipBlanks_cons (show isBlank 0x7B = false from rfl), List.head?_cons,
      List.tail_cons, Option.some.injEq]
    rw [if_neg (by decide), if_pos trivial, hmore,
      skipBlanks_cons (show isBlank QUOTE = false from rfl), List.head?_cons, if_neg (by decide),
      ← hmore, hread]
    rfl
  rw [parse, hvalue]
  rfl

end Reading

end JsonText
