import Mathlib.Data.List.DropRight
import Strimz.Script

/-!
# Paths of special URLs

The part of the URL standard's parser that a reference with a slash in front goes through: a second
slash starts an authority, anything else is the path of the base's own host. The path state splits
at slashes, drops dot segments (a dot may be percent-encoded) and percent-encodes the rest; query
and fragment are percent-encoded with sets of their own.

`Parts.relative` writes path, query and fragment out again, and what is written so and read again is
written the same (`readParts_relative`). A path that begins with an empty segment and goes on is
written with two slashes in front; `emptyFront` tells from the segments as they are read which ones
these are.
-/

namespace Url

open Script

/-! ## Percent-encoding -/

/-- A percent-encode set: it has the controls, the space and what is not ASCII, and nothing that a
percent-encoding is made of. -/
structure EncodeSet where
  mem : ℕ → Bool
  outside : ∀ n, n ≤ 0x20 ∨ 0x7E < n → mem n = true
  plain : ∀ n, n = 0x25 ∨ (0x30 ≤ n ∧ n ≤ 0x39) ∨ (0x41 ≤ n ∧ n ≤ 0x46) → mem n = false

/-- A set given by its marks. -/
def EncodeSet.ofMarks (marks : List ℕ) (h : ∀ n ∈ marks, n ≠ 0x25 ∧
    ¬ (0x30 ≤ n ∧ n ≤ 0x39) ∧ ¬ (0x41 ≤ n ∧ n ≤ 0x46)) : EncodeSet where
  mem n := decide (n ≤ 0x20 ∨ 0x7E < n) || marks.contains n
  outside n hn := by simp [hn]
  plain n hn := by
    have hmarks : n ∉ marks := by
      intro hmem
      obtain ⟨h1, h2, h3⟩ := h n hmem
      omega
    have hrange : ¬ (n ≤ 0x20 ∨ 0x7E < n) := by omega
    simp [hmarks, hrange]

def fragmentSet : EncodeSet := .ofMarks [0x22, 0x3C, 0x3E, 0x60] (by decide)

def specialQuerySet : EncodeSet := .ofMarks [0x22, 0x23, 0x27, 0x3C, 0x3E] (by decide)

def pathSet : EncodeSet :=
  .ofMarks [0x22, 0x23, 0x3C, 0x3E, 0x3F, 0x5E, 0x60, 0x7B, 0x7D] (by decide)

def hexDigit (n : ℕ) : CodeUnit := UInt16.ofNat (if n < 10 then 0x30 + n else 0x37 + n)

def percentByte (b : UInt8) : Str := [0x25, hexDigit (b.toNat / 16), hexDigit (b.toNat % 16)]

def percentEncode (S : EncodeSet) (c : Char) : Str :=
  if S.mem c.toNat then (String.utf8EncodeChar c).flatMap percentByte
  else [UInt16.ofNat c.toNat]

def encode (S : EncodeSet) (cs : List Char) : Str := cs.flatMap (percentEncode S)

/-- No code unit of the text is in the set. -/
def Clean (S : EncodeSet) (s : Str) : Prop := ∀ u ∈ s, S.mem u.toNat = false

section Encoding

variable {S : EncodeSet} {s t : Str} {u : CodeUnit} {c : Char}

theorem hexDigit_plain {n : ℕ} (h : n < 16) :
    (0x30 ≤ (hexDigit n).toNat ∧ (hexDigit n).toNat ≤ 0x39) ∨
      (0x41 ≤ (hexDigit n).toNat ∧ (hexDigit n).toNat ≤ 0x46) := by
  interval_cases n <;> decide

theorem percentByte_plain {b : UInt8} (h : u ∈ percentByte b) :
    u.toNat = 0x25 ∨ (0x30 ≤ u.toNat ∧ u.toNat ≤ 0x39) ∨ (0x41 ≤ u.toNat ∧ u.toNat ≤ 0x46) := by
  have hb := b.toNat_lt
  simp only [percentByte, List.mem_cons, List.not_mem_nil, or_false] at h
  rcases h with rfl | rfl | rfl
  · exact .inl rfl
  · exact .inr (hexDigit_plain (by omega))
  · exact .inr (hexDigit_plain (by omega))

/-- A code unit of an encoding stands for itself or is part of a percent-encoding. -/
theorem mem_percentEncode (h : u ∈ percentEncode S c) :
    (u.toNat = c.toNat ∧ S.mem u.toNat = false) ∨ u.toNat = 0x25 ∨
      (0x30 ≤ u.toNat ∧ u.toNat ≤ 0x39) ∨ (0x41 ≤ u.toNat ∧ u.toNat ≤ 0x46) := by
  unfold percentEncode at h
  split at h
  · obtain ⟨b, -, hu⟩ := List.mem_flatMap.mp h
    exact .inr (percentByte_plain hu)
  · rename_i hmem
    have hsmall : c.toNat ≤ 0x7E := by
      by_contra hbig
      exact hmem (S.outside _ (.inr (by omega)))
    have htoNat : (UInt16.ofNat c.toNat).toNat = c.toNat := by
      rw [UInt16.toNat_ofNat']
      omega
    rw [List.mem_singleton.mp h, htoNat]
    exact .inl ⟨rfl, by simpa using hmem⟩

theorem clean_percentEncode : Clean S (percentEncode S c) := by
  intro u hu
  rcases mem_percentEncode hu with ⟨-, h⟩ | h
  · exact h
  · exact S.plain _ h

theorem clean_encode (cs : List Char) : Clean S (encode S cs) := by
  intro u hu
  obtain ⟨c, -, hu⟩ := List.mem_flatMap.mp hu
  exact clean_percentEncode u hu

theorem Clean.append (hs : Clean S s) (ht : Clean S t) : Clean S (s ++ t) := by
  intro u hu
  rcases List.mem_append.mp hu with hu | hu
  · exact hs u hu
  · exact ht u hu

/-- What a clean text is made of. -/
theorem Clean.range (h : Clean S s) (hu : u ∈ s) : 0x20 < u.toNat ∧ u.toNat ≤ 0x7E := by
  have hclean := h u hu
  by_contra hout
  rw [S.outside _ (by omega)] at hclean
  cases hclean

theorem percentEncode_clean (h : S.mem u.toNat = false) : percentEncode S (scalarOf u) = [u] := by
  have hsmall : u.toNat ≤ 0x7E := by
    by_contra hbig
    rw [S.outside _ (by omega)] at h
    cases h
  rw [percentEncode, (scalarOf_ascii hsmall).1, h, if_neg Bool.false_ne_true, UInt16.ofNat_toNat]

/-- A clean text is its own encoding. -/
theorem encode_clean (h : Clean S s) : encode S (s.map scalarOf) = s := by
  induction s with
  | nil => rfl
  | cons u s ih =>
      rw [List.map_cons, encode, List.flatMap_cons, percentEncode_clean (h u List.mem_cons_self)]
      exact congrArg (u :: ·) (ih fun v hv => h v (List.mem_cons_of_mem _ hv))

/-- A code unit that no percent-encoding has comes from a character. -/
theorem not_mem_encode {cs : List Char} {n : ℕ}
    (hplain : ¬ (n = 0x25 ∨ (0x30 ≤ n ∧ n ≤ 0x39) ∨ (0x41 ≤ n ∧ n ≤ 0x46)))
    (h : ∀ c ∈ cs, c.toNat ≠ n) : ∀ u ∈ encode S cs, u.toNat ≠ n := by
  intro u hu heq
  obtain ⟨c, hc, hu⟩ := List.mem_flatMap.mp hu
  rcases mem_percentEncode hu with ⟨hsame, -⟩ | hpart
  · exact h c hc (hsame.symm.trans heq)
  · rw [heq] at hpart
    exact hplain hpart

end Encoding

/-! ## The path -/

/-- A slash, or the backslash that a special URL takes for one. -/
def isSlash (c : Char) : Bool := c.toNat == 0x2F || c.toNat == 0x5C

/-- A question mark or a number sign. -/
def endsPath (c : Char) : Bool := c.toNat == 0x3F || c.toNat == 0x23

def isSingleDot (s : Str) : Bool := [text ".", text "%2e"].contains (toLowerCase s)

def isDoubleDot (s : Str) : Bool :=
  [text "..", text ".%2e", text "%2e.", text "%2e%2e"].contains (toLowerCase s)

/-- The end of a segment. -/
def closeSegment (path : List Str) (buffer : Str) (last : Bool) : List Str :=
  if isDoubleDot buffer then path.dropLast ++ (if last then [[]] else [])
  else if isSingleDot buffer then path ++ (if last then [[]] else [])
  else path ++ [buffer]

/-- The path state: the path, and what is left for the query and fragment states. -/
def pathState (path : List Str) (buffer : Str) : List Char → List Str × List Char
  | [] => (closeSegment path buffer true, [])
  | c :: cs =>
      if isSlash c then pathState (closeSegment path buffer false) [] cs
      else if endsPath c then (closeSegment path buffer true, c :: cs)
      else pathState path (buffer ++ percentEncode pathSet c) cs

def isHash (c : Char) : Bool := c.toNat == 0x23

/-- The query and the fragment state. -/
def tailState : List Char → Option Str × Option Str
  | [] => (none, none)
  | c :: cs =>
      if isHash c then (none, some (encode fragmentSet cs))
      else (some (encode specialQuerySet (cs.takeWhile fun d => !isHash d)),
        (cs.dropWhile fun d => !isHash d).tail?.map (encode fragmentSet))

/-- Path, query and fragment of a URL. -/
structure Parts where
  path : List Str
  query : Option Str
  fragment : Option Str
deriving DecidableEq, Repr

def readParts (cs : List Char) : Parts :=
  let (path, rest) := pathState [] [] cs
  ⟨path, (tailState rest).1, (tailState rest).2⟩

def pathname (path : List Str) : Str := path.flatMap fun s => 0x2F :: s

/-- A query or a fragment behind its mark; an empty one is not written. -/
def marked (mark : CodeUnit) : Option Str → Str
  | none | some [] => []
  | some s => mark :: s

def Parts.search (u : Parts) : Str := marked 0x3F u.query

def Parts.hash (u : Parts) : Str := marked 0x23 u.fragment

def Parts.relative (u : Parts) : Str := pathname u.path ++ u.search ++ u.hash

/-! ## References with a slash in front -/

structure Origin where
  host : Str
  port : Option ℕ
deriving DecidableEq, Repr

structure HttpsUrl where
  origin : Origin
  parts : Parts
deriving DecidableEq, Repr

def isC0OrSpace (c : Char) : Bool := c.toNat ≤ 0x20

def isTabOrNewline (c : Char) : Bool := [0x9, 0xA, 0xD].contains c.toNat

/-- The characters the parser sees. -/
def prepare (s : Str) : List Char :=
  (((scalars s).dropWhile isC0OrSpace).rdropWhile isC0OrSpace).filter fun c => !isTabOrNewline c

/-- The reference resolved against an `https` base, if it begins with a slash. After a second slash
`parseAuthority` reads the host of the rest, up to the next slash, question mark or number sign. -/
def resolve (parseAuthority : List Char → Option Origin) (base : Origin) (s : Str) :
    Option HttpsUrl :=
  match prepare s with
  | [] => none
  | c :: cs =>
      if isSlash c = false then none
      else if cs.head?.any isSlash then
        let authority := cs.dropWhile isSlash
        (parseAuthority (authority.takeWhile fun d => !(isSlash d || endsPath d))).map fun origin =>
          let rest := authority.dropWhile fun d => !(isSlash d || endsPath d)
          ⟨origin, readParts (if rest.head?.any isSlash then rest.tail else rest)⟩
      else some ⟨base, readParts cs⟩

/-! ## What is read -/

/-- A segment as the path state leaves it. -/
structure Segment (s : Str) : Prop where
  clean : Clean pathSet s
  slash : ∀ u ∈ s, u.toNat ≠ 0x2F ∧ u.toNat ≠ 0x5C
  single : isSingleDot s = false
  double : isDoubleDot s = false

theorem segment_nil : Segment [] :=
  ⟨fun _ hu => absurd hu List.not_mem_nil, fun _ hu => absurd hu List.not_mem_nil, rfl, rfl⟩

section Read

variable {path : List Str} {buffer : Str} {cs : List Char}

theorem closeSegment_segments (hpath : ∀ s ∈ path, Segment s) (hclean : Clean pathSet buffer)
    (hslash : ∀ u ∈ buffer, u.toNat ≠ 0x2F ∧ u.toNat ≠ 0x5C) (last : Bool) :
    ∀ s ∈ closeSegment path buffer last, Segment s := by
  have hlast : ∀ s ∈ (if last then [[]] else [] : List Str), Segment s := by
    intro s hs
    split at hs
    · rw [List.mem_singleton.mp hs]
      exact segment_nil
    · cases hs
  intro s hs
  unfold closeSegment at hs
  split at hs
  · rcases List.mem_append.mp hs with hs | hs
    · exact hpath s (List.mem_of_mem_dropLast hs)
    · exact hlast s hs
  · split at hs
    · rcases List.mem_append.mp hs with hs | hs
      · exact hpath s hs
      · exact hlast s hs
    · rename_i hdouble hsingle
      rcases List.mem_append.mp hs with hs | hs
      · exact hpath s hs
      · rw [List.mem_singleton.mp hs]
        exact ⟨hclean, hslash, by simpa using hsingle, by simpa using hdouble⟩

theorem closeSegment_ne_nil : closeSegment path buffer true ≠ [] := by
  unfold closeSegment
  split
  · simp
  · split <;> simp

/-- The path state leaves segments, and stops at the end or at a mark. -/
theorem pathState_spec (hpath : ∀ s ∈ path, Segment s) (hclean : Clean pathSet buffer)
    (hslash : ∀ u ∈ buffer, u.toNat ≠ 0x2F ∧ u.toNat ≠ 0x5C) :
    (∀ s ∈ (pathState path buffer cs).1, Segment s) ∧ (pathState path buffer cs).1 ≠ [] ∧
      (pathState path buffer cs).2 <:+ cs ∧
      ∀ c, (pathState path buffer cs).2.head? = some c → endsPath c = true := by
  induction cs generalizing path buffer with
  | nil =>
      refine ⟨closeSegment_segments hpath hclean hslash true, closeSegment_ne_nil,
        List.suffix_refl _, fun c hc => ?_⟩
      cases hc
  | cons c cs ih =>
      unfold pathState
      split
      · obtain ⟨h1, h2, h3, h4⟩ := ih (closeSegment_segments hpath hclean hslash false)
          (fun _ hu => absurd hu List.not_mem_nil) (fun _ hu => absurd hu List.not_mem_nil)
        exact ⟨h1, h2, h3.trans (List.suffix_cons c cs), h4⟩
      · split
        · rename_i hends
          refine ⟨closeSegment_segments hpath hclean hslash true, closeSegment_ne_nil,
            List.suffix_refl _, fun d hd => ?_⟩
          obtain rfl : c = d := Option.some.inj hd
          exact hends
        · rename_i hnot _
          have hchar : c.toNat ≠ 0x2F ∧ c.toNat ≠ 0x5C := by
            simpa [isSlash] using hnot
          obtain ⟨h1, h2, h3, h4⟩ := ih hpath (hclean.append clean_percentEncode) (by
            intro u hu
            rcases List.mem_append.mp hu with hu | hu
            · exact hslash u hu
            · have henc : u ∈ encode pathSet [c] := by
                rw [encode, List.flatMap_cons, List.flatMap_nil, List.append_nil]
                exact hu
              exact ⟨not_mem_encode (by omega) (by simpa using hchar.1) u henc,
                not_mem_encode (by omega) (by simpa using hchar.2) u henc⟩)
          exact ⟨h1, h2, h3.trans (List.suffix_cons c cs), h4⟩

end Read

/-- Path, query and fragment in normal form. -/
structure Parts.Normal (u : Parts) : Prop where
  segments : ∀ s ∈ u.path, Segment s
  ne_nil : u.path ≠ []
  query : ∀ s, u.query = some s → Clean specialQuerySet s
  fragment : ∀ s, u.fragment = some s → Clean fragmentSet s

theorem tailState_clean (cs : List Char) :
    (∀ s, (tailState cs).1 = some s → Clean specialQuerySet s) ∧
      ∀ s, (tailState cs).2 = some s → Clean fragmentSet s := by
  cases cs with
  | nil =>
      constructor <;>
      · intro s h
        cases h
  | cons c cs =>
      cases hhash : isHash c with
      | true =>
          simp only [tailState, hhash, if_true, reduceCtorEq, false_implies, implies_true,
            Option.some.injEq, true_and]
          rintro s rfl
          exact clean_encode cs
      | false =>
          simp only [tailState, hhash, Bool.false_eq_true, if_false, Option.some.injEq,
            Option.map_eq_some_iff]
          constructor
          · rintro s rfl
            exact clean_encode _
          · rintro s ⟨rest, -, rfl⟩
            exact clean_encode rest

/-- What the query and the fragment are made of. -/
theorem tailState_units {cs : List Char} {n : ℕ}
    (hplain : ¬ (n = 0x25 ∨ (0x30 ≤ n ∧ n ≤ 0x39) ∨ (0x41 ≤ n ∧ n ≤ 0x46)))
    (hcs : ∀ c ∈ cs, c.toNat ≠ n) :
    (∀ s, (tailState cs).1 = some s → ∀ u ∈ s, u.toNat ≠ n) ∧
      ∀ s, (tailState cs).2 = some s → ∀ u ∈ s, u.toNat ≠ n := by
  cases cs with
  | nil =>
      constructor <;>
      · intro s h
        cases h
  | cons c cs =>
      have hrest : ∀ d ∈ cs, d.toNat ≠ n := fun d hd => hcs d (List.mem_cons_of_mem _ hd)
      cases hhash : isHash c with
      | true =>
          simp only [tailState, hhash, if_true, reduceCtorEq, false_implies, implies_true,
            Option.some.injEq, true_and]
          rintro s rfl
          exact not_mem_encode hplain hrest
      | false =>
          simp only [tailState, hhash, Bool.false_eq_true, if_false, Option.some.injEq,
            Option.map_eq_some_iff]
          constructor
          · rintro s rfl
            exact not_mem_encode hplain fun d hd => hrest d ((List.takeWhile_sublist _).subset hd)
          · rintro s ⟨rest, htail, rfl⟩
            refine not_mem_encode hplain fun d hd => hrest d ?_
            refine (List.dropWhile_sublist fun d => !isHash d).subset ?_
            cases hdrop : cs.dropWhile fun d => !isHash d with
            | nil =>
                rw [hdrop] at htail
                cases htail
            | cons e after =>
                rw [hdrop, List.tail?_cons] at htail
                rw [Option.some.inj htail]
                exact List.mem_cons_of_mem e hd

/-- What the path state reads from its start. -/
theorem pathState_start (cs : List Char) :
    (∀ s ∈ (pathState [] [] cs).1, Segment s) ∧ (pathState [] [] cs).1 ≠ [] ∧
      (pathState [] [] cs).2 <:+ cs ∧
      ∀ c, (pathState [] [] cs).2.head? = some c → endsPath c = true :=
  pathState_spec (fun _ hs => absurd hs List.not_mem_nil) (fun _ hu => absurd hu List.not_mem_nil)
    fun _ hu => absurd hu List.not_mem_nil

theorem normal_readParts (cs : List Char) : (readParts cs).Normal := by
  obtain ⟨hsegments, hne, -, -⟩ := pathState_start cs
  exact ⟨hsegments, hne, (tailState_clean _).1, (tailState_clean _).2⟩

/-! ## What is written -/

section Written

variable {u : Parts} {s : Str}

theorem mem_marked {mark v : CodeUnit} {part : Option Str} (h : v ∈ marked mark part) :
    v = mark ∨ ∃ s, part = some s ∧ v ∈ s := by
  unfold marked at h
  split at h
  · cases h
  · cases h
  · rename_i s _
    rcases List.mem_cons.mp h with h | h
    · exact .inl h
    · exact .inr ⟨s, rfl, h⟩

/-- The normal form is visible ASCII. -/
theorem Parts.Normal.range (h : u.Normal) : ∀ v ∈ u.relative, 0x20 < v.toNat ∧ v.toNat ≤ 0x7E := by
  intro v hv
  rcases List.mem_append.mp hv with hv | hv
  · rcases List.mem_append.mp hv with hv | hv
    · obtain ⟨s, hs, hv⟩ := List.mem_flatMap.mp hv
      rcases List.mem_cons.mp hv with rfl | hv
      · decide
      · exact (h.segments s hs).clean.range hv
    · rcases mem_marked hv with rfl | ⟨s, hs, hv⟩
      · decide
      · exact (h.query s hs).range hv
  · rcases mem_marked hv with rfl | ⟨s, hs, hv⟩
    · decide
    · exact (h.fragment s hs).range hv

/-- Visible ASCII reaches the parser as it is. -/
theorem prepare_visible (h : ∀ v ∈ s, 0x20 < v.toNat ∧ v.toNat ≤ 0x7E) :
    prepare s = s.map scalarOf := by
  have hscalars : scalars s = s.map scalarOf := by
    have happend := scalars_append (s := s)
      (fun v hv => (scalarOf_ascii (h v hv).2).2) []
    rwa [List.append_nil, scalars, List.append_nil] at happend
  have hvisible : ∀ c ∈ s.map scalarOf, 0x20 < c.toNat := by
    intro c hc
    obtain ⟨v, hv, rfl⟩ := List.mem_map.mp hc
    rw [(scalarOf_ascii (h v hv).2).1]
    exact (h v hv).1
  have hnotspace : ∀ c ∈ s.map scalarOf, ¬ isC0OrSpace c = true := by
    intro c hc hspace
    have := hvisible c hc
    simp only [isC0OrSpace, decide_eq_true_eq] at hspace
    omega
  have hleft : (s.map scalarOf).dropWhile isC0OrSpace = s.map scalarOf := by
    cases hs : s.map scalarOf with
    | nil => rfl
    | cons c cs =>
        exact List.dropWhile_cons_of_neg (hnotspace c (by rw [hs]; exact List.mem_cons_self))
  have hright : (s.map scalarOf).rdropWhile isC0OrSpace = s.map scalarOf := by
    rw [List.rdropWhile_eq_self_iff]
    intro hne
    exact hnotspace _ (List.getLast_mem hne)
  rw [prepare, hscalars, hleft, hright, List.filter_eq_self]
  intro c hc
  have := hvisible c hc
  simp only [isTabOrNewline, List.contains_eq_mem, List.mem_cons, List.not_mem_nil, or_false,
    Bool.not_eq_true', decide_eq_false_iff_not]
  omega

/-- The path state takes a segment's text in one go. -/
theorem pathState_chunk {path : List Str} {buffer : Str} (rest : List Char)
    (hclean : Clean pathSet s) (hslash : ∀ v ∈ s, v.toNat ≠ 0x2F ∧ v.toNat ≠ 0x5C) :
    pathState path buffer (s.map scalarOf ++ rest) = pathState path (buffer ++ s) rest := by
  induction s generalizing buffer with
  | nil => simp
  | cons v s ih =>
      have hv : v ∈ v :: s := List.mem_cons_self
      have htoNat := (scalarOf_ascii (hclean.range hv).2).1
      have hnotslash : isSlash (scalarOf v) = false := by
        simpa [isSlash, htoNat] using hslash v hv
      have hnotend : endsPath (scalarOf v) = false := by
        have hmem := hclean v hv
        simp only [endsPath, htoNat, Bool.or_eq_false_iff, beq_eq_false_iff_ne]
        constructor
        · intro heq
          rw [heq] at hmem
          exact absurd hmem (by decide)
        · intro heq
          rw [heq] at hmem
          exact absurd hmem (by decide)
      rw [List.map_cons, List.cons_append, pathState, hnotslash, hnotend,
        if_neg Bool.false_ne_true, if_neg Bool.false_ne_true,
        percentEncode_clean (hclean v hv),
        ih (fun w hw => hclean w (List.mem_cons_of_mem _ hw))
          (fun w hw => hslash w (List.mem_cons_of_mem _ hw)), List.append_assoc]
      rfl

theorem closeSegment_segment {path : List Str} (h : Segment s) (last : Bool) :
    closeSegment path s last = path ++ [s] := by
  rw [closeSegment, h.double, h.single, if_neg Bool.false_ne_true, if_neg Bool.false_ne_true]

/-- The path state reads written segments back. -/
theorem pathState_segments {path segments : List Str} {rest : List Char}
    (hs : Segment s) (hsegments : ∀ t ∈ segments, Segment t)
    (hrest : ∀ c, rest.head? = some c → endsPath c = true) :
    pathState path [] ((s ++ pathname segments).map scalarOf ++ rest) =
      (path ++ s :: segments, rest) := by
  induction segments generalizing s path with
  | nil =>
      rw [pathname, List.flatMap_nil, List.append_nil, pathState_chunk rest hs.clean hs.slash,
        List.nil_append]
      cases rest with
      | nil => rw [pathState, closeSegment_segment hs]
      | cons c cs =>
          have hends := hrest c rfl
          have hnot : isSlash c = false := by
            simp only [endsPath, Bool.or_eq_true, beq_iff_eq] at hends
            simp only [isSlash, Bool.or_eq_false_iff, beq_eq_false_iff_ne]
            omega
          rw [pathState, hnot, if_neg Bool.false_ne_true, if_pos hends, closeSegment_segment hs]
  | cons t segments ih =>
      have hslash : isSlash (scalarOf 0x2F) = true := by decide
      rw [pathname, List.flatMap_cons, List.map_append, List.append_assoc,
        pathState_chunk _ hs.clean hs.slash, List.nil_append, List.cons_append, List.map_cons,
        List.cons_append, pathState, if_pos hslash, closeSegment_segment hs, ← pathname,
        ih (hsegments t List.mem_cons_self) fun x hx => hsegments x (List.mem_cons_of_mem _ hx),
        List.append_assoc]
      rfl

theorem marked_some {mark : CodeUnit} (h : s ≠ []) : marked mark (some s) = mark :: s := by
  cases s with
  | nil => exact absurd rfl h
  | cons v s => rfl

/-- A part is written as nothing, or behind its mark. -/
theorem marked_cases (mark : CodeUnit) (part : Option Str) :
    marked mark part = [] ∨ ∃ s, part = some s ∧ s ≠ [] ∧ marked mark part = mark :: s := by
  unfold marked
  split
  · exact .inl rfl
  · exact .inl rfl
  · rename_i s hne
    exact .inr ⟨s, rfl, fun h => hne (by rw [h]), rfl⟩

/-- Query and fragment read back are written as before. -/
theorem tailState_relative (h : u.Normal) :
    let parts := tailState ((u.search ++ u.hash).map scalarOf)
    marked 0x3F parts.1 = u.search ∧ marked 0x23 parts.2 = u.hash := by
  have hhash : isHash (scalarOf 0x23) = true := by decide
  have hquestion : isHash (scalarOf 0x3F) = false := by decide
  unfold Parts.search Parts.hash
  rcases marked_cases 0x3F u.query with hq | ⟨q, hq, hqne, hquery⟩
  · rcases marked_cases 0x23 u.fragment with hf | ⟨f, hf, hfne, hfragment⟩
    · rw [hq, hf]
      exact ⟨rfl, rfl⟩
    · rw [hq, hfragment, List.nil_append, List.map_cons, tailState, if_pos hhash,
        encode_clean (h.fragment f hf)]
      exact ⟨rfl, marked_some hfne⟩
  · have hnohash : ∀ c ∈ q.map scalarOf, (!isHash c) = true := by
      intro c hc
      obtain ⟨v, hv, rfl⟩ := List.mem_map.mp hc
      have hclean := h.query q hq
      have hmem := hclean v hv
      rw [Bool.not_eq_true', isHash, (scalarOf_ascii (hclean.range hv).2).1, beq_eq_false_iff_ne]
      intro heq
      rw [heq] at hmem
      exact absurd hmem (by decide)
    rw [hquery, List.cons_append, List.map_cons, List.map_append, tailState, hquestion,
      if_neg Bool.false_ne_true, List.takeWhile_append_of_pos hnohash,
      List.dropWhile_append_of_pos hnohash]
    rcases marked_cases 0x23 u.fragment with hf | ⟨f, hf, hfne, hfragment⟩
    · rw [hf, List.map_nil, List.takeWhile_nil, List.append_nil, encode_clean (h.query q hq)]
      exact ⟨marked_some hqne, rfl⟩
    · rw [hfragment, List.map_cons, List.takeWhile_cons_of_neg (by rw [hhash]; decide),
        List.dropWhile_cons_of_neg (by rw [hhash]; decide), List.append_nil,
        encode_clean (h.query q hq), List.tail?_cons, Option.map_some,
        encode_clean (h.fragment f hf)]
      exact ⟨marked_some hqne, marked_some hfne⟩

/-- The parts behind the first slash, read back, are written as before. -/
theorem readParts_relative (h : u.Normal) {rest : Str} (hrest : u.relative = 0x2F :: rest) :
    (readParts (rest.map scalarOf)).relative = u.relative := by
  obtain ⟨s, segments, hpath⟩ := List.exists_cons_of_ne_nil h.ne_nil
  have hs : Segment s := h.segments s (by rw [hpath]; exact List.mem_cons_self)
  have hsegments : ∀ t ∈ segments, Segment t := fun t ht =>
    h.segments t (by rw [hpath]; exact List.mem_cons_of_mem _ ht)
  have htext : rest = (s ++ pathname segments) ++ (u.search ++ u.hash) := by
    rw [Parts.relative, hpath, pathname, List.flatMap_cons, List.cons_append, List.cons_append,
      List.cons_append, List.cons.injEq] at hrest
    rw [← hrest.2, pathname, List.append_assoc]
  have hends : ∀ c, ((u.search ++ u.hash).map scalarOf).head? = some c → endsPath c = true := by
    intro c hc
    unfold Parts.search Parts.hash at hc
    rcases marked_cases 0x3F u.query with hq | ⟨q, -, -, hquery⟩
    · rcases marked_cases 0x23 u.fragment with hf | ⟨f, -, -, hfragment⟩
      · rw [hq, hf] at hc
        cases hc
      · rw [hq, hfragment] at hc
        rw [← Option.some.inj hc]
        decide
    · rw [hquery] at hc
      rw [← Option.some.inj hc]
      decide
  have hstate : pathState [] [] (rest.map scalarOf) =
      (s :: segments, (u.search ++ u.hash).map scalarOf) := by
    rw [htext, List.map_append, pathState_segments hs hsegments hends, List.nil_append]
  obtain ⟨hquery, hfragment⟩ := tailState_relative h
  rw [readParts, hstate]
  show pathname (s :: segments) ++ marked 0x3F _ ++ marked 0x23 _ = _
  rw [hquery, hfragment, Parts.relative, hpath]

end Written

/-! ## The front of a path -/

/-- The segments the path state closes, in order. -/
def segmentsOf (buffer : Str) : List Char → List Str
  | [] => [buffer]
  | c :: cs =>
      if isSlash c then buffer :: segmentsOf [] cs
      else if endsPath c then [buffer]
      else segmentsOf (buffer ++ percentEncode pathSet c) cs

/-- Closing them one after the other. -/
def closeAll (path : List Str) : List Str → List Str
  | [] => path
  | [s] => closeSegment path s true
  | s :: t :: segments => closeAll (closeSegment path s false) (t :: segments)

/-- How many segments before them they take away. -/
def taken : List Str → ℕ
  | [] => 0
  | s :: segments =>
      if isDoubleDot s then taken segments + 1
      else if isSingleDot s then taken segments
      else taken segments - 1

/-- The first segment that stays is empty, and is not the last. -/
def emptyFront : List Str → Bool
  | [] => false
  | s :: segments =>
      if !isDoubleDot s && !isSingleDot s && taken segments == 0 then s.isEmpty && !segments.isEmpty
      else emptyFront segments

section Front

variable {path segments : List Str}

theorem segmentsOf_ne_nil (buffer : Str) (cs : List Char) : segmentsOf buffer cs ≠ [] := by
  induction cs generalizing buffer with
  | nil => exact List.cons_ne_nil _ _
  | cons c cs ih =>
      unfold segmentsOf
      split
      · exact List.cons_ne_nil _ _
      · split
        · exact List.cons_ne_nil _ _
        · exact ih _

theorem pathState_eq_closeAll (path : List Str) (buffer : Str) (cs : List Char) :
    (pathState path buffer cs).1 = closeAll path (segmentsOf buffer cs) := by
  induction cs generalizing path buffer with
  | nil => rfl
  | cons c cs ih =>
      unfold pathState segmentsOf
      split
      · rw [ih]
        obtain ⟨t, segments, hsegments⟩ := List.exists_cons_of_ne_nil (segmentsOf_ne_nil [] cs)
        rw [hsegments, closeAll]
      · split
        · rfl
        · exact ih _ _

/-- What was closed before only loses what is taken. -/
theorem closeAll_eq (path : List Str) (hne : segments ≠ []) :
    closeAll path segments = path.take (path.length - taken segments) ++ closeAll [] segments := by
  induction segments generalizing path with
  | nil => exact absurd rfl hne
  | cons s segments ih =>
      cases segments with
      | nil =>
          simp only [closeAll, closeSegment, taken]
          split
          · simp [List.dropLast_eq_take]
          · split <;> simp
      | cons t segments =>
          have htail := fun path => ih path (List.cons_ne_nil t segments)
          simp only [closeAll]
          rw [taken]
          by_cases hdouble : isDoubleDot s = true
          · have hclose : ∀ path : List Str, closeSegment path s false = path.dropLast := fun path => by
              rw [closeSegment, if_pos hdouble]
              simp
            rw [hclose, hclose, htail path.dropLast, if_pos hdouble, List.dropLast_nil,
              List.length_dropLast, List.dropLast_eq_take, List.take_take]
            congr 2
            omega
          · by_cases hsingle : isSingleDot s = true
            · have hclose : ∀ path : List Str, closeSegment path s false = path := fun path => by
                rw [closeSegment, if_neg hdouble, if_pos hsingle]
                simp
              rw [hclose, hclose, htail path, if_neg hdouble, if_pos hsingle]
            · have hclose : ∀ path : List Str, closeSegment path s false = path ++ [s] :=
                fun path => by rw [closeSegment, if_neg hdouble, if_neg hsingle]
              rw [hclose, hclose, htail (path ++ [s]), htail ([] ++ [s]), if_neg hdouble,
                if_neg hsingle, List.nil_append, ← List.append_assoc, List.length_append,
                List.length_singleton]
              congr 1
              rcases Nat.eq_zero_or_pos (taken (t :: segments)) with hzero | hpos
              · rw [hzero]
                simp
              · have h1 : path.length + 1 - taken (t :: segments) ≤ path.length := by omega
                have h2 : 1 - taken (t :: segments) = 0 := by omega
                rw [List.take_append_of_le_length h1, h2, List.take_zero, List.append_nil]
                congr 1
                omega

theorem closeAll_ne_nil (hne : segments ≠ []) (path : List Str) : closeAll path segments ≠ [] := by
  induction segments generalizing path with
  | nil => exact absurd rfl hne
  | cons s segments ih =>
      cases segments with
      | nil => exact closeSegment_ne_nil
      | cons t segments => exact ih (List.cons_ne_nil _ _) _

/-- The path begins with an empty segment and goes on exactly if the first one that stays is empty
and not the last. -/
theorem emptyFront_iff (hne : segments ≠ []) :
    emptyFront segments = true ↔ ∃ t rest, closeAll [] segments = [] :: t :: rest := by
  induction segments with
  | nil => exact absurd rfl hne
  | cons s segments ih =>
      by_cases hkept : (!isDoubleDot s && !isSingleDot s && taken segments == 0) = true
      · rw [emptyFront, if_pos hkept]
        simp only [Bool.and_eq_true, Bool.not_eq_true', beq_iff_eq] at hkept
        obtain ⟨⟨hdouble, hsingle⟩, htaken⟩ := hkept
        have hclose : ∀ last, closeSegment [] s last = [s] := fun last => by
          rw [closeSegment, hdouble, hsingle, if_neg Bool.false_ne_true,
            if_neg Bool.false_ne_true, List.nil_append]
        cases segments with
        | nil =>
            rw [closeAll, hclose]
            simp
        | cons t segments =>
            have hrest : closeAll [] (s :: t :: segments) = s :: closeAll [] (t :: segments) := by
              rw [closeAll, hclose, closeAll_eq [s] (List.cons_ne_nil _ _), htaken]
              rfl
            obtain ⟨x, xs, hx⟩ := List.exists_cons_of_ne_nil
              (closeAll_ne_nil (List.cons_ne_nil t segments) [])
            rw [hrest, hx]
            simp [List.isEmpty_iff]
      · rw [emptyFront, if_neg hkept]
        cases segments with
        | nil =>
            have hdots : isDoubleDot s = true ∨ isSingleDot s = true := by
              simp only [taken, beq_self_eq_true, Bool.and_true, Bool.and_eq_true,
                Bool.not_eq_true'] at hkept
              by_contra hnot
              rw [not_or, Bool.not_eq_true, Bool.not_eq_true] at hnot
              exact hkept hnot
            have hclose : closeAll [] [s] = [[]] := by
              rw [closeAll, closeSegment]
              rcases hdots with hdouble | hsingle
              · simp [hdouble]
              · by_cases hdouble : isDoubleDot s = true
                · simp [hdouble]
                · simp [hdouble, hsingle]
            rw [hclose]
            simp [emptyFront]
        | cons t segments =>
            rw [ih (List.cons_ne_nil _ _)]
            have hrest : closeAll [] (s :: t :: segments) = closeAll [] (t :: segments) := by
              rw [closeAll, closeSegment]
              by_cases hdouble : isDoubleDot s = true
              · simp [hdouble]
              · by_cases hsingle : isSingleDot s = true
                · simp [hdouble, hsingle]
                · have htaken : 1 - taken (t :: segments) = 0 := by
                    simp only [hdouble, hsingle, Bool.not_false, Bool.and_self, Bool.true_and,
                      beq_iff_eq] at hkept
                    omega
                  rw [if_neg hdouble, if_neg hsingle, List.nil_append,
                    closeAll_eq [s] (List.cons_ne_nil _ _), List.length_singleton, htaken]
                  rfl
            rw [hrest]

end Front

end Url
