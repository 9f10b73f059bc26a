import Strimz.Objects
import Strimz.Url

/-!
# The page after login

`safeNextPath` refuses what does not begin with one slash, has a backslash or a control character,
and otherwise returns the path, query and fragment that the URL parser makes of the value. The
checks read the raw text, and the parser then removes dot segments: what it returns leaves the site
exactly if an empty segment comes to the front of the path. `EmptyFront` says so of the raw value.
-/

namespace Strimz.AuthRedirect

open Script Objects Url

/-- `https://strimz.invalid` -/
def BASE : Origin := ⟨text "strimz.invalid", none⟩

/-- The checks on the raw text. -/
def checked (value : Str) : Bool :=
  value.head? == some 0x2F && value.tail.head? != some 0x2F && !value.contains 0x5C &&
    !value.any fun u => decide (u.toNat < 0x20) || u.toNat == 0x7F

section Code

-- reads the host of an authority, with its port
variable (parseAuthority : List Char → Option Origin)

def safeNextPath (value : Value) : Option Str :=
  match value with
  | .string value =>
      if checked value then
        (resolve parseAuthority BASE value).bind fun url =>
          if url.origin = BASE then some url.parts.relative else none
      else none
  | _ => none

/-! ## The law -/

/-- One slash in front, and no second one. -/
def OneSlash (p : Str) : Prop :=
  p.head? = some 0x2F ∧ ∀ c, p.tail.head? = some c → c ≠ 0x2F ∧ c ≠ 0x5C

/-- A path stays on the site it is resolved on, and is its own safe path. -/
structure Stays (p : Str) : Prop where
  oneSlash : OneSlash p
  sameOrigin : ∀ origin, ∃ url, resolve parseAuthority origin p = some url ∧ url.origin = origin
  stable : safeNextPath parseAuthority (.string p) = some p

/-- A path with query and fragment as the parser writes it. -/
def Normalised (value : Str) : Prop :=
  OneSlash value ∧ ∃ url, resolve parseAuthority BASE value = some url ∧ url.origin = BASE ∧
    url.parts.relative = value

end Code

/-- Of the segments in the raw value, the first that no later `..` takes away and that is no dot
segment itself is empty, and is not the last. -/
def EmptyFront (value : Str) : Prop := emptyFront (segmentsOf [] (prepare value).tail) = true

instance (value : Str) : Decidable (EmptyFront value) := by
  unfold EmptyFront
  infer_instance

/-! ## What the checks leave -/

section Checked

variable {value : Str}

theorem checked_iff : checked value = true ↔
    value.head? = some 0x2F ∧ value.tail.head? ≠ some 0x2F ∧ (0x5C : CodeUnit) ∉ value ∧
      ∀ u ∈ value, 0x20 ≤ u.toNat ∧ u.toNat ≠ 0x7F := by
  simp only [checked, Bool.and_eq_true, beq_iff_eq, bne_iff_ne, Bool.not_eq_true',
    List.contains_eq_mem, decide_eq_false_iff_not, List.any_eq_false, Bool.or_eq_true,
    decide_eq_true_eq, and_assoc]
  refine and_congr_right fun _ => and_congr_right fun _ => and_congr_right fun _ => ?_
  refine forall_congr' fun u => forall_congr' fun _ => ?_
  omega

theorem rdropWhile_cons {α : Type} {p : α → Bool} {a : α} (l : List α) (ha : ¬ p a = true) :
    (a :: l).rdropWhile p = a :: l.rdropWhile p := by
  induction l using List.reverseRecOn with
  | nil =>
      rw [← List.nil_append [a], List.rdropWhile_concat_neg _ _ _ ha, List.rdropWhile_nil,
        List.nil_append]
  | append_singleton l b ih =>
      rw [← List.cons_append]
      by_cases hb : p b = true
      · rw [List.rdropWhile_concat_pos _ _ _ hb, List.rdropWhile_concat_pos _ _ _ hb, ih]
      · rw [List.rdropWhile_concat_neg _ _ _ hb, List.rdropWhile_concat_neg _ _ _ hb,
          List.cons_append]

/-- The parser sees a slash, then the rest of the text without spaces at its end. -/
theorem prepare_checked (h : checked value = true) : ∃ rest, value = 0x2F :: rest ∧
    prepare value = scalarOf 0x2F :: (scalars rest).rdropWhile isC0OrSpace := by
  obtain ⟨hhead, -, -, hrange⟩ := checked_iff.mp h
  obtain ⟨rest, rfl⟩ : ∃ rest, value = 0x2F :: rest := by
    cases value with
    | nil => cases hhead
    | cons u rest => exact ⟨rest, by rw [Option.some.inj hhead]⟩
  refine ⟨rest, rfl, ?_⟩
  have hslash : ¬ isC0OrSpace (scalarOf 0x2F) = true := by decide
  have hscalars : scalars (0x2F :: rest) = scalarOf 0x2F :: scalars rest :=
    scalars_cons (by decide) rest
  have hfilter : ∀ c ∈ scalarOf 0x2F :: (scalars rest).rdropWhile isC0OrSpace,
      (!isTabOrNewline c) = true := by
    intro c hc
    rw [Bool.not_eq_true', ← Bool.not_eq_true]
    intro htab
    have hsmall : c.toNat < 0x20 := by
      simp only [isTabOrNewline, List.contains_eq_mem, List.mem_cons, List.not_mem_nil, or_false,
        decide_eq_true_eq] at htab
      omega
    have hmem : c ∈ scalars (0x2F :: rest) := by
      rw [hscalars]
      rcases List.mem_cons.mp hc with hc | hc
      · rw [hc]
        exact List.mem_cons_self
      · exact List.mem_cons_of_mem _ ((List.rdropWhile_prefix _ _).subset hc)
    obtain ⟨u, hu, heq⟩ := mem_scalars hmem (by omega)
    have := (hrange u hu).1
    omega
  rw [prepare, hscalars, List.dropWhile_cons_of_neg hslash, rdropWhile_cons _ hslash,
    List.filter_eq_self.mpr hfilter]

/-- A checked value resolves on the base's own host, to what it says behind its slash. -/
theorem resolve_checked (h : checked value = true) (parseAuthority : List Char → Option Origin)
    (base : Origin) : resolve parseAuthority base value =
      some ⟨base, readParts (prepare value).tail⟩ := by
  obtain ⟨rest, rfl, hprepare⟩ := prepare_checked h
  obtain ⟨-, hsecond, hbackslash, -⟩ := checked_iff.mp h
  have hslash : isSlash (scalarOf 0x2F) = true := by decide
  have hone : ((scalars rest).rdropWhile isC0OrSpace).head?.any isSlash = false := by
    cases hhead : ((scalars rest).rdropWhile isC0OrSpace).head? with
    | none => rfl
    | some c =>
        rw [Option.any_some, ← Bool.not_eq_true]
        intro hc
        have hcode : c.toNat = 0x2F ∨ c.toNat = 0x5C := by
          simpa [isSlash] using hc
        have hfirst : (scalars rest).head? = some c := by
          obtain ⟨after, hafter⟩ := List.rdropWhile_prefix isC0OrSpace (l := scalars rest)
          rw [← hafter, List.head?_append, hhead]
          rfl
        cases rest with
        | nil => cases hfirst
        | cons u rest =>
            have hu := scalars_head hfirst (by omega)
            rcases hcode with hcode | hcode
            · have heq : u.toNat = (0x2F : CodeUnit).toNat := hu.symm.trans hcode
              refine hsecond ?_
              rw [List.tail_cons, List.head?_cons, UInt16.toNat_inj.mp heq]
            · have heq : u.toNat = (0x5C : CodeUnit).toNat := hu.symm.trans hcode
              refine hbackslash (List.mem_cons_of_mem _ ?_)
              rw [← UInt16.toNat_inj.mp heq]
              exact List.mem_cons_self
  rw [resolve, hprepare]
  simp only [hslash, hone, Bool.true_eq_false, if_false, Bool.false_eq_true, List.tail_cons]

/-- What is returned for a checked value. -/
theorem safeNextPath_checked (h : checked value = true)
    (parseAuthority : List Char → Option Origin) :
    safeNextPath parseAuthority (.string value) =
      some (readParts (prepare value).tail).relative := by
  rw [safeNextPath, if_pos h, resolve_checked h, Option.bind_some, if_pos rfl]

theorem checked_of_safeNextPath {parseAuthority : List Char → Option Origin} {p : Str}
    (h : safeNextPath parseAuthority (.string value) = some p) : checked value = true := by
  by_contra hnot
  simp only [safeNextPath, if_neg hnot, reduceCtorEq] at h

/-- No backslash comes out of a text that has none. -/
theorem no_backslash (h : checked value = true) :
    ∀ u ∈ (readParts (prepare value).tail).relative, u.toNat ≠ 0x5C := by
  obtain ⟨rest, rfl, hprepare⟩ := prepare_checked h
  obtain ⟨-, -, hbackslash, -⟩ := checked_iff.mp h
  have hchars : ∀ c ∈ (prepare (0x2F :: rest)).tail, c.toNat ≠ 0x5C := by
    intro c hc heq
    rw [hprepare, List.tail_cons] at hc
    obtain ⟨u, hu, hcode⟩ := mem_scalars ((List.rdropWhile_prefix _ _).subset hc) (by omega)
    have hunit : u.toNat = (0x5C : CodeUnit).toNat := hcode.trans heq
    refine hbackslash (List.mem_cons_of_mem _ ?_)
    rwa [← UInt16.toNat_inj.mp hunit]
  obtain ⟨hsegments, -, hsuffix, -⟩ := pathState_start (prepare (0x2F :: rest)).tail
  obtain ⟨hquery, hfragment⟩ := tailState_units (n := 0x5C) (by decide)
    fun c hc => hchars c (hsuffix.subset hc)
  intro u hu
  rcases List.mem_append.mp hu with hu | hu
  · rcases List.mem_append.mp hu with hu | hu
    · obtain ⟨s, hs, hu⟩ := List.mem_flatMap.mp hu
      rcases List.mem_cons.mp hu with rfl | hu
      · decide
      · exact ((hsegments s hs).slash u hu).2
    · rcases mem_marked hu with rfl | ⟨s, hs, hu⟩
      · decide
      · exact hquery s hs u hu
  · rcases mem_marked hu with rfl | ⟨s, hs, hu⟩
    · decide
    · exact hfragment s hs u hu

end Checked

/-! ## What is returned -/

section Returned

variable {value : Str} {u : Parts}

/-- A normal form begins with one slash, unless its first segment is empty and not the last. -/
theorem oneSlash_relative (h : u.Normal) (hfront : ¬ ∃ t rest, u.path = [] :: t :: rest) :
    OneSlash u.relative := by
  obtain ⟨s, segments, hpath⟩ := List.exists_cons_of_ne_nil h.ne_nil
  have htext : u.relative = 0x2F :: (s ++ (pathname segments ++ (u.search ++ u.hash))) := by
    rw [Parts.relative, hpath, pathname, List.flatMap_cons, pathname]
    simp only [List.cons_append, List.append_assoc]
  refine ⟨by rw [htext]; rfl, fun c hc => ?_⟩
  rw [htext, List.tail_cons] at hc
  cases s with
  | cons v s =>
      obtain rfl : v = c := Option.some.inj hc
      have hv := (h.segments (v :: s) (by rw [hpath]; exact List.mem_cons_self)).slash v
        List.mem_cons_self
      exact ⟨fun heq => hv.1 (by rw [heq]; rfl), fun heq => hv.2 (by rw [heq]; rfl)⟩
  | nil =>
      cases segments with
      | cons t segments => exact absurd ⟨t, segments, hpath⟩ hfront
      | nil =>
          rw [pathname, List.flatMap_nil, List.nil_append, List.nil_append] at hc
          unfold Parts.search Parts.hash at hc
          rcases marked_cases 0x3F u.query with hq | ⟨q, -, -, hquery⟩
          · rcases marked_cases 0x23 u.fragment with hf | ⟨f, -, -, hfragment⟩
            · rw [hq, hf] at hc
              cases hc
            · rw [hq, hfragment] at hc
              rw [← Option.some.inj hc]
              decide
          · rw [hquery] at hc
            rw [← Option.some.inj hc]
            decide

/-- A normal form with one slash in front and no backslash passes the checks. -/
theorem checked_relative (h : u.Normal) (hone : OneSlash u.relative)
    (hbackslash : (0x5C : CodeUnit) ∉ u.relative) : checked u.relative = true := by
  refine checked_iff.mpr ⟨hone.1, fun hsecond => (hone.2 _ hsecond).1 rfl, hbackslash, ?_⟩
  intro v hv
  have := h.range v hv
  omega

/-- It is what the parser makes of it. -/
theorem relative_relative (h : u.Normal) (hone : OneSlash u.relative) :
    (readParts (prepare u.relative).tail).relative = u.relative := by
  obtain ⟨rest, hrest⟩ : ∃ rest, u.relative = 0x2F :: rest := by
    have hhead := hone.1
    cases htext : u.relative with
    | nil =>
        rw [htext] at hhead
        cases hhead
    | cons c rest =>
        rw [htext] at hhead
        exact ⟨rest, by rw [Option.some.inj hhead]⟩
  have hprepare : (prepare u.relative).tail = rest.map scalarOf := by
    rw [prepare_visible h.range, hrest, List.map_cons, List.tail_cons]
  rw [hprepare, readParts_relative h hrest]

theorem emptyFront_path : EmptyFront value ↔
    ∃ t rest, (readParts (prepare value).tail).path = [] :: t :: rest := by
  have hclose : (readParts (prepare value).tail).path =
      closeAll [] (segmentsOf [] (prepare value).tail) := pathState_eq_closeAll [] [] _
  rw [EmptyFront, emptyFront_iff (segmentsOf_ne_nil _ _), hclose]

/-- An empty segment at the front is a second slash. -/
theorem not_oneSlash_of_emptyFront (h : EmptyFront value) :
    ¬ OneSlash (readParts (prepare value).tail).relative := by
  obtain ⟨t, rest, hpath⟩ := emptyFront_path.mp h
  intro hone
  refine (hone.2 0x2F ?_).1 rfl
  rw [Parts.relative, hpath]
  rfl

/-- A returned path stays, unless an empty segment comes to its front. -/
theorem stays_of_checked (h : checked value = true) (hfront : ¬ EmptyFront value)
    (parseAuthority : List Char → Option Origin) :
    Stays parseAuthority (readParts (prepare value).tail).relative := by
  have hnormal := normal_readParts (prepare value).tail
  have hone := oneSlash_relative hnormal fun hpath => hfront (emptyFront_path.mpr hpath)
  have hpass := checked_relative hnormal hone fun hmem => no_backslash h _ hmem rfl
  exact {
    oneSlash := hone
    sameOrigin := fun origin => ⟨_, resolve_checked hpass parseAuthority origin, rfl⟩
    stable := by rw [safeNextPath_checked hpass, relative_relative hnormal hone] }

end Returned

/-- What is returned for a value stays on the site and is returned for itself, if no empty segment
comes to the front of the value's path; a normalised path is returned as it is exactly if it has no
backslash. -/
theorem safeNextPath_stays (parseAuthority : List Char → Option Origin) (value : Str) :
    (¬ EmptyFront value → ∀ p, safeNextPath parseAuthority (.string value) = some p →
      Stays parseAuthority p) ∧
    (Normalised parseAuthority value →
      (safeNextPath parseAuthority (.string value) = some value ↔ (0x5C : CodeUnit) ∉ value)) := by
  constructor
  · intro hfront p hp
    have hchecked := checked_of_safeNextPath hp
    rw [safeNextPath_checked hchecked] at hp
    rw [← Option.some.inj hp]
    exact stays_of_checked hchecked hfront parseAuthority
  · rintro ⟨hone, url, hresolve, -, htext⟩
    constructor
    · intro hsame
      exact (checked_iff.mp (checked_of_safeNextPath hsame)).2.2.1
    · intro hbackslash
      obtain ⟨cs, hparts⟩ : ∃ cs, url.parts = readParts cs := by
        unfold resolve at hresolve
        split at hresolve
        · cases hresolve
        · split at hresolve
          · cases hresolve
          · split at hresolve
            · obtain ⟨origin, -, rfl⟩ := Option.map_eq_some_iff.mp hresolve
              exact ⟨_, rfl⟩
            · rw [← Option.some.inj hresolve]
              exact ⟨_, rfl⟩
      have hnormal := normal_readParts cs
      rw [hparts] at htext
      rw [← htext] at hone hbackslash ⊢
      rw [safeNextPath_checked (checked_relative hnormal hone hbackslash),
        relative_relative hnormal hone]

/-- A dot segment in front of an empty one leads off the site; a backslash in a query is refused. -/
theorem dot_segment_leaves :
    safeNextPath (fun _ => none) (.string (text "/.//evil.test")) = some (text "//evil.test") ∧
      ¬ Stays (fun _ => none) (text "//evil.test") ∧
      safeNextPath (fun _ => none) (.string (text "/a?b=" ++ [0x5C])) = none ∧
      Normalised (fun _ => none) (text "/a?b=" ++ [0x5C]) := by
  refine ⟨by decide +kernel, fun h => ?_, by decide +kernel, ⟨rfl, ?_⟩, ?_⟩
  · exact (h.oneSlash.2 0x2F (by decide)).1 rfl
  · intro c hc
    obtain rfl : c = 0x61 := (Option.some.inj hc).symm
    decide
  · exact ⟨⟨BASE, ⟨[text "a"], some (text "b=" ++ [0x5C]), none⟩⟩, by decide +kernel, rfl,
      by decide +kernel⟩

end Strimz.AuthRedirect
