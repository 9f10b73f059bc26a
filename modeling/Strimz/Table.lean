import Mathlib.Data.List.Nodup
import Mathlib.Data.List.Perm.Basic

/-!
# Tables as lists of rows

A table is the list of its rows, in the order they were inserted, and each row has a key.
A statement is a map over the rows: `UPDATE … SET f WHERE p` applies `f` where `p` holds, and
`RETURNING` is the filter by `p`, mapped by `f`. An update that leaves the keys alone is read
row by row (`find_updateWhere`), and what it does to a count is what it does to the count of
the rows it returns (`countP_updateWhere`).
-/

namespace Table

variable {ρ κ : Type} {key : ρ → κ} {t : List ρ} {p q : ρ → Bool} {f : ρ → ρ} {r : ρ} {k : κ}

/-- `UPDATE … SET f WHERE p` -/
def updateWhere (p : ρ → Bool) (f : ρ → ρ) (t : List ρ) : List ρ :=
  t.map fun r => if p r then f r else r

/-- What the update returns. -/
def returning (p : ρ → Bool) (f : ρ → ρ) (t : List ρ) : List ρ := (t.filter p).map f

/-- An updated row is an old one, changed where the condition holds. -/
theorem mem_updateWhere (h : r ∈ updateWhere p f t) :
    ∃ r₀ ∈ t, r = if p r₀ then f r₀ else r₀ := by
  obtain ⟨r₀, h₀, hr⟩ := List.mem_map.mp h
  exact ⟨r₀, h₀, hr.symm⟩

theorem map_key_updateWhere (hf : ∀ r, key (f r) = key r) :
    (updateWhere p f t).map key = t.map key := by
  rw [updateWhere, List.map_map]
  refine List.map_congr_left fun r _ => ?_
  rw [Function.comp_apply]
  split
  · exact hf r
  · rfl

/-! ## Counts -/

theorem countP_updateWhere :
    (updateWhere p f t).countP q + (t.filter p).countP q =
      t.countP q + (t.filter p).countP (fun r => q (f r)) := by
  induction t with
  | nil => rfl
  | cons r t ih =>
      rw [updateWhere] at ih ⊢
      rw [List.map_cons, List.countP_cons, List.countP_cons, List.filter_cons]
      cases hp : p r with
      | false =>
          simp only [Bool.false_eq_true, if_false]
          omega
      | true =>
          simp only [if_true, List.countP_cons]
          omega

/-- An update after which the count's condition reads the same. -/
theorem countP_updateWhere_same (h : ∀ r, p r = true → q (f r) = q r) :
    (updateWhere p f t).countP q = t.countP q := by
  have hcount := countP_updateWhere (p := p) (q := q) (f := f) (t := t)
  have hsame : (t.filter p).countP (fun r => q (f r)) = (t.filter p).countP q := by
    refine List.countP_congr fun r hr => ?_
    rw [h r (List.mem_filter.mp hr).2]
  omega

/-! ## Rows by key -/

section Unique

variable (hu : (t.map key).Nodup)

include hu

theorem eq_of_key {a b : ρ} (ha : a ∈ t) (hb : b ∈ t) (h : key a = key b) : a = b :=
  List.inj_on_of_nodup_map hu ha hb h

/-- A statement about one key finds one row at most. -/
theorem filter_of_key (hp : ∀ r, p r = true → key r = k) :
    t.filter p = [] ∨ ∃ r ∈ t, p r = true ∧ t.filter p = [r] := by
  induction t with
  | nil => exact .inl rfl
  | cons r t ih =>
      rw [List.map_cons, List.nodup_cons] at hu
      cases hpr : p r with
      | true =>
          have hrest : t.filter p = [] := by
            refine List.filter_eq_nil_iff.mpr fun r' hr' hpr' => hu.1 ?_
            rw [hp r hpr, ← hp r' hpr']
            exact List.mem_map_of_mem hr'
          exact .inr ⟨r, List.mem_cons_self, hpr, by rw [List.filter_cons_of_pos hpr, hrest]⟩
      | false =>
          rw [List.filter_cons_of_neg (by simp [hpr])]
          rcases ih hu.2 with h | ⟨r', hr', hpr', h⟩
          · exact .inl h
          · exact .inr ⟨r', List.mem_cons_of_mem r hr', hpr', h⟩

/-- The count of one row. -/
theorem countP_of_key (hr : r ∈ t) (hpr : p r = true) (hp : ∀ r', p r' = true → key r' = key r) :
    t.countP p = 1 := by
  rw [List.countP_eq_length_filter]
  rcases filter_of_key hu hp with h | ⟨r', -, -, h⟩
  · exact absurd hpr (List.filter_eq_nil_iff.mp h r hr)
  · rw [h, List.length_singleton]

end Unique

variable [DecidableEq κ]

/-- `findUnique` -/
def find (key : ρ → κ) (t : List ρ) (k : κ) : Option ρ := t.find? fun r => key r = k

theorem find_eq_some (h : find key t k = some r) : r ∈ t ∧ key r = k :=
  ⟨List.mem_of_find?_eq_some h, by simpa using List.find?_some h⟩

theorem find_eq_none : find key t k = none ↔ ∀ r ∈ t, key r ≠ k := by
  simp [find]

theorem find_of_mem (hu : (t.map key).Nodup) (h : r ∈ t) : find key t (key r) = some r := by
  cases hf : find key t (key r) with
  | none => exact absurd rfl (find_eq_none.mp hf r h)
  | some r' =>
      obtain ⟨hr', hk⟩ := find_eq_some hf
      rw [eq_of_key hu hr' h hk]

theorem find_concat :
    find key (t ++ [r]) k = (find key t k).or (if key r = k then some r else none) := by
  rw [find, List.find?_append]
  congr 1
  by_cases h : key r = k
  · simp [h]
  · simp [h]

theorem find_map {g : ρ → ρ} (hg : ∀ r ∈ t, key (g r) = key r) :
    find key (t.map g) k = (find key t k).map g := by
  induction t with
  | nil => rfl
  | cons r t ih =>
      have hrest := ih fun r' hr' => hg r' (List.mem_cons_of_mem r hr')
      have hkey := hg r List.mem_cons_self
      unfold find at hrest ⊢
      by_cases hr : key r = k
      · simp [hkey, hr]
      · simp [hkey, hr, hrest]

theorem find_updateWhere (hf : ∀ r, key (f r) = key r) :
    find key (updateWhere p f t) k =
      (find key t k).map fun r => if p r then f r else r := by
  refine find_map fun r _ => ?_
  split
  · exact hf r
  · rfl

/-! ## What a statement makes of a table -/

/-- Every row moves by `R`, and a row of `N` with a fresh key may come in at the end. -/
def Steps (key : ρ → κ) (R : ρ → ρ → Prop) (N : ρ → Prop) (t t' : List ρ) : Prop :=
  ∃ g, (∀ r ∈ t, R r (g r)) ∧ (t' = t.map g ∨
    ∃ r, N r ∧ find key t (key r) = none ∧ t' = t.map g ++ [r])

namespace Steps

variable {R : ρ → ρ → Prop} {N : ρ → Prop} {t' : List ρ}

section Intro

variable (hR : ∀ r, R r r)

include hR

theorem same : Steps key R N t t :=
  ⟨id, fun r _ => hR r, .inl (List.map_id t).symm⟩

theorem update (h : ∀ r, p r = true → R r (f r)) : Steps key R N t (updateWhere p f t) := by
  refine ⟨fun r => if p r then f r else r, fun r _ => ?_, .inl rfl⟩
  dsimp only
  split
  · exact h r ‹_›
  · exact hR r

theorem insert (hN : N r) (hr : find key t (key r) = none) :
    Steps key R N t (t ++ [r]) :=
  ⟨id, fun r _ => hR r, .inr ⟨r, hN, hr, by rw [List.map_id]⟩⟩

end Intro

variable (h : Steps key R N t t')

include h

theorem mono {R' : ρ → ρ → Prop} {N' : ρ → Prop} (hR : ∀ r ∈ t, ∀ r', R r r' → R' r r')
    (hN : ∀ r, N r → N' r) : Steps key R' N' t t' := by
  obtain ⟨g, hg, hrows⟩ := h
  exact ⟨g, fun r hr => hR r hr (g r) (hg r hr),
    hrows.imp_right fun ⟨r, hr, hnone, h⟩ => ⟨r, hN r hr, hnone, h⟩⟩

/-- A count whose condition no move changes and no new row meets. -/
theorem countP_eq (hR : ∀ r r', R r r' → q r' = q r) (hN : ∀ r, N r → q r = false) :
    t'.countP q = t.countP q := by
  obtain ⟨g, hg, hrows⟩ := h
  have hold : (t.map g).countP q = t.countP q := by
    rw [List.countP_map]
    exact List.countP_congr fun r hr => by rw [Function.comp_apply, hR r (g r) (hg r hr)]
  rcases hrows with rfl | ⟨r, hr, -, rfl⟩
  · exact hold
  · rw [List.countP_append, hold, List.countP_singleton, hN r hr]
    rfl

theorem mem_back (hr : r ∈ t') :
    (∃ r₀ ∈ t, R r₀ r) ∨ N r ∧ find key t (key r) = none := by
  obtain ⟨g, hg, hrows⟩ := h
  have hold : r ∈ t.map g → ∃ r₀ ∈ t, R r₀ r := by
    intro hr
    obtain ⟨r₀, h₀, rfl⟩ := List.mem_map.mp hr
    exact ⟨r₀, h₀, hg r₀ h₀⟩
  rcases hrows with rfl | ⟨r', hN, hnone, rfl⟩
  · exact .inl (hold hr)
  · rcases List.mem_append.mp hr with hr | hr
    · exact .inl (hold hr)
    · obtain rfl := List.mem_singleton.mp hr
      exact .inr ⟨hN, hnone⟩

variable (hkey : ∀ r r', R r r' → key r' = key r)

include hkey

theorem nodup (hu : (t.map key).Nodup) : (t'.map key).Nodup := by
  obtain ⟨g, hg, hrows⟩ := h
  have hkeys : (t.map g).map key = t.map key := by
    rw [List.map_map]
    exact List.map_congr_left fun r hr => hkey r (g r) (hg r hr)
  rcases hrows with rfl | ⟨r, -, hnone, rfl⟩
  · rwa [hkeys]
  · rw [List.map_append, hkeys, List.nodup_append]
    refine ⟨hu, List.nodup_singleton _, fun k hk k' hk' => ?_⟩
    obtain ⟨r', hr', rfl⟩ := List.mem_map.mp hk
    obtain rfl : k' = key r := by simpa using hk'
    exact find_eq_none.mp hnone r' hr'

theorem find_some (hr : find key t k = some r) : ∃ r', find key t' k = some r' ∧ R r r' := by
  obtain ⟨g, hg, hrows⟩ := h
  have hold : find key (t.map g) k = some (g r) := by
    rw [find_map fun r' hr' => hkey r' (g r') (hg r' hr'), hr, Option.map_some]
  refine ⟨g r, ?_, hg r (find_eq_some hr).1⟩
  rcases hrows with rfl | ⟨r', -, -, rfl⟩
  · exact hold
  · rw [find_concat, hold, Option.some_or]

theorem find_back (hr : find key t' k = some r) :
    (∃ r₀, find key t k = some r₀ ∧ R r₀ r) ∨ N r ∧ find key t k = none := by
  cases h₀ : find key t k with
  | some r₀ =>
      obtain ⟨r', hr', hR⟩ := find_some h hkey h₀
      obtain rfl : r' = r := Option.some.inj (hr'.symm.trans hr)
      exact .inl ⟨r₀, rfl, hR⟩
  | none =>
      obtain ⟨hmem, hk⟩ := find_eq_some hr
      rcases mem_back h hmem with ⟨r₀, hr₀, hR⟩ | ⟨hN, -⟩
      · exact absurd ((hkey r₀ r hR).symm.trans hk) (find_eq_none.mp h₀ r₀ hr₀)
      · exact .inr ⟨hN, rfl⟩

end Steps

/-! ## Once per row -/

/-- What is counted by key happened once at most, and only to rows that are `closed`. -/
def OncePerRow (key : ρ → κ) (closed : ρ → Prop) (t : List ρ) (c : κ → Nat) : Prop :=
  ∀ k, c k ≤ 1 ∧ (0 < c k → ∃ r, find key t k = some r ∧ closed r)

section Once

variable {closed : ρ → Prop} {t' : List ρ} {c c' d : κ → Nat}

/-- What a step adds: one, to a row that it closes. -/
def Closes (key : ρ → κ) (closed : ρ → Prop) (t t' : List ρ) (d : κ → Nat) : Prop :=
  ∀ k, 0 < d k → d k = 1 ∧ (∃ r, find key t k = some r ∧ ¬ closed r) ∧
    ∃ r, find key t' k = some r ∧ closed r

theorem OncePerRow.step (h : OncePerRow key closed t c)
    (hstays : ∀ k r, find key t k = some r → closed r → ∃ r', find key t' k = some r' ∧ closed r')
    (hnew : Closes key closed t t' d) (hc : ∀ k, c' k = c k + d k) :
    OncePerRow key closed t' c' := by
  intro k
  rw [hc k]
  rcases Nat.eq_zero_or_pos (d k) with hd | hd
  · rw [hd]
    refine ⟨(h k).1, fun hk => ?_⟩
    obtain ⟨r, hr, hclosed⟩ := (h k).2 hk
    exact hstays k r hr hclosed
  · obtain ⟨hone, ⟨r, hr, hopen⟩, hclosed⟩ := hnew k hd
    have hzero : c k = 0 := by
      by_contra hk
      obtain ⟨r', hr', hclosed'⟩ := (h k).2 (Nat.pos_of_ne_zero hk)
      obtain rfl : r' = r := Option.some.inj (hr'.symm.trans hr)
      exact hopen hclosed'
    exact ⟨by omega, fun _ => hclosed⟩

/-- An update that closes open rows, counted by the keys it returns. -/
theorem closes_returning (hu : (t.map key).Nodup) (hf : ∀ r, key (f r) = key r)
    (hopen : ∀ r ∈ t, p r = true → ¬ closed r) (hclosed : ∀ r, closed (f r)) :
    Closes key closed t (updateWhere p f t)
      fun k => (returning p f t).countP fun r => key r = k := by
  intro k hk
  have hcount : (returning p f t).countP (fun r => key r = k) =
      t.countP fun r => key r = k ∧ p r := by
    rw [returning, List.countP_map, List.countP_filter]
    refine List.countP_congr fun r _ => ?_
    simp [hf r]
  dsimp only at hk ⊢
  rw [hcount] at hk ⊢
  obtain ⟨r, hr, hrk⟩ := List.countP_pos_iff.mp hk
  obtain ⟨rfl, hp⟩ := of_decide_eq_true hrk
  have hfind := find_of_mem hu hr
  refine ⟨countP_of_key hu hr hrk fun r' h => (of_decide_eq_true h).1, ⟨r, hfind, hopen r hr hp⟩,
    f r, ?_, hclosed r⟩
  rw [find_updateWhere hf, hfind, Option.map_some, if_pos hp]

end Once

end Table
