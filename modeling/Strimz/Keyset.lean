import Mathlib.Data.List.Sort

/-!
# Keyset pagination

Rows are listed in the order of a key that no two of them share. A page is what comes after the
last key of the page before, so the pages one after the other are the whole list, whatever their
sizes are.
-/

namespace Keyset

variable {α κ : Type} [LinearOrder κ] (key : α → κ)

/-- The rows in the order of their keys. -/
def sorted (rows : List α) : List α := rows.insertionSort fun a b => key a ≤ key b

/-- The first `n` rows after a key. -/
def select (rows : List α) (after : Option κ) (n : ℕ) : List α :=
  (sorted key (rows.filter fun r => after.all fun k => k < key r)).take n

/-- No two rows share a key. -/
def Distinct (rows : List α) : Prop := ∀ a ∈ rows, ∀ b ∈ rows, key a = key b → a = b

section Sorting

variable {key} {rows : List α}

theorem mem_sorted {a : α} : a ∈ sorted key rows ↔ a ∈ rows :=
  List.mem_insertionSort _

theorem perm_sorted (rows : List α) : (sorted key rows).Perm rows := List.perm_insertionSort _ _

theorem pairwise_sorted (rows : List α) : (sorted key rows).Pairwise fun a b => key a ≤ key b :=
  List.pairwise_insertionSort _ _

/-- Rows that are listed once are in strict order. -/
theorem strict_sorted (hdistinct : Distinct key rows) (hnodup : rows.Nodup) :
    (sorted key rows).Pairwise fun a b => key a < key b := by
  have hne : (sorted key rows).Nodup := (perm_sorted rows).nodup_iff.mpr hnodup
  refine ((pairwise_sorted rows).and hne).imp_of_mem fun {a b} ha hb h => ?_
  refine lt_of_le_of_ne h.1 fun heq => h.2 ?_
  exact hdistinct a (mem_sorted.mp ha) b (mem_sorted.mp hb) heq

/-- Leaving rows out before sorting or after is the same. -/
theorem sorted_filter (hdistinct : Distinct key rows) (p : α → Bool) :
    sorted key (rows.filter p) = (sorted key rows).filter p := by
  have hperm : (sorted key (rows.filter p)).Perm ((sorted key rows).filter p) :=
    (perm_sorted _).trans ((perm_sorted rows).filter p).symm
  refine hperm.eq_of_pairwise ?_ (pairwise_sorted _) ((pairwise_sorted rows).filter p)
  intro a b ha hb hab hba
  refine hdistinct a ?_ b ?_ (le_antisymm hab hba)
  · exact List.mem_of_mem_filter (mem_sorted.mp ha)
  · exact mem_sorted.mp (List.mem_of_mem_filter hb)

/-- After the last key of what came before is what has not come yet. -/
theorem filter_after {before rest : List α} {last : α}
    (hstrict : (before ++ last :: rest).Pairwise fun a b => key a < key b) :
    (before ++ last :: rest).filter (fun r => decide (key last < key r)) = rest := by
  obtain ⟨-, hrest, hbefore⟩ := List.pairwise_append.mp hstrict
  rw [List.filter_append, List.filter_eq_nil_iff.mpr, List.nil_append, List.filter_cons,
    if_neg (by simp), List.filter_eq_self.mpr]
  · intro r hr
    exact decide_eq_true ((List.pairwise_cons.mp hrest).1 r hr)
  · intro r hr hlt
    exact lt_asymm (of_decide_eq_true hlt) (hbefore r hr last List.mem_cons_self)

/-- The rows selected after the last one listed so far are the next ones. -/
theorem select_after (hdistinct : Distinct key rows) (hnodup : rows.Nodup) {before rest : List α}
    {last : α} (hsorted : sorted key rows = before ++ last :: rest) (n : ℕ) :
    select key rows (some (key last)) n = rest.take n := by
  have hstrict := strict_sorted hdistinct hnodup
  rw [hsorted] at hstrict
  rw [select, sorted_filter hdistinct, hsorted]
  exact congrArg (List.take n) (filter_after hstrict)

theorem select_first (rows : List α) (n : ℕ) :
    select key rows none n = (sorted key rows).take n := by
  have hall : (rows.filter fun r => (none : Option κ).all fun k => decide (k < key r)) = rows :=
    List.filter_eq_self.mpr fun _ _ => rfl
  rw [select, hall]

end Sorting

end Keyset
