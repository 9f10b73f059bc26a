import Mathlib.Data.List.Perm.Basic

/-!
# Lists of what is under way

A machine that interleaves handlers keeps the ones under way in a list and steps the `k`-th:
it leaves the list and comes back at the end as what it has become. These are the counts and
memberships of such a step.
-/

namespace InFlight

variable {α : Type} {l : List α} {k : Nat} {a : α}

theorem perm_erase (h : l[k]? = some a) : l.Perm (a :: l.eraseIdx k) := by
  obtain ⟨hk, rfl⟩ := List.getElem?_eq_some_iff.mp h
  exact (List.getElem_cons_eraseIdx_perm hk).symm

/-- One handler less. -/
theorem countP_erase (h : l[k]? = some a) (p : α → Bool) :
    l.countP p = (l.eraseIdx k).countP p + if p a = true then 1 else 0 := by
  rw [(perm_erase h).countP_eq p, List.countP_cons]

theorem countP_erase_le (p : α → Bool) : (l.eraseIdx k).countP p ≤ l.countP p :=
  (List.eraseIdx_sublist l k).countP_le

/-- What the handlers show of themselves, without one of them. -/
theorem filterMap_erase {β : Type} (h : l[k]? = some a) (f : α → Option β) :
    ∃ before after, l.filterMap f = before ++ ((f a).toList ++ after) ∧
      (l.eraseIdx k).filterMap f = before ++ after := by
  obtain ⟨hk, rfl⟩ := List.getElem?_eq_some_iff.mp h
  refine ⟨(l.take k).filterMap f, (l.drop (k + 1)).filterMap f, ?_, ?_⟩
  · conv_lhs => rw [← List.take_append_drop k l, List.drop_eq_getElem_cons hk]
    rw [List.filterMap_append, List.filterMap_cons]
    cases f l[k] <;> rfl
  · rw [List.eraseIdx_eq_take_drop_succ, List.filterMap_append]

/-- A handler that moves on in place, seen from where it looks the same. -/
theorem countP_set (h : l[k]? = some a) {b : α} {p : α → Bool} (hp : p b = p a) :
    (l.set k b).countP p = l.countP p := by
  induction l generalizing k with
  | nil => rfl
  | cons x xs ih =>
      cases k with
      | zero =>
          obtain rfl : x = a := by simpa using h
          rw [List.set_cons_zero, List.countP_cons, List.countP_cons, hp]
      | succ k =>
          rw [List.set_cons_succ, List.countP_cons, List.countP_cons, ih (by simpa using h)]

/-- What holds of all handlers and of what one has become holds of all of them afterwards. -/
theorem forall_advance {P : α → Prop} (h : ∀ x ∈ l, P x) {b : α} (hb : P b) :
    ∀ x ∈ l.eraseIdx k ++ [b], P x := by
  intro x hx
  rcases List.mem_append.mp hx with hx | hx
  · exact h x (List.mem_of_mem_eraseIdx hx)
  · rw [List.mem_singleton.mp hx]
    exact hb

/-- A history grows at its end. -/
theorem getElem?_concat_cases {i : Nat} {x : α} (h : (l ++ [a])[i]? = some x) :
    l[i]? = some x ∨ i = l.length ∧ x = a := by
  rcases Nat.lt_or_ge i l.length with hlt | hge
  · rw [List.getElem?_append_left hlt] at h
    exact .inl h
  · rw [List.getElem?_append_right hge, List.getElem?_singleton] at h
    split at h
    · exact .inr ⟨by omega, (Option.some.inj h).symm⟩
    · cases h

end InFlight
