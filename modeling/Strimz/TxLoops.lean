import Strimz.Tx

/-!
# Loops of transactions

What a loop `l.forM f` leaves behind, from what one pass of its body does: a property that every
pass preserves, a property of each element that its own pass establishes and the others preserve,
and checks that change nothing.
-/

namespace Tx

variable {ε σ α β : Type}

/-- Whenever it succeeds, `P` still holds. -/
def Preserves (P : σ → Prop) (m : Tx ε σ α) : Prop := ∀ s a s', m s = .ok (a, s') → P s → P s'

section Preserves

variable {P : σ → Prop}

theorem preserves_pure {a : α} : Preserves P (pure a : Tx ε σ α) := by
  intro s b s' h hP
  obtain ⟨-, rfl⟩ := Prod.mk.inj (pure_eq_ok.mp h)
  exact hP

theorem preserves_get : Preserves P (get : Tx ε σ σ) := by
  intro s b s' h hP
  obtain ⟨-, rfl⟩ := Prod.mk.inj (get_eq_ok.mp h)
  exact hP

theorem preserves_modify {f : σ → σ} (hf : ∀ s, P s → P (f s)) :
    Preserves P (modify f : Tx ε σ Unit) := by
  intro s b s' h hP
  obtain ⟨-, rfl⟩ := Prod.mk.inj (modify_eq_ok.mp h)
  exact hf s hP

theorem preserves_revertIf {c : Prop} [Decidable c] {e : ε} :
    Preserves P (revertIf c e : Tx ε σ Unit) := by
  intro s b s' h hP
  obtain ⟨-, h⟩ := revertIf_eq_ok.mp h
  obtain ⟨-, rfl⟩ := Prod.mk.inj h
  exact hP

theorem preserves_bind {x : Tx ε σ α} {f : α → Tx ε σ β} (hx : Preserves P x)
    (hf : ∀ a, Preserves P (f a)) : Preserves P (x >>= f) := by
  intro s b s' h hP
  obtain ⟨a, s₁, h₁, h₂⟩ := bind_eq_ok.mp h
  exact hf a s₁ b s' h₂ (hx s a s₁ h₁ hP)

theorem preserves_ite {c : Prop} [Decidable c] {x y : Tx ε σ α} (hx : c → Preserves P x)
    (hy : ¬ c → Preserves P y) : Preserves P (if c then x else y) := by
  by_cases hc : c
  · rw [if_pos hc]
    exact hx hc
  · rw [if_neg hc]
    exact hy hc

theorem preserves_forM {l : List α} {f : α → Tx ε σ PUnit} (hf : ∀ a ∈ l, Preserves P (f a)) :
    Preserves P (forM l f) := by
  induction l with
  | nil => exact preserves_pure
  | cons a l ih =>
      rw [List.forM_cons]
      exact preserves_bind (hf a List.mem_cons_self)
        fun _ => ih fun b hb => hf b (List.mem_cons_of_mem _ hb)

end Preserves

/-- What the pass of each element establishes, and every pass preserves, holds of all of them. -/
theorem forM_establishes {Q : α → σ → Prop} {l : List α} {f : α → Tx ε σ PUnit} {s s' : σ}
    (hown : ∀ a ∈ l, ∀ s u s', f a s = .ok (u, s') → Q a s')
    (hothers : ∀ a ∈ l, ∀ b ∈ l, Preserves (Q a) (f b)) (h : forM l f s = .ok (⟨⟩, s')) :
    ∀ a ∈ l, Q a s' := by
  induction l generalizing s with
  | nil =>
      intro a ha
      cases ha
  | cons b l ih =>
      rw [List.forM_cons] at h
      obtain ⟨u, s₁, h₁, h₂⟩ := bind_eq_ok.mp h
      have hrest : ∀ a ∈ b :: l, Preserves (Q a) (forM l f) := fun a ha =>
        preserves_forM fun c hc => hothers a ha c (List.mem_cons_of_mem _ hc)
      intro a ha
      rcases List.mem_cons.mp ha with rfl | htail
      · exact hrest a ha s₁ _ s' h₂ (hown a ha s u s₁ h₁)
      · exact ih (fun c hc => hown c (List.mem_cons_of_mem _ hc))
          (fun c hc d hd => hothers c (List.mem_cons_of_mem _ hc) d (List.mem_cons_of_mem _ hd))
          h₂ a htail

/-- A loop of checks: it changes nothing, and every check has passed. -/
theorem forM_checks {l : List α} {f : α → Tx ε σ PUnit} {s s' : σ}
    (hview : ∀ a ∈ l, ∀ s u s', f a s = .ok (u, s') → s' = s) (h : forM l f s = .ok (⟨⟩, s')) :
    s' = s ∧ ∀ a ∈ l, f a s = .ok (⟨⟩, s) := by
  induction l generalizing s with
  | nil =>
      obtain ⟨-, rfl⟩ := Prod.mk.inj (pure_eq_ok.mp h)
      exact ⟨rfl, fun a ha => by cases ha⟩
  | cons b l ih =>
      rw [List.forM_cons] at h
      obtain ⟨u, s₁, h₁, h₂⟩ := bind_eq_ok.mp h
      obtain rfl := hview b List.mem_cons_self s u s₁ h₁
      obtain ⟨rfl, hall⟩ := ih (fun c hc => hview c (List.mem_cons_of_mem _ hc)) h₂
      exact ⟨rfl, List.forall_mem_cons.mpr ⟨h₁, hall⟩⟩

end Tx
