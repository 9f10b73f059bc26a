import Mathlib.Tactic

/-!
# Procedures that keep their effects

The generic layer under the indexer's loops, independent of any particular loop. Where a
`Tx` rolls back, a procedure that stops with a reason leaves the state it had reached, and
whoever called it goes on from there.

`wp m Q E s` says what a run of `m` from `s` comes to: `Q` of the value and the state if it
returns, `E` of the state if it stops. The `wp_` lemmas are one rule per statement, as
equations, so that simp reduces a procedure to what its calls owe.
-/

/-- A procedure over state `σ` that may stop with reason `ε`. -/
abbrev Proc (ε σ α : Type) := ExceptT ε (StateM σ) α

namespace Proc

variable {ε σ α β : Type}

def wp (m : Proc ε σ α) (Q : α → σ → Prop) (E : σ → Prop) (s : σ) : Prop :=
  match m.run s with
  | (.ok a, s') => Q a s'
  | (.error _, s') => E s'

variable {Q : α → σ → Prop} {E : σ → Prop} {s : σ}

@[simp] theorem wp_pure {a : α} : wp (pure a : Proc ε σ α) Q E s ↔ Q a s := Iff.rfl

@[simp] theorem wp_throw {e : ε} : wp (throw e : Proc ε σ α) Q E s ↔ E s := Iff.rfl

@[simp] theorem wp_get {Q : σ → σ → Prop} : wp (get : Proc ε σ σ) Q E s ↔ Q s s := Iff.rfl

@[simp] theorem wp_modify {Q : Unit → σ → Prop} {f : σ → σ} :
    wp (modify f : Proc ε σ Unit) Q E s ↔ Q () (f s) := Iff.rfl

@[simp] theorem wp_bind {m : Proc ε σ α} {f : α → Proc ε σ β} {Q : β → σ → Prop} :
    wp (m >>= f) Q E s ↔ wp m (fun a s' => wp (f a) Q E s') E s := by
  have hbind : (m >>= f).run s = match m.run s with
      | (.ok a, s') => (f a).run s'
      | (.error e, s') => (.error e, s') := by
    show (m.run >>= ExceptT.bindCont f) s = _
    show (match m.run s with | (r, s') => ExceptT.bindCont f r s') = _
    rcases m.run s with ⟨_ | _, _⟩ <;> rfl
  unfold wp
  rw [hbind]
  rcases m.run s with ⟨_ | _, _⟩ <;> rfl

@[simp] theorem wp_map {m : Proc ε σ α} {f : α → β} {Q : β → σ → Prop} :
    wp (f <$> m) Q E s ↔ wp m (fun a s' => Q (f a) s') E s := by
  rw [map_eq_pure_bind, wp_bind]
  exact Iff.rfl

@[simp] theorem wp_ite {c : Prop} [Decidable c] {x y : Proc ε σ α} :
    wp (if c then x else y) Q E s ↔ (c → wp x Q E s) ∧ (¬ c → wp y Q E s) := by
  by_cases hc : c <;> simp [hc]

/-- What a call comes to is enough for its caller if it comes to more. -/
theorem wp_mono {m : Proc ε σ α} {Q' : α → σ → Prop} {E' : σ → Prop} (h : wp m Q E s)
    (hQ : ∀ a s', Q a s' → Q' a s') (hE : ∀ s', E s' → E' s') : wp m Q' E' s := by
  unfold wp at h ⊢
  split at h
  · exact hQ _ _ h
  · exact hE _ h

/-- The state a procedure leaves, returned or stopped. -/
def exec (m : Proc ε σ α) (s : σ) : σ := (m.run s).2

/-- What holds however the procedure ends holds of the state it leaves. -/
theorem exec_of_wp {m : Proc ε σ α} {I : σ → Prop} (h : wp m (fun _ => I) I s) : I (exec m s) := by
  unfold wp at h
  unfold exec
  split at h
  · rename_i heq
    rwa [heq]
  · rename_i heq
    rwa [heq]

end Proc
