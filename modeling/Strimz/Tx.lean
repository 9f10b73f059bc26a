import Mathlib.Tactic

/-!
# Transactions with rollback

The generic layer under every contract model, independent of any
particular contract. A transaction is a state transformer that either
returns a value and a new state, or reverts with a reason; a revert
carries no state, so whatever the body wrote is gone (`attempt`, the
`try`/`catch` of a caller, resumes from the state before the body).

A contract call runs over `Ctx σ ξ`: its own storage and everything
outside it. Views read the outside (`staticcall`), calls may change it
(`call`); both can revert.

The `_eq_ok` lemmas are the inversion rules: a transaction written in
`do` notation succeeded iff each of its lines did. They are stated as
equivalences, so the same rules take a successful run apart and put one
together.
-/

/-- A transaction over state `σ` that may revert with reason `ε`. -/
abbrev Tx (ε σ α : Type) := StateT σ (Except ε) α

namespace Tx

variable {ε σ ξ α β : Type}

/-- `if (c) revert e;` -/
def revertIf (c : Prop) [Decidable c] (e : ε) : Tx ε σ Unit :=
  if c then throw e else pure ()

/-- `try body catch`: the result of the body, or its revert reason and
the state it started from. -/
def attempt (body : Tx ε σ α) : Tx ε σ (Except ε α) := fun s =>
  match body s with
  | .ok (a, s') => .ok (.ok a, s')
  | .error e => .ok (.error e, s)

/-! ## Inversion -/

theorem bind_eq_ok {x : Tx ε σ α} {f : α → Tx ε σ β} {s : σ} {r : β × σ} :
    (x >>= f) s = .ok r ↔ ∃ a s₁, x s = .ok (a, s₁) ∧ f a s₁ = .ok r := by
  show (x s >>= fun p => f p.1 p.2) = .ok r ↔ _
  cases hx : x s with
  | error e => simp [bind, Except.bind]
  | ok p =>
      obtain ⟨a, s₁⟩ := p
      simp only [bind, Except.bind, Except.ok.injEq, Prod.mk.injEq]
      constructor
      · intro h
        exact ⟨a, s₁, ⟨rfl, rfl⟩, h⟩
      · rintro ⟨_, _, ⟨rfl, rfl⟩, h⟩
        exact h

theorem pure_eq_ok {a : α} {s : σ} {r : α × σ} :
    (pure a : Tx ε σ α) s = .ok r ↔ r = (a, s) := by
  show Except.ok (a, s) = .ok r ↔ _
  rw [Except.ok.injEq, eq_comm]

theorem throw_eq_ok {e : ε} {s : σ} {r : α × σ} :
    (throw e : Tx ε σ α) s = .ok r ↔ False := by
  show Except.error e = .ok r ↔ _
  simp

theorem get_eq_ok {s : σ} {r : σ × σ} :
    (get : Tx ε σ σ) s = .ok r ↔ r = (s, s) := by
  show Except.ok (s, s) = .ok r ↔ _
  rw [Except.ok.injEq, eq_comm]

theorem modify_eq_ok {f : σ → σ} {s : σ} {r : Unit × σ} :
    (modify f : Tx ε σ Unit) s = .ok r ↔ r = ((), f s) := by
  show Except.ok ((), f s) = .ok r ↔ _
  rw [Except.ok.injEq, eq_comm]

theorem revertIf_eq_ok {c : Prop} [Decidable c] {e : ε} {s : σ} {r : Unit × σ} :
    revertIf c e s = .ok r ↔ ¬ c ∧ r = ((), s) := by
  unfold revertIf
  split
  · rename_i hc
    simp [throw_eq_ok, hc]
  · rename_i hc
    simp [pure_eq_ok, hc]

theorem ite_eq_ok {c : Prop} [Decidable c] {x y : Tx ε σ α} {s : σ} {r : α × σ} :
    (if c then x else y) s = .ok r ↔ c ∧ x s = .ok r ∨ ¬ c ∧ y s = .ok r := by
  by_cases hc : c <;> simp [hc]

theorem attempt_eq_ok {body : Tx ε σ α} {s : σ} {r : Except ε α × σ} :
    attempt body s = .ok r ↔
      (∃ a s', body s = .ok (a, s') ∧ r = (.ok a, s')) ∨
        ∃ e, body s = .error e ∧ r = (.error e, s) := by
  unfold attempt
  cases body s with
  | error e => simp [eq_comm]
  | ok p =>
      obtain ⟨a, s'⟩ := p
      constructor
      · intro h
        exact Or.inl ⟨a, s', rfl, (Except.ok.inj h).symm⟩
      · rintro (⟨_, _, h, rfl⟩ | ⟨_, h, _⟩)
        · rw [Except.ok.injEq, Prod.mk.injEq] at h
          obtain ⟨rfl, rfl⟩ := h
          rfl
        · cases h

theorem drop_eq_ok {m : Tx ε σ α} {s s' : σ} :
    (m >>= fun _ => pure ()) s = .ok ((), s') ↔ ∃ a, m s = .ok (a, s') := by
  simp only [bind_eq_ok, pure_eq_ok, Prod.mk.injEq, true_and]
  exact ⟨fun ⟨a, s₁, h, hs⟩ => ⟨a, hs ▸ h⟩, fun ⟨a, h⟩ => ⟨a, s', h, rfl⟩⟩

/-- A caught body never makes its caller revert. -/
theorem attempt_ok (body : Tx ε σ α) (s : σ) : ∃ r, attempt body s = .ok r := by
  unfold attempt
  cases body s with
  | error e => exact ⟨_, rfl⟩
  | ok p => exact ⟨_, rfl⟩

/-- A success can be had by evaluation alone. -/
theorem exists_of_isOk {m : Tx ε σ α} {s : σ} (h : (m s).isOk = true) :
    ∃ a s', m s = .ok (a, s') := by
  cases hm : m s with
  | error e => rw [hm] at h; cases h
  | ok r => exact ⟨r.1, r.2, rfl⟩

/-! ## Reverting only with some reasons -/

/-- If the transaction reverts, then not with one of the reasons `bad`. -/
def Avoids (bad : ε → Prop) (m : Tx ε σ α) (s : σ) : Prop := ∀ e, m s = .error e → ¬ bad e

section Avoids

variable {bad : ε → Prop} {s : σ}

theorem avoids_of_ok {m : Tx ε σ α} {r : α × σ} (h : m s = .ok r) : Avoids bad m s := by
  intro e he
  rw [h] at he
  cases he

theorem avoids_bind {x : Tx ε σ α} {f : α → Tx ε σ β} :
    Avoids bad (x >>= f) s ↔
      Avoids bad x s ∧ ∀ a s', x s = .ok (a, s') → Avoids bad (f a) s' := by
  have hbind : (x >>= f) s = (x s >>= fun p => f p.1 p.2) := rfl
  unfold Avoids
  rw [hbind]
  cases hx : x s with
  | error e => simp [bind, Except.bind]
  | ok r =>
      obtain ⟨a, s₁⟩ := r
      constructor
      · refine fun h => ⟨by rintro _ ⟨⟩, ?_⟩
        rintro _ _ ⟨⟩
        exact h
      · exact fun h => h.2 a s₁ rfl

/-- A first line that is known: it succeeds iff `G`, with one result, and avoids `bad` iff `G`. -/
theorem avoids_bind_of {x : Tx ε σ α} {f : α → Tx ε σ β} {G : Prop} {a : α} {s' : σ}
    (hsafe : Avoids bad x s ↔ G) (hok : ∀ r, x s = .ok r ↔ G ∧ r = (a, s')) :
    Avoids bad (x >>= f) s ↔ G ∧ Avoids bad (f a) s' := by
  rw [avoids_bind, hsafe]
  refine and_congr_right fun hG => ⟨fun h => h a s' ((hok _).mpr ⟨hG, rfl⟩), fun h b s₁ hb => ?_⟩
  obtain ⟨rfl, rfl⟩ := Prod.mk.inj ((hok _).mp hb).2
  exact h

theorem avoids_pure {a : α} : Avoids bad (pure a : Tx ε σ α) s := avoids_of_ok (r := (a, s)) rfl

theorem avoids_throw {e : ε} : Avoids bad (throw e : Tx ε σ α) s ↔ ¬ bad e := by
  constructor
  · exact fun h => h e rfl
  · rintro h _ ⟨⟩
    exact h

theorem avoids_get : Avoids bad (get : Tx ε σ σ) s := avoids_of_ok (r := (s, s)) rfl

theorem avoids_modify {f : σ → σ} : Avoids bad (modify f : Tx ε σ Unit) s :=
  avoids_of_ok (r := ((), f s)) rfl

theorem avoids_revertIf {c : Prop} [Decidable c] {e : ε} :
    Avoids bad (revertIf c e : Tx ε σ Unit) s ↔ (c → ¬ bad e) := by
  unfold revertIf
  split
  · rename_i hc
    simp [avoids_throw, hc]
  · rename_i hc
    simp [avoids_pure, hc]

theorem avoids_get_bind {f : σ → Tx ε σ β} : Avoids bad (get >>= f) s ↔ Avoids bad (f s) s := by
  rw [avoids_bind_of (G := True) (iff_true_intro avoids_get) fun r => by
    rw [get_eq_ok, true_and], true_and]

theorem avoids_modify_bind {g : σ → σ} {f : Unit → Tx ε σ β} :
    Avoids bad ((modify g : Tx ε σ Unit) >>= f) s ↔ Avoids bad (f ()) (g s) := by
  rw [avoids_bind_of (G := True) (iff_true_intro avoids_modify) fun r => by
    rw [modify_eq_ok, true_and], true_and]

theorem avoids_revertIf_bind {c : Prop} [Decidable c] {e : ε} {f : Unit → Tx ε σ β} :
    Avoids bad (revertIf c e >>= f) s ↔ (c → ¬ bad e) ∧ (¬ c → Avoids bad (f ()) s) := by
  rw [avoids_bind, avoids_revertIf]
  refine and_congr_right fun _ => ⟨fun h hc => h () s (revertIf_eq_ok.mpr ⟨hc, rfl⟩), ?_⟩
  intro h a s' hok
  obtain ⟨hc, heq⟩ := revertIf_eq_ok.mp hok
  obtain ⟨rfl, rfl⟩ := Prod.mk.inj heq
  exact h hc

theorem avoids_ite {c : Prop} [Decidable c] {x y : Tx ε σ α} :
    Avoids bad (if c then x else y) s ↔ (c → Avoids bad x s) ∧ (¬ c → Avoids bad y s) := by
  by_cases hc : c <;> simp [hc]

/-- A transaction that avoids every reason but the good ones succeeds or reverts with one. -/
theorem avoids_iff {m : Tx ε σ α} :
    Avoids bad m s ↔ (∃ r, m s = .ok r) ∨ ∃ e, m s = .error e ∧ ¬ bad e := by
  unfold Avoids
  cases m s with
  | error e => simp
  | ok r => simp

end Avoids

/-! ## Leaving a part of the state alone -/

/-- Whenever the transaction succeeds, the part of the state that `part` reads is as before. -/
def Keeps {π : Type} (part : σ → π) (m : Tx ε σ α) : Prop :=
  ∀ s r, m s = .ok r → part r.2 = part s

section Keeps

variable {π : Type} {part : σ → π}

theorem keeps_pure {a : α} : Keeps part (pure a : Tx ε σ α) := by
  intro s r h
  rw [pure_eq_ok.mp h]

theorem keeps_throw {e : ε} : Keeps part (throw e : Tx ε σ α) := by
  intro s r h
  exact absurd h (by simp [throw_eq_ok])

theorem keeps_get : Keeps part (get : Tx ε σ σ) := by
  intro s r h
  rw [get_eq_ok.mp h]

theorem keeps_modify {f : σ → σ} (h : ∀ s, part (f s) = part s) :
    Keeps part (modify f : Tx ε σ Unit) := by
  intro s r hr
  rw [modify_eq_ok.mp hr]
  exact h s

theorem keeps_revertIf {c : Prop} [Decidable c] {e : ε} :
    Keeps part (revertIf c e : Tx ε σ Unit) := by
  intro s r h
  rw [(revertIf_eq_ok.mp h).2]

theorem keeps_bind {x : Tx ε σ α} {f : α → Tx ε σ β} (hx : Keeps part x)
    (hf : ∀ a, Keeps part (f a)) : Keeps part (x >>= f) := by
  intro s r h
  obtain ⟨a, s₁, hxs, hfs⟩ := bind_eq_ok.mp h
  exact (hf a s₁ r hfs).trans (hx s _ hxs)

theorem keeps_ite {c : Prop} [Decidable c] {x y : Tx ε σ α} (hx : Keeps part x)
    (hy : Keeps part y) : Keeps part (if c then x else y) := by
  split
  · exact hx
  · exact hy

end Keeps

/-! ## A transaction as a step -/

/-- The state a transaction leaves behind: a revert leaves the old one. -/
def commit (m : Tx ε σ α) (s : σ) : σ :=
  match m s with
  | .ok (_, s') => s'
  | .error _ => s

theorem commit_of_ok {m : Tx ε σ α} {s s' : σ} {a : α} (h : m s = .ok (a, s')) :
    commit m s = s' := by
  rw [commit, h]

theorem commit_of_error {m : Tx ε σ α} {s : σ} {e : ε} (h : m s = .error e) :
    commit m s = s := by
  rw [commit, h]

/-- What holds of every success and of doing nothing holds of the step. -/
theorem commit_cases {m : Tx ε σ α} {s : σ} {P : σ → Prop} (hrevert : P s)
    (hok : ∀ a s', m s = .ok (a, s') → P s') : P (commit m s) := by
  cases h : m s with
  | error e => rwa [commit_of_error h]
  | ok r => rw [commit_of_ok h]; exact hok r.1 r.2 h

/-! ## A transaction on a part of the state -/

/-- Run a transaction on the part of the state that `get` reads and `set` writes. -/
def zoom {ρ : Type} (get : σ → ρ) (set : ρ → σ → σ) (m : Tx ε ρ α) : Tx ε σ α := fun s =>
  match m (get s) with
  | .ok (a, r) => .ok (a, set r s)
  | .error e => .error e

theorem zoom_eq_ok {ρ : Type} {get : σ → ρ} {set : ρ → σ → σ} {m : Tx ε ρ α} {s s' : σ} {a : α} :
    zoom get set m s = .ok (a, s') ↔ ∃ r, m (get s) = .ok (a, r) ∧ s' = set r s := by
  unfold zoom
  cases m (get s) with
  | error e => simp
  | ok r => simp [Prod.ext_iff, eq_comm]

/-! ## A contract and its outside -/

/-- A contract's own storage and everything outside it. -/
structure Ctx (σ ξ : Type) where
  storage : σ
  ext : ξ

/-- Read the contract's own storage. -/
def sload : Tx ε (Ctx σ ξ) σ := do
  let c ← get
  return c.storage

/-- Write the contract's own storage. -/
def sstore (f : σ → σ) : Tx ε (Ctx σ ξ) Unit :=
  modify fun c => { c with storage := f c.storage }

/-- A view call: it reads the outside, its revert is the caller's. -/
def staticcall (view : ξ → Except ε α) : Tx ε (Ctx σ ξ) α := fun c =>
  match view c.ext with
  | .ok a => .ok (a, c)
  | .error e => .error e

/-- A call out: it may change the outside, never the caller's storage. -/
def call (f : ξ → Except ε ξ) : Tx ε (Ctx σ ξ) Unit := fun c =>
  match f c.ext with
  | .ok x => .ok ((), { c with ext := x })
  | .error e => .error e

/-- A call whose callee may call back: it may change the caller's storage too. -/
def reentrantCall (f : Ctx σ ξ → Except ε (Ctx σ ξ)) : Tx ε (Ctx σ ξ) Unit := fun c =>
  match f c with
  | .ok c' => .ok ((), c')
  | .error e => .error e

theorem sload_eq_ok {c : Ctx σ ξ} {r : σ × Ctx σ ξ} :
    (sload : Tx ε (Ctx σ ξ) σ) c = .ok r ↔ r = (c.storage, c) := by
  simp only [sload, bind_eq_ok, get_eq_ok, pure_eq_ok]
  constructor
  · rintro ⟨_, _, h, rfl⟩
    simp only [Prod.mk.injEq] at h
    obtain ⟨rfl, rfl⟩ := h
    rfl
  · rintro rfl
    exact ⟨c, c, rfl, rfl⟩

theorem sstore_eq_ok {f : σ → σ} {c : Ctx σ ξ} {r : Unit × Ctx σ ξ} :
    (sstore f : Tx ε (Ctx σ ξ) Unit) c = .ok r ↔
      r = ((), { c with storage := f c.storage }) :=
  modify_eq_ok

theorem staticcall_eq_ok {view : ξ → Except ε α} {c : Ctx σ ξ} {r : α × Ctx σ ξ} :
    staticcall view c = .ok r ↔ ∃ a, view c.ext = .ok a ∧ r = (a, c) := by
  unfold staticcall
  cases view c.ext with
  | error e => simp
  | ok a => simp [eq_comm]

theorem staticcall_eq_error {view : ξ → Except ε α} {c : Ctx σ ξ} {e : ε} :
    staticcall view c = .error e ↔ view c.ext = .error e := by
  unfold staticcall
  cases view c.ext <;> simp

theorem call_eq_ok {f : ξ → Except ε ξ} {c : Ctx σ ξ} {r : Unit × Ctx σ ξ} :
    call f c = .ok r ↔ ∃ x, f c.ext = .ok x ∧ r = ((), { c with ext := x }) := by
  unfold call
  cases f c.ext with
  | error e => simp
  | ok x => simp [eq_comm]

theorem reentrantCall_eq_ok {f : Ctx σ ξ → Except ε (Ctx σ ξ)} {c : Ctx σ ξ}
    {r : Unit × Ctx σ ξ} : reentrantCall f c = .ok r ↔ ∃ c', f c = .ok c' ∧ r = ((), c') := by
  unfold reentrantCall
  cases f c with
  | error e => simp
  | ok c' => simp [eq_comm]

end Tx
