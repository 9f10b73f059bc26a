import Mathlib.Logic.Relation
import Strimz.ApiKeySteps
import Strimz.MerchantStatus

/-!
# Keys never gain authority

What a key holder can mint stays within the key: its merchant, its mode and its scopes, along
any chain of keys (`AuthorityKept.chain`). `rotate` is the one operation that goes wrong: it
reads the source in one statement and replaces it by id in another, without looking at
`revokedAt` in either, so a key that is revoked by then leaves a live key more. A run keeps the
keys' authority exactly when every rotation commits on a live source (`authority_kept_iff`).
-/

namespace Strimz.ApiKeys

open Indexer MerchantGuard Runs

/-! ## The invariant -/

/-- The key `c` was minted by a call that held the key `p`. -/
def MintedUnder (w : World) (p c : Nat) : Prop := (c, p) ∈ w.mints

/-- The rights of a minted row are within those of the other. -/
structure Within (row row' : ApiKeyRow) : Prop where
  merchantId : row'.merchantId = row.merchantId
  mode : row'.mode = row.mode
  scopes : row'.scopes ⊆ row.scopes

theorem Within.refl (row : ApiKeyRow) : Within row row := ⟨rfl, rfl, List.Subset.refl _⟩

theorem Within.trans {a b c : ApiKeyRow} (h : Within a b) (h' : Within b c) : Within a c :=
  ⟨h'.merchantId.trans h.merchantId, h'.mode.trans h.mode, List.Subset.trans h'.scopes h.scopes⟩

theorem Within.moves {a a' b b' : ApiKeyRow} (h : Within a b) (ha : Moves a a') (hb : Moves b b') :
    Within a' b' where
  merchantId := by rw [ha.merchantId, hb.merchantId, h.merchantId]
  mode := by rw [ha.mode, hb.mode, h.mode]
  scopes := by rw [ha.scopes, hb.scopes]; exact h.scopes

structure Inv (w : World) : Prop where
  ids : (w.keys.map (·.id)).Nodup
  tasks : TasksOk w
  mints : ∀ p c, MintedUnder w p c → ∃ held ∈ w.keys, ∃ minted ∈ w.keys, held.id = p ∧
    minted.id = c ∧ Within held minted
  accesses : ∀ caller row, (caller, row) ∈ w.accesses → caller.apiKeyScopes ≠ none →
    row.merchantId = caller.merchantId ∧ row.mode = caller.mode

section Step

variable {env : Env} {w w' : World} {l : Label}

theorem id_ne_newId {r : ApiKeyRow} (hr : r ∈ w.keys) : r.id ≠ w.newId := by
  have hle : ∀ {ids : List Nat} {n : Nat}, n ∈ ids → n ≤ ids.foldr max 0 := by
    intro ids n hn
    induction ids with
    | nil => cases hn
    | cons m ids ih =>
        rcases List.mem_cons.mp hn with rfl | hn
        · exact Nat.le_max_left _ _
        · exact Nat.le_trans (ih hn) (Nat.le_max_right _ _)
  have hid := hle (List.mem_map_of_mem (f := fun r : ApiKeyRow => r.id) hr)
  unfold World.newId
  omega

theorem Effect.rows (h : Effect w w') :
    Table.Steps ApiKeyRow.id Moves (fun _ => True) w.keys w'.keys := by
  cases h with
  | kept _ hkeys =>
      rw [hkeys]
      exact .same Moves.refl
  | minted _ _ _ hid _ hkeys =>
      rw [hkeys]
      refine .insert Moves.refl trivial (Table.find_eq_none.mpr fun r hr => ?_)
      exact hid ▸ id_ne_newId hr
  | revoked _ _ hkeys =>
      rw [hkeys]
      exact .update Moves.refl fun r _ => .inr ⟨_, rfl⟩
  | @replaced _ before row t _ _ _ _ _ _ hid _ _ hkeys =>
      refine ⟨fun r => if decide (r.id = before.id) then revokeRow t r else r, fun r _ => ?_,
        .inr ⟨row, trivial, Table.find_eq_none.mpr fun r hr => hid ▸ id_ne_newId hr, hkeys⟩⟩
      dsimp only
      split
      · exact .inr ⟨t, rfl⟩
      · exact .refl r

theorem Effect.kept_rows (h : Effect w w') : Kept w w' := by
  obtain ⟨g, hg, hrows⟩ := h.rows
  intro r hr
  refine ⟨g r, ?_, hg r hr⟩
  rcases hrows with hrows | ⟨_, -, -, hrows⟩
  · rw [hrows]
    exact List.mem_map_of_mem hr
  · rw [hrows]
    exact List.mem_append_left _ (List.mem_map_of_mem hr)

/-- The rights of a minted key are within its caller's. -/
theorem within_caller {caller : CurrentMerchant} {row : ApiKeyRow} {held : Nat}
    (hcaller : CallerOk w caller) (hgrants : Grants caller row.mode row.scopes)
    (hmerchant : row.merchantId = caller.merchantId) (hheld : caller.apiKeyId = some held) :
    ∃ key ∈ w.keys, key.id = held ∧ Within key row := by
  rcases hcaller with ⟨hnone, -⟩ | ⟨key, hkey, rfl⟩
  · rw [hnone] at hheld
    cases hheld
  · obtain ⟨hmode, hscopes⟩ := hgrants key.scopes rfl
    exact ⟨key, hkey, Option.some.inj hheld, hmerchant, hmode, hscopes⟩

theorem mem_recorded {caller : CurrentMerchant} {id p c : Nat} {mints : List (Nat × Nat)}
    (h : (c, p) ∈ (caller.apiKeyId.map fun held => (id, held)).toList ++ mints) :
    (c = id ∧ caller.apiKeyId = some p) ∨ (c, p) ∈ mints := by
  rcases List.mem_append.mp h with h | h
  · cases hheld : caller.apiKeyId with
    | none => rw [hheld] at h; cases h
    | some held =>
        rw [hheld] at h
        obtain ⟨rfl, rfl⟩ : c = id ∧ p = held := by simpa using h
        exact .inl ⟨rfl, rfl⟩
  · exact .inr h

theorem mints_step (h : Inv w) (heffect : Effect w w') : ∀ p c, MintedUnder w' p c →
    ∃ held ∈ w'.keys, ∃ minted ∈ w'.keys, held.id = p ∧ minted.id = c ∧ Within held minted := by
  have hold : ∀ p c, MintedUnder w p c →
      ∃ held ∈ w'.keys, ∃ minted ∈ w'.keys, held.id = p ∧ minted.id = c ∧ Within held minted := by
    intro p c hminted
    obtain ⟨held, hheld, minted, hmem, rfl, rfl, hwithin⟩ := h.mints p c hminted
    obtain ⟨held', hheld', hmoves⟩ := heffect.kept_rows held hheld
    obtain ⟨minted', hmem', hmoves'⟩ := heffect.kept_rows minted hmem
    exact ⟨held', hheld', minted', hmem', hmoves.id, hmoves'.id, hwithin.moves hmoves hmoves'⟩
  have hnew {caller : CurrentMerchant} {row : ApiKeyRow} {p : Nat} (hrow : row ∈ w'.keys)
      (hcaller : CallerOk w caller) (hgrants : Grants caller row.mode row.scopes)
      (hmerchant : row.merchantId = caller.merchantId) (hp : caller.apiKeyId = some p) :
      ∃ held ∈ w'.keys, ∃ minted ∈ w'.keys, held.id = p ∧ minted.id = row.id ∧
        Within held minted := by
    obtain ⟨key, hkey, rfl, hwithin⟩ := within_caller hcaller hgrants hmerchant hp
    obtain ⟨key', hkey', hmoves⟩ := heffect.kept_rows key hkey
    exact ⟨key', hkey', row, hrow, hmoves.id, rfl, hwithin.moves hmoves (.refl row)⟩
  intro p c hminted
  unfold MintedUnder at hminted
  cases heffect with
  | kept _ _ hmints =>
      rw [hmints] at hminted
      exact hold p c hminted
  | revoked _ _ _ hmints =>
      rw [hmints] at hminted
      exact hold p c hminted
  | minted hcaller hgrants hmerchant _ _ hkeys hmints =>
      rw [hmints] at hminted
      rcases mem_recorded hminted with ⟨rfl, hp⟩ | hminted
      · refine hnew ?_ hcaller hgrants hmerchant hp
        rw [hkeys]
        exact List.mem_append_right _ List.mem_cons_self
      · exact hold p c hminted
  | replaced hcaller hgrants _ _ hmerchant _ _ _ hkeys hmints =>
      rw [hmints] at hminted
      rcases mem_recorded hminted with ⟨rfl, hp⟩ | hminted
      · refine hnew ?_ hcaller hgrants hmerchant hp
        rw [hkeys]
        exact List.mem_append_right _ List.mem_cons_self
      · exact hold p c hminted

theorem confined_of_visible {caller : CurrentMerchant} {row : ApiKeyRow}
    (h : visibleTo caller row = true) (hkey : caller.apiKeyScopes ≠ none) :
    row.merchantId = caller.merchantId ∧ row.mode = caller.mode :=
  ⟨(of_decide_eq_true h).1, (of_decide_eq_true h).2 hkey⟩

theorem confined_of_grants {caller : CurrentMerchant} {row : ApiKeyRow}
    (hgrants : Grants caller row.mode row.scopes) (hmerchant : row.merchantId = caller.merchantId)
    (hkey : caller.apiKeyScopes ≠ none) :
    row.merchantId = caller.merchantId ∧ row.mode = caller.mode := by
  obtain ⟨held, hheld⟩ := Option.ne_none_iff_exists'.mp hkey
  exact ⟨hmerchant, (hgrants held hheld).1⟩

theorem accesses_step (h : Inv w) (heffect : Effect w w') : ∀ caller row,
    (caller, row) ∈ w'.accesses → caller.apiKeyScopes ≠ none →
    row.merchantId = caller.merchantId ∧ row.mode = caller.mode := by
  intro caller row hmem hkey
  cases heffect with
  | kept hvisible _ _ haccesses =>
      rw [haccesses] at hmem
      rcases List.mem_append.mp hmem with hmem | hmem
      · exact h.accesses caller row hmem hkey
      · obtain ⟨r, hr, heq⟩ := List.mem_map.mp hmem
        obtain ⟨rfl, rfl⟩ := Prod.mk.inj heq
        exact confined_of_visible (hvisible r hr) hkey
  | minted hcaller hgrants hmerchant _ _ _ _ haccesses =>
      rw [haccesses] at hmem
      rcases List.mem_append.mp hmem with hmem | hmem
      · exact h.accesses caller row hmem hkey
      · obtain ⟨rfl, rfl⟩ := Prod.mk.inj (List.mem_singleton.mp hmem)
        exact confined_of_grants hgrants hmerchant hkey
  | revoked hvisible _ _ _ haccesses =>
      rw [haccesses] at hmem
      rcases List.mem_append.mp hmem with hmem | hmem
      · exact h.accesses caller row hmem hkey
      · obtain ⟨rfl, rfl⟩ := Prod.mk.inj (List.mem_singleton.mp hmem)
        exact confined_of_visible hvisible hkey
  | replaced hcaller hgrants hvisible _ hmerchant _ _ _ _ _ haccesses =>
      rw [haccesses] at hmem
      rcases List.mem_append.mp hmem with hmem | hmem
      · exact h.accesses caller row hmem hkey
      · rcases List.mem_cons.mp hmem with heq | hmem
        · obtain ⟨rfl, rfl⟩ := Prod.mk.inj heq
          exact confined_of_visible hvisible hkey
        · obtain ⟨rfl, rfl⟩ := Prod.mk.inj (List.mem_singleton.mp hmem)
          exact confined_of_grants hgrants hmerchant hkey

theorem Inv.step (h : Inv w) (env : Env) (l : Label) : Inv (step env w l) := by
  obtain ⟨heffect, htasks⟩ := step_effect env h.ids h.tasks l
  exact
    { ids := heffect.rows.nodup (fun _ _ h => h.id) h.ids
      tasks := h.tasks.mono heffect.kept_rows htasks
      mints := mints_step h heffect
      accesses := accesses_step h heffect }

theorem World.Launched.inv (h : w.Launched) : Inv w where
  ids := h.ids
  tasks := fun t ht => by rw [h.tasks] at ht; cases ht
  mints := fun p c hminted => by
    unfold MintedUnder at hminted
    rw [h.mints] at hminted
    cases hminted
  accesses := fun caller row hmem => by rw [h.accesses] at hmem; cases hmem

end Step

/-! ## Chains -/

theorem Inv.chain {w : World} (h : Inv w) {k k' : Nat}
    (hchain : Relation.TransGen (MintedUnder w) k k') :
    ∃ row ∈ w.keys, ∃ row' ∈ w.keys, row.id = k ∧ row'.id = k' ∧ Within row row' := by
  induction hchain with
  | single hminted => exact h.mints _ _ hminted
  | tail _ hminted ih =>
      obtain ⟨row, hrow, mid, hmid, hk, hb, hwithin⟩ := ih
      obtain ⟨mid', hmid', row', hrow', hb', hc, hwithin'⟩ := h.mints _ _ hminted
      obtain rfl := Table.eq_of_key h.ids hmid hmid' (hb.trans hb'.symm)
      exact ⟨row, hrow, row', hrow', hk, hc, hwithin.trans hwithin'⟩

/-! ## Rotations -/

def live (row : ApiKeyRow) : Bool := row.revokedAt.isNone

/-- One live key is replaced by one new live key, and no other key changes. -/
structure Replaces (w w' : World) (r : Rotation) : Prop where
  source : r.source ∈ w.keys ∧ r.source.revokedAt = none
  revoked : ∀ row ∈ w'.keys, row.id = r.source.id → row.revokedAt ≠ none
  minted : r.minted ∈ w'.keys ∧ r.minted.revokedAt = none ∧ ∀ row ∈ w.keys, row.id ≠ r.minted.id
  others : ∀ row ∈ w.keys, row.id ≠ r.source.id → row ∈ w'.keys
  live_keys : w'.keys.countP live = w.keys.countP live

/-- A rotation replaces one live key by another exactly when its source is live. -/
theorem replaces_iff {w w' : World} {r : Rotation} (h : Inv w) (heffect : Effect w w')
    (hrotation : w'.rotations = w.rotations ++ [r]) :
    Replaces w w' r ↔ r.source.revokedAt = none := by
  have hne : w'.rotations ≠ w.rotations := by
    intro hsame
    have hlength := congrArg List.length (hsame.symm.trans hrotation)
    simp at hlength
  cases heffect with
  | kept _ _ _ _ hrotations => exact absurd hrotations hne
  | minted _ _ _ _ _ _ _ _ hrotations => exact absurd hrotations hne
  | revoked _ _ _ _ _ hrotations => exact absurd hrotations hne
  | @replaced caller before row t _ _ _ _ hbefore _ hid hlive _ hkeys _ _ hrotations =>
      obtain rfl : r = ⟨before, row⟩ := by
        have heq := List.append_cancel_left (hrotation.symm.trans hrotations)
        exact (List.cons.inj heq).1
      refine ⟨fun hreplaces => hreplaces.source.2, fun hsource => ?_⟩
      obtain ⟨hmem, -⟩ := Table.find_eq_some hbefore
      dsimp only at hsource
      have hfresh : ∀ r ∈ w.keys, r.id ≠ row.id := fun r hr => hid ▸ id_ne_newId hr
      refine ⟨⟨hmem, hsource⟩, ?_, ⟨?_, hlive, hfresh⟩, ?_, ?_⟩
      · intro r hr hrid
        rw [hkeys] at hr
        rcases List.mem_append.mp hr with hr | hr
        · obtain ⟨r₀, hr₀, rfl⟩ := Table.mem_updateWhere hr
          split
          · exact Option.some_ne_none t
          · rename_i hother
            rw [if_neg hother] at hrid
            exact absurd (decide_eq_true hrid) hother
        · obtain rfl := List.mem_singleton.mp hr
          exact absurd hrid.symm (hfresh before hmem)
      · rw [hkeys]
        exact List.mem_append_right _ List.mem_cons_self
      · intro r hr hrid
        rw [hkeys]
        refine List.mem_append_left _ (List.mem_map.mpr ⟨r, hr, if_neg ?_⟩)
        simpa using hrid
      · have hcount := Table.countP_updateWhere (p := fun r : ApiKeyRow => decide (r.id = before.id))
          (q := live) (f := revokeRow t) (t := w.keys)
        have hone : w.keys.filter (fun r => decide (r.id = before.id)) = [before] := by
          rcases Table.filter_of_key h.ids
              (p := fun r : ApiKeyRow => decide (r.id = before.id))
              (fun r hr => of_decide_eq_true hr) with hnil | ⟨r, hr, hrid, hsingle⟩
          · have hbad := List.filter_eq_nil_iff.mp hnil before hmem
            simp at hbad
          · rw [hsingle, Table.eq_of_key h.ids hr hmem (of_decide_eq_true hrid)]
        rw [hone] at hcount
        have hbeforeLive : live before = true := by rw [live, hsource]; rfl
        have hrowLive : live row = true := by rw [live, hlive]; rfl
        have hrevoked : live (revokeRow t before) = false := rfl
        simp only [List.countP_cons, List.countP_nil, hbeforeLive, hrevoked] at hcount
        rw [hkeys, List.countP_append, List.countP_singleton, hrowLive]
        simp only [Bool.false_eq_true, if_false, if_true] at hcount ⊢
        omega

/-! ## Runs -/

section Runs

variable (env : Env) (w₀ : World) (ls : List Label)

/-- The state before the `n`-th step. -/
def at_ (n : Nat) : World := stateAt (step env) w₀ ls n

/-- The `n`-th step commits a rotation. -/
def RotatesAt (n : Nat) (r : Rotation) : Prop :=
  (at_ env w₀ ls (n + 1)).rotations = (at_ env w₀ ls n).rotations ++ [r]

/-- The keys' authority over a run. -/
structure AuthorityKept : Prop where
  /-- A new key is its caller's, and is recorded under the key the caller holds. -/
  born : ∀ n row, row ∈ (at_ env w₀ ls (n + 1)).keys →
    (∀ r ∈ (at_ env w₀ ls n).keys, r.id ≠ row.id) →
    ∃ caller, (caller, row) ∈ (at_ env w₀ ls (n + 1)).accesses ∧
      row.merchantId = caller.merchantId ∧
      ∀ held, caller.apiKeyId = some held → MintedUnder (at_ env w₀ ls (n + 1)) held row.id
  /-- Whatever a chain of keys mints is within the key it starts at. -/
  chain : ∀ n k k', Relation.TransGen (MintedUnder (at_ env w₀ ls n)) k k' →
    ∀ row ∈ (at_ env w₀ ls n).keys, ∀ row' ∈ (at_ env w₀ ls n).keys, row.id = k → row'.id = k' →
      Within row row'
  /-- A key caller is handed and writes keys of its own merchant and mode only. -/
  confined : ∀ n caller row, (caller, row) ∈ (at_ env w₀ ls n).accesses →
    caller.apiKeyScopes ≠ none → row.merchantId = caller.merchantId ∧ row.mode = caller.mode
  /-- A row that changes is written by a call, which is among the accesses. -/
  changes : ∀ n row row', row ∈ (at_ env w₀ ls n).keys → row' ∈ (at_ env w₀ ls (n + 1)).keys →
    row'.id = row.id → row' ≠ row → ∃ caller new,
      (at_ env w₀ ls (n + 1)).accesses = (at_ env w₀ ls n).accesses ++ new ∧ (caller, row) ∈ new
  /-- A revoked key authenticates nobody. -/
  revoked : ∀ m n, m ≤ n → ∀ row ∈ (at_ env w₀ ls m).keys, row.revokedAt ≠ none →
    ∀ route authorization cm, canActivate env (at_ env w₀ ls n).merchants (at_ env w₀ ls n).keys
      route authorization = .ok (some cm) → cm.apiKeyId ≠ some row.id
  /-- A rotation replaces one live key by one live key. -/
  rotate : ∀ n r, RotatesAt env w₀ ls n r → Replaces (at_ env w₀ ls n) (at_ env w₀ ls (n + 1)) r

end Runs

section Results

variable {env : Env} {w₀ : World} {ls : List Label}

theorem inv_at (h₀ : w₀.Launched) (n : Nat) : Inv (at_ env w₀ ls n) :=
  stateAt_induct (m := 0) (P := Inv) h₀.inv (fun _ l _ _ ih => ih.step env l) (Nat.zero_le n)

/-- A step of a run, or its standing still past its end. -/
theorem effect_at (h₀ : w₀.Launched) (n : Nat) :
    Effect (at_ env w₀ ls n) (at_ env w₀ ls (n + 1)) := by
  have hinv : Inv (at_ env w₀ ls n) := inv_at h₀ n
  cases hl : ls[n]? with
  | none =>
      rw [show at_ env w₀ ls (n + 1) = at_ env w₀ ls n from stateAt_of_none (step env) w₀ hl]
      exact .of_same rfl rfl rfl rfl
  | some l =>
      rw [show at_ env w₀ ls (n + 1) = step env (at_ env w₀ ls n) l from
        stateAt_succ (step env) w₀ hl]
      exact (step_effect env hinv.ids hinv.tasks l).1

theorem revoked_at (h₀ : w₀.Launched) {m n : Nat} (hmn : m ≤ n) {row : ApiKeyRow}
    (hrow : row ∈ (at_ env w₀ ls m).keys) (hrevoked : row.revokedAt ≠ none) :
    ∃ row' ∈ (at_ env w₀ ls n).keys, row'.id = row.id ∧ row'.revokedAt ≠ none := by
  induction n, hmn using Nat.le_induction with
  | base => exact ⟨row, hrow, rfl, hrevoked⟩
  | succ n _ ih =>
      obtain ⟨row', hrow', hid, hrevoked'⟩ := ih
      obtain ⟨row'', hrow'', hmoves⟩ := (effect_at h₀ n).kept_rows row' hrow'
      exact ⟨row'', hrow'', hmoves.id.trans hid, hmoves.revoked hrevoked'⟩

theorem born_at (h₀ : w₀.Launched) {n : Nat} {row : ApiKeyRow}
    (hrow : row ∈ (at_ env w₀ ls (n + 1)).keys)
    (hnew : ∀ r ∈ (at_ env w₀ ls n).keys, r.id ≠ row.id) :
    ∃ caller, (caller, row) ∈ (at_ env w₀ ls (n + 1)).accesses ∧
      row.merchantId = caller.merchantId ∧
      ∀ held, caller.apiKeyId = some held → MintedUnder (at_ env w₀ ls (n + 1)) held row.id := by
  have hrecorded {caller : CurrentMerchant} {mints : List (Nat × Nat)} (held : Nat)
      (h : caller.apiKeyId = some held) :
      (row.id, held) ∈ (caller.apiKeyId.map fun held => (row.id, held)).toList ++ mints := by
    rw [h]
    exact List.mem_cons_self
  have heffect : Effect (at_ env w₀ ls n) (at_ env w₀ ls (n + 1)) := effect_at h₀ n
  cases heffect with
  | kept _ hkeys => exact absurd rfl (hnew row (hkeys ▸ hrow))
  | @minted caller r _ _ _ hmerchant _ _ hkeys hmints haccesses =>
      rw [hkeys] at hrow
      rcases List.mem_append.mp hrow with hold | hrow
      · exact absurd rfl (hnew row hold)
      · obtain rfl := List.mem_singleton.mp hrow
        refine ⟨caller, ?_, hmerchant, fun held h => ?_⟩
        · rw [haccesses]
          exact List.mem_append_right _ List.mem_cons_self
        · unfold MintedUnder
          rw [hmints]
          exact hrecorded held h
  | revoked _ _ hkeys =>
      rw [hkeys] at hrow
      obtain ⟨r₀, hr₀, rfl⟩ := Table.mem_updateWhere hrow
      refine absurd ?_ (hnew r₀ hr₀)
      split <;> rfl
  | @replaced caller before r _ _ _ _ _ _ hmerchant _ _ _ hkeys hmints haccesses =>
      rw [hkeys] at hrow
      rcases List.mem_append.mp hrow with hold | hrow
      · obtain ⟨r₀, hr₀, rfl⟩ := Table.mem_updateWhere hold
        refine absurd ?_ (hnew r₀ hr₀)
        split <;> rfl
      · obtain rfl := List.mem_singleton.mp hrow
        refine ⟨caller, ?_, hmerchant, fun held h => ?_⟩
        · rw [haccesses]
          exact List.mem_append_right _ (List.mem_cons_of_mem _ List.mem_cons_self)
        · unfold MintedUnder
          rw [hmints]
          exact hrecorded held h

theorem changes_at (h₀ : w₀.Launched) {n : Nat} {row row' : ApiKeyRow}
    (hrow : row ∈ (at_ env w₀ ls n).keys) (hrow' : row' ∈ (at_ env w₀ ls (n + 1)).keys)
    (hid : row'.id = row.id) (hne : row' ≠ row) : ∃ caller new,
      (at_ env w₀ ls (n + 1)).accesses = (at_ env w₀ ls n).accesses ++ new ∧
        (caller, row) ∈ new := by
  have hids : ((at_ env w₀ ls n).keys.map (·.id)).Nodup := (inv_at h₀ n).ids
  have hsame {r : ApiKeyRow} (hr : r ∈ (at_ env w₀ ls n).keys) (hrid : r.id = row.id) : r = row :=
    Table.eq_of_key hids hr hrow hrid
  have heffect : Effect (at_ env w₀ ls n) (at_ env w₀ ls (n + 1)) := effect_at h₀ n
  cases heffect with
  | kept _ hkeys => exact absurd (hsame (hkeys ▸ hrow') hid) hne
  | minted _ _ _ hnewId _ hkeys =>
      rw [hkeys] at hrow'
      rcases List.mem_append.mp hrow' with hold | hnew
      · exact absurd (hsame hold hid) hne
      · obtain rfl := List.mem_singleton.mp hnew
        exact absurd (hid.symm.trans hnewId) (id_ne_newId hrow)
  | @revoked caller r _ _ _ hfound hkeys _ haccesses =>
      rw [hkeys] at hrow'
      obtain ⟨r₀, hr₀, rfl⟩ := Table.mem_updateWhere hrow'
      by_cases hp : decide (r₀.id = r.id) = true
      · rw [if_pos hp] at hid
        obtain rfl := hsame hr₀ hid
        obtain ⟨hr, -⟩ := Table.find_eq_some hfound
        obtain rfl := Table.eq_of_key hids hr₀ hr (of_decide_eq_true hp)
        exact ⟨caller, _, haccesses, List.mem_cons_self⟩
      · rw [if_neg hp] at hid hne
        exact absurd (hsame hr₀ hid) hne
  | @replaced caller before r _ _ _ _ _ hfound _ hnewId _ _ hkeys _ haccesses =>
      rw [hkeys] at hrow'
      rcases List.mem_append.mp hrow' with hold | hnew
      · obtain ⟨r₀, hr₀, rfl⟩ := Table.mem_updateWhere hold
        by_cases hp : decide (r₀.id = before.id) = true
        · rw [if_pos hp] at hid
          obtain rfl := hsame hr₀ hid
          obtain ⟨hr, -⟩ := Table.find_eq_some hfound
          obtain rfl := Table.eq_of_key hids hr₀ hr (of_decide_eq_true hp)
          exact ⟨caller, _, haccesses, List.mem_cons_self⟩
        · rw [if_neg hp] at hid hne
          exact absurd (hsame hr₀ hid) hne
      · obtain rfl := List.mem_singleton.mp hnew
        exact absurd (hid.symm.trans hnewId) (id_ne_newId hrow)

/-- A run keeps the keys' authority exactly when every rotation commits on a live source. -/
theorem authority_kept_iff (env : Env) (w₀ : World) (h₀ : w₀.Launched) (ls : List Label) :
    AuthorityKept env w₀ ls ↔
      ∀ n r, RotatesAt env w₀ ls n r → r.source.revokedAt = none := by
  constructor
  · exact fun h n r hr => (h.rotate n r hr).source.2
  · intro hlive
    refine ⟨fun n row => born_at h₀, ?_, fun n => (inv_at h₀ n).accesses,
      fun n row row' => changes_at h₀, ?_, fun n r hr => ?_⟩
    · intro n k k' hchain row hrow row' hrow' hk hk'
      obtain ⟨a, ha, b, hb, hak, hbk, hwithin⟩ := (inv_at h₀ n).chain hchain
      have hids : ((at_ env w₀ ls n).keys.map (·.id)).Nodup := (inv_at h₀ n).ids
      obtain rfl := Table.eq_of_key hids ha hrow (hak.trans hk.symm)
      obtain rfl := Table.eq_of_key hids hb hrow' (hbk.trans hk'.symm)
      exact hwithin
    · intro m n hmn row hrow hrevoked route authorization cm hcm heq
      obtain ⟨row', hrow', hid, hrevoked'⟩ := revoked_at h₀ hmn hrow hrevoked
      rcases caller_of_canActivate hcm with ⟨hnone, -⟩ | ⟨key, hkey, hkeylive, rfl⟩
      · rw [hnone] at heq
        cases heq
      · have hkeyid : key.id = row'.id := (Option.some.inj heq).trans hid.symm
        have hids : ((at_ env w₀ ls n).keys.map (·.id)).Nodup := (inv_at h₀ n).ids
        rw [← Table.eq_of_key hids hkey hrow' hkeyid] at hrevoked'
        exact hrevoked' hkeylive
    · exact (replaces_iff (inv_at h₀ n) (effect_at h₀ n) hr).mpr (hlive n r hr)

end Results

/-! ## Samples -/

section Samples

def env : Env where
  environment := .testnet
  sha256Hex := String.ofList
  verifyAccessToken := fun token => some (String.ofList token)
  merchantOf := fun _ => some [1]

def secretKey : ApiKeyRow where
  id := 1
  merchantId := [1]
  name := "server"
  kind := .secret
  mode := .test
  hash := "sk_test_a"
  scopes := [.api_keys_write]
  createdAt := 0
  revokedAt := none

def launched : World where
  now := 0
  merchants := [MerchantStatus.merchant]
  keys := [secretKey]
  tasks := []
  errors := []
  mints := []
  accesses := []
  rotations := []

/-- The key rotates itself. -/
def rotateOnce : List Label :=
  [.request (some "Bearer sk_test_a".toList) (.rotate 1), .run 0 (.done true),
   .run 0 (.done true), .run 0 (.random "b".toList)]

theorem authority_kept_rotateOnce : AuthorityKept env launched rotateOnce := by
  have hall : ∀ m ≤ rotateOnce.length, ∀ r ∈ (at_ env launched rotateOnce m).rotations,
      r.source.revokedAt = none := by decide +kernel
  refine (authority_kept_iff env launched ⟨by decide, by decide, rfl, rfl, rfl, rfl⟩
    rotateOnce).mpr fun n r hr => ?_
  have hmem : r ∈ (at_ env launched rotateOnce (n + 1)).rotations := by
    unfold RotatesAt at hr
    rw [hr]
    exact List.mem_append_right _ List.mem_cons_self
  rw [at_, stateAt_min] at hmem
  exact hall _ (Nat.min_le_right _ _) r hmem

/-- Two sessions rotate the key at the same time. -/
def rotateTwice : List Label :=
  [.request (some "Bearer s".toList) (.rotate 1), .request (some "Bearer s".toList) (.rotate 1),
   .run 0 (.done true), .run 0 (.done true), .run 0 (.done true), .run 0 (.done true),
   .run 0 (.random "b".toList), .run 0 (.random "c".toList)]

theorem rotated_twice :
    (at_ env launched rotateTwice 0).keys.countP live = 1 ∧
      (at_ env launched rotateTwice rotateTwice.length).keys.countP live = 2 ∧
      ¬ AuthorityKept env launched rotateTwice := by
  refine ⟨by decide +kernel, by decide +kernel, fun h => ?_⟩
  have hrotates : ∃ r : Rotation, r.source.revokedAt ≠ none ∧
      (at_ env launched rotateTwice 8).rotations =
        (at_ env launched rotateTwice 7).rotations ++ [r] :=
    ⟨⟨{ secretKey with revokedAt := some 0 },
      { secretKey with id := 3, hash := "sk_test_c" }⟩, by decide, by decide +kernel⟩
  obtain ⟨r, hrevoked, hr⟩ := hrotates
  exact hrevoked (h.rotate 7 r hr).source.2

end Samples

end Strimz.ApiKeys
