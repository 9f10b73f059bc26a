import Mathlib.Tactic
import Strimz.ApiKeys

/-!
# What one call's step does to the keys

The columns that decide a key's rights never change, so what a call has read of a key stays
true: `CallerOk` is what the guard has established of the caller, `TaskOk` what each statement
adds to it, and `step_effect` what a step then makes of the table.
-/

namespace Strimz.ApiKeys

open Indexer MerchantGuard

/-! ## What the calls know -/

/-- The rights of a caller are those of its key; a session has none of a key's. -/
def CallerOk (w : World) (caller : CurrentMerchant) : Prop :=
  (caller.apiKeyId = none ∧ caller.apiKeyScopes = none) ∨
    ∃ key ∈ w.keys, caller = ⟨key.merchantId, some key.id, some key.scopes, key.mode⟩

/-- A key caller may grant the mode and the scopes. -/
def Grants (caller : CurrentMerchant) (mode : Mode) (scopes : List ApiKeyScope) : Prop :=
  ∀ held, caller.apiKeyScopes = some held → mode = caller.mode ∧ scopes ⊆ held

/-- A row that the caller may see has the id. -/
def Sees (w : World) (caller : CurrentMerchant) (id : Nat) : Prop :=
  ∃ row ∈ w.keys, row.id = id ∧ visibleTo caller row = true

def TaskOk (w : World) : Task → Prop
  | .start caller _ => CallerOk w caller
  | .creating caller input => CallerOk w caller ∧ Grants caller input.mode input.scopes
  | .revoking caller id => Sees w caller id
  | .rotating caller source | .replacing caller source =>
      CallerOk w caller ∧ Grants caller source.mode source.scopes ∧ Sees w caller source.id

def TasksOk (w : World) : Prop := ∀ t ∈ w.tasks, TaskOk w t

/-- How a row moves: it may be revoked, and nothing else of it changes. -/
def Moves (r r' : ApiKeyRow) : Prop := r' = r ∨ ∃ t, r' = revokeRow t r

section Moves

variable {r r' : ApiKeyRow}

theorem Moves.refl (r : ApiKeyRow) : Moves r r := .inl rfl

theorem Moves.id (h : Moves r r') : r'.id = r.id := by
  rcases h with rfl | ⟨t, rfl⟩ <;> rfl

theorem Moves.hash (h : Moves r r') : r'.hash = r.hash := by
  rcases h with rfl | ⟨t, rfl⟩ <;> rfl

theorem Moves.merchantId (h : Moves r r') : r'.merchantId = r.merchantId := by
  rcases h with rfl | ⟨t, rfl⟩ <;> rfl

theorem Moves.mode (h : Moves r r') : r'.mode = r.mode := by
  rcases h with rfl | ⟨t, rfl⟩ <;> rfl

theorem Moves.scopes (h : Moves r r') : r'.scopes = r.scopes := by
  rcases h with rfl | ⟨t, rfl⟩ <;> rfl

theorem Moves.revoked (h : Moves r r') (hr : r.revokedAt ≠ none) : r'.revokedAt ≠ none := by
  rcases h with rfl | ⟨t, rfl⟩
  · exact hr
  · exact Option.some_ne_none t

theorem Moves.visibleTo (h : Moves r r') (caller : CurrentMerchant) :
    ApiKeys.visibleTo caller r' = ApiKeys.visibleTo caller r := by
  unfold ApiKeys.visibleTo
  rw [h.merchantId, h.mode]

end Moves

/-- Every row of one table is still in the other, moved. -/
def Kept (w w' : World) : Prop := ∀ r ∈ w.keys, ∃ r' ∈ w'.keys, Moves r r'

section Kept

variable {w w' : World}

theorem Kept.of_eq (h : w'.keys = w.keys) : Kept w w' :=
  fun r hr => ⟨r, h ▸ hr, .refl r⟩

theorem CallerOk.mono {caller : CurrentMerchant} (h : CallerOk w caller) (hkept : Kept w w') :
    CallerOk w' caller := by
  rcases h with h | ⟨key, hkey, rfl⟩
  · exact .inl h
  · obtain ⟨key', hkey', hmoves⟩ := hkept key hkey
    refine .inr ⟨key', hkey', ?_⟩
    rw [hmoves.merchantId, hmoves.id, hmoves.scopes, hmoves.mode]

theorem Sees.mono {caller : CurrentMerchant} {id : Nat} (h : Sees w caller id)
    (hkept : Kept w w') : Sees w' caller id := by
  obtain ⟨row, hrow, rfl, hvisible⟩ := h
  obtain ⟨row', hrow', hmoves⟩ := hkept row hrow
  exact ⟨row', hrow', hmoves.id, by rwa [hmoves.visibleTo]⟩

theorem TaskOk.mono {t : Task} (h : TaskOk w t) (hkept : Kept w w') : TaskOk w' t := by
  cases t with
  | start => exact CallerOk.mono h hkept
  | creating => exact ⟨h.1.mono hkept, h.2⟩
  | revoking => exact Sees.mono h hkept
  | rotating | replacing => exact ⟨h.1.mono hkept, h.2.1, h.2.2.mono hkept⟩

theorem TasksOk.mono (h : TasksOk w) (hkept : Kept w w')
    (htasks : ∀ t ∈ w'.tasks, t ∈ w.tasks ∨ TaskOk w t) : TasksOk w' := by
  intro t ht
  rcases htasks t ht with hold | hnew
  · exact (h t hold).mono hkept
  · exact hnew.mono hkept

end Kept

/-! ## The table -/

/-- What a step makes of the table, and of what the world keeps about it. -/
inductive Effect (w : World) : World → Prop where
  | kept {caller : CurrentMerchant} {rows : List ApiKeyRow} {w' : World}
      (hvisible : ∀ row ∈ rows, visibleTo caller row = true)
      (hkeys : w'.keys = w.keys) (hmints : w'.mints = w.mints)
      (haccesses : w'.accesses = w.accesses ++ rows.map fun row => (caller, row))
      (hrotations : w'.rotations = w.rotations) : Effect w w'
  | minted {caller : CurrentMerchant} {row : ApiKeyRow} {w' : World} (hcaller : CallerOk w caller)
      (hgrants : Grants caller row.mode row.scopes) (hmerchant : row.merchantId = caller.merchantId)
      (hid : row.id = w.newId) (hhash : ∀ r ∈ w.keys, r.hash ≠ row.hash)
      (hkeys : w'.keys = w.keys ++ [row])
      (hmints : w'.mints = (caller.apiKeyId.map fun held => (row.id, held)).toList ++ w.mints)
      (haccesses : w'.accesses = w.accesses ++ [(caller, row)])
      (hrotations : w'.rotations = w.rotations) : Effect w w'
  | revoked {caller : CurrentMerchant} {row : ApiKeyRow} {t : Nat} {w' : World}
      (hvisible : visibleTo caller row = true) (hrow : w.key? row.id = some row)
      (hkeys : w'.keys = Table.updateWhere (·.id = row.id) (revokeRow t) w.keys)
      (hmints : w'.mints = w.mints) (haccesses : w'.accesses = w.accesses ++ [(caller, row)])
      (hrotations : w'.rotations = w.rotations) : Effect w w'
  | replaced {caller : CurrentMerchant} {before row : ApiKeyRow} {t : Nat} {w' : World}
      (hcaller : CallerOk w caller) (hgrants : Grants caller row.mode row.scopes)
      (hvisible : visibleTo caller before = true) (hbefore : w.key? before.id = some before)
      (hmerchant : row.merchantId = caller.merchantId) (hid : row.id = w.newId)
      (hlive : row.revokedAt = none) (hhash : ∀ r ∈ w.keys, r.hash ≠ row.hash)
      (hkeys : w'.keys =
        Table.updateWhere (·.id = before.id) (revokeRow t) w.keys ++ [row])
      (hmints : w'.mints = (caller.apiKeyId.map fun held => (row.id, held)).toList ++ w.mints)
      (haccesses : w'.accesses = w.accesses ++ [(caller, before), (caller, row)])
      (hrotations : w'.rotations = w.rotations ++ [⟨before, row⟩]) : Effect w w'

section Steps

variable {env : Env} {w : World} {caller : CurrentMerchant}

theorem subset_of_held {held requested : List ApiKeyScope}
    (h : assertScopesHeld held requested = .ok ()) : requested ⊆ held := by
  unfold assertScopesHeld at h
  split at h
  · cases h
  · rename_i hnone
    intro scope hscope
    have := List.find?_eq_none.mp hnone scope hscope
    simpa using this

theorem grants_of_check {input : CreateApiKeyInput} (h : checkCreate caller input = .ok ()) :
    Grants caller input.mode input.scopes := by
  unfold checkCreate at h
  intro held hheld
  rw [hheld] at h
  dsimp only at h
  split at h
  · cases h
  · rename_i hmode
    exact ⟨not_not.mp hmode, subset_of_held h⟩

theorem visibleTo_of_mem_page {keys : List ApiKeyRow} {params : ListParams} {row : ApiKeyRow}
    (h : row ∈ page keys caller params) : visibleTo caller row = true := by
  have hsorted : ∀ {l : List ApiKeyRow} {p : ApiKeyRow → Bool} {le : ApiKeyRow → ApiKeyRow → Bool},
      row ∈ (l.filter p).mergeSort le → p row = true := by
    intro l p le hmem
    exact (List.mem_filter.mp (List.mem_mergeSort.mp hmem)).2
  unfold page at h
  dsimp only at h
  have hrest := List.mem_of_mem_take h
  split at hrest
  · exact (Bool.and_eq_true_iff.mp (hsorted hrest)).1
  · split at hrest
    · cases hrest
    · have hmem := (List.mem_filter.mp (List.mem_of_mem_drop hrest)).1
      exact (Bool.and_eq_true_iff.mp (hsorted hmem)).1

theorem sees_of_find {id : Nat} {row : ApiKeyRow} (h : findVisible w caller id = some row) :
    row ∈ w.keys ∧ row.id = id ∧ visibleTo caller row = true := by
  have hrow := List.find?_some h
  simp only [decide_eq_true_eq] at hrow
  exact ⟨List.mem_of_find?_eq_some h, hrow.1, hrow.2⟩

theorem Effect.of_same {w' : World} (hkeys : w'.keys = w.keys) (hmints : w'.mints = w.mints)
    (haccesses : w'.accesses = w.accesses) (hrotations : w'.rotations = w.rotations) :
    Effect w w' :=
  @Effect.kept w ⟨[], none, none, .test⟩ [] w' (fun _ h => nomatch h) hkeys hmints
    (by rw [haccesses, List.map_nil, List.append_nil]) hrotations

/-- Leaving the list of calls is no effect. -/
theorem Effect.of_finish {w' : World} {k : Nat} (h : Effect (w.finish k) w') : Effect w w' := by
  cases h with
  | kept hvisible hkeys hmints haccesses hrotations =>
      exact .kept hvisible hkeys hmints haccesses hrotations
  | minted hcaller hgrants hmerchant hid hhash hkeys hmints haccesses hrotations =>
      exact .minted hcaller hgrants hmerchant hid hhash hkeys hmints haccesses hrotations
  | revoked hvisible hrow hkeys hmints haccesses hrotations =>
      exact .revoked hvisible hrow hkeys hmints haccesses hrotations
  | replaced hcaller hgrants hvisible hbefore hmerchant hid hlive hhash hkeys hmints haccesses
      hrotations =>
      exact .replaced hcaller hgrants hvisible hbefore hmerchant hid hlive hhash hkeys hmints
        haccesses hrotations

/-- A request's first statement reads, and spawns what it has checked. -/
theorem effect_begin (hcaller : CallerOk w caller) (eligible : Bool) (r : Request) :
    Effect w (begin_ env w caller eligible r) ∧ ∀ t ∈ (begin_ env w caller eligible r).tasks,
      t ∈ w.tasks ∨ TaskOk w t := by
  have hspawn {w' : World} {t : Task} (htasks : w'.tasks = w.tasks) (ht : TaskOk w t) :
      ∀ t' ∈ (w'.spawn t).tasks, t' ∈ w.tasks ∨ TaskOk w t' := by
    intro t' ht'
    rcases List.mem_append.mp ht' with hold | hnew
    · exact .inl (htasks ▸ hold)
    · exact .inr (List.mem_singleton.mp hnew ▸ ht)
  have hread {row : ApiKeyRow} {w' : World} (hvisible : visibleTo caller row = true)
      (hkeys : w'.keys = w.keys) (hmints : w'.mints = w.mints)
      (haccesses : w'.accesses = w.accesses ++ [row].map fun row => (caller, row))
      (hrotations : w'.rotations = w.rotations) : Effect w w' :=
    .kept (fun r hr => List.mem_singleton.mp hr ▸ hvisible) hkeys hmints haccesses hrotations
  unfold begin_
  cases r with
  | create input =>
      dsimp only
      split
      · exact ⟨.of_same rfl rfl rfl rfl, fun _ h => .inl h⟩
      · rename_i hcheck
        split
        · exact ⟨.of_same rfl rfl rfl rfl, fun _ h => .inl h⟩
        · exact ⟨.of_same rfl rfl rfl rfl, hspawn rfl ⟨hcaller, grants_of_check hcheck⟩⟩
  | list params =>
      exact ⟨.kept (fun row hrow => visibleTo_of_mem_page hrow) rfl rfl rfl rfl,
        fun _ h => .inl h⟩
  | retrieve id =>
      dsimp only
      split
      · exact ⟨.of_same rfl rfl rfl rfl, fun _ h => .inl h⟩
      · rename_i row hrow
        exact ⟨hread (sees_of_find hrow).2.2 rfl rfl rfl rfl, fun _ h => .inl h⟩
  | revoke id =>
      dsimp only
      split
      · exact ⟨.of_same rfl rfl rfl rfl, fun _ h => .inl h⟩
      · rename_i row hrow
        exact ⟨hread (sees_of_find hrow).2.2 rfl rfl rfl rfl, hspawn rfl ⟨row, sees_of_find hrow⟩⟩
  | rotate id =>
      dsimp only
      split
      · exact ⟨.of_same rfl rfl rfl rfl, fun _ h => .inl h⟩
      · rename_i source hsource
        obtain ⟨hmem, hid, hvisible⟩ := sees_of_find hsource
        split
        · rename_i hsession
          refine ⟨hread hvisible rfl rfl rfl rfl, hspawn rfl ⟨hcaller, fun held hheld => ?_,
            source, hmem, rfl, hvisible⟩⟩
          rw [hsession] at hheld
          cases hheld
        · rename_i held hheld
          split
          · exact ⟨hread hvisible rfl rfl rfl rfl, fun _ h => .inl h⟩
          · rename_i hscopes
            refine ⟨hread hvisible rfl rfl rfl rfl, hspawn rfl ⟨hcaller, fun held' hheld' => ?_,
              source, hmem, rfl, hvisible⟩⟩
            rw [hheld] at hheld'
            obtain rfl := Option.some.inj hheld'
            have hmode : source.mode = caller.mode :=
              (of_decide_eq_true hvisible).2 (by rw [hheld]; exact Option.some_ne_none held)
            exact ⟨hmode, subset_of_held hscopes⟩

theorem effect_run (env : Env) {t : Task} (a : Answer) (hids : (w.keys.map (·.id)).Nodup) (ht : TaskOk w t) :
    Effect w (runTask env w t a) ∧ ∀ t' ∈ (runTask env w t a).tasks, t' ∈ w.tasks ∨ TaskOk w t' := by
  have hsame {w' : World} (hkeys : w'.keys = w.keys) (hmints : w'.mints = w.mints)
      (haccesses : w'.accesses = w.accesses) (hrotations : w'.rotations = w.rotations)
      (htasks : w'.tasks = w.tasks) :
      Effect w w' ∧ ∀ t' ∈ w'.tasks, t' ∈ w.tasks ∨ TaskOk w t' :=
    ⟨.of_same hkeys hmints haccesses hrotations, fun _ h => .inl (htasks ▸ h)⟩
  unfold runTask
  split
  case h_1 => exact hsame rfl rfl rfl rfl rfl
  case h_2 caller r eligible => exact effect_begin ht eligible r
  case h_3 caller input secret =>
    unfold insertKey
    split
    · exact hsame rfl rfl rfl rfl rfl
    · rename_i hhash
      refine ⟨.minted ht.1 ht.2 rfl rfl ?_ rfl rfl rfl rfl, fun _ h => .inl h⟩
      simpa using hhash
  case h_4 caller id eligible =>
    unfold revokeKey
    split
    · exact hsame rfl rfl rfl rfl rfl
    · rename_i row hrow
      obtain ⟨seen, hseen, hid, hvisible⟩ := ht
      obtain ⟨hmem, hrowid⟩ := Table.find_eq_some hrow
      obtain rfl := Table.eq_of_key hids hseen hmem (hid.trans hrowid.symm)
      subst hid
      exact ⟨.revoked hvisible hrow rfl rfl rfl rfl, fun _ h => .inl h⟩
  case h_5 caller source eligible =>
    split
    · exact hsame rfl rfl rfl rfl rfl
    · refine ⟨.of_same rfl rfl rfl rfl, fun t' ht' => ?_⟩
      rcases List.mem_append.mp ht' with hold | hnew
      · exact .inl hold
      · exact .inr (List.mem_singleton.mp hnew ▸ ht)
  case h_6 caller source secret =>
    unfold replaceKey
    dsimp only
    split
    · exact hsame rfl rfl rfl rfl rfl
    · rename_i before hbefore
      split
      · exact hsame rfl rfl rfl rfl rfl
      · rename_i hhash
        obtain ⟨hcaller, hgrants, seen, hseen, hid, hvisible⟩ := ht
        obtain ⟨hmem, hbeforeid⟩ := Table.find_eq_some hbefore
        obtain rfl := Table.eq_of_key hids hseen hmem (hid.trans hbeforeid.symm)
        rw [← hid] at hbefore ⊢
        generalize hrow : mintKey env w caller.merchantId (.ofSource source) secret = row at *
        have hrights : Grants caller row.mode row.scopes := hrow ▸ hgrants
        have hnew : ∀ r ∈ w.keys, r.hash ≠ row.hash := by simpa using hhash
        refine ⟨.replaced (t := w.now) hcaller hrights hvisible hbefore (hrow ▸ rfl)
          (hrow ▸ rfl) (hrow ▸ rfl) hnew rfl rfl ?_ rfl, fun _ h => .inl h⟩
        simp [recordMint]
  case h_7 => exact hsame rfl rfl rfl rfl rfl

/-- One step of the calls, and what the calls know after it. -/
theorem step_effect (env : Env) (hids : (w.keys.map (·.id)).Nodup) (htasks : TasksOk w) (l : Label) :
    Effect w (step env w l) ∧ ∀ t ∈ (step env w l).tasks, t ∈ w.tasks ∨ TaskOk w t := by
  unfold step
  cases l with
  | request authorization r =>
      dsimp only
      split
      · exact ⟨.of_same rfl rfl rfl rfl, fun _ h => .inl h⟩
      · exact ⟨.of_same rfl rfl rfl rfl, fun _ h => .inl h⟩
      · rename_i caller hcaller
        refine ⟨.of_same rfl rfl rfl rfl, fun t ht => ?_⟩
        rcases List.mem_append.mp ht with hold | hnew
        · exact .inl hold
        · obtain rfl := List.mem_singleton.mp hnew
          rcases caller_of_canActivate hcaller with hsession | ⟨key, hkey, -, hkeycaller⟩
          · exact .inr (.inl hsession)
          · exact .inr (.inr ⟨key, hkey, hkeycaller⟩)
  | run k a =>
      dsimp only
      split
      · exact ⟨.of_same rfl rfl rfl rfl, fun _ h => .inl h⟩
      · rename_i t ht
        have hok : TaskOk (w.finish k) t := (htasks t (List.mem_of_getElem? ht)).mono (.of_eq rfl)
        obtain ⟨heffect, hnew⟩ := effect_run env (w := w.finish k) a hids hok
        refine ⟨heffect.of_finish, fun t' ht' => ?_⟩
        rcases hnew t' ht' with hold | hnew
        · exact .inl (List.mem_of_mem_eraseIdx hold)
        · exact .inr (hnew.mono (.of_eq rfl))
  | setMerchantStatus merchantId status => exact ⟨.of_same rfl rfl rfl rfl, fun _ h => .inl h⟩
  | elapse ms => exact ⟨.of_same rfl rfl rfl rfl, fun _ h => .inl h⟩

end Steps

end Strimz.ApiKeys
