import Strimz.AdminUserSteps

/-!
# Single-use invites

An invite row carries the hash of the token last issued for it until it is linked, and a linked
row keeps its account and loses its hash (`Inv`). The update of `acceptInvite` looks at the row
again in all four of its columns, so `invites_bound` holds of every interleaving; the one thing
that it does not read again is the clock (`linked_after_expiry`).
-/

namespace Strimz.AdminUsers

open Runs

/-- The token most recently written to a row. -/
def World.lastIssue (w : World) (id : Nat) : Option Issue := w.issues.find? (·.adminId = id)

def Linked (w : World) (id : Nat) (privyUserId : String) : Prop :=
  ∃ r ∈ w.admins, r.id = id ∧ r.privyUserId = some privyUserId

/-- The invariant of the rows, the issued tokens and the links. -/
structure Inv (env : Env) (w : World) : Prop where
  ids : (w.admins.map (·.id)).Nodup
  accounts : ∀ r ∈ w.admins, ∀ r' ∈ w.admins, ∀ p, r.privyUserId = some p →
    r'.privyUserId = some p → r.id = r'.id
  tokens : (w.issues.map (·.token)).Nodup
  invites : ∀ r ∈ w.admins, ∀ h, r.inviteTokenHash = some h → ∃ i, w.lastIssue r.id = some i ∧
    h = env.sha256 i.token ∧ r.inviteExpiresAt = some i.expiresAt
  spent : ∀ x ∈ w.links, Linked w x.adminId x.call.privyUserId ∧
    ∃ i ∈ w.issues, i.adminId = x.adminId ∧ i.token = x.call.token

/-- What the state holds when a link is written. -/
structure Genuine (w : World) (x : Link) : Prop where
  /-- The invited row: not linked yet, active, and with the email of the account. -/
  row : ∃ r ∈ w.admins, r.id = x.adminId ∧ r.email = x.email ∧ r.privyUserId = none ∧
    r.status = .active
  identified : (x.call, x.email) ∈ w.identified
  /-- The token is the last one issued for the row, and had not expired when the call started. -/
  issue : ∃ i, w.lastIssue x.adminId = some i ∧ i.token = x.call.token ∧ x.call.now < i.expiresAt

section Rows

variable {env : Env} {w w' : World} {l : Label}

theorem id_ne_newId {r : AdminRow} (hr : r ∈ w.admins) : r.id ≠ w.newId := by
  have hle : ∀ {ids : List Nat} {n : Nat}, n ∈ ids → n ≤ ids.foldr max 0 := by
    intro ids n hn
    induction ids with
    | nil => cases hn
    | cons m ids ih =>
        rcases List.mem_cons.mp hn with rfl | hn
        · exact Nat.le_max_left _ _
        · exact Nat.le_trans (ih hn) (Nat.le_max_right _ _)
  have hid := hle (List.mem_map_of_mem (f := fun r : AdminRow => r.id) hr)
  unfold World.newId
  omega

/-- How a row moves: its id and its email stay, and so does its account once it has one. -/
structure Moves (w : World) (r r' : AdminRow) : Prop where
  id : r'.id = r.id
  email : r'.email = r.email
  account : ∀ p, r.privyUserId = some p → r'.privyUserId = some p

theorem Moves.refl (r : AdminRow) : Moves w r r := ⟨rfl, rfl, fun _ h => h⟩

/-- The rows of a step: each has moved, and a new one has a new id and no account. -/
theorem step_rows (env : Env) (w : World) (l : Label) :
    Table.Steps AdminRow.id (Moves w) (fun r => r.privyUserId = none) w.admins
      (step env w l).admins := by
  have hsame : Table.Steps AdminRow.id (Moves w) (fun r => r.privyUserId = none) w.admins w.admins :=
    .same Moves.refl
  cases step_effect env w l with
  | kept hadmins => rwa [hadmins]
  | @set k a actorId adminId to_ _ htask hadmins =>
      rw [hadmins]
      refine Table.Steps.update Moves.refl fun r _ => ?_
      cases to_ <;> exact ⟨rfl, rfl, fun _ h => h⟩
  | invited htask hfresh hhash hadmins =>
      rw [hadmins]
      refine Table.Steps.insert Moves.refl rfl (Table.find_eq_none.mpr fun r hr => ?_)
      exact id_ne_newId hr
  | renewed htask hfresh hhash hone hadmins =>
      rw [hadmins]
      exact Table.Steps.update Moves.refl fun r _ => ⟨rfl, rfl, fun _ h => h⟩
  | linked htask hone hfree hadmins =>
      rw [hadmins]
      refine Table.Steps.update Moves.refl fun r hr => ⟨rfl, rfl, fun p hp => ?_⟩
      have hnone := (of_decide_eq_true hr).2.2.2.1
      rw [hnone] at hp
      cases hp

theorem linked_step {id : Nat} {p : String} (hids : (w.admins.map (·.id)).Nodup)
    (h : Linked w id p) : Linked (step env w l) id p := by
  obtain ⟨r, hr, rfl, hp⟩ := h
  obtain ⟨r', hr', hmoves⟩ := (step_rows env w l).find_some (fun _ _ h => h.id)
    (Table.find_of_mem hids hr)
  obtain ⟨hmem, hid⟩ := Table.find_eq_some hr'
  exact ⟨r', hmem, hid, hmoves.account p hp⟩

/-- The row that an acceptance finds. -/
theorem exists_acceptable {call : Accept} {id : Nat} {email : String}
    (h : w.admins.countP (acceptable env call id email) = 1) :
    ∃ r ∈ w.admins, r.id = id ∧ r.email = email ∧
      r.inviteTokenHash = some (env.sha256 call.token) ∧ r.privyUserId = none ∧
      r.status = .active ∧ ∃ t, r.inviteExpiresAt = some t ∧ call.now < t := by
  obtain ⟨r, hr, ha⟩ := List.countP_pos_iff.mp (Nat.lt_of_lt_of_eq Nat.one_pos h.symm)
  obtain ⟨hid, hemail, hhash, hnone, hactive, hexpires⟩ := of_decide_eq_true ha
  refine ⟨r, hr, hid, hemail, hhash, hnone, hactive, ?_⟩
  cases ht : r.inviteExpiresAt with
  | none => rw [ht] at hexpires; cases hexpires
  | some t =>
      rw [ht] at hexpires
      exact ⟨t, rfl, by simpa using hexpires⟩

end Rows

/-! ## The invariant -/

section Invariant

variable {env : Env} {w : World} {l : Label}

theorem lastIssue_self {w' : World} {i : Issue} {is : List Issue} {id : Nat}
    (hissues : w'.issues = i :: is) (hid : i.adminId = id) : w'.lastIssue id = some i := by
  rw [World.lastIssue, hissues, List.find?_cons_of_pos (by simpa using hid)]

theorem lastIssue_ne {w' : World} {i : Issue} {id : Nat} (hissues : w'.issues = i :: w.issues)
    (hid : i.adminId ≠ id) : w'.lastIssue id = w.lastIssue id := by
  rw [World.lastIssue, hissues, List.find?_cons_of_neg (by simpa using hid)]
  rfl

theorem account_put {to_ : Setting} (r : AdminRow) : (to_.put r).privyUserId = r.privyUserId := by
  cases to_ <;> rfl

/-- An account comes in by a link, which requires that no row has it. -/
theorem account_back {r : AdminRow} {p : String} (hr : r ∈ (step env w l).admins)
    (hp : r.privyUserId = some p) :
    (∃ r₀ ∈ w.admins, r₀.id = r.id ∧ r₀.privyUserId = some p) ∨
      ∃ x, (step env w l).links = w.links ++ [x] ∧ r.id = x.adminId ∧ p = x.call.privyUserId ∧
        ∀ r ∈ w.admins, r.privyUserId ≠ some p := by
  cases step_effect env w l with
  | kept hadmins => exact .inl ⟨r, hadmins ▸ hr, rfl, hp⟩
  | @set k a actorId adminId to_ _ htask hadmins =>
      rw [hadmins] at hr
      obtain ⟨r₀, hr₀, rfl⟩ := Table.mem_updateWhere hr
      refine .inl ⟨r₀, hr₀, ?_, ?_⟩
      · split
        · cases to_ <;> rfl
        · rfl
      · split at hp
        · rwa [account_put] at hp
        · exact hp
  | invited htask hfresh hhash hadmins =>
      rw [hadmins] at hr
      rcases List.mem_append.mp hr with hr | hr
      · exact .inl ⟨r, hr, rfl, hp⟩
      · obtain rfl := List.mem_singleton.mp hr
        cases hp
  | renewed htask hfresh hhash hone hadmins =>
      rw [hadmins] at hr
      obtain ⟨r₀, hr₀, rfl⟩ := Table.mem_updateWhere hr
      refine .inl ⟨r₀, hr₀, ?_, ?_⟩
      · split <;> rfl
      · split at hp <;> exact hp
  | @linked k a call id email _ htask hone hfree hadmins hissues hlinks =>
      rw [hadmins] at hr
      obtain ⟨r₀, hr₀, rfl⟩ := Table.mem_updateWhere hr
      by_cases hacc : acceptable env call id email r₀ = true
      · rw [if_pos hacc] at hp ⊢
        obtain rfl : call.privyUserId = p := Option.some.inj hp
        exact .inr ⟨_, hlinks, (of_decide_eq_true hacc).1, rfl, hfree⟩
      · rw [if_neg hacc] at hp ⊢
        exact .inl ⟨r₀, hr₀, rfl, hp⟩

theorem accounts_step (h : Inv env w) :
    ∀ r ∈ (step env w l).admins, ∀ r' ∈ (step env w l).admins, ∀ p, r.privyUserId = some p →
      r'.privyUserId = some p → r.id = r'.id := by
  intro r hr r' hr' p hp hp'
  rcases account_back hr hp with ⟨r₀, h₀, hid, hp₀⟩ | ⟨x, hx, hid, -, hfree⟩
  · rcases account_back hr' hp' with ⟨r₀', h₀', hid', hp₀'⟩ | ⟨x', -, -, -, hfree'⟩
    · rw [← hid, ← hid']
      exact h.accounts r₀ h₀ r₀' h₀' p hp₀ hp₀'
    · exact absurd hp₀ (hfree' r₀ h₀)
  · rcases account_back hr' hp' with ⟨r₀', h₀', -, hp₀'⟩ | ⟨x', hx', hid', -, -⟩
    · exact absurd hp₀' (hfree r₀' h₀')
    · have heq : x = x' := by
        have h := List.append_cancel_left (hx.symm.trans hx')
        exact (List.cons.inj h).1
      rw [hid, hid', heq]

theorem tokens_step (h : Inv env w) : ((step env w l).issues.map (·.token)).Nodup := by
  have hcons {i : Issue} (hfresh : ∀ i' ∈ w.issues, i'.token ≠ i.token) :
      ((i :: w.issues).map (·.token)).Nodup := by
    rw [List.map_cons, List.nodup_cons]
    refine ⟨fun hi => ?_, h.tokens⟩
    obtain ⟨i', hi', heq⟩ := List.mem_map.mp hi
    exact hfresh i' hi' heq
  cases step_effect env w l with
  | kept _ hissues => rw [hissues]; exact h.tokens
  | set _ _ hissues => rw [hissues]; exact h.tokens
  | invited _ hfresh _ _ hissues => rw [hissues]; exact hcons hfresh
  | renewed _ hfresh _ _ _ hissues => rw [hissues]; exact hcons hfresh
  | linked _ _ _ _ hissues => rw [hissues]; exact h.tokens

/-- The token of a row that is still invited, as `Inv` has it. -/
def Invited (env : Env) (w : World) (r : AdminRow) : Prop :=
  ∀ h, r.inviteTokenHash = some h → ∃ i, w.lastIssue r.id = some i ∧ h = env.sha256 i.token ∧
    r.inviteExpiresAt = some i.expiresAt

theorem Invited.congr {w' : World} {r r' : AdminRow} (h : Invited env w r)
    (hissues : w'.issues = w.issues) (hid : r'.id = r.id)
    (hhash : r'.inviteTokenHash = r.inviteTokenHash)
    (hexpires : r'.inviteExpiresAt = r.inviteExpiresAt) : Invited env w' r' := by
  intro t ht
  rw [hhash] at ht
  unfold World.lastIssue
  rw [hissues, hid, hexpires]
  exact h t ht

/-- Another row's token does not change which token is the row's last. -/
theorem Invited.of_ne {w' : World} {r : AdminRow} {i : Issue} (h : Invited env w r)
    (hissues : w'.issues = i :: w.issues) (hid : i.adminId ≠ r.id) : Invited env w' r := by
  intro t ht
  rw [lastIssue_ne hissues hid]
  exact h t ht

theorem invites_step (h : Inv env w) : ∀ r ∈ (step env w l).admins, Invited env (step env w l) r := by
  intro r hr
  cases step_effect env w l with
  | kept hadmins hissues =>
      rw [hadmins] at hr
      have hold : Invited env w r := h.invites r hr
      exact hold.congr hissues rfl rfl rfl
  | @set k a actorId adminId to_ _ htask hadmins hissues =>
      rw [hadmins] at hr
      obtain ⟨r₀, hr₀, rfl⟩ := Table.mem_updateWhere hr
      have hold : Invited env w r₀ := h.invites r₀ hr₀
      split
      · cases to_ <;> exact hold.congr hissues rfl rfl rfl
      · exact hold.congr hissues rfl rfl rfl
  | invited htask hfresh hhash hadmins hissues =>
      rw [hadmins] at hr
      rcases List.mem_append.mp hr with hr | hr
      · have hold : Invited env w r := h.invites r hr
        exact hold.of_ne hissues fun heq => id_ne_newId hr heq.symm
      · obtain rfl := List.mem_singleton.mp hr
        intro t ht
        obtain rfl := Option.some.inj ht
        exact ⟨_, lastIssue_self hissues rfl, hhash, rfl⟩
  | @renewed k a adminId invite _ htask hfresh hhash hone hadmins hissues =>
      rw [hadmins] at hr
      obtain ⟨r₀, hr₀, rfl⟩ := Table.mem_updateWhere hr
      by_cases hpending : pending adminId r₀ = true
      · rw [if_pos hpending]
        have hid : adminId = r₀.id := (of_decide_eq_true hpending).1.symm
        intro t ht
        obtain rfl := Option.some.inj ht
        exact ⟨_, lastIssue_self hissues hid, hhash, rfl⟩
      · rw [if_neg hpending]
        have hold : Invited env w r₀ := h.invites r₀ hr₀
        refine hold.of_ne hissues fun heq => hpending ?_
        -- the one pending row of the update has this id
        obtain ⟨r₁, hr₁, hp₁⟩ := List.countP_pos_iff.mp (Nat.lt_of_lt_of_eq Nat.one_pos hone.symm)
        have hid : r₁.id = r₀.id := (of_decide_eq_true hp₁).1.trans heq
        rwa [← Table.eq_of_key h.ids hr₁ hr₀ hid]
  | linked htask hone hfree hadmins hissues =>
      rw [hadmins] at hr
      obtain ⟨r₀, hr₀, rfl⟩ := Table.mem_updateWhere hr
      have hold : Invited env w r₀ := h.invites r₀ hr₀
      split
      · intro t ht
        cases ht
      · exact hold.congr hissues rfl rfl rfl

theorem lastIssue_mem {id : Nat} {i : Issue} (h : w.lastIssue id = some i) :
    i ∈ w.issues ∧ i.adminId = id :=
  ⟨List.mem_of_find?_eq_some h, by simpa using List.find?_some h⟩

theorem links_cases (env : Env) (w : World) (l : Label) :
    (step env w l).links = w.links ∨ ∃ x, (step env w l).links = w.links ++ [x] := by
  cases step_effect env w l with
  | kept _ _ hlinks => exact .inl hlinks
  | set _ _ _ hlinks => exact .inl hlinks
  | invited _ _ _ _ _ hlinks => exact .inl hlinks
  | renewed _ _ _ _ _ _ hlinks => exact .inl hlinks
  | linked _ _ _ _ _ hlinks => exact .inr ⟨_, hlinks⟩

/-- A link is the transaction of an acceptance. -/
theorem link_inv {x : Link} (hx : (step env w l).links = w.links ++ [x]) :
    .accepting x.call x.adminId x.email ∈ w.tasks ∧
      w.admins.countP (acceptable env x.call x.adminId x.email) = 1 ∧
      (step env w l).admins =
        Table.updateWhere (acceptable env x.call x.adminId x.email) (link x.call) w.admins := by
  have hne : ∀ w' : World, w'.links = w.links → w'.links ≠ w.links ++ [x] := by
    intro w' hsame hmore
    have hlength := congrArg List.length (hsame.symm.trans hmore)
    simp at hlength
  cases step_effect env w l with
  | kept _ _ hlinks => exact absurd hx (hne _ hlinks)
  | set _ _ _ hlinks => exact absurd hx (hne _ hlinks)
  | invited _ _ _ _ _ hlinks => exact absurd hx (hne _ hlinks)
  | renewed _ _ _ _ _ _ hlinks => exact absurd hx (hne _ hlinks)
  | @linked k a call id email _ htask hone hfree hadmins hissues hlinks =>
      obtain rfl : x = ⟨id, call, email⟩ := by
        have heq := List.append_cancel_left (hx.symm.trans hlinks)
        exact (List.cons.inj heq).1
      exact ⟨List.mem_of_getElem? htask, hone, hadmins⟩

/-- A link is written for the row's last token, by a call that knows the account's email. -/
theorem genuine_of_link {x : Link} (hsha : Function.Injective env.sha256) (h : Inv env w)
    (htasks : TasksOk w) (hx : (step env w l).links = w.links ++ [x]) : Genuine w x := by
  obtain ⟨htask, hone, -⟩ := link_inv hx
  obtain ⟨r, hr, hid, hemail, hhash, hnone, hactive, t, ht, hlt⟩ := exists_acceptable hone
  obtain ⟨i, hi, hsame, hexpires⟩ := h.invites r hr _ hhash
  refine ⟨⟨r, hr, hid, hemail, hnone, hactive⟩, htasks _ htask, i, hid ▸ hi, (hsha hsame).symm, ?_⟩
  rw [ht] at hexpires
  obtain rfl := Option.some.inj hexpires
  exact hlt

/-- What a link leaves: the row has the account, and the token was issued for it. -/
theorem linked_of_link {x : Link} (hx : (step env w l).links = w.links ++ [x]) :
    Linked (step env w l) x.adminId x.call.privyUserId := by
  obtain ⟨-, hone, hadmins⟩ := link_inv hx
  obtain ⟨r, hr, hacc⟩ := List.countP_pos_iff.mp (Nat.lt_of_lt_of_eq Nat.one_pos hone.symm)
  refine ⟨link x.call r, ?_, (of_decide_eq_true hacc).1, rfl⟩
  rw [hadmins]
  exact List.mem_map.mpr ⟨r, hr, if_pos hacc⟩

/-- A row that is linked is not the row of a genuine link, so its token is not linked again. -/
theorem token_ne_of_mem {x y : Link} (h : Inv env w) (hx : x ∈ w.links) (hy : Genuine w y) :
    x.call.token ≠ y.call.token := by
  intro heq
  obtain ⟨⟨r, hr, hid, hlinked⟩, i, hi, hiid, hitoken⟩ := h.spent x hx
  obtain ⟨r', hr', hid', -, hnone, -⟩ := hy.row
  obtain ⟨i', hi', hitoken', -⟩ := hy.issue
  obtain ⟨hmem', hiid'⟩ := lastIssue_mem hi'
  have hsame : i = i' :=
    List.inj_on_of_nodup_map h.tokens hi hmem' (by rw [hitoken, hitoken', heq])
  have hrow : r = r' := by
    refine Table.eq_of_key h.ids hr hr' ?_
    rw [hid, hid', ← hiid, ← hiid', hsame]
  rw [hrow, hnone] at hlinked
  cases hlinked

theorem issues_subset (env : Env) (w : World) (l : Label) : w.issues ⊆ (step env w l).issues := by
  cases step_effect env w l with
  | kept _ hissues => rw [hissues]; exact List.Subset.refl _
  | set _ _ hissues => rw [hissues]; exact List.Subset.refl _
  | invited _ _ _ _ hissues => rw [hissues]; exact List.subset_cons_self _ _
  | renewed _ _ _ _ _ hissues => rw [hissues]; exact List.subset_cons_self _ _
  | linked _ _ _ _ hissues => rw [hissues]; exact List.Subset.refl _

theorem Inv.step (h : Inv env w) (hsha : Function.Injective env.sha256) (htasks : TasksOk w)
    (l : Label) : Inv env (step env w l) where
  ids := (step_rows env w l).nodup (fun _ _ h => h.id) h.ids
  accounts := accounts_step h
  tokens := tokens_step h
  invites := invites_step h
  spent := by
    have hold : ∀ y ∈ w.links, Linked (AdminUsers.step env w l) y.adminId y.call.privyUserId ∧
        ∃ i ∈ (AdminUsers.step env w l).issues, i.adminId = y.adminId ∧ i.token = y.call.token := by
      intro y hy
      obtain ⟨hlinked, i, hi, hfacts⟩ := h.spent y hy
      exact ⟨linked_step h.ids hlinked, i, issues_subset env w l hi, hfacts⟩
    rcases links_cases env w l with hsame | ⟨x, hx⟩
    · rwa [hsame]
    · rw [hx]
      intro y hy
      rcases List.mem_append.mp hy with hy | hy
      · exact hold y hy
      · obtain rfl := List.mem_singleton.mp hy
        obtain ⟨i, hi, htoken, -⟩ := (genuine_of_link hsha h htasks hx).issue
        obtain ⟨hmem, hid⟩ := lastIssue_mem hi
        exact ⟨linked_of_link hx, i, issues_subset env w l hmem, hid, htoken⟩

theorem World.Launched.inv {w : World} (h : w.Launched) : Inv env w where
  ids := h.ids
  accounts := fun r hr r' hr' p hp hp' =>
    h.accounts r hr r' hr' (by rw [hp]; exact Option.some_ne_none p) (hp.trans hp'.symm)
  tokens := by rw [h.issues]; exact List.nodup_nil
  invites := fun r hr t ht => by rw [h.invites r hr] at ht; cases ht
  spent := fun x hx => by rw [h.links] at hx; cases hx

end Invariant

/-! ## Runs -/

section Runs

variable (env : Env) (w₀ : World) (ls : List Label)

/-- The state before the `n`-th step. -/
def at_ (n : Nat) : World := stateAt (step env) w₀ ls n

/-- The `n`-th step links an account. -/
def LinksAt (n : Nat) (x : Link) : Prop := (at_ env w₀ ls (n + 1)).links = (at_ env w₀ ls n).links ++ [x]

/-- A step of an acceptance. -/
def Accepting (w : World) : Label → Prop
  | .accept _ _ => True
  | .run k _ =>
      match w.tasks[k]? with
      | some (.accept _) | some (.acceptInvited _ _ _) | some (.acceptUnlinked _ _ _)
      | some (.accepting _ _ _) => True
      | _ => False
  | _ => False

/-- Invites are single-use and bound to their address. -/
structure InvitesBound : Prop where
  /-- A row has one account over its whole life. -/
  one_account : ∀ m n id p p', Linked (at_ env w₀ ls m) id p → Linked (at_ env w₀ ls n) id p' → p = p'
  /-- An account has one row. -/
  one_row : ∀ m n id id' p, Linked (at_ env w₀ ls m) id p → Linked (at_ env w₀ ls n) id' p → id = id'
  /-- Accounts come in by links only. -/
  by_link : ∀ n id p, ¬ Linked (at_ env w₀ ls n) id p → Linked (at_ env w₀ ls (n + 1)) id p →
    ∃ x, LinksAt env w₀ ls n x ∧ x.adminId = id ∧ x.call.privyUserId = p
  /-- The linked account has the invited email and presented the row's last token, which had not
  expired when the call started, and the row is active. -/
  genuine : ∀ n x, LinksAt env w₀ ls n x → Genuine (at_ env w₀ ls n) x
  /-- No token links twice. -/
  once : ∀ m n x y, m < n → LinksAt env w₀ ls m x → LinksAt env w₀ ls n y →
    x.call.token ≠ y.call.token
  /-- A step of an acceptance that does not link leaves every row as it was. -/
  failed : ∀ n l, ls[n]? = some l → Accepting (at_ env w₀ ls n) l →
    (∀ x, ¬ LinksAt env w₀ ls n x) → (at_ env w₀ ls (n + 1)).admins = (at_ env w₀ ls n).admins

end Runs

section Results

variable {env : Env} {w₀ : World} {ls : List Label}

theorem at_succ {n : Nat} {l : Label} (hl : ls[n]? = some l) :
    at_ env w₀ ls (n + 1) = step env (at_ env w₀ ls n) l :=
  stateAt_succ (step env) w₀ hl

theorem inv_at (hsha : Function.Injective env.sha256) (h₀ : w₀.Launched) (n : Nat) :
    Inv env (at_ env w₀ ls n) ∧ TasksOk (at_ env w₀ ls n) :=
  stateAt_induct (m := 0) (P := fun w => Inv env w ∧ TasksOk w) ⟨h₀.inv, h₀.tasksOk⟩
    (fun _ l _ _ ih => ⟨ih.1.step hsha ih.2 l, tasksOk_step env ih.2 l⟩) (Nat.zero_le n)

theorem linked_mono (hsha : Function.Injective env.sha256) (h₀ : w₀.Launched) {m n id : Nat}
    {p : String} (hmn : m ≤ n) (h : Linked (at_ env w₀ ls m) id p) :
    Linked (at_ env w₀ ls n) id p := by
  have hboth : Linked (at_ env w₀ ls n) id p ∧ Inv env (at_ env w₀ ls n) ∧
      TasksOk (at_ env w₀ ls n) :=
    stateAt_induct (P := fun w => Linked w id p ∧ Inv env w ∧ TasksOk w)
      ⟨h, inv_at hsha h₀ m⟩
      (fun _ l _ _ ih => ⟨linked_step ih.2.1.ids ih.1, ih.2.1.step hsha ih.2.2 l,
        tasksOk_step env ih.2.2 l⟩) hmn
  exact hboth.1

theorem linksAt_step {n : Nat} {x : Link} (h : LinksAt env w₀ ls n x) :
    ∃ l, ls[n]? = some l ∧
      (step env (at_ env w₀ ls n) l).links = (at_ env w₀ ls n).links ++ [x] := by
  unfold LinksAt at h
  cases hl : ls[n]? with
  | none =>
      rw [show at_ env w₀ ls (n + 1) = at_ env w₀ ls n from stateAt_of_none (step env) w₀ hl] at h
      have hlength := congrArg List.length h
      simp at hlength
  | some l =>
      rw [at_succ hl] at h
      exact ⟨l, rfl, h⟩

theorem links_mono {m n : Nat} (hmn : m ≤ n) {x : Link} (h : x ∈ (at_ env w₀ ls m).links) :
    x ∈ (at_ env w₀ ls n).links := by
  have hmem : x ∈ (stateAt (step env) w₀ ls n).links := by
    refine stateAt_induct (P := fun w : World => x ∈ w.links) h (fun n l _ _ ih => ?_) hmn
    rcases links_cases env (stateAt (step env) w₀ ls n) l with hsame | ⟨y, hy⟩
    · rwa [hsame]
    · rw [hy]
      exact List.mem_append_left _ ih
  exact hmem

theorem admins_eq_of_accepting {w : World} {l : Label} (h : Accepting w l)
    (hlinks : ∀ x, (step env w l).links ≠ w.links ++ [x]) : (step env w l).admins = w.admins := by
  cases step_effect env w l with
  | kept hadmins => exact hadmins
  | set htask =>
      unfold Accepting at h
      dsimp only at h
      rw [htask] at h
      exact h.elim
  | invited htask =>
      unfold Accepting at h
      dsimp only at h
      rw [htask] at h
      exact h.elim
  | renewed htask =>
      unfold Accepting at h
      dsimp only at h
      rw [htask] at h
      exact h.elim
  | linked _ _ _ _ _ hmore => exact absurd hmore (hlinks _)

/-- Under a collision-free hash, invites are single-use and bound to their address, over every
interleaving of the operators' requests. -/
theorem invites_bound (env : Env) (hsha : Function.Injective env.sha256) (w₀ : World)
    (h₀ : w₀.Launched) (ls : List Label) : InvitesBound env w₀ ls where
  one_account := by
    intro m n id p p' h h'
    obtain ⟨r, hr, hid, hp⟩ := linked_mono hsha h₀ (Nat.le_max_left m n) h
    obtain ⟨r', hr', hid', hp'⟩ := linked_mono hsha h₀ (Nat.le_max_right m n) h'
    have hrow := Table.eq_of_key (inv_at hsha h₀ (max m n)).1.ids hr hr' (hid.trans hid'.symm)
    rw [hrow, hp'] at hp
    exact (Option.some.inj hp).symm
  one_row := by
    intro m n id id' p h h'
    obtain ⟨r, hr, rfl, hp⟩ := linked_mono hsha h₀ (Nat.le_max_left m n) h
    obtain ⟨r', hr', rfl, hp'⟩ := linked_mono hsha h₀ (Nat.le_max_right m n) h'
    exact (inv_at hsha h₀ (max m n)).1.accounts r hr r' hr' p hp hp'
  by_link := by
    intro n id p hbefore hafter
    cases hl : ls[n]? with
    | none =>
        refine absurd ?_ hbefore
        rwa [← show at_ env w₀ ls (n + 1) = at_ env w₀ ls n from stateAt_of_none (step env) w₀ hl]
    | some l =>
        unfold LinksAt
        rw [at_succ hl] at hafter ⊢
        obtain ⟨r, hr, rfl, hp⟩ := hafter
        rcases account_back hr hp with ⟨r₀, hr₀, hid, hp₀⟩ | ⟨x, hx, hid, rfl, -⟩
        · exact absurd ⟨r₀, hr₀, hid, hp₀⟩ hbefore
        · exact ⟨x, hx, hid.symm, rfl⟩
  genuine := by
    intro n x hx
    obtain ⟨l, -, hstep⟩ := linksAt_step hx
    have hat : Inv env (at_ env w₀ ls n) ∧ TasksOk (at_ env w₀ ls n) := inv_at hsha h₀ n
    obtain ⟨hinv, htasks⟩ := hat
    exact genuine_of_link hsha hinv htasks hstep
  once := by
    intro m n x y hmn hx hy
    obtain ⟨l, -, hstep⟩ := linksAt_step hy
    have hat : Inv env (at_ env w₀ ls n) ∧ TasksOk (at_ env w₀ ls n) := inv_at hsha h₀ n
    obtain ⟨hinv, htasks⟩ := hat
    refine token_ne_of_mem hinv (links_mono hmn ?_) (genuine_of_link hsha hinv htasks hstep)
    rw [hx]
    exact List.mem_append_right _ List.mem_cons_self
  failed := by
    intro n l hl haccepting hlinks
    unfold LinksAt at hlinks
    rw [at_succ hl] at hlinks ⊢
    exact admins_eq_of_accepting haccepting hlinks

end Results

/-! ## The clock of the call -/

section Samples

def owner : AdminRow :=
  ⟨1, some "did:owner", "owner@strimz.test", .super_admin, .active, none, none⟩

def oneOwner : World where
  now := 0
  admins := [owner]
  tasks := []
  replies := []
  issues := []
  identified := []
  links := []

/-- A hash without collisions, and emails as they are. -/
def plainEnv : Env := ⟨id, id⟩

def invitation : List Label :=
  [.request "did:owner" (.inviteAdmin "ben@strimz.test" .admin), .run 0 .done,
   .run 0 (.random "t1")]

/-- Accepted a day later; a second account then presents the same token. -/
def acceptedOnce : List Label :=
  invitation ++ [.elapse 86400000, .accept "t1" "did:ben", .run 0 .done, .run 0 .done,
    .run 0 (.user (some "ben@strimz.test")), .run 0 .done, .accept "t1" "did:eve", .run 0 .done]

theorem launched_oneOwner : oneOwner.Launched where
  ids := by decide
  accounts := by decide
  invites := by decide
  tasks := rfl
  issues := rfl
  links := rfl

theorem invites_bound_acceptedOnce : InvitesBound plainEnv oneOwner acceptedOnce :=
  invites_bound plainEnv (fun _ _ h => h) oneOwner launched_oneOwner acceptedOnce

/-- The call starts a minute before the token expires, and the account's email comes a minute
after: the update still compares with the clock of the start. -/
def slowAccept : List Label :=
  invitation ++ [.elapse (ADMIN_INVITE_TTL_MS - 60000), .accept "t1" "did:ben", .run 0 .done,
    .run 0 .done, .elapse 120000, .run 0 (.user (some "ben@strimz.test")), .run 0 .done]

theorem linked_after_expiry :
    LinksAt plainEnv oneOwner slowAccept 9
        ⟨2, ⟨"t1", "did:ben", ADMIN_INVITE_TTL_MS - 60000⟩, "ben@strimz.test"⟩ ∧
      (at_ plainEnv oneOwner slowAccept 9).lastIssue 2 =
        some ⟨2, "t1", ADMIN_INVITE_TTL_MS⟩ ∧
      ADMIN_INVITE_TTL_MS < (at_ plainEnv oneOwner slowAccept 9).now := by
  unfold LinksAt
  decide +kernel

end Samples

end Strimz.AdminUsers
