import Strimz.AdminUserSteps

/-!
# The last super admin

A super admin cannot change itself, so a change leaves its actor in office if the actor still is
a super admin when the update runs. Guard, read and update are separate statements, and nothing
looks at the actor again: two super admins who suspend each other both pass
(`suspend_each_other`).
-/

namespace Strimz.AdminUsers

open Runs

/-- An operator that can manage others: active, linked to an account, and a super admin. -/
def Qualifies (r : AdminRow) : Prop :=
  r.role = .super_admin ∧ r.status = .active ∧ r.privyUserId ≠ none

instance (r : AdminRow) : Decidable (Qualifies r) := by
  unfold Qualifies
  infer_instance

def HasSuperAdmin (w : World) : Prop := ∃ r ∈ w.admins, Qualifies r

instance (w : World) : Decidable (HasSuperAdmin w) := by
  unfold HasSuperAdmin
  infer_instance

/-- A setting that ends an operator's time as an active super admin. -/
def Setting.takesAway : Setting → Bool
  | .role r => r ≠ .super_admin
  | .status s => s ≠ .active

/-- An update that takes a role or a status away finds its actor still in office. -/
def ActorInOffice (w : World) : Label → Prop
  | .run k _ =>
      match w.tasks[k]? with
      | some (.changing actorId _ to_) =>
          to_.takesAway = true → ∃ r ∈ w.admins, r.id = actorId ∧ Qualifies r
      | _ => True
  | _ => True

instance (w : World) : (l : Label) → Decidable (ActorInOffice w l)
  | .run k _ => by
      unfold ActorInOffice
      dsimp only
      split <;> infer_instance
  | .request _ _ | .accept _ _ | .elapse _ => isTrue trivial

section Step

variable {env : Env} {w w' : World} {l : Label} {r : AdminRow}

theorem qualifies_put {to_ : Setting} (h : Qualifies r) (hto : to_.takesAway = false) :
    Qualifies (to_.put r) := by
  obtain ⟨hrole, hstatus, hlinked⟩ := h
  cases to_ with
  | role next =>
      obtain rfl : next = .super_admin := by simpa [Setting.takesAway] using hto
      exact ⟨rfl, hstatus, hlinked⟩
  | status next =>
      obtain rfl : next = .active := by simpa [Setting.takesAway] using hto
      exact ⟨hrole, rfl, hlinked⟩

/-- A row an update passes over, or leaves in office, is in office afterwards. -/
theorem hasSuperAdmin_updateWhere {p : AdminRow → Bool} {f : AdminRow → AdminRow}
    (hr : r ∈ w.admins) (hq : Qualifies r) (hf : p r = true → Qualifies (f r))
    (hadmins : w'.admins = Table.updateWhere p f w.admins) : HasSuperAdmin w' := by
  refine ⟨if p r then f r else r, ?_, ?_⟩
  · rw [hadmins]
    exact List.mem_map_of_mem hr
  · split
    · exact hf ‹_›
    · exact hq

theorem hasSuperAdmin_step (h : HasSuperAdmin w) (htasks : TasksOk w) (hl : ActorInOffice w l) :
    HasSuperAdmin (step env w l) := by
  obtain ⟨r, hr, hq⟩ := h
  cases step_effect env w l with
  | kept hadmins => exact ⟨r, hadmins ▸ hr, hq⟩
  | @set k a actorId adminId to_ _ htask hadmins =>
      unfold ActorInOffice at hl
      dsimp only at hl
      rw [htask] at hl
      cases hto : to_.takesAway with
      | false => exact hasSuperAdmin_updateWhere hr hq (fun _ => qualifies_put hq hto) hadmins
      | true =>
          obtain ⟨actor, hactor, rfl, hqa⟩ := hl hto
          have hne : actor.id ≠ adminId := htasks _ (List.mem_of_getElem? htask)
          exact hasSuperAdmin_updateWhere hactor hqa
            (fun hid => absurd (of_decide_eq_true hid) hne) hadmins
  | invited _ _ _ hadmins =>
      refine ⟨r, ?_, hq⟩
      rw [hadmins]
      exact List.mem_append_left _ hr
  | renewed _ _ _ _ hadmins =>
      exact hasSuperAdmin_updateWhere hr hq (fun _ => hq) hadmins
  | linked _ _ _ hadmins =>
      exact hasSuperAdmin_updateWhere hr hq (fun _ => ⟨hq.1, hq.2.1, by simp [link]⟩) hadmins

end Step

/-- In a run whose updates find their actors in office, the platform keeps a super admin. -/
theorem super_admin_remains (env : Env) (w₀ : World) (ls : List Label) (htasks : TasksOk w₀)
    (h₀ : HasSuperAdmin w₀)
    (hl : ∀ n l, ls[n]? = some l → ActorInOffice (stateAt (step env) w₀ ls n) l) (n : Nat) :
    HasSuperAdmin (stateAt (step env) w₀ ls n) := by
  have hboth : TasksOk (stateAt (step env) w₀ ls n) ∧ HasSuperAdmin (stateAt (step env) w₀ ls n) := by
    refine stateAt_induct (m := 0) (P := fun w => TasksOk w ∧ HasSuperAdmin w) ⟨htasks, h₀⟩
      (fun n l _ hn ih => ?_) (Nat.zero_le n)
    exact ⟨tasksOk_step env ih.1 l, hasSuperAdmin_step ih.2 ih.1 (hl n l hn)⟩
  exact hboth.2

/-! ## Two super admins -/

section Samples

def superAdmin (id : Nat) (privyUserId : String) : AdminRow :=
  ⟨id, some privyUserId, privyUserId ++ "@strimz.test", .super_admin, .active, none, none⟩

def twoSuperAdmins : World where
  now := 0
  admins := [superAdmin 1 "ada", superAdmin 2 "ben"]
  tasks := []
  replies := []
  issues := []
  identified := []
  links := []

def sampleEnv : Env := ⟨id, id⟩

def oneSuspends : List Label :=
  [.request "ada" (.removeAdmin 2), .run 0 .done, .run 0 .done,
   .request "ben" (.removeAdmin 1)]

theorem super_admin_remains_oneSuspends :
    HasSuperAdmin (stateAt (step sampleEnv) twoSuperAdmins oneSuspends oneSuspends.length) := by
  have hall : ∀ n, (h : n < oneSuspends.length) →
      ActorInOffice (stateAt (step sampleEnv) twoSuperAdmins oneSuspends n) oneSuspends[n] := by
    decide +kernel
  refine super_admin_remains sampleEnv twoSuperAdmins oneSuspends (fun t ht => nomatch ht)
    (by decide) (fun n l hl => ?_) oneSuspends.length
  obtain ⟨hn, rfl⟩ := List.getElem?_eq_some_iff.mp hl
  exact hall n hn

/-- Both pass the guard, both suspend the other, and nobody is left. -/
def eachOther : List Label :=
  [.request "ada" (.removeAdmin 2), .request "ben" (.removeAdmin 1), .run 0 .done, .run 0 .done,
   .run 0 .done, .run 0 .done]

theorem suspend_each_other :
    HasSuperAdmin twoSuperAdmins ∧ twoSuperAdmins.tasks = [] ∧
      ¬ HasSuperAdmin (exec (step sampleEnv) twoSuperAdmins eachOther) := by
  decide +kernel

end Samples

end Strimz.AdminUsers
