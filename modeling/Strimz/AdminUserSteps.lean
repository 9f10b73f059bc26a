import Mathlib.Tactic
import Strimz.AdminUsers

/-!
# What one step does to the operators' rows

`step_effect` says it once: a step leaves the rows alone, sets a role or a status, inserts an
invited row, renews an invite or links an account. Each case carries the guards of its
statement. `TaskOk` is what the tasks have established on the way to theirs.
-/

namespace Strimz.AdminUsers

/-! ## Projections of the small updates -/

section Projections

variable (w : World) (k : Nat) (t : Task) (r : Except AdminError Unit) (e : AdminError)

@[simp] theorem World.admins_spawn : (w.spawn t).admins = w.admins := rfl
@[simp] theorem World.issues_spawn : (w.spawn t).issues = w.issues := rfl
@[simp] theorem World.links_spawn : (w.spawn t).links = w.links := rfl
@[simp] theorem World.identified_spawn : (w.spawn t).identified = w.identified := rfl
@[simp] theorem World.tasks_spawn : (w.spawn t).tasks = w.tasks ++ [t] := rfl

@[simp] theorem World.admins_reply : (w.reply r).admins = w.admins := rfl
@[simp] theorem World.issues_reply : (w.reply r).issues = w.issues := rfl
@[simp] theorem World.links_reply : (w.reply r).links = w.links := rfl
@[simp] theorem World.identified_reply : (w.reply r).identified = w.identified := rfl
@[simp] theorem World.tasks_reply : (w.reply r).tasks = w.tasks := rfl

@[simp] theorem World.admins_fail : (w.fail e).admins = w.admins := rfl
@[simp] theorem World.issues_fail : (w.fail e).issues = w.issues := rfl
@[simp] theorem World.links_fail : (w.fail e).links = w.links := rfl
@[simp] theorem World.identified_fail : (w.fail e).identified = w.identified := rfl
@[simp] theorem World.tasks_fail : (w.fail e).tasks = w.tasks := rfl

@[simp] theorem World.admins_finish : (w.finish k).admins = w.admins := rfl
@[simp] theorem World.issues_finish : (w.finish k).issues = w.issues := rfl
@[simp] theorem World.links_finish : (w.finish k).links = w.links := rfl
@[simp] theorem World.identified_finish : (w.finish k).identified = w.identified := rfl
@[simp] theorem World.tasks_finish : (w.finish k).tasks = w.tasks.eraseIdx k := rfl

end Projections

/-! ## The rows -/

/-- What a step makes of the rows, the issued tokens and the links. -/
inductive Effect (env : Env) (w : World) : Label → World → Prop where
  | kept {l : Label} {w' : World} (hadmins : w'.admins = w.admins) (hissues : w'.issues = w.issues)
      (hlinks : w'.links = w.links) : Effect env w l w'
  | set {k : Nat} {a : Answer} {actorId adminId : Nat} {to_ : Setting} {w' : World}
      (htask : w.tasks[k]? = some (.changing actorId adminId to_))
      (hadmins : w'.admins = Table.updateWhere (·.id = adminId) to_.put w.admins)
      (hissues : w'.issues = w.issues) (hlinks : w'.links = w.links) : Effect env w (.run k a) w'
  | invited {k : Nat} {a : Answer} {email : String} {role : AdminRole} {invite : IssuedToken}
      {w' : World} (htask : w.tasks[k]? = some (.inviting email role))
      (hfresh : ∀ i ∈ w.issues, i.token ≠ invite.token)
      (hhash : invite.hash = env.sha256 invite.token)
      (hadmins : w'.admins = w.admins ++ [newAdmin w.newId email role invite])
      (hissues : w'.issues = ⟨w.newId, invite.token, invite.expiresAt⟩ :: w.issues)
      (hlinks : w'.links = w.links) : Effect env w (.run k a) w'
  | renewed {k : Nat} {a : Answer} {adminId : Nat} {invite : IssuedToken} {w' : World}
      (htask : w.tasks[k]? = some (.resending adminId))
      (hfresh : ∀ i ∈ w.issues, i.token ≠ invite.token)
      (hhash : invite.hash = env.sha256 invite.token)
      (hone : w.admins.countP (pending adminId) = 1)
      (hadmins : w'.admins = Table.updateWhere (pending adminId) (renew invite) w.admins)
      (hissues : w'.issues = ⟨adminId, invite.token, invite.expiresAt⟩ :: w.issues)
      (hlinks : w'.links = w.links) : Effect env w (.run k a) w'
  | linked {k : Nat} {a : Answer} {call : Accept} {id : Nat} {email : String} {w' : World}
      (htask : w.tasks[k]? = some (.accepting call id email))
      (hone : w.admins.countP (acceptable env call id email) = 1)
      (hfree : ∀ r ∈ w.admins, r.privyUserId ≠ some call.privyUserId)
      (hadmins : w'.admins =
        Table.updateWhere (acceptable env call id email) (link call) w.admins)
      (hissues : w'.issues = w.issues) (hlinks : w'.links = w.links ++ [⟨id, call, email⟩]) :
      Effect env w (.run k a) w'

section Statements

variable {env : Env} {w : World} {k : Nat} {a : Answer}

theorem fresh_of_repeats {token : String} (h : (Answer.random token).repeats w = false) :
    ∀ i ∈ w.issues, i.token ≠ token := by
  simpa [Answer.repeats] using h

theorem effect_run {t : Task} (ht : w.tasks[k]? = some t) (hnew : a.repeats w = false) :
    Effect env w (.run k a) (runTask env (w.finish k) t a) := by
  have hkept {w' : World} (h : w'.admins = w.admins ∧ w'.issues = w.issues ∧ w'.links = w.links) :
      Effect env w (.run k a) w' := .kept h.1 h.2.1 h.2.2
  have hfresh (token : String) (h : (Answer.random token).repeats w = false) :
      ∀ i ∈ w.issues, i.token ≠ (issueAdminInviteToken env token w.now).token :=
    fresh_of_repeats h
  unfold runTask
  split
  case h_1 => exact hkept ⟨rfl, rfl, rfl⟩
  case h_2 =>
    split
    · exact hkept ⟨rfl, rfl, rfl⟩
    · split <;> exact hkept ⟨rfl, rfl, rfl⟩
  case h_3 actorId adminId to_ _ =>
    unfold updateAdmin
    split
    · exact hkept ⟨rfl, rfl, rfl⟩
    · exact .set ht rfl rfl rfl
  case h_4 => split <;> exact hkept ⟨rfl, rfl, rfl⟩
  case h_5 email role token =>
    unfold insertAdmin
    split
    · exact hkept ⟨rfl, rfl, rfl⟩
    · split
      · exact hkept ⟨rfl, rfl, rfl⟩
      · exact .invited ht (hfresh token hnew) rfl rfl rfl rfl
  case h_6 =>
    split
    · exact hkept ⟨rfl, rfl, rfl⟩
    · split
      · exact hkept ⟨rfl, rfl, rfl⟩
      · split <;> exact hkept ⟨rfl, rfl, rfl⟩
  case h_7 adminId token =>
    unfold renewInvite
    split
    · exact hkept ⟨rfl, rfl, rfl⟩
    · split
      · exact hkept ⟨rfl, rfl, rfl⟩
      · rename_i hone _
        exact .renewed ht (hfresh token hnew) rfl (not_not.mp hone) rfl rfl rfl
  case h_8 =>
    split
    · exact hkept ⟨rfl, rfl, rfl⟩
    · split <;> exact hkept ⟨rfl, rfl, rfl⟩
  case h_9 => split <;> exact hkept ⟨rfl, rfl, rfl⟩
  case h_10 => dsimp only; split <;> exact hkept ⟨rfl, rfl, rfl⟩
  case h_11 call id email _ =>
    unfold commitAccept
    split
    · exact hkept ⟨rfl, rfl, rfl⟩
    · split
      · exact hkept ⟨rfl, rfl, rfl⟩
      · rename_i hone hfree
        refine .linked ht (not_not.mp hone) ?_ rfl rfl rfl
        simpa using hfree
  all_goals exact hkept ⟨rfl, rfl, rfl⟩

theorem step_effect (env : Env) (w : World) (l : Label) : Effect env w l (step env w l) := by
  cases l with
  | request privyUserId r =>
      unfold step
      dsimp only
      split
      · exact .kept rfl rfl rfl
      · cases r <;> unfold handle <;> dsimp only
        case inviteAdmin | resendInvite => exact .kept rfl rfl rfl
        all_goals
          unfold setAdmin
          split <;> exact .kept rfl rfl rfl
  | accept token privyUserId => exact .kept rfl rfl rfl
  | run k a =>
      unfold step
      dsimp only
      split
      · exact .kept rfl rfl rfl
      · rename_i t ht
        split
        · exact .kept rfl rfl rfl
        · rename_i hnew
          exact effect_run ht (Bool.eq_false_of_not_eq_true hnew)
  | elapse ms => exact .kept rfl rfl rfl

end Statements

/-! ## The tasks -/

/-- A change is of another row than its actor's; an acceptance knows its account's email. -/
def TaskOk (w : World) : Task → Prop
  | .change actorId adminId _ | .changing actorId adminId _ => actorId ≠ adminId
  | .accepting call _ email => (call, email) ∈ w.identified
  | _ => True

def TasksOk (w : World) : Prop := ∀ t ∈ w.tasks, TaskOk w t

section Tasks

variable {env : Env} {w w' : World} {k : Nat} {a : Answer}

theorem TaskOk.mono {t : Task} (h : TaskOk w t) (hsub : w.identified ⊆ w'.identified) :
    TaskOk w' t := by
  cases t with
  | accepting => exact hsub h
  | _ => exact h

/-- No task comes in. -/
theorem TasksOk.sublist (h : TasksOk w) (htasks : w'.tasks.Sublist w.tasks)
    (hsub : w.identified ⊆ w'.identified) : TasksOk w' :=
  fun t ht => (h t (htasks.subset ht)).mono hsub

theorem TasksOk.spawn {t : Task} (h : TasksOk w) (ht : TaskOk w t) : TasksOk (w.spawn t) := by
  intro t' ht'
  rcases List.mem_append.mp ht' with ht' | ht'
  · exact (h t' ht').mono (List.Subset.refl _)
  · rw [List.mem_singleton.mp ht']
    exact ht.mono (List.Subset.refl _)

theorem TasksOk.finish (h : TasksOk w) (k : Nat) : TasksOk (w.finish k) :=
  h.sublist (List.eraseIdx_sublist _ _) (List.Subset.refl _)

theorem tasksOk_runTask {t : Task} (h : TasksOk w) (ht : TaskOk w t) :
    TasksOk (runTask env w t a) := by
  have hsame {w' : World} (h' : w'.tasks = w.tasks ∧ w'.identified = w.identified) : TasksOk w' :=
    h.sublist (h'.1 ▸ List.Sublist.refl _) (h'.2 ▸ List.Subset.refl _)
  unfold runTask
  split
  case h_1 => exact hsame ⟨rfl, rfl⟩
  case h_2 =>
    split
    · exact hsame ⟨rfl, rfl⟩
    · split
      · exact hsame ⟨rfl, rfl⟩
      · exact h.spawn ht
  case h_3 => unfold updateAdmin; split <;> exact hsame ⟨rfl, rfl⟩
  case h_4 =>
    split
    · exact hsame ⟨rfl, rfl⟩
    · exact h.spawn trivial
  case h_5 =>
    unfold insertAdmin
    split
    · exact hsame ⟨rfl, rfl⟩
    · split <;> exact hsame ⟨rfl, rfl⟩
  case h_6 =>
    split
    · exact hsame ⟨rfl, rfl⟩
    · split
      · exact hsame ⟨rfl, rfl⟩
      · split
        · exact hsame ⟨rfl, rfl⟩
        · exact h.spawn trivial
  case h_7 =>
    unfold renewInvite
    split
    · exact hsame ⟨rfl, rfl⟩
    · split <;> exact hsame ⟨rfl, rfl⟩
  case h_8 =>
    split
    · exact hsame ⟨rfl, rfl⟩
    · split
      · exact hsame ⟨rfl, rfl⟩
      · exact h.spawn trivial
  case h_9 =>
    split
    · exact hsame ⟨rfl, rfl⟩
    · exact h.spawn trivial
  case h_10 call id email primaryEmail =>
    dsimp only
    have hmore : TasksOk { w with identified :=
        (primaryEmail.map fun e => (call, e)).toList ++ w.identified } :=
      h.sublist (List.Sublist.refl _) (List.subset_append_right _ _)
    split
    · exact hmore.sublist (List.Sublist.refl _) (List.Subset.refl _)
    · rename_i hemail
      obtain rfl : primaryEmail = some email := not_not.mp hemail
      exact hmore.spawn List.mem_cons_self
  case h_11 =>
    unfold commitAccept
    split
    · exact hsame ⟨rfl, rfl⟩
    · split <;> exact hsame ⟨rfl, rfl⟩
  all_goals exact hsame ⟨rfl, rfl⟩

theorem tasksOk_step (env : Env) (h : TasksOk w) (l : Label) : TasksOk (step env w l) := by
  cases l with
  | request privyUserId r =>
      unfold step
      dsimp only
      split
      · exact h
      · cases r <;> unfold handle <;> dsimp only
        case inviteAdmin | resendInvite => exact h.spawn trivial
        all_goals
          unfold setAdmin
          split
          · exact h
          · rename_i hne
            exact h.spawn fun heq => hne heq.symm
  | accept token privyUserId => exact h.spawn trivial
  | run k a =>
      unfold step
      dsimp only
      split
      · exact h
      · rename_i t ht
        split
        · exact h
        · exact tasksOk_runTask (h.finish k) ((h t (List.mem_of_getElem? ht)).mono
            (List.Subset.refl _))
  | elapse ms => exact h

theorem World.Launched.tasksOk (h : w.Launched) : TasksOk w := by
  intro t ht
  rw [h.tasks] at ht
  cases ht

end Tasks

end Strimz.AdminUsers
