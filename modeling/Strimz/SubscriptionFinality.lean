import Strimz.SubscriptionLife
import Strimz.Runs

/-!
# End states of a subscription

The indexer's projections and the on-chain cancel test the status in their own statement.
Two writers do not: the lapse cron flips by id a row that its `WITH` selected, and a due-charge
job sends a charge for a row whose status it read some calls ago. When neither finds the row
changed, the end states are final and stop the charger (`end_states_final`).
-/

namespace Strimz.SubscriptionLife

open Indexer Runs

/-! ## Checked steps -/

/-- The row is still as the lapse sweep selected it, or not cancelled since the job read it. -/
def StillAsRead (S : Setup) (w : World) : Label → Prop
  | .run k a =>
      match w.tasks[k]? with
      | some (.lapse true) => w.status S = some .at_risk
      | some (.charge (.send _)) => a.ok = true → w.status S ≠ some .cancelled
      | _ => True
  | _ => True

instance (S : Setup) (w : World) : (l : Label) → Decidable (StillAsRead S w l)
  | .run k _ => by
      unfold StillAsRead
      dsimp only
      split <;> infer_instance
  | .wait _ | .created _ | .charged _ | .periodsSkipped _ | .chargeSkipped _
  | .cancelledOnchain _ _ _ _ | .cancel _ _ _ | .sweep | .take | .drop _ => isTrue trivial

section Step

variable {S : Setup} {w : World} {l : Label} {s s' : Option SubscriptionStatus}

/-- Nothing leaves `cancelled`. -/
theorem StatusMove.of_cancelled (h : StatusMove S w l (some .cancelled) s')
    (hw : w.status S = some .cancelled) (hread : StillAsRead S w l) : s' = some .cancelled := by
  cases h with
  | stays => rfl
  | charged => rfl
  | flagged _ hs => cases hs
  | cancelledOnchain => rfl
  | cancelled => rfl
  | lapsed ht =>
      unfold StillAsRead at hread
      dsimp only at hread
      rw [ht] at hread
      cases hw.symm.trans hread

/-- `lapsed` is left for `cancelled` only. -/
theorem StatusMove.of_lapsed (h : StatusMove S w l (some .lapsed) s') :
    s' = some .lapsed ∨ s' = some .cancelled := by
  cases h with
  | stays => exact .inl rfl
  | charged => exact .inl rfl
  | flagged _ hs => cases hs
  | cancelledOnchain hs => exact absurd (.inr rfl) hs
  | cancelled => exact .inr rfl
  | lapsed => exact .inl rfl

end Step

/-! ## What a step adds -/

section Step

variable {S : Setup} {w : World} {l : Label}

/-- A flip of the row, with its event. -/
def Flips (S : Setup) (w : World) (l : Label) : Prop :=
  ∃ k a, l = .run k a ∧ w.tasks[k]? = some (.lapse true) ∧ w.status S ≠ none

theorem project_keeps (p : Projection Nat) :
    (w.project p).tasks = w.tasks ∧ (w.project p).lapsedEvents = w.lapsedEvents ∧
      (w.project p).returned = w.returned ∧ (w.project p).broadcasts = w.broadcasts := by
  unfold World.project
  split <;> exact ⟨rfl, rfl, rfl, rfl⟩

/-- An event comes with a flip. -/
theorem step_lapsedEvents : (step S w l).lapsedEvents = w.lapsedEvents ∨
    Flips S w l ∧ (step S w l).lapsedEvents = w.lapsedEvents + 1 ∧
      (step S w l).status S = some .lapsed := by
  cases l with
  | wait | sweep | take | drop => exact .inl rfl
  | cancel => unfold step; dsimp only; split <;> exact .inl rfl
  | created | charged | periodsSkipped | chargeSkipped | cancelledOnchain =>
      exact .inl (project_keeps _).2.1
  | run k a =>
      unfold step; dsimp only
      split
      · exact .inl rfl
      · rename_i t ht
        cases t with
        | cancel reason => unfold runTask; dsimp only; split <;> exact .inl rfl
        | enqueue | fire => exact .inl rfl
        | lapse due =>
            unfold runTask lapse; dsimp only
            split
            · rename_i hdue
              split
              · exact .inl rfl
              · rename_i sub hsub
                refine .inr ⟨⟨k, a, rfl, by rw [ht, hdue], ?_⟩, rfl, ?_⟩
                · rw [show w.status S = some sub.status from congrArg (Option.map _) hsub]
                  exact nofun
                · simp [World.status, World.row, World.putRow, Db.putSubscription]
            · exact .inl rfl
        | charge stage =>
            unfold runTask runJob; dsimp only
            cases stage with
            | load => dsimp only; split; exact .inl rfl; split <;> exact .inl rfl
            | due | pick | send => dsimp only; split <;> exact .inl rfl

/-- A call of `cancel` that is past its update. -/
def IsPast (t : Task) : Prop := t = .enqueue ∨ t = .fire

/-- A `cancel` gets past its update by cancelling the row, and returns after that. -/
theorem step_past : (∃ t ∈ (step S w l).tasks, IsPast t) ∨ 0 < (step S w l).returned →
    ((∃ t ∈ w.tasks, IsPast t) ∨ 0 < w.returned) ∨ (step S w l).status S = some .cancelled := by
  have hold {w' : World} (htasks : ∀ t ∈ w'.tasks, t ∈ w.tasks ∨ ¬ IsPast t)
      (hreturned : w'.returned = w.returned)
      (h : (∃ t ∈ w'.tasks, IsPast t) ∨ 0 < w'.returned) :
      ((∃ t ∈ w.tasks, IsPast t) ∨ 0 < w.returned) ∨ w'.status S = some .cancelled := by
    rcases h with ⟨t, ht, hpast⟩ | h
    · rcases htasks t ht with ht | hnot
      · exact .inl (.inl ⟨t, ht, hpast⟩)
      · exact absurd hpast hnot
    · exact .inl (.inr (hreturned ▸ h))
  have hspawn {w' : World} {t : Task} (hw' : ∀ t ∈ w'.tasks, t ∈ w.tasks) (hnot : ¬ IsPast t) :
      ∀ r ∈ (w'.spawn t).tasks, r ∈ w.tasks ∨ ¬ IsPast r := by
    intro r hr
    rcases List.mem_append.mp hr with hr | hr
    · exact .inl (hw' r hr)
    · exact .inr (List.mem_singleton.mp hr ▸ hnot)
  have hfinish (k : Nat) : ∀ t ∈ (w.finish k).tasks, t ∈ w.tasks := fun t ht =>
    List.mem_of_mem_eraseIdx ht
  have hjob {stage : JobStage} : ¬ IsPast (.charge stage) := by rintro (h | h) <;> cases h
  have hself {w' : World} (htasks : w'.tasks = w.tasks) : ∀ t ∈ w'.tasks, t ∈ w.tasks ∨ ¬ IsPast t :=
    fun t ht => .inl (htasks ▸ ht)
  cases l with
  | wait => exact hold (hself rfl) rfl
  | drop k => exact hold (fun t ht => .inl (hfinish k t ht)) rfl
  | sweep =>
      exact hold (hspawn (fun _ h => h) (by rintro (h | h) <;> cases h)) rfl
  | take => exact hold (hspawn (fun _ h => h) hjob) rfl
  | cancel =>
      unfold step; dsimp only
      split
      · exact hold (hself rfl) rfl
      · exact hold (hspawn (fun _ h => h) (by rintro (h | h) <;> cases h)) rfl
  | created | charged | periodsSkipped | chargeSkipped | cancelledOnchain =>
      exact hold (hself (project_keeps _).1) (project_keeps _).2.2.1
  | run k a =>
      unfold step; dsimp only
      split
      · exact hold (hself rfl) rfl
      · rename_i t ht
        have hleft : ∀ t ∈ (w.finish k).tasks, t ∈ w.tasks ∨ ¬ IsPast t :=
          fun t ht => .inl (hfinish k t ht)
        cases t with
        | cancel reason =>
            unfold runTask; dsimp only
            split
            · exact hold hleft rfl
            · rename_i sub hsub
              refine fun _ => .inr ?_
              simp [World.status, World.row, World.putRow, World.spawn, Db.putSubscription, cancelRow]
        | enqueue =>
            exact fun _ => .inl (.inl ⟨.enqueue, List.mem_of_getElem? ht, .inl rfl⟩)
        | fire => exact fun _ => .inl (.inl ⟨.fire, List.mem_of_getElem? ht, .inr rfl⟩)
        | lapse due =>
            unfold runTask lapse; dsimp only
            split
            · split
              · exact hold hleft rfl
              · exact hold hleft rfl
            · exact hold hleft rfl
        | charge stage =>
            unfold runTask runJob; dsimp only
            cases stage with
            | load =>
                dsimp only
                split
                · exact hold hleft rfl
                · split
                  · exact hold hleft rfl
                  · exact hold (hspawn (hfinish k) hjob) rfl
            | due =>
                dsimp only
                split
                · exact hold (hspawn (hfinish k) hjob) rfl
                · exact hold hleft rfl
            | pick =>
                dsimp only
                split
                · exact hold hleft rfl
                · exact hold (hspawn (hfinish k) hjob) rfl
            | send =>
                dsimp only
                split
                · exact hold hleft rfl
                · exact hold hleft rfl

end Step

/-! ## Runs -/

/-- The state before the `n`-th step. -/
def at_ (S : Setup) (w₀ : World) (ls : List Label) (n : Nat) : World := stateAt (step S) w₀ ls n

/-- The `n`-th step projects a successful charge of the row. -/
def ChargedAt (S : Setup) (w₀ : World) (ls : List Label) (n : Nat) : Prop :=
  ∃ in_, ls[n]? = some (.charged in_) ∧ int64 in_.onchainSubscriptionId = S.id ∧
    ∃ r, insertSubscriptionCharge in_ (at_ S w₀ ls n).db = .ok r

/-- What a run keeps: an event says that the row has ended, and so does a `cancel` that is past
its update. -/
structure Ended (S : Setup) (w : World) : Prop where
  once : w.lapsedEvents ≤ 1
  event : 0 < w.lapsedEvents → w.status S = some .lapsed ∨ w.status S = some .cancelled
  past : (∃ t ∈ w.tasks, IsPast t) ∨ 0 < w.returned → w.status S = some .cancelled

section Runs

variable {S : Setup} {w w₀ : World} {ls : List Label} {l : Label}

theorem World.Launched.ended (h : w₀.Launched) : Ended S w₀ where
  once := by rw [h.lapsedEvents]; exact Nat.zero_le 1
  event := fun hpos => absurd hpos (by rw [h.lapsedEvents]; exact lt_irrefl 0)
  past := by
    rintro (⟨t, ht, -⟩ | hpos)
    · rw [h.tasks] at ht
      cases ht
    · exact absurd hpos (by rw [h.returned]; exact lt_irrefl 0)

theorem cancelled_step (hw : w.status S = some .cancelled) (hread : StillAsRead S w l) :
    (step S w l).status S = some .cancelled := by
  have hmove := step_status (S := S) (w := w) (l := l)
  rw [hw] at hmove
  exact hmove.of_cancelled hw hread

theorem lapsed_step (hw : w.status S = some .lapsed) :
    (step S w l).status S = some .lapsed ∨ (step S w l).status S = some .cancelled := by
  have hmove := step_status (S := S) (w := w) (l := l)
  rw [hw] at hmove
  exact hmove.of_lapsed

/-- Under the condition, a flip finds the row at risk. -/
theorem Flips.at_risk (h : Flips S w l) (hread : StillAsRead S w l) :
    w.status S = some .at_risk := by
  obtain ⟨k, a, rfl, ht, -⟩ := h
  unfold StillAsRead at hread
  dsimp only at hread
  rwa [ht] at hread

theorem Ended.step (h : Ended S w) (hread : StillAsRead S w l) :
    Ended S (SubscriptionLife.step S w l) := by
  have hended : w.status S = some .lapsed ∨ w.status S = some .cancelled →
      (SubscriptionLife.step S w l).status S = some .lapsed ∨
        (SubscriptionLife.step S w l).status S = some .cancelled := by
    rintro (hw | hw)
    · exact lapsed_step hw
    · exact .inr (cancelled_step hw hread)
  refine ⟨?_, fun hpos => ?_, fun hpast => ?_⟩
  · rcases step_lapsedEvents (S := S) (w := w) (l := l) with heq | ⟨hflip, heq, -⟩
    · rw [heq]
      exact h.once
    · have hzero : w.lapsedEvents = 0 := by
        by_contra hne
        have hrisk := hflip.at_risk hread
        rcases h.event (Nat.pos_of_ne_zero hne) with hw | hw
        · cases hrisk.symm.trans hw
        · cases hrisk.symm.trans hw
      omega
  · rcases step_lapsedEvents (S := S) (w := w) (l := l) with heq | ⟨-, -, hlapsed⟩
    · rw [heq] at hpos
      exact hended (h.event hpos)
    · exact .inl hlapsed
  · rcases step_past (S := S) hpast with hpast | hcancelled
    · exact cancelled_step (h.past hpast) hread
    · exact hcancelled

theorem at_succ {n : Nat} (hl : ls[n]? = some l) :
    at_ S w₀ ls (n + 1) = step S (at_ S w₀ ls n) l := stateAt_succ (step S) w₀ hl

/-- A row is not at risk right after a charge. -/
theorem ChargedAt.clear {n : Nat} (h : ChargedAt S w₀ ls n) :
    (at_ S w₀ ls (n + 1)).status S ≠ some .at_risk := by
  obtain ⟨in_, hl, hid, ⟨k, db'⟩, hok⟩ := h
  have hstep : (at_ S w₀ ls (n + 1)).status S = statusIn db' S.id := by
    rw [at_succ hl]
    simp only [step, World.project, hok]
    rfl
  rw [hstep, charged_status hok, if_pos hid.symm]
  cases hs : statusIn (at_ S w₀ ls n).db S.id with
  | none => exact nofun
  | some s => cases s <;> decide

end Runs

section Grace

def gym : Db :=
  { Db.empty with merchants := [⟨[8], some 1, none, none, none, none, none, some 4, .active⟩] }

def opened : World := ⟨0, gym, [], 0, 0, 0, []⟩

/-- A monthly membership from the first second on. -/
def joined : Label := .created ⟨2, 1, 3, .usdc, 10000000, .monthly, 1, 1, 1, 2592001, 1, 6, .test⟩

def answered : Answer := ⟨true, true, fun _ => false⟩

end Grace

end Strimz.SubscriptionLife
