import Strimz.DeadLetters
import Strimz.ProjectionFrame

/-!
# What parking and retrying do

The inversion lemmas of `DeadLetters`: a log that is applied or parked either had its
projection committed as it stands, or left one dead letter and nothing else.
-/

namespace Strimz.Indexer

open Tx

variable {db db' : Db}

/-- A letter goes in once. -/
def Db.parkOnce (db : Db) (d : DeadLetter) : Db :=
  if db.deadLetters.any fun d' => d'.key = d.key then db else db.park d

theorem insertDeadLetter_eq_ok {d : DeadLetter} {r : Unit × Db} :
    insertDeadLetter d db = .ok r ↔ IsDate d.blockTimestamp ∧ r = ((), db.parkOnce d) := by
  simp only [insertDeadLetter, Db.parkOnce, bind_eq_ok, timestampParam_eq_ok, get_eq_ok,
    Prod.mk.injEq, existsAndEq, exists_const, true_and, and_true]
  by_cases h : db.deadLetters.any fun d' => d'.key = d.key
  · simp only [h, if_true, pure_eq_ok]
  · rw [if_neg h, if_neg h, modify_eq_ok]

theorem resolveDeadLetter_eq_ok {d : DeadLetter} {r : Unit × Db} :
    resolveDeadLetter d db = .ok r ↔
      r = ((), db.mapLetter d.key fun d => { d with resolved := true }) :=
  modify_eq_ok

theorem recordDeadLetterAttempt_eq_ok {d : DeadLetter} {reason : Unresolvable} {r : Unit × Db} :
    recordDeadLetterAttempt d reason db = .ok r ↔
      r = ((), db.mapLetter d.key fun d => { d with attempts := d.attempts + 1, reason := reason }) :=
  modify_eq_ok

namespace Projector

variable {p : Projector} {lg : Log} {t : Int}

theorem applyOrPark_eq_ok :
    p.applyOrPark lg t db = .ok ((), db') ↔
      p.apply lg t db = .ok ((), db') ∨
        ∃ reason, p.apply lg t db = .error (.unresolvable reason) ∧ IsDate t ∧
          db' = db.parkOnce ⟨lg, t, reason, 1, false⟩ := by
  simp only [applyOrPark, bind_eq_ok, attempt_eq_ok]
  cases happly : p.apply lg t db with
  | ok r =>
      obtain ⟨⟨⟩, db₁⟩ := r
      simp [pure_eq_ok]
      exact eq_comm
  | error e =>
      cases e with
      | fault f => simp [throw_eq_ok]
      | unresolvable reason => simp [insertDeadLetter_eq_ok]

theorem retryLetter_eq_ok {d : DeadLetter} :
    p.retryLetter d db = .ok ((), db') ↔
      (∃ db₁, p.apply d.log d.blockTimestamp db = .ok ((), db₁) ∧
          db' = db₁.mapLetter d.key fun d => { d with resolved := true }) ∨
        ∃ reason, p.apply d.log d.blockTimestamp db = .error (.unresolvable reason) ∧
          db' = db.mapLetter d.key fun d =>
            { d with attempts := d.attempts + 1, reason := reason } := by
  simp only [retryLetter, bind_eq_ok, attempt_eq_ok]
  cases happly : p.apply d.log d.blockTimestamp db with
  | ok r =>
      obtain ⟨⟨⟩, db₁⟩ := r
      simp [resolveDeadLetter_eq_ok]
  | error e =>
      cases e with
      | fault f => simp [throw_eq_ok]
      | unresolvable reason => simp [recordDeadLetterAttempt_eq_ok]

/-- A log that does not project leaves at most a dead letter. -/
theorem commit_applyOrPark_of_error {e : ApplyError} (h : p.apply lg t db = .error e) :
    ∃ letters, commit (p.applyOrPark lg t) db = { db with deadLetters := letters } := by
  refine commit_cases (P := fun db' => ∃ letters, db' = { db with deadLetters := letters })
    ⟨db.deadLetters, rfl⟩ fun _ db' hok => ?_
  rcases applyOrPark_eq_ok.mp hok with happly | ⟨reason, -, -, rfl⟩
  · rw [h] at happly
    cases happly
  · unfold Db.parkOnce
    split
    · exact ⟨_, rfl⟩
    · exact ⟨_, rfl⟩

theorem commit_applyOrPark_of_ok (h : p.apply lg t db = .ok ((), db')) :
    commit (p.applyOrPark lg t) db = db' :=
  commit_of_ok (applyOrPark_eq_ok.mpr (Or.inl h))

theorem applyOrPark_cursors (h : p.applyOrPark lg t db = .ok ((), db')) :
    db'.cursors = db.cursors := by
  rcases applyOrPark_eq_ok.mp h with happly | ⟨_, -, -, rfl⟩
  · exact congrArg Prod.snd (keeps_apply db _ happly)
  · unfold Db.parkOnce
    split <;> rfl

theorem applyLogs_cursors {logs : List (Log × Int)} (h : p.applyLogs logs db = .ok ((), db')) :
    db'.cursors = db.cursors := by
  induction logs generalizing db with
  | nil => rw [(Prod.mk.inj (pure_eq_ok.mp h)).2]
  | cons l logs ih =>
      obtain ⟨_, db₁, hl, hlogs⟩ := bind_eq_ok.mp h
      exact (ih hlogs).trans (applyOrPark_cursors hl)

/-! ## Logs that all project -/

/-- Every log projected, none parked. -/
def applyAll (p : Projector) : List (Log × Int) → Projection Unit
  | [] => pure ()
  | (lg, blockTime) :: logs => do
      p.apply lg blockTime
      applyAll p logs

theorem applyAll_nil_eq_ok : p.applyAll [] db = .ok ((), db') ↔ db' = db := by
  simp [applyAll, pure_eq_ok]

theorem applyAll_cons_eq_ok {l : Log × Int} {logs : List (Log × Int)} :
    p.applyAll (l :: logs) db = .ok ((), db') ↔
      ∃ db₁, p.apply l.1 l.2 db = .ok ((), db₁) ∧ p.applyAll logs db₁ = .ok ((), db') := by
  simp only [applyAll, bind_eq_ok]
  exact ⟨fun ⟨_, db₁, h⟩ => ⟨db₁, h⟩, fun ⟨db₁, h⟩ => ⟨(), db₁, h⟩⟩

theorem applyAll_append_eq_ok {logs rest : List (Log × Int)} :
    p.applyAll (logs ++ rest) db = .ok ((), db') ↔
      ∃ db₁, p.applyAll logs db = .ok ((), db₁) ∧ p.applyAll rest db₁ = .ok ((), db') := by
  induction logs generalizing db with
  | nil => simp [applyAll_nil_eq_ok]
  | cons l logs ih =>
      simp only [List.cons_append, applyAll_cons_eq_ok, ih]
      constructor
      · rintro ⟨db₁, hl, db₂, hlogs, hrest⟩
        exact ⟨db₂, ⟨db₁, hl, hlogs⟩, hrest⟩
      · rintro ⟨db₂, ⟨db₁, hl, hlogs⟩, hrest⟩
        exact ⟨db₁, hl, db₂, hlogs, hrest⟩

/-- A batch whose logs all project commits what they write. -/
theorem applyLogs_of_applyAll {logs : List (Log × Int)} (h : p.applyAll logs db = .ok ((), db')) :
    p.applyLogs logs db = .ok ((), db') := by
  induction logs generalizing db with
  | nil => exact h
  | cons l logs ih =>
      obtain ⟨db₁, hl, hlogs⟩ := applyAll_cons_eq_ok.mp h
      rw [applyLogs, bind_eq_ok]
      exact ⟨(), db₁, applyOrPark_eq_ok.mpr (Or.inl hl), ih hlogs⟩

/-- What one projection preserves, a repeated one does. -/
theorem applyAll_replicate {P : Db → Prop} {l : Log × Int} {n : Nat}
    (hstep : ∀ db db', P db → p.apply l.1 l.2 db = .ok ((), db') → P db') (h : P db)
    (hrun : p.applyAll (List.replicate n l) db = .ok ((), db')) : P db' := by
  induction n generalizing db with
  | zero => exact applyAll_nil_eq_ok.mp hrun ▸ h
  | succ n ih =>
      obtain ⟨db₁, hl, hrest⟩ := applyAll_cons_eq_ok.mp hrun
      exact ih (hstep db db₁ h hl) hrest

end Projector

end Strimz.Indexer
