import Strimz.DeadLetterSteps
import Strimz.Replay
import Strimz.Runs
import Strimz.Stream

/-!
# Replays over whole runs

The moves of the indexer are its transactions: a batch, a pass over the dead letters, and what
the other writers of the database commit meanwhile. Whatever a run has projected can be
projected again at its end (`replay_safe`).
-/

namespace Strimz.Indexer

open Tx Runs

inductive Move where
  | batch (key : CursorKey) (logs : List (Log × Int)) (cp : Checkpoint)
  | retry
  /-- The API rewrites sessions and invoices, the dispatcher the outbox. -/
  | others (sessions : RowId → Option PaymentSessionRow) (invoices : RowId → Option InvoiceRow)
      (webhookEvents : List WebhookEvent)

namespace Projector

variable (p : Projector)

def move (db : Db) : Move → Db
  | .batch key logs cp => commit (batchTx p key logs cp) db
  | .retry => (p.retryDeadLetters db).1
  | .others sessions invoices webhookEvents =>
      { db with sessions := sessions, invoices := invoices, webhookEvents := webhookEvents }

/-- Of the logs of a batch, those that were projected and not parked. -/
def appliedIn : List (Log × Int) → Db → List (Log × Int)
  | [], _ => []
  | l :: logs, db =>
      match p.apply l.1 l.2 db with
      | .ok (_, db') => l :: appliedIn logs db'
      | .error _ => appliedIn logs (commit (p.applyOrPark l.1 l.2) db)

/-- Of the letters of a pass, the logs of those that were projected. -/
def resolvedIn : List DeadLetter → Db → List (Log × Int)
  | [], _ => []
  | d :: ds, db =>
      match p.retryLetter d db with
      | .ok (_, db') =>
          (if (p.apply d.log d.blockTimestamp db).isOk = true then [(d.log, d.blockTimestamp)]
            else []) ++ resolvedIn ds db'
      | .error _ => []

/-- The logs a move projects. -/
def projected (db : Db) : Move → List (Log × Int)
  | .batch key logs cp =>
      if (batchTx p key logs cp db).isOk = true then p.appliedIn logs db else []
  | .retry => p.resolvedIn (db.unresolvedDeadLetters deadLetterRetryLimit) db
  | .others .. => []

end Projector

/-! ## One move -/

section Moves

variable {p : Projector} {db db' : Db} {l : Log × Int}

/-- The log has been projected, and the database only moved on since. -/
def Seen (p : Projector) (l : Log × Int) (db : Db) : Prop :=
  ∃ before after, p.apply l.1 l.2 before = .ok ((), after) ∧ Kept after db

theorem Seen.kept (h : Seen p l db) (hk : Kept db db') : Seen p l db' := by
  obtain ⟨before, after, happly, hkept⟩ := h
  exact ⟨before, after, happly, hkept.trans hk⟩

theorem kept_parkOnce {d : DeadLetter} : Kept db (db.parkOnce d) := by
  unfold Db.parkOnce
  split
  · exact .refl db
  · exact { Kept.refl db with }

theorem kept_applyOrPark (h : p.applyOrPark l.1 l.2 db = .ok ((), db')) : Kept db db' := by
  rcases Projector.applyOrPark_eq_ok.mp h with happly | ⟨reason, -, -, rfl⟩
  · exact Projector.apply_kept happly
  · exact kept_parkOnce

theorem applyLogs_moves {logs : List (Log × Int)} (h : p.applyLogs logs db = .ok ((), db')) :
    Kept db db' ∧ ∀ l ∈ p.appliedIn logs db, Seen p l db' := by
  induction logs generalizing db with
  | nil =>
      obtain ⟨-, rfl⟩ := Prod.mk.inj (pure_eq_ok.mp h)
      exact ⟨.refl _, fun l hl => absurd hl List.not_mem_nil⟩
  | cons l logs ih =>
      obtain ⟨_, db₁, hl, hlogs⟩ := bind_eq_ok.mp h
      obtain ⟨hkept, hseen⟩ := ih hlogs
      refine ⟨(kept_applyOrPark hl).trans hkept, fun l' hl' => ?_⟩
      unfold Projector.appliedIn at hl'
      cases happly : p.apply l.1 l.2 db with
      | ok r =>
          obtain ⟨⟨⟩, db₂⟩ := r
          rw [happly] at hl'
          rcases Projector.applyOrPark_eq_ok.mp hl with happly' | ⟨reason, herror, -⟩
          · obtain rfl : db₂ = db₁ := by rw [happly] at happly'; cases happly'; rfl
            rcases List.mem_cons.mp hl' with rfl | hl'
            · exact ⟨db, db₂, happly, hkept⟩
            · exact hseen l' hl'
          · rw [happly] at herror
            cases herror
      | error e =>
          rw [happly] at hl'
          rw [commit_of_ok hl] at hl'
          exact hseen l' hl'

theorem kept_mapLetter {key : TxKey} {f : DeadLetter → DeadLetter} : Kept db (db.mapLetter key f) :=
  { Kept.refl db with }

theorem retryLetters_moves (ds : List DeadLetter) (db : Db) :
    Kept db (p.retryLetters ds db).1 ∧
      ∀ l ∈ p.resolvedIn ds db, Seen p l (p.retryLetters ds db).1 := by
  induction ds generalizing db with
  | nil => exact ⟨.refl db, fun l hl => absurd hl List.not_mem_nil⟩
  | cons d ds ih =>
      unfold Projector.retryLetters Projector.resolvedIn
      cases hretry : p.retryLetter d db with
      | error e => exact ⟨.refl db, fun l hl => absurd hl List.not_mem_nil⟩
      | ok r =>
          obtain ⟨⟨⟩, db₁⟩ := r
          obtain ⟨hkept, hseen⟩ := ih db₁
          dsimp only
          rcases Projector.retryLetter_eq_ok.mp hretry with ⟨db₂, happly, rfl⟩ | ⟨reason, herror, rfl⟩
          · have happlied := Projector.apply_kept happly
            refine ⟨(happlied.trans kept_mapLetter).trans hkept, fun l hl => ?_⟩
            rw [happly] at hl
            rcases List.mem_append.mp hl with hl | hl
            · obtain rfl := List.mem_singleton.mp hl
              exact ⟨db, db₂, happly, kept_mapLetter.trans hkept⟩
            · exact hseen l hl
          · refine ⟨kept_mapLetter.trans hkept, fun l hl => ?_⟩
            rw [herror] at hl
            exact hseen l hl

theorem batch_moves (key : CursorKey) (logs : List (Log × Int)) (cp : Checkpoint) (db : Db) :
    Kept db (p.move db (.batch key logs cp)) ∧
      ∀ l ∈ p.projected db (.batch key logs cp), Seen p l (p.move db (.batch key logs cp)) := by
  have hmove : p.move db (.batch key logs cp) = commit (batchTx p key logs cp) db := rfl
  have hprojected : p.projected db (.batch key logs cp) =
    if (batchTx p key logs cp db).isOk = true then p.appliedIn logs db else [] := rfl
  rw [hmove, hprojected]
  cases hbatch : batchTx p key logs cp db with
  | error e =>
      rw [commit_of_error hbatch]
      exact ⟨.refl db, fun l hl => absurd hl List.not_mem_nil⟩
  | ok r =>
      obtain ⟨⟨⟩, db'⟩ := r
      rw [commit_of_ok hbatch]
      obtain ⟨_, db₁, hlogs, hcursor⟩ := bind_eq_ok.mp hbatch
      obtain ⟨-, rfl⟩ := Prod.mk.inj (modify_eq_ok.mp hcursor)
      obtain ⟨hkept, hseen⟩ := applyLogs_moves hlogs
      have hcheckpoint : Kept db₁ (db₁.putCheckpoint key cp) := { Kept.refl db₁ with }
      exact ⟨hkept.trans hcheckpoint, fun l hl => (hseen l hl).kept hcheckpoint⟩

theorem move_moves (m : Move) (db : Db) :
    Kept db (p.move db m) ∧ ∀ l ∈ p.projected db m, Seen p l (p.move db m) := by
  cases m with
  | batch key logs cp => exact batch_moves key logs cp db
  | retry => exact retryLetters_moves _ db
  | others => exact ⟨{ Kept.refl db with }, fun l hl => absurd hl List.not_mem_nil⟩

end Moves

/-! ## Runs -/

section Replays

variable {p : Projector} {db : Db} {moves : List Move}

theorem exec_seen {l : Log × Int} (h : l ∈ collect p.move p.projected db moves) :
    Seen p l (exec p.move db moves) := by
  induction moves generalizing db with
  | nil => exact absurd h List.not_mem_nil
  | cons m moves ih =>
      rcases List.mem_append.mp h with h | h
      · exact ((move_moves m db).2 l h).kept
          (exec_rel Kept.refl Kept.trans (fun s m _ => (move_moves m s).1) _)
      · exact ih h

theorem applyAll_again {again : List (Log × Int)} (h : ∀ l ∈ again, Seen p l db) :
    ∃ db', p.applyAll again db = .ok ((), db') ∧
      SameBut (again.flatMap fun l => l.1.rewrites) db db' := by
  induction again generalizing db with
  | nil => exact ⟨db, Projector.applyAll_nil_eq_ok.mpr rfl, .refl _ _⟩
  | cons l again ih =>
      obtain ⟨before, after, happly, hkept⟩ := h l List.mem_cons_self
      obtain ⟨db₁, hl, hsame⟩ := Projector.apply_again happly hkept
      obtain ⟨db', hrest, hsame'⟩ := ih fun l' hl' =>
        (h l' (List.mem_cons_of_mem _ hl')).kept (Projector.apply_kept hl)
      exact ⟨db', Projector.applyAll_cons_eq_ok.mpr ⟨db₁, hl, hrest⟩, hsame.trans hsame'⟩

/-- After any run of batches, retry passes and other writers' commits, logs it projected can be
projected again in any order and number: none fails, and nothing changes but rows of the tables
the events name. -/
theorem replay_safe {again : List (Log × Int)}
    (hagain : ∀ l ∈ again, l ∈ collect p.move p.projected db moves) :
    ∃ db', p.applyAll again (exec p.move db moves) = .ok ((), db') ∧
      SameBut (again.flatMap fun l => l.1.rewrites) (exec p.move db moves) db' :=
  applyAll_again fun l hl => exec_seen (hagain l hl)

end Replays

/-! ## A sample run -/

def sampleProjector : Projector where
  mode := .test
  tokens := fun token => if token = 9 then some .usdc else none
  chainId := 5042
  contractNames := fun _ => none
  roleNames := fun _ => none

/-- One linked merchant. -/
def sampleMerchants : Db :=
  { Db.empty with merchants :=
      [⟨[109], some 1, some 3, some 100, some 500, none, none, some 8, .active⟩] }

def samplePaid : Log × Int := (⟨7, 10, 170, 0, .event (.paymentExecuted 1 5 9 100 1 99 [])⟩, 1700)

def sampleCharge : Log × Int := (⟨7, 11, 171, 0, .event (.subscriptionCharged 4 2 100 1 99 1900)⟩, 1800)

/-- A payment that projects, and a charge that is parked and retried in vain. -/
def sampleMoves : List Move := [.batch .strimzCore [samplePaid, sampleCharge] ⟨11, none⟩, .retry]

theorem replay_safe_sample :
    ∃ db', sampleProjector.applyAll [samplePaid, samplePaid]
        (exec sampleProjector.move sampleMerchants sampleMoves) = .ok ((), db') ∧
      SameBut ([samplePaid, samplePaid].flatMap fun l => l.1.rewrites)
        (exec sampleProjector.move sampleMerchants sampleMoves) db' := by
  have hprojected : collect sampleProjector.move sampleProjector.projected sampleMerchants
      sampleMoves = [samplePaid] := by rfl
  refine replay_safe fun l hl => ?_
  rw [hprojected]
  simpa using hl

end Strimz.Indexer
