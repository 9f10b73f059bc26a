import Strimz.Runs
import Strimz.StreamStalls

/-!
# The queue of dead letters

`retryDeadLetters` letter by letter: a pass reads the oldest unresolved letters once and then gives
each a transaction of its own, with the batches of the loops and the writes of the API in between.
-/

namespace Strimz.Indexer.Retries

open Tx Runs

/-! ## Passes -/

/-- A pass under way: the letters it has left, and how many it has been through. -/
structure Pass where
  number : Nat
  letters : List DeadLetter
  done : Nat
deriving Repr, DecidableEq

structure Retried where
  number : Nat
  key : TxKey
  resolved : Bool
deriving Repr, DecidableEq

structure Queue where
  db : Db
  pass : Option Pass
  /-- How many passes have begun. -/
  begun : Nat
  /-- The passes that came to their end. -/
  returned : List Nat
  retried : List Retried

inductive Label where
  /-- `UnresolvedDeadLetters` -/
  | list
  /-- The transaction of the next letter. -/
  | letter
  /-- The transaction of a batch, of any loop. -/
  | batch (key : CursorKey) (logs : List (Log × Int)) (cp : Checkpoint)
  /-- What others write; the letters and the cursors are the indexer's own. -/
  | others (db : Db)
  /-- The pass is cut off: a statement fails, or the process stops. -/
  | stop

def Queue.list (q : Queue) : Queue :=
  match q.pass with
  | some _ => q
  | none =>
      let letters := q.db.unresolvedDeadLetters deadLetterRetryLimit
      if letters = [] then
        { q with begun := q.begun + 1, returned := q.returned ++ [q.begun] }
      else { q with begun := q.begun + 1, pass := some ⟨q.begun, letters, 0⟩ }

def Queue.letter (p : Projector) (q : Queue) : Queue :=
  match q.pass with
  | some ⟨number, d :: ds, done⟩ =>
      match p.retryLetter d q.db with
      | .ok (_, db) =>
          { q with
            db := db
            pass := if ds = [] then none else some ⟨number, ds, done + 1⟩
            returned := if ds = [] then q.returned ++ [number] else q.returned
            retried := q.retried ++
              [⟨number, d.key, (p.apply d.log d.blockTimestamp q.db).isOk⟩] }
      | .error _ => { q with pass := none }
  | _ => q

def step (p : Projector) (q : Queue) : Label → Queue
  | .list => q.list
  | .letter => q.letter p
  | .batch key logs cp => { q with db := commit (batchTx p key logs cp) q.db }
  | .others db =>
      { q with db := { db with deadLetters := q.db.deadLetters, cursors := q.db.cursors } }
  | .stop => { q with pass := none }

/-- No pass yet. -/
def Queue.initial (db : Db) : Queue := ⟨db, none, 0, [], []⟩

variable {p : Projector} {db db' : Db} {d e : DeadLetter}

section Spec

variable {q : Queue} {number done : Nat} {ds : List DeadLetter}

theorem letter_of_ok (hpass : q.pass = some ⟨number, d :: ds, done⟩)
    (h : p.retryLetter d q.db = .ok ((), db')) : q.letter p =
      ⟨db', if ds = [] then none else some ⟨number, ds, done + 1⟩, q.begun,
        if ds = [] then q.returned ++ [number] else q.returned,
        q.retried ++ [⟨number, d.key, (p.apply d.log d.blockTimestamp q.db).isOk⟩]⟩ := by
  simp only [Queue.letter, hpass, h]

theorem letter_of_error {e : ApplyError} (hpass : q.pass = some ⟨number, d :: ds, done⟩)
    (h : p.retryLetter d q.db = .error e) : q.letter p = { q with pass := none } := by
  simp only [Queue.letter, hpass, h]

theorem letter_of_idle (hpass : q.pass = none) : q.letter p = q := by
  simp only [Queue.letter, hpass]

/-- Letters one after the other, with nothing in between, are `retryLetters`. -/
theorem exec_letters (hne : ds ≠ []) (hpass : q.pass = some ⟨number, ds, done⟩) :
    (exec (step p) q (List.replicate ds.length .letter)).db = (p.retryLetters ds q.db).1 ∧
      (exec (step p) q (List.replicate ds.length .letter)).pass = none ∧
      (exec (step p) q (List.replicate ds.length .letter)).begun = q.begun ∧
      (exec (step p) q (List.replicate ds.length .letter)).returned =
        if (p.retryLetters ds q.db).2 = true then q.returned ++ [number] else q.returned := by
  induction ds generalizing q done with
  | nil => exact absurd rfl hne
  | cons d ds ih =>
      rw [List.length_cons, List.replicate_succ, exec_cons, step, Projector.retryLetters]
      cases hletter : p.retryLetter d q.db with
      | error e =>
          have hidle : ∀ n, exec (step p) { q with pass := none } (List.replicate n .letter) =
              { q with pass := none } := by
            intro n
            induction n with
            | zero => rfl
            | succ n ih => exact ih
          rw [letter_of_error hpass hletter, hidle]
          exact ⟨rfl, rfl, rfl, rfl⟩
      | ok r =>
          obtain ⟨⟨⟩, db⟩ := r
          rw [letter_of_ok hpass hletter]
          by_cases hds : ds = []
          · subst hds
            exact ⟨rfl, rfl, rfl, rfl⟩
          · rw [if_neg hds, if_neg hds]
            exact ih hds rfl

/-- A pass with nothing in between is `retryDeadLetters`. -/
theorem exec_pass (hpass : q.pass = none) {n : Nat}
    (hn : (q.db.unresolvedDeadLetters deadLetterRetryLimit).length = n) :
    (exec (step p) q (.list :: List.replicate n .letter)).db = (p.retryDeadLetters q.db).1 ∧
      (exec (step p) q (.list :: List.replicate n .letter)).pass = none ∧
      (exec (step p) q (.list :: List.replicate n .letter)).begun = q.begun + 1 ∧
      (exec (step p) q (.list :: List.replicate n .letter)).returned =
        if (p.retryDeadLetters q.db).2 = true then q.returned ++ [q.begun] else q.returned := by
  subst hn
  rw [exec_cons, step, Projector.retryDeadLetters]
  simp only [Queue.list, hpass]
  by_cases hempty : q.db.unresolvedDeadLetters deadLetterRetryLimit = []
  · rw [if_pos hempty, hempty]
    exact ⟨rfl, rfl, rfl, rfl⟩
  · rw [if_neg hempty]
    exact exec_letters hempty rfl

end Spec

/-! ## What a letter is known by -/

/-- The letter waits, however often it has been tried. -/
def Stands (db : Db) (d : DeadLetter) : Prop :=
  ∃ e ∈ db.deadLetters, e.log = d.log ∧ e.blockTimestamp = d.blockTimestamp ∧ e.resolved = false

def Resolved (db : Db) (key : TxKey) : Prop :=
  ∃ e ∈ db.deadLetters, e.key = key ∧ e.resolved = true

/-- Its log would be applied now. -/
def Projectable (p : Projector) (db : Db) (d : DeadLetter) : Prop :=
  ∃ db', p.apply d.log d.blockTimestamp db = .ok ((), db')

/-- Attempts at a key: nothing else of the letters changes. -/
structure Marks (key : TxKey) (ok : Bool) (f : DeadLetter → DeadLetter) : Prop where
  log : ∀ e, (f e).log = e.log
  blockTimestamp : ∀ e, (f e).blockTimestamp = e.blockTimestamp
  resolved : ∀ e, (f e).resolved = (e.resolved || (ok && decide (e.key = key)))

theorem Marks.key {key : TxKey} {ok : Bool} {f : DeadLetter → DeadLetter} (h : Marks key ok f)
    (e : DeadLetter) : (f e).key = e.key := by
  rw [DeadLetter.key, h.log, DeadLetter.key]

theorem marks_ite {key : TxKey} {ok : Bool} {f : DeadLetter → DeadLetter}
    (hlog : ∀ e, (f e).log = e.log) (htime : ∀ e, (f e).blockTimestamp = e.blockTimestamp)
    (hresolved : ∀ e, (f e).resolved = (e.resolved || ok)) :
    Marks key ok fun e => if e.key = key then f e else e := by
  refine ⟨fun e => ?_, fun e => ?_, fun e => ?_⟩
  · split
    · exact hlog e
    · rfl
  · split
    · exact htime e
    · rfl
  · split
    · rename_i hkey
      rw [hresolved, decide_eq_true hkey, Bool.and_true]
    · rename_i hkey
      rw [decide_eq_false hkey, Bool.and_false, Bool.or_false]

theorem apply_deadLetters {lg : Log} {t : Int} (h : p.apply lg t db = .ok ((), db')) :
    db'.deadLetters = db.deadLetters :=
  congrArg Prod.fst (Projector.keeps_apply db _ h)

/-- A letter's transaction marks the letter, resolved iff its log was applied. -/
theorem retryLetter_marks (h : p.retryLetter d db = .ok ((), db')) :
    ∃ f, Marks d.key (p.apply d.log d.blockTimestamp db).isOk f ∧
      db'.deadLetters = db.deadLetters.map f := by
  rcases Projector.retryLetter_eq_ok.mp h with ⟨db₁, happly, rfl⟩ | ⟨reason, happly, rfl⟩
  · refine ⟨_, ?_, by rw [Db.mapLetter_deadLetters, apply_deadLetters happly]⟩
    rw [happly]
    exact marks_ite (fun _ => rfl) (fun _ => rfl) fun e => (Bool.or_true e.resolved).symm
  · refine ⟨_, ?_, Db.mapLetter_deadLetters ..⟩
    rw [happly]
    exact marks_ite (fun _ => rfl) (fun _ => rfl) fun e => (Bool.or_false e.resolved).symm

/-- A letter whose log is applied is resolved. -/
theorem retryLetter_of_projectable (h : Projectable p db d) :
    ∃ db', p.retryLetter d db = .ok ((), db') := by
  obtain ⟨db₁, happly⟩ := h
  exact ⟨_, Projector.retryLetter_eq_ok.mpr (.inl ⟨db₁, happly, rfl⟩)⟩

/-- A batch only adds letters. -/
theorem applyLogs_deadLetters {logs : List (Log × Int)} (h : p.applyLogs logs db = .ok ((), db'))
    (hnodup : (db.deadLetters.map DeadLetter.key).Nodup) :
    (∃ added, db'.deadLetters = db.deadLetters ++ added) ∧
      (db'.deadLetters.map DeadLetter.key).Nodup := by
  induction logs generalizing db with
  | nil =>
      rw [(Prod.mk.inj (pure_eq_ok.mp h)).2]
      exact ⟨⟨[], (List.append_nil _).symm⟩, hnodup⟩
  | cons l logs ih =>
      obtain ⟨_, db₁, hl, hlogs⟩ := bind_eq_ok.mp h
      have hfirst : (∃ added, db₁.deadLetters = db.deadLetters ++ added) ∧
          (db₁.deadLetters.map DeadLetter.key).Nodup := by
        rcases Projector.applyOrPark_eq_ok.mp hl with happly | ⟨reason, -, -, rfl⟩
        · rw [apply_deadLetters happly]
          exact ⟨⟨[], (List.append_nil _).symm⟩, hnodup⟩
        · unfold Db.parkOnce
          split
          · exact ⟨⟨[], (List.append_nil _).symm⟩, hnodup⟩
          · rename_i hnew
            refine ⟨⟨_, Db.park_deadLetters ..⟩, ?_⟩
            rw [Db.park_deadLetters, List.map_append, List.map_singleton]
            refine List.nodup_append.mpr ⟨hnodup, List.nodup_singleton _, ?_⟩
            intro key hkey key' hkey' heq
            obtain ⟨e, he, rfl⟩ := List.mem_map.mp hkey
            rw [List.mem_singleton.mp hkey'] at heq
            exact hnew (List.any_eq_true.mpr ⟨e, he, decide_eq_true heq⟩)
      obtain ⟨⟨added, hadded⟩, hnodup₁⟩ := hfirst
      obtain ⟨⟨more, hmore⟩, hnodup'⟩ := ih hlogs hnodup₁
      exact ⟨⟨added ++ more, by rw [hmore, hadded, List.append_assoc]⟩, hnodup'⟩

theorem batch_deadLetters (p : Projector) (key : CursorKey) (logs : List (Log × Int))
    (cp : Checkpoint) (hnodup : (db.deadLetters.map DeadLetter.key).Nodup) :
    (∃ added, (commit (batchTx p key logs cp) db).deadLetters = db.deadLetters ++ added) ∧
      ((commit (batchTx p key logs cp) db).deadLetters.map DeadLetter.key).Nodup := by
  refine commit_cases (P := fun db' : Db => (∃ added, db'.deadLetters = db.deadLetters ++ added) ∧
    (db'.deadLetters.map DeadLetter.key).Nodup) ⟨⟨[], (List.append_nil _).symm⟩, hnodup⟩ ?_
  intro _ db' hok
  obtain ⟨db₁, hlogs, rfl⟩ := Projector.batchTx_eq_ok.mp hok
  rw [Db.putCheckpoint_deadLetters]
  exact applyLogs_deadLetters hlogs hnodup

end Strimz.Indexer.Retries
