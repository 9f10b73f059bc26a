import Mathlib.Data.List.Sort
import Strimz.Projector

/-!
# Parking and retrying

`store/deadletter.go` with the two functions of `processor/runner.go` that use it. A log
is projected inside a savepoint (`attempt`): an unresolvable error parks it, any other
error fails the batch. A retry pass takes the oldest letters, one transaction a letter,
and stops at the first that fails for another reason; what it committed before stays.
-/

namespace Strimz.Indexer

open Tx

def Log.key (lg : Log) : TxKey := ⟨lg.txHash, lg.index⟩

def DeadLetter.key (d : DeadLetter) : TxKey := d.log.key

/-- Chain order, `ORDER BY "blockNumber", "logIndex"`. -/
def DeadLetter.notAfter (a b : DeadLetter) : Prop :=
  a.log.blockNumber < b.log.blockNumber ∨
    a.log.blockNumber = b.log.blockNumber ∧ a.log.index ≤ b.log.index

instance : DecidableRel DeadLetter.notAfter := fun a b =>
  inferInstanceAs (Decidable (a.log.blockNumber < b.log.blockNumber ∨
    a.log.blockNumber = b.log.blockNumber ∧ a.log.index ≤ b.log.index))

@[simps]
def Db.park (db : Db) (d : DeadLetter) : Db :=
  { db with deadLetters := db.deadLetters ++ [d] }

@[simps]
def Db.mapLetter (db : Db) (key : TxKey) (f : DeadLetter → DeadLetter) : Db :=
  { db with deadLetters := db.deadLetters.map fun d => if d.key = key then f d else d }

/-- `ON CONFLICT ("chainId", "txHash", "logIndex") DO NOTHING` -/
def insertDeadLetter (d : DeadLetter) : Projection Unit := do
  timestampParam d.blockTimestamp
  let db ← get
  if db.deadLetters.any fun d' => d'.key = d.key then pure () else modify (·.park d)

def Db.unresolved (db : Db) : List DeadLetter :=
  (db.deadLetters.filter fun d => d.resolved = false).insertionSort DeadLetter.notAfter

def Db.unresolvedDeadLetters (db : Db) (limit : Nat) : List DeadLetter := db.unresolved.take limit

def resolveDeadLetter (d : DeadLetter) : Projection Unit :=
  modify (·.mapLetter d.key fun d => { d with resolved := true })

def recordDeadLetterAttempt (d : DeadLetter) (reason : Unresolvable) : Projection Unit :=
  modify (·.mapLetter d.key fun d => { d with attempts := d.attempts + 1, reason := reason })

def deadLetterRetryLimit : Nat := 50

namespace Projector

variable (p : Projector)

def applyOrPark (lg : Log) (blockTime : Int) : Projection Unit := do
  match ← attempt (p.apply lg blockTime) with
  | .ok _ => pure ()
  | .error (.fault f) => throw (.fault f)
  | .error (.unresolvable reason) => insertDeadLetter ⟨lg, blockTime, reason, 1, false⟩

/-- The transaction of one letter. -/
def retryLetter (d : DeadLetter) : Projection Unit := do
  match ← attempt (p.apply d.log d.blockTimestamp) with
  | .ok _ => resolveDeadLetter d
  | .error (.unresolvable reason) => recordDeadLetterAttempt d reason
  | .error (.fault f) => throw (.fault f)

/-- The loop of `retryDeadLetters`, and whether it reached its end. -/
def retryLetters : List DeadLetter → Db → Db × Bool
  | [], db => (db, true)
  | d :: ds, db =>
      match p.retryLetter d db with
      | .ok (_, db') => retryLetters ds db'
      | .error _ => (db, false)

def retryDeadLetters (db : Db) : Db × Bool :=
  p.retryLetters (db.unresolvedDeadLetters deadLetterRetryLimit) db

/-- The logs of a batch, in the order given. -/
def applyLogs : List (Log × Int) → Projection Unit
  | [] => pure ()
  | (lg, blockTime) :: logs => do
      p.applyOrPark lg blockTime
      applyLogs logs

end Projector

end Strimz.Indexer
