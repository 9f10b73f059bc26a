import Mathlib.Tactic

/-!
# Copies kept by reading a log

A source writes a log. An entry may set a value (`sets e = some v`), and the last one that does
says what the value is (`latest`). A reader at position `n` of the log keeps a copy of the value.
`InStep` is what the copy owes: it is the source's value once no entry that sets it is left to
read. The copy stays in step while the log grows (`InStep.append`) and while the reader reads
(`InStep.read`); whoever else writes the copy owes `InStep` again.
-/

namespace Replica

variable {ε α : Type} (sets : ε → Option α)

/-- The value after a log that began with `a`. -/
def latest (a : α) (log : List ε) : α := log.foldl (fun a e => (sets e).getD a) a

/-- No entry sets the value. -/
def Quiet (log : List ε) : Prop := ∀ e ∈ log, sets e = none

instance (log : List ε) : Decidable (Quiet sets log) :=
  inferInstanceAs (Decidable (∀ e ∈ log, sets e = none))

@[simp] theorem latest_nil (a : α) : latest sets a [] = a := rfl

@[simp] theorem latest_cons (a : α) (e : ε) (log : List ε) :
    latest sets a (e :: log) = latest sets ((sets e).getD a) log := rfl

theorem latest_append (a : α) (log new : List ε) :
    latest sets a (log ++ new) = latest sets (latest sets a log) new :=
  List.foldl_append

@[simp] theorem quiet_nil : Quiet sets [] := fun _ h => absurd h List.not_mem_nil

@[simp] theorem quiet_cons {e : ε} {log : List ε} :
    Quiet sets (e :: log) ↔ sets e = none ∧ Quiet sets log :=
  List.forall_mem_cons

theorem quiet_append {log new : List ε} :
    Quiet sets (log ++ new) ↔ Quiet sets log ∧ Quiet sets new :=
  List.forall_mem_append

variable {sets}

theorem Quiet.latest {a : α} {log : List ε} (h : Quiet sets log) : latest sets a log = a := by
  induction log with
  | nil => rfl
  | cons e log ih =>
      obtain ⟨he, hlog⟩ := (quiet_cons sets).mp h
      rw [latest_cons, he, Option.getD_none, ih hlog]

/-! ## A reader's copy -/

variable (sets)

/-- The copy of a reader that has read `n` entries. -/
def InStep (log : List ε) (n : Nat) (source : α) (copy : Option α) : Prop :=
  Quiet sets (log.drop n) → copy = some source

variable {sets} {log : List ε} {n : Nat} {source : α} {copy : Option α}

/-- The source moves on, and its log with it. -/
theorem InStep.append (h : InStep sets log n source copy) (hn : n ≤ log.length) (new : List ε) :
    InStep sets (log ++ new) n (latest sets source new) copy := by
  intro hquiet
  rw [List.drop_append_of_le_length hn] at hquiet
  obtain ⟨hold, hnew⟩ := (quiet_append sets).mp hquiet
  rw [hnew.latest]
  exact h hold

/-- Next to an entry that sets the value, the copy may be anything. -/
theorem InStep.of_sets {e : ε} (he : log[n]? = some e) (hset : (sets e).isSome) :
    InStep sets log n source copy := by
  intro hquiet
  obtain ⟨hn, rfl⟩ := List.getElem?_eq_some_iff.mp he
  rw [List.drop_eq_getElem_cons hn] at hquiet
  rw [((quiet_cons sets).mp hquiet).1] at hset
  cases hset

/-- The reader takes one entry over. -/
theorem InStep.read {a : α} {e : ε} (h : InStep sets log n source copy)
    (hsource : source = latest sets a log) (he : log[n]? = some e) :
    InStep sets log (n + 1) source ((sets e).or copy) := by
  intro hquiet
  obtain ⟨hn, rfl⟩ := List.getElem?_eq_some_iff.mp he
  cases hset : sets log[n] with
  | none =>
      have hpending : Quiet sets (log.drop n) := by
        rw [List.drop_eq_getElem_cons hn]
        exact (quiet_cons sets).mpr ⟨hset, hquiet⟩
      exact h hpending
  | some v =>
      have hlast : latest sets a log = v := by
        rw [← List.take_append_drop n log, latest_append, List.drop_eq_getElem_cons hn,
          latest_cons, hset, Option.getD_some, hquiet.latest]
      rw [hsource, hlast]
      rfl

end Replica
