import Strimz.RetryQueue

/-!
# Every letter gets its turn

The letters ahead of one that waits, with those that later passes have been through, stay below what
was unresolved when it could be projected, what failed since and what was parked in front of it
since (`Turn.step`). So it is resolved within `⌈n / 50⌉` passes if the failures leave room
(`cleared_of_room`), and behind fifty letters that never project it never is
(`starved_of_front`).
-/

namespace Strimz.Indexer.Retries

open Tx Runs

variable {p : Projector} {db db' : Db} {d e : DeadLetter}

/-! ## What is claimed -/

/-- How many of the passes that began after `q` have come to their end by `q'`. -/
def freshPasses (q q' : Queue) : Nat := (q'.returned.filter fun n => q.begun ≤ n).length

/-- How many letters these passes have tried and left. -/
def freshFailures (q q' : Queue) : Nat :=
  (q'.retried.filter fun a => q.begun ≤ a.number ∧ a.resolved = false).length

/-- How many letters have been parked since that are not behind `d`. -/
def overtakers (q q' : Queue) (d : DeadLetter) : Nat :=
  ((q'.db.deadLetters.drop q.db.deadLetters.length).filter fun e => e.notAfter d).length

/-- An unresolved letter of `q` whose `⌈n / 50⌉` passes are over by `q'`. -/
structure Due (q q' : Queue) (d : DeadLetter) : Prop where
  mem : d ∈ q.db.deadLetters
  unresolved : d.resolved = false
  passes : q.db.unresolved.length ≤ deadLetterRetryLimit * freshPasses q q'

section Claim

variable (p : Projector) (db : Db) (ls : List Label)

/-- The state before the `n`-th label. -/
def at_ (n : Nat) : Queue := stateAt (step p) (Queue.initial db) ls n

/-- A letter that can be projected, and stays so until it is resolved, is resolved within `⌈n / 50⌉`
passes. -/
def Cleared : Prop :=
  ∀ m n d, m ≤ n → Due (at_ p db ls m) (at_ p db ls n) d →
    (∀ k, m ≤ k → k < n → Resolved (at_ p db ls k).db d.key ∨ Projectable p (at_ p db ls k).db d) →
    Resolved (at_ p db ls n).db d.key

/-- Before the `⌈n / 50⌉` passes of a letter are over, the failures and the overtakers have left
room for it. -/
def LeavesRoom : Prop :=
  ∀ m n d, m ≤ n → Due (at_ p db ls m) (at_ p db ls n) d → ∃ k, m ≤ k ∧ k ≤ n ∧
    (at_ p db ls m).db.unresolved.length + freshFailures (at_ p db ls m) (at_ p db ls k) +
        overtakers (at_ p db ls m) (at_ p db ls k) d ≤
      deadLetterRetryLimit * freshPasses (at_ p db ls m) (at_ p db ls k)

end Claim

/-! ## The letters ahead -/

instance : IsTrans DeadLetter DeadLetter.notAfter :=
  ⟨fun a b c h h' => by unfold DeadLetter.notAfter at *; omega⟩

instance : Std.Total DeadLetter.notAfter := ⟨fun a b => by unfold DeadLetter.notAfter; omega⟩

theorem notAfter_congr {a a' b b' : DeadLetter} (ha : a'.log = a.log) (hb : b'.log = b.log) :
    a'.notAfter b' ↔ a.notAfter b := by
  unfold DeadLetter.notAfter
  rw [ha, hb]

theorem mem_unresolved : e ∈ db.unresolved ↔ e ∈ db.deadLetters ∧ e.resolved = false := by
  rw [Db.unresolved, List.mem_insertionSort, List.mem_filter, decide_eq_true_eq]

theorem nodup_unresolved (h : (db.deadLetters.map DeadLetter.key).Nodup) :
    (db.unresolved.map DeadLetter.key).Nodup := by
  rw [Db.unresolved, ((List.perm_insertionSort _ _).map _).nodup_iff]
  exact h.sublist (List.filter_sublist.map _)

theorem sorted_unresolved (db : Db) : db.unresolved.Pairwise DeadLetter.notAfter :=
  List.pairwise_insertionSort _ _

theorem eq_of_key (hnodup : (db.deadLetters.map DeadLetter.key).Nodup) {e' : DeadLetter}
    (he : e ∈ db.deadLetters) (he' : e' ∈ db.deadLetters) (h : e.key = e'.key) : e = e' :=
  List.inj_on_of_nodup_map hnodup he he' h

/-- The unresolved letters that may be tried before `d`. -/
def aheadKeys (letters : List DeadLetter) (d : DeadLetter) : List TxKey :=
  (letters.filter fun e => e.resolved = false ∧ e.key ≠ d.key ∧ e.notAfter d).map DeadLetter.key

theorem mem_aheadKeys {letters : List DeadLetter} {key : TxKey} :
    key ∈ aheadKeys letters d ↔
      ∃ e ∈ letters, e.key = key ∧ e.resolved = false ∧ e.key ≠ d.key ∧ e.notAfter d := by
  simp only [aheadKeys, List.mem_map, List.mem_filter, decide_eq_true_eq]
  constructor
  · rintro ⟨e, ⟨he, h⟩, hkey⟩
    exact ⟨e, he, hkey, h⟩
  · rintro ⟨e, he, hkey, h⟩
    exact ⟨e, ⟨he, h⟩, hkey⟩

theorem nodup_aheadKeys {letters : List DeadLetter}
    (hnodup : (letters.map DeadLetter.key).Nodup) : (aheadKeys letters d).Nodup :=
  hnodup.sublist (List.filter_sublist.map _)

theorem length_aheadKeys_append (letters added : List DeadLetter) :
    (aheadKeys (letters ++ added) d).length ≤
      (aheadKeys letters d).length + (added.filter fun e => e.notAfter d).length := by
  rw [aheadKeys, List.filter_append, List.map_append, List.length_append, aheadKeys]
  refine Nat.add_le_add_left ?_ _
  rw [List.length_map]
  refine (List.monotone_filter_right added fun e he => ?_).length_le
  exact decide_eq_true (of_decide_eq_true he).2.2

section Marked

variable {key : TxKey} {ok : Bool} {f : DeadLetter → DeadLetter} {letters : List DeadLetter}

/-- Marks bring nothing ahead. -/
theorem aheadKeys_marked (hf : Marks key ok f) : ∀ k ∈ aheadKeys (letters.map f) d,
    k ∈ aheadKeys letters d ∧ (ok = true → k ≠ key) := by
  intro k hk
  obtain ⟨_, hmem, rfl, hresolved, hne, hafter⟩ := mem_aheadKeys.mp hk
  obtain ⟨e, he, rfl⟩ := List.mem_map.mp hmem
  rw [hf.key] at hne ⊢
  rw [hf.resolved, Bool.or_eq_false_iff] at hresolved
  refine ⟨mem_aheadKeys.mpr ⟨e, he, rfl, hresolved.1, hne,
    (notAfter_congr (hf.log e) rfl).mp hafter⟩, fun hok hkey => ?_⟩
  rw [hok, Bool.true_and, decide_eq_false_iff_not] at hresolved
  exact hresolved.2 hkey

theorem map_key_marked (hf : Marks key ok f) :
    (letters.map f).map DeadLetter.key = letters.map DeadLetter.key := by
  rw [List.map_map]
  exact List.map_congr_left fun e _ => hf.key e

theorem length_aheadKeys_marked (hf : Marks key ok f)
    (hnodup : (letters.map DeadLetter.key).Nodup) :
    (aheadKeys (letters.map f) d).length ≤ (aheadKeys letters d).length :=
  (nodup_aheadKeys ((map_key_marked hf).symm ▸ hnodup)).length_le_of_subset
    fun k hk => (aheadKeys_marked hf k hk).1

/-- A letter ahead that is resolved is ahead no more. -/
theorem length_aheadKeys_lt (hf : Marks key true f) (hnodup : (letters.map DeadLetter.key).Nodup)
    (hkey : key ∈ aheadKeys letters d) :
    (aheadKeys (letters.map f) d).length + 1 ≤ (aheadKeys letters d).length := by
  have hcons : (key :: aheadKeys (letters.map f) d).Nodup :=
    List.nodup_cons.mpr ⟨fun h => (aheadKeys_marked hf key h).2 rfl rfl,
      nodup_aheadKeys ((map_key_marked hf).symm ▸ hnodup)⟩
  exact hcons.length_le_of_subset
    (List.cons_subset.mpr ⟨hkey, fun k hk => (aheadKeys_marked hf k hk).1⟩)

/-- What stands elsewhere still does. -/
theorem Stands.marked (h : Stands db d) (hf : Marks key ok f)
    (hletters : db'.deadLetters = db.deadLetters.map f) (hkeep : ok = true → d.key ≠ key) :
    Stands db' d := by
  obtain ⟨e, he, hlog, htime, hresolved⟩ := h
  refine ⟨f e, hletters ▸ List.mem_map_of_mem he, (hf.log e).trans hlog,
    (hf.blockTimestamp e).trans htime, ?_⟩
  rw [hf.resolved, hresolved, Bool.false_or, Bool.and_eq_false_iff, decide_eq_false_iff_not]
  cases hok : ok with
  | false => exact .inl rfl
  | true =>
      refine .inr fun hkey => hkeep hok ?_
      rw [DeadLetter.key, ← hlog]
      exact hkey

theorem Resolved.marked {k : TxKey} (h : Resolved db k) (hf : Marks key ok f)
    (hletters : db'.deadLetters = db.deadLetters.map f) : Resolved db' k := by
  obtain ⟨e, he, hkey, hresolved⟩ := h
  refine ⟨f e, hletters ▸ List.mem_map_of_mem he, (hf.key e).trans hkey, ?_⟩
  rw [hf.resolved, hresolved, Bool.true_or]

end Marked

theorem Stands.append {added : List DeadLetter} (h : Stands db d)
    (hletters : db'.deadLetters = db.deadLetters ++ added) : Stands db' d := by
  obtain ⟨e, he, hspec⟩ := h
  exact ⟨e, hletters ▸ List.mem_append_left _ he, hspec⟩

theorem Resolved.append {added : List DeadLetter} {k : TxKey} (h : Resolved db k)
    (hletters : db'.deadLetters = db.deadLetters ++ added) : Resolved db' k := by
  obtain ⟨e, he, hspec⟩ := h
  exact ⟨e, hletters ▸ List.mem_append_left _ he, hspec⟩

/-! ## One pass at a time -/

/-- A pass under way: its letters wait for it. -/
structure Pending (q : Queue) (pass : Pass) : Prop where
  begun : pass.number < q.begun
  nodup : (pass.letters.map DeadLetter.key).Nodup
  sorted : pass.letters.Pairwise DeadLetter.notAfter
  stands : ∀ e ∈ pass.letters, Stands q.db e

structure Calm (q : Queue) : Prop where
  nodup : (q.db.deadLetters.map DeadLetter.key).Nodup
  pending : ∀ pass, q.pass = some pass → Pending q pass
  retried : ∀ a ∈ q.retried, a.number < q.begun
  returned : ∀ n ∈ q.returned, n < q.begun

section Steps

variable {q : Queue} {number done : Nat} {ds : List DeadLetter}

theorem Calm.initial (hnodup : (db.deadLetters.map DeadLetter.key).Nodup) :
    Calm (Queue.initial db) := by
  refine ⟨hnodup, ?_, ?_, ?_⟩
  · rintro pass ⟨⟩
  · exact fun a ha => absurd ha List.not_mem_nil
  · exact fun n hn => absurd hn List.not_mem_nil

theorem Calm.list (h : Calm q) : Calm q.list := by
  unfold Queue.list
  cases hpass : q.pass with
  | some pass => exact h
  | none =>
      simp only
      split
      · refine ⟨h.nodup, fun pass hp => ?_, fun a ha => Nat.lt_succ_of_lt (h.retried a ha),
          fun n hn => ?_⟩
        · cases hp
        · rcases List.mem_append.mp hn with hn | hn
          · exact Nat.lt_succ_of_lt (h.returned n hn)
          · rw [List.mem_singleton.mp hn]
            exact Nat.lt_succ_self _
      · refine ⟨h.nodup, ?_, fun a ha => Nat.lt_succ_of_lt (h.retried a ha),
          fun n hn => Nat.lt_succ_of_lt (h.returned n hn)⟩
        rintro pass ⟨⟩
        have hsub : (q.db.unresolvedDeadLetters deadLetterRetryLimit).Sublist q.db.unresolved :=
          List.take_sublist _ _
        refine ⟨Nat.lt_succ_self _, (nodup_unresolved h.nodup).sublist (hsub.map _),
          (sorted_unresolved q.db).sublist hsub, fun e he => ?_⟩
        obtain ⟨hmem, hresolved⟩ := mem_unresolved.mp (hsub.subset he)
        exact ⟨e, hmem, rfl, rfl, hresolved⟩

/-- The next letters of a pass, behind its transaction. -/
theorem Calm.letter_of_ok (h : Calm q) (hpass : q.pass = some ⟨number, d :: ds, done⟩)
    (hok : p.retryLetter d q.db = .ok ((), db')) : Calm (q.letter p) := by
  rw [Retries.letter_of_ok hpass hok]
  obtain ⟨hbegun, hkeys, hsorted, hstands⟩ := h.pending _ hpass
  obtain ⟨f, hf, hletters⟩ := retryLetter_marks hok
  rw [List.map_cons, List.nodup_cons] at hkeys
  refine ⟨by rw [hletters, map_key_marked hf]; exact h.nodup, fun pass hp => ?_, fun a ha => ?_,
    fun n hn => ?_⟩
  · split at hp
    · cases hp
    · obtain rfl := Option.some.inj hp
      refine ⟨hbegun, hkeys.2, (List.pairwise_cons.mp hsorted).2, fun e he => ?_⟩
      refine (hstands e (List.mem_cons_of_mem _ he)).marked hf hletters fun _ hkey => ?_
      exact hkeys.1 (hkey ▸ List.mem_map_of_mem he)
  · rcases List.mem_append.mp ha with ha | ha
    · exact h.retried a ha
    · rw [List.mem_singleton.mp ha]
      exact hbegun
  · split at hn
    · rcases List.mem_append.mp hn with hn | hn
      · exact h.returned n hn
      · rw [List.mem_singleton.mp hn]
        exact hbegun
    · exact h.returned n hn

theorem Calm.stop (h : Calm q) : Calm { q with pass := none } := by
  refine ⟨h.nodup, ?_, h.retried, h.returned⟩
  rintro pass ⟨⟩

/-- The transaction of a letter, or nothing but the end of a pass. -/
theorem letter_cases (p : Projector) (q : Queue) :
    (q.letter p = q ∨ q.letter p = { q with pass := none }) ∨
      ∃ number d ds done db', q.pass = some ⟨number, d :: ds, done⟩ ∧
        p.retryLetter d q.db = .ok ((), db') := by
  cases hpass : q.pass with
  | none => exact .inl (.inl (letter_of_idle hpass))
  | some pass =>
      obtain ⟨number, letters, done⟩ := pass
      cases letters with
      | nil => exact .inl (.inl (by simp only [Queue.letter, hpass]))
      | cons d ds =>
          cases hletter : p.retryLetter d q.db with
          | error e => exact .inl (.inr (letter_of_error hpass hletter))
          | ok r => exact .inr ⟨number, d, ds, done, r.2, rfl, hletter⟩

/-- What a step adds to the letters: marks at the letter tried, or new ones behind. -/
theorem step_deadLetters (h : Calm q) (l : Label) :
    (∃ key ok f, Marks key ok f ∧ (step p q l).db.deadLetters = q.db.deadLetters.map f) ∨
      ∃ added, (step p q l).db.deadLetters = q.db.deadLetters ++ added := by
  cases l with
  | list =>
      refine .inr ⟨[], ?_⟩
      rw [List.append_nil, step, Queue.list]
      cases q.pass with
      | some pass => rfl
      | none =>
          simp only
          split <;> rfl
  | letter =>
      rcases letter_cases p q with (hsame | hstop) | ⟨number, d, ds, done, db', hpass, hok⟩
      · exact .inr ⟨[], by rw [List.append_nil, step, hsame]⟩
      · exact .inr ⟨[], by rw [List.append_nil, step, hstop]⟩
      · obtain ⟨f, hf, hletters⟩ := retryLetter_marks hok
        refine .inl ⟨_, _, f, hf, ?_⟩
        rw [step, letter_of_ok hpass hok]
        exact hletters
  | batch key logs cp => exact .inr (batch_deadLetters p key logs cp h.nodup).1
  | others db => exact .inr ⟨[], (List.append_nil _).symm⟩
  | stop => exact .inr ⟨[], (List.append_nil _).symm⟩

theorem Calm.batch (h : Calm q) (key : CursorKey) (logs : List (Log × Int)) (cp : Checkpoint) :
    Calm { q with db := commit (batchTx p key logs cp) q.db } := by
  obtain ⟨⟨added, hadded⟩, hnodup⟩ := batch_deadLetters p key logs cp h.nodup
  refine ⟨hnodup, fun pass hp => ?_, h.retried, h.returned⟩
  obtain ⟨hbegun, hkeys, hsorted, hstands⟩ := h.pending pass hp
  exact ⟨hbegun, hkeys, hsorted, fun e he => (hstands e he).append hadded⟩

theorem Calm.step (h : Calm q) (l : Label) : Calm (step p q l) := by
  cases l with
  | list => exact h.list
  | letter =>
      rw [Retries.step]
      rcases letter_cases p q with (hsame | hstop) | ⟨number, d, ds, done, db', hpass, hok⟩
      · rwa [hsame]
      · rw [hstop]
        exact h.stop
      · exact h.letter_of_ok hpass hok
  | batch key logs cp => exact h.batch key logs cp
  | others db =>
      refine ⟨h.nodup, fun pass hp => ?_, h.retried, h.returned⟩
      obtain ⟨hbegun, hkeys, hsorted, hstands⟩ := h.pending pass hp
      exact ⟨hbegun, hkeys, hsorted, hstands⟩
  | stop => exact h.stop

theorem Resolved.step {k : TxKey} (h : Resolved q.db k) (hcalm : Calm q) (l : Label) :
    Resolved (step p q l).db k := by
  rcases step_deadLetters (p := p) hcalm l with ⟨key, ok, f, hf, hletters⟩ | ⟨added, hletters⟩
  · exact h.marked hf hletters
  · exact h.append hletters

end Steps

/-! ## A letter's turn -/

/-- How many letters a fresh pass under way has been through. -/
def freshDone (q q' : Queue) : Nat :=
  q'.pass.elim 0 fun pass => if q.begun ≤ pass.number then pass.done else 0

/-- The letter waits, with room for it. -/
structure Waits (q q' : Queue) (d : DeadLetter) : Prop where
  stands : Stands q'.db d
  room : (aheadKeys q'.db.deadLetters d).length + deadLetterRetryLimit * freshPasses q q' +
      freshDone q q' + 1 ≤
    q.db.unresolved.length + freshFailures q q' + overtakers q q' d
  /-- A fresh pass either comes to the letter or is full of letters that come before it. -/
  underway : ∀ pass, q'.pass = some pass → q.begun ≤ pass.number →
    d.key ∈ pass.letters.map DeadLetter.key ∨
      (pass.done + pass.letters.length = deadLetterRetryLimit ∧
        ∀ e ∈ pass.letters, e.notAfter d)

structure Turn (q q' : Queue) (d : DeadLetter) : Prop where
  letters : q.db.deadLetters.length ≤ q'.db.deadLetters.length
  turn : Resolved q'.db d.key ∨ Waits q q' d

section Turns

variable {q q' : Queue} {number done : Nat} {ds : List DeadLetter}

theorem length_aheadKeys_start (h : Calm q) (hd : d ∈ q.db.deadLetters)
    (hresolved : d.resolved = false) :
    (aheadKeys q.db.deadLetters d).length + 1 ≤ q.db.unresolved.length := by
  have hcons : (d.key :: aheadKeys q.db.deadLetters d).Nodup := by
    refine List.nodup_cons.mpr ⟨fun hmem => ?_, nodup_aheadKeys h.nodup⟩
    obtain ⟨e, -, hkey, -, hne, -⟩ := mem_aheadKeys.mp hmem
    exact hne hkey
  have hsub : d.key :: aheadKeys q.db.deadLetters d ⊆ q.db.unresolved.map DeadLetter.key := by
    refine List.cons_subset.mpr
      ⟨List.mem_map_of_mem (mem_unresolved.mpr ⟨hd, hresolved⟩), fun k hk => ?_⟩
    obtain ⟨e, he, rfl, hunresolved, -⟩ := mem_aheadKeys.mp hk
    exact List.mem_map_of_mem (mem_unresolved.mpr ⟨he, hunresolved⟩)
  have hlength := hcons.length_le_of_subset hsub
  rwa [List.length_map] at hlength

/-- Nothing of a state is fresh in it. -/
theorem Turn.start (h : Calm q) (hd : d ∈ q.db.deadLetters) (hresolved : d.resolved = false) :
    Turn q q d := by
  have hpasses : freshPasses q q = 0 := by
    rw [freshPasses, List.length_eq_zero_iff, List.filter_eq_nil_iff]
    exact fun n hn hle => Nat.not_le_of_lt (h.returned n hn) (of_decide_eq_true hle)
  have hstale : ∀ pass, q.pass = some pass → ¬ q.begun ≤ pass.number := fun pass hp =>
    Nat.not_le_of_lt (h.pending pass hp).begun
  have hdone : freshDone q q = 0 := by
    unfold freshDone
    cases hpass : q.pass with
    | none => rfl
    | some pass => exact if_neg (hstale pass hpass)
  refine ⟨Nat.le_refl _, .inr ⟨⟨d, hd, rfl, rfl, hresolved⟩, ?_, fun pass hp hle =>
    absurd hle (hstale pass hp)⟩⟩
  rw [hpasses, hdone, Nat.mul_zero]
  have hstart := length_aheadKeys_start h hd hresolved
  omega

/-- The oldest letters without one that waits are as many as a pass takes, and come before it. -/
theorem oldest_without (hstands : Stands db d)
    (hout : d.key ∉ (db.unresolvedDeadLetters deadLetterRetryLimit).map DeadLetter.key) :
    (db.unresolvedDeadLetters deadLetterRetryLimit).length = deadLetterRetryLimit ∧
      ∀ e ∈ db.unresolvedDeadLetters deadLetterRetryLimit, e.notAfter d := by
  obtain ⟨e, he, hlog, -, hresolved⟩ := hstands
  have hkey : e.key = d.key := congrArg Log.key hlog
  have hdrop : e ∈ db.unresolved.drop deadLetterRetryLimit := by
    have hmem := mem_unresolved.mpr ⟨he, hresolved⟩
    rw [← List.take_append_drop deadLetterRetryLimit db.unresolved, List.mem_append] at hmem
    exact hmem.resolve_left fun htake => hout (hkey ▸ List.mem_map_of_mem htake)
  have hsorted := sorted_unresolved db
  rw [← List.take_append_drop deadLetterRetryLimit db.unresolved] at hsorted
  refine ⟨?_, fun x hx => (notAfter_congr rfl hlog).mp
    ((List.pairwise_append.mp hsorted).2.2 x hx e hdrop)⟩
  have hlength := List.length_pos_of_mem hdrop
  rw [List.length_drop] at hlength
  rw [Db.unresolvedDeadLetters, List.length_take]
  omega

theorem Waits.list (h : Waits q q' d) : Waits q q'.list d := by
  unfold Queue.list
  cases hpass : q'.pass with
  | some pass => exact h
  | none =>
      have hfull := oldest_without h.stands
      have hroom := h.room
      simp only [freshDone, hpass, Option.elim_none] at hroom
      simp only
      split
      · rename_i hempty
        rw [hempty] at hfull
        exact absurd (hfull List.not_mem_nil).1 (by decide)
      · refine ⟨h.stands, ?_, ?_⟩
        · simp only [freshDone, Option.elim_some, ite_self]
          exact hroom
        · rintro pass ⟨⟩ -
          by_cases hmem : d.key ∈
              (q'.db.unresolvedDeadLetters deadLetterRetryLimit).map DeadLetter.key
          · exact .inl hmem
          · exact .inr ⟨by rw [Nat.zero_add]; exact (hfull hmem).1, (hfull hmem).2⟩

/-- The next letter of a fresh pass comes before one that waits. -/
theorem Waits.head_ahead (h : Waits q q' d) (hcalm : Calm q')
    (hpass : q'.pass = some ⟨number, e :: ds, done⟩) (hother : e.key ≠ d.key)
    (hfresh : q.begun ≤ number) : e.key ∈ aheadKeys q'.db.deadLetters d := by
  have hpending := hcalm.pending _ hpass
  have hafter : e.notAfter d := by
    rcases h.underway _ hpass hfresh with hmem | ⟨-, hbefore⟩
    · obtain ⟨r, hr, hrkey⟩ := List.mem_map.mp hmem
      obtain ⟨x, hx, hxlog, -, -⟩ := hpending.stands r hr
      obtain ⟨y, hy, hylog, -, -⟩ := h.stands
      have hxy : x = y := eq_of_key hcalm.nodup hx hy
        ((congrArg Log.key hxlog).trans (hrkey.trans (congrArg Log.key hylog).symm))
      have hrd : r.log = d.log := by rw [← hxlog, hxy, hylog]
      rcases List.mem_cons.mp hr with rfl | hr
      · exact absurd hrkey hother
      · exact (notAfter_congr rfl hrd).mp ((List.pairwise_cons.mp hpending.sorted).1 r hr)
    · exact hbefore e List.mem_cons_self
  obtain ⟨x, hx, hlog, -, hresolved⟩ := hpending.stands e List.mem_cons_self
  have hkey : x.key = e.key := congrArg Log.key hlog
  exact mem_aheadKeys.mpr ⟨x, hx, hkey, hresolved, hkey ▸ hother,
    (notAfter_congr hlog rfl).mpr hafter⟩

theorem overtakers_marked {key : TxKey} {ok : Bool} {f : DeadLetter → DeadLetter} {q'' : Queue}
    (hf : Marks key ok f) (hletters : q''.db.deadLetters = q'.db.deadLetters.map f) :
    overtakers q q'' d = overtakers q q' d := by
  rw [overtakers, hletters, ← List.map_drop, List.filter_map, List.length_map, overtakers]
  refine congrArg List.length (List.filter_congr fun e _ => ?_)
  exact decide_eq_decide.mpr (notAfter_congr (hf.log e) rfl)

theorem overtakers_append {added : List DeadLetter} {q'' : Queue}
    (hle : q.db.deadLetters.length ≤ q'.db.deadLetters.length)
    (hletters : q''.db.deadLetters = q'.db.deadLetters ++ added) :
    overtakers q q'' d = overtakers q q' d + (added.filter fun e => e.notAfter d).length := by
  rw [overtakers, hletters, List.drop_append_of_le_length hle, List.filter_append,
    List.length_append, overtakers]

/-- The transaction of another letter leaves room for one that waits. -/
theorem Waits.letter (h : Waits q q' d) (hcalm : Calm q')
    (hpass : q'.pass = some ⟨number, e :: ds, done⟩) (hother : e.key ≠ d.key)
    (hok : p.retryLetter e q'.db = .ok ((), db')) : Waits q (q'.letter p) d := by
  obtain ⟨f, hf, hletters⟩ := retryLetter_marks hok
  have hstep := letter_of_ok hpass hok
  have hdb : (q'.letter p).db.deadLetters = q'.db.deadLetters.map f := by
    rw [hstep]
    exact hletters
  have hstands : Stands (q'.letter p).db d :=
    h.stands.marked hf hdb fun _ hkey => hother hkey.symm
  have hovertakers : overtakers q (q'.letter p) d = overtakers q q' d := overtakers_marked hf hdb
  generalize happlied : (p.apply e.log e.blockTimestamp q'.db).isOk = ok at hf hstep
  refine ⟨hstands, ?_, fun pass hp hfresh => ?_⟩
  · have hroom := h.room
    rw [hovertakers, hdb]
    by_cases hfresh : q.begun ≤ number
    · have hfailures : freshFailures q (q'.letter p) =
          freshFailures q q' + if ok = true then 0 else 1 := by
        rw [hstep, freshFailures, List.filter_append, List.length_append, freshFailures]
        cases ok <;> simp [hfresh]
      have hdone : freshDone q q' = done := by
        simp only [freshDone, hpass, Option.elim_some, if_pos hfresh]
      have hahead : (aheadKeys (q'.db.deadLetters.map f) d).length + 1 ≤
          (aheadKeys q'.db.deadLetters d).length + if ok = true then 0 else 1 := by
        cases ok with
        | true => exact length_aheadKeys_lt hf hcalm.nodup (h.head_ahead hcalm hpass hother hfresh)
        | false => exact Nat.succ_le_succ (length_aheadKeys_marked hf hcalm.nodup)
      rw [hdone] at hroom
      rw [hfailures]
      by_cases hds : ds = []
      · have hpasses : freshPasses q (q'.letter p) = freshPasses q q' + 1 := by
          rw [hstep, freshPasses, freshPasses]
          simp [hds, hfresh]
        have hidle : freshDone q (q'.letter p) = 0 := by
          rw [hstep, freshDone]
          simp [hds]
        have hlast : done + 1 = deadLetterRetryLimit := by
          subst hds
          rcases h.underway _ hpass hfresh with hmem | ⟨hfull, -⟩
          · exact absurd (List.mem_singleton.mp hmem).symm hother
          · exact hfull
        rw [hpasses, hidle, Nat.mul_succ]
        omega
      · have hpasses : freshPasses q (q'.letter p) = freshPasses q q' := by
          rw [hstep, freshPasses, freshPasses]
          simp [hds]
        have hnext : freshDone q (q'.letter p) = done + 1 := by
          rw [hstep, freshDone]
          simp [hds, hfresh]
        rw [hpasses, hnext]
        omega
    · have hfailures : freshFailures q (q'.letter p) = freshFailures q q' := by
        rw [hstep, freshFailures, List.filter_append, List.length_append, freshFailures]
        simp [hfresh]
      have hpasses : freshPasses q (q'.letter p) = freshPasses q q' := by
        rw [hstep, freshPasses, freshPasses]
        split
        · rw [List.filter_append, List.length_append]
          simp [hfresh]
        · rfl
      have hidle : freshDone q (q'.letter p) = 0 := by
        rw [hstep, freshDone]
        split
        · rfl
        · exact if_neg hfresh
      have hahead := length_aheadKeys_marked (d := d) hf hcalm.nodup
      rw [hfailures, hpasses, hidle]
      omega
  · rw [hstep] at hp
    simp only at hp
    split at hp
    · cases hp
    · obtain rfl := Option.some.inj hp
      rcases h.underway _ hpass hfresh with hmem | ⟨hfull, hbefore⟩
      · rw [List.map_cons, List.mem_cons] at hmem
        exact .inl (hmem.resolve_left hother.symm)
      · have hfull : done + (ds.length + 1) = deadLetterRetryLimit := hfull
        have hcount : done + 1 + ds.length = deadLetterRetryLimit := by omega
        exact .inr ⟨hcount, fun x hx => hbefore x (List.mem_cons_of_mem _ hx)⟩

theorem Waits.stop (h : Waits q q' d) : Waits q { q' with pass := none } d := by
  refine ⟨h.stands, Nat.le_trans ?_ h.room, fun pass hp => ?_⟩
  · simp only [freshDone, Option.elim_none]
    exact Nat.succ_le_succ (Nat.le_add_right _ _)
  · cases hp

theorem Waits.batch (h : Waits q q' d) {added : List DeadLetter}
    (hle : q.db.deadLetters.length ≤ q'.db.deadLetters.length)
    (hadded : db'.deadLetters = q'.db.deadLetters ++ added) : Waits q { q' with db := db' } d := by
  refine ⟨h.stands.append hadded, ?_, h.underway⟩
  have hahead := length_aheadKeys_append (d := d) q'.db.deadLetters added
  have hroom := h.room
  rw [overtakers_append hle hadded]
  simp only [hadded, freshPasses, freshFailures, freshDone] at hroom ⊢
  omega

/-- A letter that can be projected when its turn comes is resolved by its transaction. -/
theorem resolved_of_head (hcalm : Calm q') (hstands : Stands q'.db d)
    (hproject : Projectable p q'.db d) (hpass : q'.pass = some ⟨number, e :: ds, done⟩)
    (hkey : e.key = d.key) : Resolved (q'.letter p).db d.key := by
  obtain ⟨x, hx, hxlog, hxtime, -⟩ := (hcalm.pending _ hpass).stands e List.mem_cons_self
  obtain ⟨y, hy, hylog, hytime, -⟩ := hstands
  have hxy : x = y := eq_of_key hcalm.nodup hx hy
    ((congrArg Log.key hxlog).trans (hkey.trans (congrArg Log.key hylog).symm))
  have hlog : e.log = d.log := by rw [← hxlog, hxy, hylog]
  have htime : e.blockTimestamp = d.blockTimestamp := by rw [← hxtime, hxy, hytime]
  have hhead : Projectable p q'.db e := by
    unfold Projectable
    rwa [hlog, htime]
  obtain ⟨db', hok⟩ := retryLetter_of_projectable hhead
  obtain ⟨f, hf, hletters⟩ := retryLetter_marks hok
  obtain ⟨db₁, happly⟩ := hhead
  rw [letter_of_ok hpass hok]
  refine ⟨f x, by rw [hletters]; exact List.mem_map_of_mem hx, ?_, ?_⟩
  · rw [hf.key, hxy]
    exact congrArg Log.key hylog
  · have hxkey : x.key = e.key := congrArg Log.key hxlog
    rw [hf.resolved, happly, decide_eq_true hxkey]
    exact Bool.or_true _

/-- A letter waits with room for it until it is resolved. -/
theorem Turn.step (h : Turn q q' d) (hcalm : Calm q')
    (hproject : Resolved q'.db d.key ∨ Projectable p q'.db d) (l : Label) :
    Turn q (step p q' l) d := by
  have hle : q'.db.deadLetters.length ≤ (Retries.step p q' l).db.deadLetters.length := by
    rcases step_deadLetters (p := p) hcalm l with ⟨key, ok, f, -, hletters⟩ | ⟨added, hletters⟩
    · rw [hletters, List.length_map]
    · rw [hletters, List.length_append]
      exact Nat.le_add_right _ _
  refine ⟨Nat.le_trans h.letters hle, ?_⟩
  by_cases hresolved : Resolved q'.db d.key
  · exact .inl (hresolved.step hcalm l)
  have hwait := h.turn.resolve_left hresolved
  have hprojectable := hproject.resolve_left hresolved
  cases l with
  | list => exact .inr hwait.list
  | letter =>
      rw [Retries.step]
      rcases letter_cases p q' with (hsame | hstop) | ⟨number, e, ds, done, db', hpass, hok⟩
      · rw [hsame]
        exact .inr hwait
      · rw [hstop]
        exact .inr hwait.stop
      · by_cases hkey : e.key = d.key
        · exact .inl (resolved_of_head hcalm hwait.stands hprojectable hpass hkey)
        · exact .inr (hwait.letter hcalm hpass hkey hok)
  | batch key logs cp =>
      obtain ⟨⟨added, hadded⟩, -⟩ := batch_deadLetters p key logs cp hcalm.nodup
      exact .inr (hwait.batch h.letters hadded)
  | others db => exact .inr ⟨hwait.stands, hwait.room, hwait.underway⟩
  | stop => exact .inr hwait.stop

end Turns

/-! ## Whole runs -/

section Runs

variable {ls : List Label}

theorem calm_at (hnodup : (db.deadLetters.map DeadLetter.key).Nodup) (n : Nat) :
    Calm (at_ p db ls n) :=
  stateAt_induct (m := 0) (Calm.initial hnodup) (fun _ l _ _ hcalm => hcalm.step l) (Nat.zero_le n)

theorem resolved_at (hnodup : (db.deadLetters.map DeadLetter.key).Nodup) {m n : Nat} (hmn : m ≤ n)
    {k : TxKey} (h : Resolved (at_ p db ls m).db k) : Resolved (at_ p db ls n).db k :=
  stateAt_induct (P := fun q : Queue => Resolved q.db k) h
    (fun j l _ _ hresolved => hresolved.step (calm_at hnodup j) l) hmn

/-- Where the failures and the overtakers leave room, a letter is resolved within `⌈n / 50⌉` passes,
whatever else is parked, tried or written in between. -/
theorem cleared_of_room (p : Projector) (db : Db) (ls : List Label)
    (hnodup : (db.deadLetters.map DeadLetter.key).Nodup) (hroom : LeavesRoom p db ls) :
    Cleared p db ls := by
  intro m n d hmn hdue hproject
  obtain ⟨k, hmk, hkn, hk⟩ := hroom m n d hmn hdue
  have hstep : ∀ j, m ≤ j → j ≤ k → Turn (at_ p db ls m) (at_ p db ls j) d := by
    intro j hmj
    induction j, hmj using Nat.le_induction with
    | base => exact fun _ => Turn.start (calm_at hnodup m) hdue.mem hdue.unresolved
    | succ j hmj ih =>
        intro hjk
        have hturn := ih (Nat.le_of_succ_le hjk)
        cases hl : ls[j]? with
        | none =>
            have hstill : at_ p db ls (j + 1) = at_ p db ls j := stateAt_of_none (step p) _ hl
            rwa [hstill]
        | some l =>
            have hnext : at_ p db ls (j + 1) = step p (at_ p db ls j) l :=
              stateAt_succ (step p) _ hl
            rw [hnext]
            exact hturn.step (calm_at hnodup j) (hproject j hmj (by omega)) l
  rcases (hstep k hmk (Nat.le_refl k)).turn with hresolved | hwait
  · exact resolved_at hnodup hkn hresolved
  · have := hwait.room
    omega

/-- When no try fails and nothing is parked, there is room. -/
theorem leavesRoom_of_quiet (hretried : ∀ n, ∀ a ∈ (at_ p db ls n).retried, a.resolved = true)
    (hletters : ∀ n, (at_ p db ls n).db.deadLetters.length = db.deadLetters.length) :
    LeavesRoom p db ls := by
  intro m n d hmn hdue
  refine ⟨n, hmn, Nat.le_refl n, ?_⟩
  have hfailures : freshFailures (at_ p db ls m) (at_ p db ls n) = 0 := by
    rw [freshFailures, List.length_eq_zero_iff, List.filter_eq_nil_iff]
    intro a ha hfailed
    have hresolved := (of_decide_eq_true hfailed).2
    rw [hretried n a ha] at hresolved
    cases hresolved
  have hovertakers : overtakers (at_ p db ls m) (at_ p db ls n) d = 0 := by
    have hdrop : (at_ p db ls n).db.deadLetters.drop (at_ p db ls m).db.deadLetters.length =
        [] := by
      rw [List.drop_eq_nil_iff, hletters, hletters]
    rw [overtakers, hdrop]
    rfl
  rw [hfailures, hovertakers]
  exact hdue.passes

end Runs

/-! ## Behind letters that never project -/

/-- Whatever became of the letters, the log is not applied to the rest of the database. -/
def Hopeless (p : Projector) (db : Db) (d : DeadLetter) : Prop :=
  ∀ letters, ∃ reason, p.apply d.log d.blockTimestamp { db with deadLetters := letters } =
    .error (.unresolvable reason)

/-- What the tries of a letter do not change, its resolution aside. -/
def core (d : DeadLetter) : Log × Int × Bool := (d.log, d.blockTimestamp, d.resolved)

def IsRetry : Label → Bool
  | .list | .letter | .stop => true
  | .batch .. | .others _ => false

/-- Only the counts and the reasons of the letters have changed. -/
structure Stuck (p : Projector) (db : Db) (q : Queue) : Prop where
  rest : ∃ letters, q.db = { db with deadLetters := letters } ∧
    letters.map core = db.deadLetters.map core
  hopeless : ∀ pass, q.pass = some pass → ∀ e ∈ pass.letters, Hopeless p db e

def coreNotAfter (a b : Log × Int × Bool) : Prop :=
  a.1.blockNumber < b.1.blockNumber ∨ a.1.blockNumber = b.1.blockNumber ∧ a.1.index ≤ b.1.index

instance : DecidableRel coreNotAfter := fun a b =>
  inferInstanceAs (Decidable (a.1.blockNumber < b.1.blockNumber ∨
    a.1.blockNumber = b.1.blockNumber ∧ a.1.index ≤ b.1.index))

theorem map_core_oldest {letters : List DeadLetter}
    (h : letters.map core = db.deadLetters.map core) (n : Nat) :
    ({ db with deadLetters := letters }.unresolvedDeadLetters n).map core =
      (db.unresolvedDeadLetters n).map core := by
  have hsort : ∀ ds : List DeadLetter,
      ((ds.filter fun d => d.resolved = false).insertionSort DeadLetter.notAfter).map core =
        ((ds.map core).filter fun c => c.2.2 = false).insertionSort coreNotAfter := by
    intro ds
    rw [List.filter_map, List.map_insertionSort DeadLetter.notAfter coreNotAfter core _
      fun _ _ _ _ => Iff.rfl]
    rfl
  rw [Db.unresolvedDeadLetters, Db.unresolvedDeadLetters, List.map_take, List.map_take,
    Db.unresolved, Db.unresolved, hsort, hsort]
  exact congrArg
    (fun cs : List (Log × Int × Bool) =>
      ((cs.filter fun c => c.2.2 = false).insertionSort coreNotAfter).take n) h

theorem Hopeless.congr (h : Hopeless p db d) (hcore : core e = core d) : Hopeless p db e := by
  intro letters
  obtain ⟨hlog, htime, -⟩ : e.log = d.log ∧ e.blockTimestamp = d.blockTimestamp ∧
      e.resolved = d.resolved := by
    simpa [core] using hcore
  rw [hlog, htime]
  exact h letters

theorem retryLetter_of_hopeless (h : Hopeless p db e) (letters : List DeadLetter) :
    ∃ letters', p.retryLetter e { db with deadLetters := letters } =
      .ok ((), { db with deadLetters := letters' }) ∧ letters'.map core = letters.map core := by
  obtain ⟨reason, happly⟩ := h letters
  refine ⟨letters.map fun d => if d.key = e.key then
    { d with attempts := d.attempts + 1, reason := reason } else d,
    Projector.retryLetter_eq_ok.mpr (.inr ⟨reason, happly, rfl⟩), ?_⟩
  rw [List.map_map]
  refine List.map_congr_left fun d _ => ?_
  rw [Function.comp_apply]
  split <;> rfl

theorem Stuck.step {q : Queue} (h : Stuck p db q)
    (hfront : ∀ e ∈ db.unresolvedDeadLetters deadLetterRetryLimit, Hopeless p db e) {l : Label}
    (hl : IsRetry l = true) : Stuck p db (step p q l) := by
  obtain ⟨⟨letters, hdb, hcore⟩, hhopeless⟩ := h
  cases l with
  | list =>
      rw [Retries.step]
      unfold Queue.list
      cases hpass : q.pass with
      | some pass => exact ⟨⟨letters, hdb, hcore⟩, hhopeless⟩
      | none =>
          simp only
          split
          · refine ⟨⟨letters, hdb, hcore⟩, fun pass hp => ?_⟩
            cases hp
          · refine ⟨⟨letters, hdb, hcore⟩, ?_⟩
            rintro pass ⟨⟩ e he
            have hmem := List.mem_map_of_mem (f := core) he
            rw [hdb, map_core_oldest hcore] at hmem
            obtain ⟨d, hd, hsame⟩ := List.mem_map.mp hmem
            exact (hfront d hd).congr hsame.symm
  | letter =>
      rw [Retries.step]
      rcases letter_cases p q with (hsame | hstop) | ⟨number, e, ds, done, db', hpass, hok⟩
      · rw [hsame]
        exact ⟨⟨letters, hdb, hcore⟩, hhopeless⟩
      · rw [hstop]
        exact ⟨⟨letters, hdb, hcore⟩, fun pass hp => by cases hp⟩
      · obtain ⟨letters', hretry, hcore'⟩ :=
          retryLetter_of_hopeless (hhopeless _ hpass e List.mem_cons_self) letters
        rw [hdb, hretry, Except.ok.injEq, Prod.mk.injEq] at hok
        rw [← hdb] at hretry
        rw [letter_of_ok hpass hretry]
        refine ⟨⟨letters', rfl, hcore'.trans hcore⟩, fun pass hp x hx => ?_⟩
        simp only at hp
        split at hp
        · cases hp
        · obtain rfl := Option.some.inj hp
          exact hhopeless _ hpass x (List.mem_cons_of_mem _ hx)
  | batch key logs cp => cases hl
  | others db => cases hl
  | stop => exact ⟨⟨letters, hdb, hcore⟩, fun pass hp => by cases hp⟩

/-- If the fifty oldest letters never project, no pass changes anything but their counts. -/
theorem starved_of_front {ls : List Label}
    (hfront : ∀ e ∈ db.unresolvedDeadLetters deadLetterRetryLimit, Hopeless p db e)
    (hls : ∀ l ∈ ls, IsRetry l = true) (n : Nat) : Stuck p db (at_ p db ls n) := by
  have hstart : Stuck p db (Queue.initial db) :=
    ⟨⟨db.deadLetters, rfl, rfl⟩, fun pass hp => by cases hp⟩
  exact stateAt_invariant (Nat.zero_le n) hstart fun q l hl h => h.step hfront (hls l hl)

theorem retryLetters_of_hopeless {ds : List DeadLetter} (h : ∀ e ∈ ds, Hopeless p db e)
    (letters : List DeadLetter) :
    (p.retryLetters ds { db with deadLetters := letters }).2 = true := by
  induction ds generalizing letters with
  | nil => rfl
  | cons e ds ih =>
      obtain ⟨letters', hretry, -⟩ := retryLetter_of_hopeless (h e List.mem_cons_self) letters
      rw [Projector.retryLetters, hretry]
      exact ih (fun x hx => h x (List.mem_cons_of_mem _ hx)) letters'

/-- Such a pass comes to its end all the same. -/
theorem Stuck.pass_returns {q : Queue} (h : Stuck p db q) (hpass : q.pass = none)
    (hfront : ∀ e ∈ db.unresolvedDeadLetters deadLetterRetryLimit, Hopeless p db e) {n : Nat}
    (hn : (db.unresolvedDeadLetters deadLetterRetryLimit).length = n) :
    (exec (Retries.step p) q (.list :: List.replicate n .letter)).pass = none ∧
      (exec (Retries.step p) q (.list :: List.replicate n .letter)).begun = q.begun + 1 ∧
      (exec (Retries.step p) q (.list :: List.replicate n .letter)).returned =
        q.returned ++ [q.begun] := by
  obtain ⟨letters, hdb, hcore⟩ := h.rest
  have holdest := map_core_oldest hcore deadLetterRetryLimit
  rw [← hdb] at holdest
  have hlength : (q.db.unresolvedDeadLetters deadLetterRetryLimit).length = n := by
    rw [← hn, ← List.length_map (f := core), holdest, List.length_map]
  have hhopeless : ∀ e ∈ q.db.unresolvedDeadLetters deadLetterRetryLimit, Hopeless p db e := by
    intro e he
    have hmem := List.mem_map_of_mem (f := core) he
    rw [holdest] at hmem
    obtain ⟨d, hd, hsame⟩ := List.mem_map.mp hmem
    exact (hfront d hd).congr hsame.symm
  have hends : (p.retryDeadLetters q.db).2 = true := by
    have hletters := retryLetters_of_hopeless hhopeless letters
    rwa [← hdb] at hletters
  obtain ⟨-, hidle, hbegun, hreturned⟩ := exec_pass (p := p) hpass hlength
  rw [hends] at hreturned
  exact ⟨hidle, hbegun, hreturned⟩

section Samples

open Projector (deployedProjector)

/-- A job created on chain and not through the API. -/
def jobLetter (n : Nat) : DeadLetter :=
  ⟨⟨0xE5, n + 1, BitVec.ofNat 256 n, 0, .event (.jobCreated n 0xA1 0xB2 5 1000000)⟩, 1700000000,
    .unknownJob "job.created" n, 1, false⟩

/-- A fee of a merchant that was not linked when it was parked. -/
def feeLetter : DeadLetter :=
  ⟨⟨0xFE, 100, 0xFEE, 0, .event (.feeAccrued 5 7 2500)⟩, 1700000600,
    .feeAccruedUnlinkedMerchant 0xFEE 7, 1, false⟩

/-- The merchant is linked by now. -/
def linkedDb (letters : List DeadLetter) : Db :=
  { Db.empty with
    merchants := [⟨[0x6D, 0x37], some 7, some 0x71, some 100, some 200, some 0x71,
      some 1700000300, some 0xDA, .active⟩]
    deadLetters := letters }

def crowded : List DeadLetter := (List.range 50).map jobLetter ++ [feeLetter]

/-- Two passes over fifty letters. -/
def twoPasses : List Label :=
  (.list :: List.replicate 50 .letter) ++ .list :: List.replicate 50 .letter

theorem projectable_feeLetter (letters : List DeadLetter) :
    Projectable deployedProjector (linkedDb letters) feeLetter := ⟨_, rfl⟩

theorem hopeless_jobLetter {n : Nat} (hn : n < 50) :
    Hopeless deployedProjector (linkedDb crowded) (jobLetter n) := by
  intro letters
  refine ⟨.unknownJob "job.created" n, ?_⟩
  interval_cases n <;> rfl

theorem unresolved_crowded : (linkedDb crowded).unresolved = crowded := by
  have hall : crowded.filter (fun d => d.resolved = false) = crowded := by
    refine List.filter_eq_self.mpr fun d hd => ?_
    rcases List.mem_append.mp hd with hd | hd
    · obtain ⟨n, -, rfl⟩ := List.mem_map.mp hd
      rfl
    · rw [List.mem_singleton.mp hd]
      rfl
  have hsorted : crowded.Pairwise DeadLetter.notAfter := by
    refine List.pairwise_append.mpr ⟨List.pairwise_map.mpr ?_, List.pairwise_singleton _ _, ?_⟩
    · exact List.pairwise_lt_range.imp fun h => .inl (Nat.succ_lt_succ h)
    · intro d hd d' hd'
      obtain ⟨n, hn, rfl⟩ := List.mem_map.mp hd
      rw [List.mem_singleton.mp hd']
      have hlt := List.mem_range.mp hn
      refine .inl ?_
      simp only [jobLetter, feeLetter]
      omega
  show (crowded.filter fun d => d.resolved = false).insertionSort DeadLetter.notAfter = crowded
  rw [hall]
  exact hsorted.insertionSort_eq

/-- Fifty letters of jobs that the API does not know keep a linked merchant's letter from being
tried. -/
theorem feeLetter_starved : ¬ Cleared deployedProjector (linkedDb crowded) twoPasses := by
  have holdest : (linkedDb crowded).unresolvedDeadLetters deadLetterRetryLimit =
      (List.range 50).map jobLetter := by
    rw [Db.unresolvedDeadLetters, unresolved_crowded]
    exact List.take_left' (by simp [deadLetterRetryLimit])
  have hfront : ∀ e ∈ (linkedDb crowded).unresolvedDeadLetters deadLetterRetryLimit,
      Hopeless deployedProjector (linkedDb crowded) e := by
    intro e he
    rw [holdest] at he
    obtain ⟨n, hn, rfl⟩ := List.mem_map.mp he
    exact hopeless_jobLetter (List.mem_range.mp hn)
  have hretry : ∀ l ∈ twoPasses, IsRetry l = true := by
    intro l hl
    simp only [twoPasses, List.mem_append, List.mem_cons, List.mem_replicate] at hl
    rcases hl with (rfl | ⟨-, rfl⟩) | rfl | ⟨-, rfl⟩ <;> rfl
  have hstuck := starved_of_front hfront hretry
  have hcount : ((linkedDb crowded).unresolvedDeadLetters deadLetterRetryLimit).length = 50 := by
    rw [holdest, List.length_map, List.length_range]
  have hpasses : (at_ deployedProjector (linkedDb crowded) twoPasses 102).returned = [0, 1] := by
    have hend : at_ deployedProjector (linkedDb crowded) twoPasses 102 =
        exec (step deployedProjector) (exec (step deployedProjector)
          (Queue.initial (linkedDb crowded)) (.list :: List.replicate 50 .letter))
          (.list :: List.replicate 50 .letter) := by
      rw [← exec_append]
      exact stateAt_length (step deployedProjector) _ twoPasses
    have hmiddle : Stuck deployedProjector (linkedDb crowded) (exec (step deployedProjector)
        (Queue.initial (linkedDb crowded)) (.list :: List.replicate 50 .letter)) := hstuck 51
    have hstart : Stuck deployedProjector (linkedDb crowded) (Queue.initial (linkedDb crowded)) :=
      hstuck 0
    obtain ⟨hidle, hbegun, hreturned⟩ := hstart.pass_returns rfl hfront hcount
    obtain ⟨-, -, hreturned'⟩ := hmiddle.pass_returns hidle hfront hcount
    rw [hend, hreturned', hbegun, hreturned]
    rfl
  intro h
  have hdue : Due (at_ deployedProjector (linkedDb crowded) twoPasses 0)
      (at_ deployedProjector (linkedDb crowded) twoPasses 102) feeLetter := by
    refine ⟨List.mem_append_right _ (List.mem_singleton_self _), rfl, ?_⟩
    have hfresh : freshPasses (at_ deployedProjector (linkedDb crowded) twoPasses 0)
        (at_ deployedProjector (linkedDb crowded) twoPasses 102) = 2 := by
      rw [freshPasses, hpasses]
      rfl
    have hletters :
        (at_ deployedProjector (linkedDb crowded) twoPasses 0).db.unresolved.length = 51 :=
      congrArg List.length unresolved_crowded
    rw [hfresh, hletters]
    decide
  have hresolved := h 0 102 feeLetter (Nat.zero_le _) hdue fun k _ _ => .inr ?_
  · obtain ⟨letters, hdb, hcore⟩ := (hstuck 102).rest
    obtain ⟨e, he, -, he'⟩ := hresolved
    rw [hdb] at he
    have hmem := List.mem_map_of_mem (f := core) he
    rw [hcore] at hmem
    obtain ⟨d, hd, hsame⟩ := List.mem_map.mp hmem
    have hunresolved : d.resolved = false :=
      (mem_unresolved.mp (unresolved_crowded ▸ hd : d ∈ (linkedDb crowded).unresolved)).2
    have hresolved' : d.resolved = e.resolved := congrArg (fun c => c.2.2) hsame
    rw [hunresolved, he'] at hresolved'
    cases hresolved'
  · obtain ⟨letters, hdb, -⟩ := (hstuck k).rest
    rw [hdb]
    exact projectable_feeLetter letters

/-- Alone, it is resolved by the next pass. -/
theorem feeLetter_cleared :
    Cleared deployedProjector (linkedDb [feeLetter]) [.list, .letter] := by
  refine cleared_of_room deployedProjector (linkedDb [feeLetter]) [.list, .letter]
    (List.nodup_singleton _) (leavesRoom_of_quiet (fun n => ?_) fun n => ?_)
  · rw [at_, stateAt_min]
    have hn : min n 2 ≤ 2 := min_le_right n 2
    show ∀ a ∈ (stateAt (step deployedProjector) (Queue.initial (linkedDb [feeLetter]))
      [.list, .letter] (min n 2)).retried, a.resolved = true
    generalize min n 2 = k at hn
    interval_cases k
    · exact fun a ha => absurd ha List.not_mem_nil
    · exact fun a ha => absurd ha List.not_mem_nil
    · intro a ha
      rw [List.mem_singleton.mp ha]
      rfl
  · rw [at_, stateAt_min]
    have hn : min n 2 ≤ 2 := min_le_right n 2
    show (stateAt (step deployedProjector) (Queue.initial (linkedDb [feeLetter]))
      [.list, .letter] (min n 2)).db.deadLetters.length = 1
    generalize min n 2 = k at hn
    interval_cases k <;> rfl

end Samples

end Strimz.Indexer.Retries
