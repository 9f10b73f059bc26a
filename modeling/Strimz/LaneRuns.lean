import Strimz.NotificationLanes

/-!
# Every notification gets its turn, once

While ticks do not overlap, stamps succeed and rows get ready in order, a row that was unsent keeps
its place: what is ahead of it, and what later ticks have been through, stays below what was unsent
when it appeared and what failed since (`Turn.step`). So it is reached within `⌈n / B⌉` ticks if the
failures leave room, and no row is sent twice (`served_of_careful`).
-/

namespace Strimz.MerchantNotifications

open Runs

variable {ρ : Type} {lane : Lane ρ} {batchSize : ℕ}

/-! ## What is claimed -/

/-- How many of the ticks that began after `w` have returned by `w'`. -/
def freshTicks (w w' : World ρ) : ℕ := (w'.returned.filter (fun r => w.begun ≤ r.1)).length

/-- What was attempted in between. -/
def attempts (w w' : World ρ) : List LogEntry := w'.log.drop w.log.length

/-- How many attempts of these ticks have failed. -/
def freshFailures (w w' : World ρ) : ℕ :=
  (w'.log.filter (fun e => w.begun ≤ e.number ∧ e.attempt = .failed)).length

def IsSent (e : LogEntry) : Prop := e.attempt = .sent true ∨ e.attempt = .sent false

instance (e : LogEntry) : Decidable (IsSent e) := inferInstanceAs (Decidable (_ ∨ _))

def sends (w : World ρ) (id : RowId) : ℕ :=
  (w.log.filter (fun e => e.id = id ∧ IsSent e)).length

section Claim

variable [DecidableEq ρ] (lane : Lane ρ) (batchSize : ℕ)

/-- The number of unsent rows. -/
def unsentCount (w : World ρ) : ℕ := (w.table.filter lane.unsent).length

/-- A row that is unsent in `w`, and whose `⌈n / B⌉` ticks have returned by `w'`. -/
structure Due (w w' : World ρ) (row : ρ) : Prop where
  mem : row ∈ w.table
  unsent : lane.unsent row = true
  ticks : unsentCount lane w ≤ batchSize * freshTicks w w'

variable (table : List ρ) (now : ℕ) (ls : List (Label ρ))

/-- The state before the `n`-th label. -/
def at_ (n : ℕ) : World ρ := stateAt (step lane batchSize) (World.initial table now) ls n

/-- No row is starved, and none is sent twice. -/
structure Served : Prop where
  /-- An unsent row is attempted within `⌈n / B⌉` ticks. -/
  attempted : ∀ m n row, m ≤ n →
    Due lane batchSize (at_ lane batchSize table now ls m) (at_ lane batchSize table now ls n) row →
      ∃ e ∈ attempts (at_ lane batchSize table now ls m) (at_ lane batchSize table now ls n),
        e.id = lane.id row
  /-- If these ticks are over at some deadline and its own send works, it goes out by then. -/
  goesOut : ∀ m n row deadline, m ≤ n →
    Due lane batchSize (at_ lane batchSize table now ls m) (at_ lane batchSize table now ls n) row →
      (at_ lane batchSize table now ls n).now ≤ deadline →
      (∀ e ∈ attempts (at_ lane batchSize table now ls m) (at_ lane batchSize table now ls n),
        e.id = lane.id row → IsSent e) →
      ∃ e ∈ attempts (at_ lane batchSize table now ls m) (at_ lane batchSize table now ls n),
        e.id = lane.id row ∧ IsSent e ∧ e.at_ ≤ deadline
  /-- At most one successful send. -/
  once : ∀ n id, sends (at_ lane batchSize table now ls n) id ≤ 1

/-! ## When it holds -/

/-- Rows stay, unsent ones where they are in the order, and stamps stay; a row that gets ready comes
later than all that are unsent. -/
structure Orderly (old new : List ρ) : Prop where
  nodup : (new.map lane.id).Nodup
  stays : ∀ x ∈ old, ∃ y ∈ new, lane.id y = lane.id x ∧
    (lane.notifiedAt x ≠ none → lane.notifiedAt y ≠ none) ∧
    (lane.unsent x = true → lane.unsent y = true ∧ lane.order y = lane.order x)
  later : ∀ y ∈ new, lane.unsent y = true →
    (∃ x ∈ old, lane.id x = lane.id y ∧ lane.unsent x = true) ∨
      ∀ x ∈ old, lane.unsent x = true → lane.order x < lane.order y

/-- One tick at a time, none cut short, every stamp succeeds, and other writes are orderly. -/
def Careful (w : World ρ) : Label ρ → Prop
  | .tick _ => w.ticks = []
  | .attempt _ _ stamps => stamps = true
  | .cut _ => False
  | .write table => Orderly lane w.table table
  | .wait _ => True

structure CarefulRun : Prop where
  nodup : (table.map lane.id).Nodup
  careful : ∀ n l, ls[n]? = some l → Careful lane (at_ lane batchSize table now ls n) l

/-- Before the `⌈n / B⌉` ticks of an unsent row are over, the failures have left room for it. -/
def LeavesRoom : Prop :=
  ∀ m n row, m ≤ n →
    Due lane batchSize (at_ lane batchSize table now ls m) (at_ lane batchSize table now ls n) row →
      ∃ k, m ≤ k ∧ k ≤ n ∧ unsentCount lane (at_ lane batchSize table now ls m) +
        freshFailures (at_ lane batchSize table now ls m) (at_ lane batchSize table now ls k) ≤
          batchSize * freshTicks (at_ lane batchSize table now ls m)
            (at_ lane batchSize table now ls k)

end Claim

/-! ## Writes of the table -/

section Tables

variable {gone : List RowId} {old new : List ρ} {row x : ρ}

/-- The row is unsent still, at its place in the order. -/
def Stands (lane : Lane ρ) (table : List ρ) (row : ρ) : Prop :=
  ∃ y ∈ table, lane.id y = lane.id row ∧ lane.unsent y = true ∧ lane.order y = lane.order row

/-- An orderly write, the rows `gone` aside, which are unsent no more. -/
structure Moves (lane : Lane ρ) (gone : List RowId) (old new : List ρ) : Prop where
  nodup : (new.map lane.id).Nodup
  stamps : ∀ x ∈ old, ∃ y ∈ new, lane.id y = lane.id x ∧
    (lane.notifiedAt x ≠ none → lane.notifiedAt y ≠ none)
  stands : ∀ x ∈ old, lane.unsent x = true → lane.id x ∉ gone → Stands lane new x
  gone : ∀ y ∈ new, lane.unsent y = true → lane.id y ∉ gone
  later : ∀ y ∈ new, lane.unsent y = true →
    (∃ x ∈ old, lane.id x = lane.id y ∧ lane.unsent x = true) ∨
      ∀ x ∈ old, lane.unsent x = true → lane.order x < lane.order y

theorem eq_of_id (hnodup : (old.map lane.id).Nodup) {y : ρ} (hx : x ∈ old) (hy : y ∈ old)
    (h : lane.id x = lane.id y) : x = y :=
  List.inj_on_of_nodup_map hnodup hx hy h

theorem Orderly.moves (h : Orderly lane old new) : Moves lane [] old new where
  nodup := h.nodup
  stamps x hx := by
    obtain ⟨y, hy, hid, hstamp, -⟩ := h.stays x hx
    exact ⟨y, hy, hid, hstamp⟩
  stands x hx hunsent _ := by
    obtain ⟨y, hy, hid, -, hstill⟩ := h.stays x hx
    exact ⟨y, hy, hid, hstill hunsent⟩
  gone _ _ _ := List.not_mem_nil
  later := h.later

theorem moves_refl (hnodup : (old.map lane.id).Nodup) : Moves lane [] old old where
  nodup := hnodup
  stamps x hx := ⟨x, hx, rfl, id⟩
  stands x hx hunsent _ := ⟨x, hx, rfl, hunsent, rfl⟩
  gone _ _ _ := List.not_mem_nil
  later y hy hunsent := .inl ⟨y, hy, rfl, hunsent⟩

theorem unsent_stamp (now : ℕ) (row : ρ) : lane.unsent (lane.stamp now row) = false := by
  rw [Lane.unsent, lane.notifiedAt_stamp, Option.isNone_some, Bool.and_false]

theorem mem_stampRow {now : ℕ} {id : RowId} (h : x ∈ stampRow lane now id old) :
    (x ∈ old ∧ lane.id x ≠ id) ∨ ∃ y ∈ old, lane.id y = id ∧ x = lane.stamp now y := by
  obtain ⟨y, hy, rfl⟩ := List.mem_map.mp h
  by_cases hid : lane.id y = id
  · rw [if_pos hid]
    exact .inr ⟨y, hy, hid, rfl⟩
  · rw [if_neg hid]
    exact .inl ⟨hy, hid⟩

theorem stamp_mem {now : ℕ} (hx : x ∈ old) :
    lane.stamp now x ∈ stampRow lane now (lane.id x) old :=
  List.mem_map.mpr ⟨x, hx, if_pos rfl⟩

theorem mem_stampRow_of_ne {now : ℕ} {id : RowId} (hx : x ∈ old) (hid : lane.id x ≠ id) :
    x ∈ stampRow lane now id old :=
  List.mem_map.mpr ⟨x, hx, if_neg hid⟩

theorem map_id_stampRow (now : ℕ) (id : RowId) (old : List ρ) :
    (stampRow lane now id old).map lane.id = old.map lane.id := by
  rw [stampRow, List.map_map]
  refine List.map_congr_left fun x _ => ?_
  rw [Function.comp_apply]
  split
  · exact lane.id_stamp now x
  · rfl

theorem moves_stampRow (hnodup : (old.map lane.id).Nodup) (now : ℕ) (id : RowId) :
    Moves lane [id] old (stampRow lane now id old) where
  nodup := by rwa [map_id_stampRow]
  stamps x hx := by
    by_cases hid : lane.id x = id
    · subst hid
      refine ⟨_, stamp_mem hx, lane.id_stamp now x, fun _ => ?_⟩
      rw [lane.notifiedAt_stamp]
      exact Option.some_ne_none now
    · exact ⟨x, mem_stampRow_of_ne hx hid, rfl, fun h => h⟩
  stands x hx hunsent hid :=
    ⟨x, mem_stampRow_of_ne hx fun h => hid (List.mem_singleton.mpr h), rfl, hunsent, rfl⟩
  gone y hy hunsent := by
    rcases mem_stampRow hy with ⟨-, hid⟩ | ⟨x, -, -, rfl⟩
    · exact fun h => hid (List.mem_singleton.mp h)
    · rw [unsent_stamp] at hunsent
      cases hunsent
  later y hy hunsent := by
    rcases mem_stampRow hy with ⟨hold, -⟩ | ⟨x, -, -, rfl⟩
    · exact .inl ⟨y, hold, rfl, hunsent⟩
    · rw [unsent_stamp] at hunsent
      cases hunsent

theorem Stands.moves (h : Stands lane old x) (hmoves : Moves lane gone old new)
    (hgone : lane.id x ∉ gone) : Stands lane new x := by
  obtain ⟨y, hy, hid, hunsent, horder⟩ := h
  obtain ⟨z, hz, hid', hunsent', horder'⟩ := hmoves.stands y hy hunsent (hid ▸ hgone)
  exact ⟨z, hz, hid'.trans hid, hunsent', horder'.trans horder⟩

/-- The unsent rows that may come before a row. -/
def aheadIds (lane : Lane ρ) (table : List ρ) (row : ρ) : List RowId :=
  (table.filter fun x => lane.unsent x = true ∧ lane.id x ≠ lane.id row ∧
    lane.order x ≤ lane.order row).map lane.id

theorem mem_aheadIds {id : RowId} : id ∈ aheadIds lane old row ↔ ∃ x ∈ old, lane.id x = id ∧
    lane.unsent x = true ∧ lane.id x ≠ lane.id row ∧ lane.order x ≤ lane.order row := by
  simp only [aheadIds, List.mem_map, List.mem_filter, decide_eq_true_eq]
  constructor
  · rintro ⟨x, ⟨hx, h⟩, hid⟩
    exact ⟨x, hx, hid, h⟩
  · rintro ⟨x, hx, hid, h⟩
    exact ⟨x, ⟨hx, h⟩, hid⟩

theorem nodup_aheadIds (hnodup : (old.map lane.id).Nodup) : (aheadIds lane old row).Nodup :=
  hnodup.sublist (List.filter_sublist.map lane.id)

/-- Nothing comes ahead of a row that stands. -/
theorem aheadIds_moves (hmoves : Moves lane gone old new) (hstands : Stands lane old row) :
    ∀ id ∈ aheadIds lane new row, id ∈ aheadIds lane old row ∧ id ∉ gone := by
  intro id hid
  obtain ⟨y, hy, rfl, hunsent, hne, horder⟩ := mem_aheadIds.mp hid
  refine ⟨?_, hmoves.gone y hy hunsent⟩
  obtain ⟨r, hr, -, hrunsent, hrorder⟩ := hstands
  rcases hmoves.later y hy hunsent with ⟨x, hx, hxid, hxunsent⟩ | hlater
  · obtain ⟨z, hz, hzid, -, hzorder⟩ :=
      hmoves.stands x hx hxunsent (hxid ▸ hmoves.gone y hy hunsent)
    obtain rfl := eq_of_id hmoves.nodup hz hy (hzid.trans hxid)
    exact mem_aheadIds.mpr ⟨x, hx, hxid, hxunsent, hxid ▸ hne, hzorder ▸ horder⟩
  · exact absurd (hlater r hr hrunsent) (not_lt.mpr (hrorder ▸ horder))

theorem length_aheadIds_le (hmoves : Moves lane gone old new) (hstands : Stands lane old row) :
    (aheadIds lane new row).length ≤ (aheadIds lane old row).length :=
  (nodup_aheadIds hmoves.nodup).length_le_of_subset fun id hid =>
    (aheadIds_moves hmoves hstands id hid).1

/-- A row ahead that is sent is ahead no more. -/
theorem length_aheadIds_lt {id : RowId} (hmoves : Moves lane [id] old new)
    (hstands : Stands lane old row) (hid : id ∈ aheadIds lane old row) :
    (aheadIds lane new row).length + 1 ≤ (aheadIds lane old row).length := by
  have hnew := aheadIds_moves hmoves hstands
  have hcons : (id :: aheadIds lane new row).Nodup :=
    List.nodup_cons.mpr ⟨fun h => (hnew id h).2 (List.mem_singleton.mpr rfl),
      nodup_aheadIds hmoves.nodup⟩
  exact hcons.length_le_of_subset
    (List.cons_subset.mpr ⟨hid, fun x hx => (hnew x hx).1⟩)

end Tables

/-! ## One tick at a time -/

/-- A tick under way: its rows wait for it in the table. -/
structure Pending (lane : Lane ρ) (w : World ρ) (t : Tick ρ) : Prop where
  begun : t.number < w.begun
  nodup : (t.rows.map lane.id).Nodup
  sorted : t.rows.Pairwise fun x y => lane.order x ≤ lane.order y
  stands : ∀ x ∈ t.rows, Stands lane w.table x

structure Calm (lane : Lane ρ) (w : World ρ) : Prop where
  nodup : (w.table.map lane.id).Nodup
  alone : w.ticks.length ≤ 1
  pending : ∀ t ∈ w.ticks, Pending lane w t
  /-- What was sent is stamped. -/
  stamped : ∀ e ∈ w.log, IsSent e → ∃ x ∈ w.table, lane.id x = e.id ∧ lane.notifiedAt x ≠ none
  once : ∀ id, sends w id ≤ 1
  logged : ∀ e ∈ w.log, e.number < w.begun ∧ e.at_ ≤ w.now
  returned : ∀ r ∈ w.returned, r.1 < w.begun

/-- The table behind an attempt whose stamp, if it comes to it, succeeds. -/
def tableAfter (lane : Lane ρ) (w : World ρ) (row : ρ) (a : Attempt) : List ρ :=
  if a = .failed then w.table else stampRow lane w.now (lane.id row) w.table

section Steps

variable {w : World ρ} {t : Tick ρ} {row : ρ} {rest : List ρ} {a : Attempt}

theorem settle_ticks (hticks : w.ticks = [t]) (table : List ρ) :
    (w.settle lane 0 t row rest a table).ticks =
      if rest = [] then [] else [⟨t.number, rest, t.done + 1, t.result.count a⟩] := by
  simp [World.settle, hticks]

/-- The attempted row is unsent in the table. -/
theorem Calm.stands_head (h : Calm lane w) (hticks : w.ticks = [t]) (hrows : t.rows = row :: rest) :
    Stands lane w.table row :=
  (h.pending t (hticks ▸ List.mem_singleton_self t)).stands row (hrows ▸ List.mem_cons_self)

theorem Calm.moves_tableAfter (h : Calm lane w) (row : ρ) (a : Attempt) :
    Moves lane (if a = .failed then [] else [lane.id row]) w.table (tableAfter lane w row a) := by
  unfold tableAfter
  split
  · exact moves_refl h.nodup
  · exact moves_stampRow h.nodup _ _

/-- No row that is unsent has been sent. -/
theorem Calm.sends_eq_zero (h : Calm lane w) (hstands : Stands lane w.table row) :
    sends w (lane.id row) = 0 := by
  rw [sends, List.length_eq_zero_iff, List.filter_eq_nil_iff]
  intro e he hsent
  obtain ⟨hid, hsent⟩ := of_decide_eq_true hsent
  obtain ⟨x, hx, hxid, hnotified⟩ := h.stamped e he hsent
  obtain ⟨y, hy, hyid, hunsent, -⟩ := hstands
  obtain rfl := eq_of_id h.nodup hx hy (hxid.trans (hid.trans hyid.symm))
  rw [Lane.unsent, Bool.and_eq_true, Option.isNone_iff_eq_none] at hunsent
  exact hnotified hunsent.2

theorem Calm.initial {table : List ρ} (hnodup : (table.map lane.id).Nodup) (now : ℕ) :
    Calm lane (World.initial table now) where
  nodup := hnodup
  alone := Nat.zero_le _
  pending _ ht := absurd ht List.not_mem_nil
  stamped _ he := absurd he List.not_mem_nil
  once _ := Nat.zero_le _
  logged _ he := absurd he List.not_mem_nil
  returned _ hr := absurd hr List.not_mem_nil

theorem Calm.settle (h : Calm lane w) (hticks : w.ticks = [t]) (hrows : t.rows = row :: rest)
    (ha : a ≠ .sent false) :
    Calm lane (w.settle lane 0 t row rest a (tableAfter lane w row a)) := by
  have hmoves := h.moves_tableAfter row a
  have hpending := h.pending t (hticks ▸ List.mem_singleton_self t)
  have hstands := h.stands_head hticks hrows
  have hnodup := hpending.nodup
  rw [hrows, List.map_cons, List.nodup_cons] at hnodup
  have hsorted := hpending.sorted
  rw [hrows, List.pairwise_cons] at hsorted
  refine ⟨hmoves.nodup, ?_, fun t' ht' => ?_, fun e he hsent => ?_, fun id => ?_, fun e he => ?_,
    fun r hr => ?_⟩
  · rw [settle_ticks hticks]
    split <;> simp
  · rw [settle_ticks hticks] at ht'
    split at ht'
    · exact absurd ht' List.not_mem_nil
    · obtain rfl := List.mem_singleton.mp ht'
      refine ⟨hpending.begun, hnodup.2, hsorted.2, fun x hx => ?_⟩
      refine (hpending.stands x (hrows ▸ List.mem_cons_of_mem _ hx)).moves hmoves ?_
      split
      · exact List.not_mem_nil
      · intro hmem
        exact hnodup.1 (List.mem_singleton.mp hmem ▸ List.mem_map_of_mem hx)
  · rcases List.mem_append.mp he with he | he
    · obtain ⟨x, hx, hid, hnotified⟩ := h.stamped e he hsent
      obtain ⟨y, hy, hyid, hkeeps⟩ := hmoves.stamps x hx
      exact ⟨y, hy, hyid.trans hid, hkeeps hnotified⟩
    · rw [List.mem_singleton.mp he] at hsent ⊢
      have hne : a ≠ .failed := by
        rintro rfl
        rcases hsent with h | h <;> cases h
      obtain ⟨y, hy, hyid, -, -⟩ := hstands
      refine ⟨lane.stamp w.now y, ?_, (lane.id_stamp _ _).trans hyid, ?_⟩
      · show _ ∈ tableAfter lane w row a
        rw [tableAfter, if_neg hne, ← hyid]
        exact stamp_mem hy
      · rw [lane.notifiedAt_stamp]
        exact Option.some_ne_none _
  · have hlog : sends (w.settle lane 0 t row rest a (tableAfter lane w row a)) id =
        sends w id +
          if lane.id row = id ∧ IsSent ⟨t.number, lane.id row, a, w.now⟩ then 1 else 0 := by
      rw [sends, sends, World.settle, List.filter_append, List.length_append, List.filter_cons]
      simp only [decide_eq_true_eq, List.filter_nil]
      split <;> rfl
    rw [hlog]
    split
    · rename_i hnew
      rw [← hnew.1, h.sends_eq_zero hstands]
    · exact h.once id
  · rcases List.mem_append.mp he with he | he
    · exact h.logged e he
    · rw [List.mem_singleton.mp he]
      exact ⟨hpending.begun, Nat.le_refl _⟩
  · simp only [World.settle] at hr
    split at hr
    · rcases List.mem_append.mp hr with hr | hr
      · exact h.returned r hr
      · rw [List.mem_singleton.mp hr]
        exact hpending.begun
    · exact h.returned r hr

theorem Calm.write {table : List ρ} (h : Calm lane w) (hmoves : Moves lane [] w.table table) :
    Calm lane { w with table := table } where
  nodup := hmoves.nodup
  alone := h.alone
  pending t ht := ⟨(h.pending t ht).begun, (h.pending t ht).nodup, (h.pending t ht).sorted,
    fun x hx => ((h.pending t ht).stands x hx).moves hmoves List.not_mem_nil⟩
  stamped e he hsent := by
    obtain ⟨x, hx, hid, hnotified⟩ := h.stamped e he hsent
    obtain ⟨y, hy, hyid, hkeeps⟩ := hmoves.stamps x hx
    exact ⟨y, hy, hyid.trans hid, hkeeps hnotified⟩
  once := h.once
  logged := h.logged
  returned := h.returned

/-- What an attempt does when its stamp succeeds. -/
theorem attempt_cases (lane : Lane ρ) (halone : w.ticks.length ≤ 1) (k : ℕ) (sends : Bool) :
    w.attempt lane k sends true = w ∨ ∃ t row rest a, w.ticks = [t] ∧ t.rows = row :: rest ∧
      a ≠ .sent false ∧
      w.attempt lane k sends true = w.settle lane 0 t row rest a (tableAfter lane w row a) := by
  cases hk : w.ticks[k]? with
  | none => exact .inl (by simp only [World.attempt, hk])
  | some t =>
      have hlt := (List.getElem?_eq_some_iff.mp hk).1
      obtain rfl : k = 0 := by omega
      obtain ⟨t', ht'⟩ := List.length_eq_one_iff.mp (show w.ticks.length = 1 by omega)
      obtain rfl : t' = t := by simpa [ht'] using hk
      obtain ⟨number, rows, done, result⟩ := t'
      cases rows with
      | nil => exact .inl (by simp only [World.attempt, hk])
      | cons row rest =>
          refine .inr ⟨⟨number, row :: rest, done, result⟩, row, rest, ?_⟩
          simp only [World.attempt, hk, if_true]
          by_cases henabled : lane.enabled row = false
          · exact ⟨.silenced, ht', trivial, by decide, if_pos henabled⟩
          · rw [if_neg henabled]
            cases lane.compose row with
            | error => exact ⟨.failed, ht', trivial, by decide, rfl⟩
            | ok email =>
                cases sends with
                | false => exact ⟨.failed, ht', trivial, by decide, rfl⟩
                | true => exact ⟨.sent true, ht', trivial, by decide, rfl⟩

variable [DecidableEq ρ]

/-- Ticks only begin and return. -/
theorem Calm.begin_ (h : Calm lane w) (hfree : w.ticks = []) (batch : List ρ) :
    Calm lane (w.begin_ lane batchSize batch) := by
  unfold World.begin_
  split
  · rename_i hanswer
    split
    · exact ⟨h.nodup, h.alone, fun t ht => absurd (hfree ▸ ht) List.not_mem_nil, h.stamped, h.once,
        fun e he => ⟨Nat.lt_succ_of_lt (h.logged e he).1, (h.logged e he).2⟩, fun r hr => by
          rcases List.mem_append.mp hr with hr | hr
          · exact Nat.lt_succ_of_lt (h.returned r hr)
          · rw [List.mem_singleton.mp hr]
            exact Nat.lt_succ_self _⟩
    · refine ⟨h.nodup, by rw [hfree]; exact Nat.le_refl 1, fun t ht => ?_, h.stamped, h.once,
        fun e he => ⟨Nat.lt_succ_of_lt (h.logged e he).1, (h.logged e he).2⟩,
        fun r hr => Nat.lt_succ_of_lt (h.returned r hr)⟩
      rw [hfree, List.nil_append] at ht
      obtain rfl := List.mem_singleton.mp ht
      exact ⟨Nat.lt_succ_self _, hanswer.nodup, hanswer.sorted, fun x hx =>
        ⟨x, (hanswer.unsent x hx).1, rfl, (hanswer.unsent x hx).2, rfl⟩⟩
  · exact h

theorem Calm.step (h : Calm lane w) {l : Label ρ} (hl : Careful lane w l) :
    Calm lane (step lane batchSize w l) := by
  cases l with
  | tick batch => exact h.begin_ hl batch
  | attempt k sends stamps =>
      obtain rfl : stamps = true := hl
      rcases attempt_cases lane h.alone k sends with
        hsame | ⟨t, row, rest, a, hticks, hrows, ha, hstep⟩
      · rw [MerchantNotifications.step, hsame]
        exact h
      · rw [MerchantNotifications.step, hstep]
        exact h.settle hticks hrows ha
  | cut k => exact absurd hl not_false
  | write table => exact h.write hl.moves
  | wait seconds =>
      exact ⟨h.nodup, h.alone, fun t ht => ⟨(h.pending t ht).begun, (h.pending t ht).nodup,
        (h.pending t ht).sorted, (h.pending t ht).stands⟩, h.stamped, h.once,
        fun e he => ⟨(h.logged e he).1, Nat.le_add_right_of_le (h.logged e he).2⟩, h.returned⟩

/-- The log only grows. -/
theorem Calm.log_step (h : Calm lane w) (batchSize : ℕ) {l : Label ρ} (hl : Careful lane w l) :
    w.log <+: (MerchantNotifications.step lane batchSize w l).log := by
  cases l with
  | tick batch =>
      simp only [MerchantNotifications.step, World.begin_]
      split
      · split <;> exact List.prefix_rfl
      · exact List.prefix_rfl
  | attempt k sends stamps =>
      obtain rfl : stamps = true := hl
      rcases attempt_cases lane h.alone k sends with
        hsame | ⟨t, row, rest, a, -, -, -, hstep⟩
      · rw [MerchantNotifications.step, hsame]
      · rw [MerchantNotifications.step, hstep]
        exact List.prefix_append _ _
  | cut k => exact List.prefix_rfl
  | write table => exact List.prefix_rfl
  | wait seconds => exact List.prefix_rfl

end Steps

/-! ## A row's turn -/

/-- The rows that the fresh ticks under way have been through. -/
def freshDone (w w' : World ρ) : ℕ :=
  ((w'.ticks.filter fun t => w.begun ≤ t.number).map Tick.done).sum

/-- The row waits, with room for it. -/
structure Waits (lane : Lane ρ) (batchSize : ℕ) (w w' : World ρ) (row : ρ) : Prop where
  stands : Stands lane w'.table row
  room : (aheadIds lane w'.table row).length + batchSize * freshTicks w w' + freshDone w w' + 1 ≤
    unsentCount lane w + freshFailures w w'
  /-- A fresh tick either comes to the row or is full of rows that come before it. -/
  underway : ∀ t ∈ w'.ticks, w.begun ≤ t.number → lane.id row ∈ t.rows.map lane.id ∨
    (t.done + t.rows.length = batchSize ∧ ∀ x ∈ t.rows, lane.order x ≤ lane.order row)

structure Turn (lane : Lane ρ) (batchSize : ℕ) (w w' : World ρ) (row : ρ) : Prop where
  log : w.log.length ≤ w'.log.length
  turn : (∃ e ∈ attempts w w', e.id = lane.id row) ∨ Waits lane batchSize w w' row

section Turns

variable {w w' : World ρ} {t : Tick ρ} {row head : ρ} {rest : List ρ} {a : Attempt}

theorem length_aheadIds_start (h : Calm lane w) (hrow : row ∈ w.table)
    (hunsent : lane.unsent row = true) :
    (aheadIds lane w.table row).length + 1 ≤ unsentCount lane w := by
  have hcons : (lane.id row :: aheadIds lane w.table row).Nodup := by
    refine List.nodup_cons.mpr ⟨fun hmem => ?_, nodup_aheadIds h.nodup⟩
    obtain ⟨x, -, hid, -, hne, -⟩ := mem_aheadIds.mp hmem
    exact hne hid
  have hsub : lane.id row :: aheadIds lane w.table row ⊆
      (w.table.filter lane.unsent).map lane.id := by
    refine List.cons_subset.mpr
      ⟨List.mem_map_of_mem (List.mem_filter.mpr ⟨hrow, hunsent⟩), fun id hid => ?_⟩
    obtain ⟨x, hx, rfl, hxunsent, -⟩ := mem_aheadIds.mp hid
    exact List.mem_map_of_mem (List.mem_filter.mpr ⟨hx, hxunsent⟩)
  have hlength := hcons.length_le_of_subset hsub
  rwa [List.length_map] at hlength

/-- Nothing of a state is fresh in it. -/
theorem Turn.start (h : Calm lane w) (hrow : row ∈ w.table) (hunsent : lane.unsent row = true) :
    Turn lane batchSize w w row := by
  have hticks : freshTicks w w = 0 := by
    rw [freshTicks, List.length_eq_zero_iff, List.filter_eq_nil_iff]
    exact fun r hr hle => Nat.not_le_of_lt (h.returned r hr) (of_decide_eq_true hle)
  have hstale : ∀ t ∈ w.ticks, ¬ w.begun ≤ t.number := fun t ht =>
    Nat.not_le_of_lt (h.pending t ht).begun
  have hdone : freshDone w w = 0 := by
    rw [freshDone, List.filter_eq_nil_iff.mpr fun t ht hle => hstale t ht (of_decide_eq_true hle)]
    rfl
  refine ⟨Nat.le_refl _, .inr ⟨⟨row, hrow, rfl, hunsent, rfl⟩, ?_, fun t ht hle =>
    absurd hle (hstale t ht)⟩⟩
  rw [hticks, hdone, Nat.mul_zero]
  exact Nat.le_add_right_of_le (length_aheadIds_start h hrow hunsent)

/-- A batch that leaves an unsent row out is full of rows that come before it. -/
theorem Answer.full {batch : List ρ} (h : Answer lane batchSize w'.table batch)
    (hstands : Stands lane w'.table row) (hout : lane.id row ∉ batch.map lane.id) :
    batch.length = batchSize ∧ ∀ x ∈ batch, lane.order x ≤ lane.order row := by
  obtain ⟨y, hy, hid, hunsent, horder⟩ := hstands
  have hyout : y ∉ batch := fun hmem => hout (hid ▸ List.mem_map_of_mem hmem)
  refine ⟨?_, fun x hx => horder ▸ h.first x hx y hy hunsent hyout⟩
  have hcons : (lane.id row :: batch.map lane.id).Nodup := List.nodup_cons.mpr ⟨hout, h.nodup⟩
  have hsub : lane.id row :: batch.map lane.id ⊆
      (w'.table.filter lane.unsent).map lane.id := by
    refine List.cons_subset.mpr
      ⟨hid ▸ List.mem_map_of_mem (List.mem_filter.mpr ⟨hy, hunsent⟩), fun id hmem => ?_⟩
    obtain ⟨x, hx, rfl⟩ := List.mem_map.mp hmem
    exact List.mem_map_of_mem (List.mem_filter.mpr (h.unsent x hx))
  have hlength := hcons.length_le_of_subset hsub
  rw [List.length_cons, List.length_map, List.length_map] at hlength
  have htake := h.take
  omega

/-- What a move of the table leaves a waiting row. -/
theorem Waits.write {table : List ρ} (h : Waits lane batchSize w w' row)
    (hmoves : Moves lane [] w'.table table) :
    Waits lane batchSize w { w' with table := table } row where
  stands := h.stands.moves hmoves List.not_mem_nil
  room := by
    have hahead := length_aheadIds_le hmoves h.stands
    have hroom := h.room
    simp only [freshTicks, freshDone, freshFailures] at hroom ⊢
    omega
  underway := h.underway

/-- The counts behind an attempt. -/
theorem settle_counts (lane : Lane ρ) (w : World ρ) (hticks : w'.ticks = [t]) (head : ρ)
    (rest : List ρ) (a : Attempt) (table : List ρ) :
    freshFailures w (w'.settle lane 0 t head rest a table) =
        freshFailures w w' + (if w.begun ≤ t.number ∧ a = .failed then 1 else 0) ∧
      freshTicks w (w'.settle lane 0 t head rest a table) =
        freshTicks w w' + (if w.begun ≤ t.number ∧ rest = [] then 1 else 0) ∧
      freshDone w w' = (if w.begun ≤ t.number then t.done else 0) ∧
      freshDone w (w'.settle lane 0 t head rest a table) =
        (if w.begun ≤ t.number ∧ rest ≠ [] then t.done + 1 else 0) := by
  refine ⟨?_, ?_, ?_, ?_⟩
  · rw [freshFailures, freshFailures, World.settle, List.filter_append, List.length_append,
      List.filter_cons]
    simp only [decide_eq_true_eq, List.filter_nil]
    split <;> rfl
  · rw [freshTicks, freshTicks, World.settle]
    by_cases hrest : rest = []
    · by_cases hfresh : w.begun ≤ t.number <;> simp [hrest, hfresh]
    · simp [hrest]
  · rw [freshDone, hticks, List.filter_cons]
    simp only [decide_eq_true_eq, List.filter_nil]
    split <;> simp
  · rw [freshDone, settle_ticks hticks]
    by_cases hrest : rest = []
    · simp [hrest]
    · by_cases hfresh : w.begun ≤ t.number <;> simp [hrest, hfresh]

/-- The next row of a fresh tick comes before a row that waits. -/
theorem Waits.head_ahead (h : Waits lane batchSize w w' row) (hcalm : Calm lane w')
    (hticks : w'.ticks = [t]) (hrows : t.rows = head :: rest)
    (hother : lane.id head ≠ lane.id row) (hfresh : w.begun ≤ t.number) :
    lane.id head ∈ aheadIds lane w'.table row := by
  have ht : t ∈ w'.ticks := hticks ▸ List.mem_singleton_self t
  have hpending := hcalm.pending t ht
  have horder : lane.order head ≤ lane.order row := by
    rcases h.underway t ht hfresh with hmem | ⟨-, hbefore⟩
    · obtain ⟨r, hr, hrid⟩ := List.mem_map.mp hmem
      obtain ⟨x, hx, hxid, -, hxorder⟩ := hpending.stands r hr
      obtain ⟨y, hy, hyid, -, hyorder⟩ := h.stands
      obtain rfl := eq_of_id hcalm.nodup hx hy (hxid.trans (hrid.trans hyid.symm))
      have hsorted := hpending.sorted
      rw [hrows, List.pairwise_cons] at hsorted
      rw [← hyorder, hxorder]
      rcases List.mem_cons.mp (hrows ▸ hr) with rfl | hr
      · exact absurd hrid hother
      · exact hsorted.1 r hr
    · exact hbefore head (hrows ▸ List.mem_cons_self)
  obtain ⟨x, hx, hid, hunsent, hxorder⟩ := hcalm.stands_head hticks hrows
  exact mem_aheadIds.mpr ⟨x, hx, hid, hunsent, hid ▸ hother, hxorder ▸ horder⟩

/-- An attempt at another row leaves a waiting row room. -/
theorem Waits.settle (h : Waits lane batchSize w w' row) (hcalm : Calm lane w')
    (hticks : w'.ticks = [t]) (hrows : t.rows = head :: rest)
    (hother : lane.id head ≠ lane.id row) :
    Waits lane batchSize w (w'.settle lane 0 t head rest a (tableAfter lane w' head a)) row := by
  have ht : t ∈ w'.ticks := hticks ▸ List.mem_singleton_self t
  have hmoves := hcalm.moves_tableAfter head a
  have hgone : lane.id row ∉ if a = .failed then [] else [lane.id head] := by
    split
    · exact List.not_mem_nil
    · exact fun hmem => hother (List.mem_singleton.mp hmem).symm
  refine ⟨h.stands.moves hmoves hgone, ?_, fun t' ht' hfresh => ?_⟩
  · obtain ⟨hfailures, hreturned, hdone, hdone'⟩ := settle_counts lane w hticks head
      rest a (tableAfter lane w' head a)
    have hroom := h.room
    rw [hdone] at hroom
    rw [hfailures, hreturned, hdone']
    show (aheadIds lane (tableAfter lane w' head a) row).length + _ + _ + 1 ≤ _
    by_cases hfresh : w.begun ≤ t.number
    · have hfew : (aheadIds lane (tableAfter lane w' head a) row).length + 1 ≤
          (aheadIds lane w'.table row).length + if a = .failed then 1 else 0 := by
        split
        · exact Nat.succ_le_succ (length_aheadIds_le hmoves h.stands)
        · rename_i hne
          rw [if_neg hne] at hmoves
          exact length_aheadIds_lt hmoves h.stands
            (h.head_ahead hcalm hticks hrows hother hfresh)
      have hlast : rest = [] → t.done + 1 = batchSize := by
        rintro rfl
        rcases h.underway t ht hfresh with hmem | ⟨hfull, -⟩
        · rw [hrows] at hmem
          exact absurd (List.mem_singleton.mp hmem).symm hother
        · rwa [hrows] at hfull
      simp only [hfresh, true_and, if_true] at hroom ⊢
      by_cases hrest : rest = []
      · simp only [hrest, if_true, ne_eq, not_true_eq_false, if_false, Nat.mul_add, Nat.mul_one]
        have := hlast hrest
        omega
      · simp only [hrest, if_false, ne_eq, not_false_eq_true, if_true, Nat.add_zero]
        omega
    · have hle := length_aheadIds_le hmoves h.stands
      simp only [hfresh, false_and, if_false, Nat.add_zero] at hroom ⊢
      omega
  · rw [settle_ticks hticks] at ht'
    split at ht'
    · exact absurd ht' List.not_mem_nil
    · obtain rfl := List.mem_singleton.mp ht'
      rcases h.underway t ht hfresh with hmem | ⟨hfull, hbefore⟩
      · rw [hrows, List.map_cons, List.mem_cons] at hmem
        exact .inl (hmem.resolve_left hother.symm)
      · rw [hrows, List.length_cons] at hfull
        have hcount : t.done + 1 + rest.length = batchSize := by omega
        exact .inr ⟨hcount, fun x hx => hbefore x (hrows ▸ List.mem_cons_of_mem _ hx)⟩

variable [DecidableEq ρ]

theorem Waits.begin_ (h : Waits lane batchSize w w' row) (hfree : w'.ticks = []) (batch : List ρ) :
    Waits lane batchSize w (w'.begin_ lane batchSize batch) row := by
  unfold World.begin_
  split
  · rename_i hanswer
    have hfull := hanswer.full h.stands
    split
    · rename_i hempty
      subst hempty
      have hzero : batchSize = 0 := (hfull List.not_mem_nil).1.symm
      have hroom := h.room
      rw [hzero, Nat.zero_mul] at hroom
      refine ⟨h.stands, ?_, h.underway⟩
      rw [hzero, Nat.zero_mul]
      exact hroom
    · have hdone : freshDone w { w' with
          begun := w'.begun + 1, ticks := w'.ticks ++ [⟨w'.begun, batch, 0, ⟨0, 0⟩⟩] } =
            freshDone w w' := by
        rw [freshDone, freshDone, hfree, List.nil_append, List.filter_cons]
        split <;> rfl
      refine ⟨h.stands, by rw [hdone]; exact h.room, fun t ht _ => ?_⟩
      rw [hfree, List.nil_append] at ht
      obtain rfl := List.mem_singleton.mp ht
      by_cases hmem : lane.id row ∈ batch.map lane.id
      · exact .inl hmem
      · exact .inr ⟨by rw [Nat.zero_add]; exact (hfull hmem).1, (hfull hmem).2⟩
  · exact h

omit [DecidableEq ρ] in
/-- What was attempted stays so. -/
theorem attempted_of_longer {w'' : World ρ} (hlog : w.log.length ≤ w'.log.length)
    (hlonger : w'.log <+: w''.log) (h : ∃ e ∈ attempts w w', e.id = lane.id row) :
    ∃ e ∈ attempts w w'', e.id = lane.id row := by
  obtain ⟨new, hnew⟩ := hlonger
  obtain ⟨e, he, hid⟩ := h
  refine ⟨e, ?_, hid⟩
  rw [attempts, ← hnew, List.drop_append_of_le_length hlog]
  exact List.mem_append_left _ he

/-- While a run is careful, a row that was unsent waits with room for it until it is attempted. -/
theorem Turn.step (h : Turn lane batchSize w w' row) (hcalm : Calm lane w') {l : Label ρ}
    (hl : Careful lane w' l) : Turn lane batchSize w (step lane batchSize w' l) row := by
  have hlonger := hcalm.log_step batchSize hl
  refine ⟨Nat.le_trans h.log hlonger.length_le, ?_⟩
  rcases h.turn with hattempted | hwait
  · exact .inl (attempted_of_longer h.log hlonger hattempted)
  cases l with
  | tick batch => exact .inr (hwait.begin_ hl batch)
  | attempt k sends stamps =>
      obtain rfl : stamps = true := hl
      rcases attempt_cases lane hcalm.alone k sends with
        hsame | ⟨t, head, rest, a, hticks, hrows, -, hstep⟩
      · rw [MerchantNotifications.step, hsame]
        exact .inr hwait
      · rw [MerchantNotifications.step, hstep]
        by_cases hother : lane.id head = lane.id row
        · refine .inl ⟨⟨t.number, lane.id head, a, w'.now⟩, ?_, hother⟩
          rw [attempts, World.settle, List.drop_append_of_le_length h.log]
          exact List.mem_append_right _ (List.mem_singleton_self _)
        · exact .inr (hwait.settle hcalm hticks hrows hother)
  | cut k => exact absurd hl not_false
  | write table => exact .inr (hwait.write hl.moves)
  | wait seconds => exact .inr ⟨hwait.stands, hwait.room, hwait.underway⟩

end Turns

/-! ## Whole runs -/

section Served

variable [DecidableEq ρ] {table : List ρ} {now : ℕ} {ls : List (Label ρ)}

theorem CarefulRun.calm (h : CarefulRun lane batchSize table now ls) (n : ℕ) :
    Calm lane (at_ lane batchSize table now ls n) :=
  stateAt_induct (m := 0) (Calm.initial h.nodup now)
    (fun k l _ hl hcalm => hcalm.step (h.careful k l hl)) (Nat.zero_le n)

theorem CarefulRun.log_grows (h : CarefulRun lane batchSize table now ls) {m n : ℕ}
    (hmn : m ≤ n) : (at_ lane batchSize table now ls m).log <+:
      (at_ lane batchSize table now ls n).log := by
  have hstep : ∀ k l, m ≤ k → ls[k]? = some l →
      (at_ lane batchSize table now ls m).log <+: (at_ lane batchSize table now ls k).log →
      (at_ lane batchSize table now ls m).log <+:
        (step lane batchSize (at_ lane batchSize table now ls k) l).log :=
    fun k l _ hl hlonger => hlonger.trans ((h.calm k).log_step batchSize (h.careful k l hl))
  exact stateAt_induct (P := fun w : World ρ => (at_ lane batchSize table now ls m).log <+: w.log)
    List.prefix_rfl hstep hmn

theorem CarefulRun.turn (h : CarefulRun lane batchSize table now ls) {m n : ℕ} {row : ρ}
    (hmn : m ≤ n) (hrow : row ∈ (at_ lane batchSize table now ls m).table)
    (hunsent : lane.unsent row = true) :
    Turn lane batchSize (at_ lane batchSize table now ls m) (at_ lane batchSize table now ls n)
      row := by
  have hstep : ∀ k l, m ≤ k → ls[k]? = some l →
      Turn lane batchSize (at_ lane batchSize table now ls m)
        (at_ lane batchSize table now ls k) row →
      Turn lane batchSize (at_ lane batchSize table now ls m)
        (step lane batchSize (at_ lane batchSize table now ls k) l) row :=
    fun k l _ hl hturn => hturn.step (h.calm k) (h.careful k l hl)
  exact stateAt_induct (P := fun w => Turn lane batchSize (at_ lane batchSize table now ls m) w row)
    (Turn.start (h.calm m) hrow hunsent) hstep hmn

/-- A row is attempted before more has been attempted than there was to send. -/
theorem CarefulRun.attempted (h : CarefulRun lane batchSize table now ls)
    (hroom : LeavesRoom lane batchSize table now ls) {m n : ℕ} {row : ρ} (hmn : m ≤ n)
    (hdue : Due lane batchSize (at_ lane batchSize table now ls m)
      (at_ lane batchSize table now ls n) row) :
    ∃ e ∈ attempts (at_ lane batchSize table now ls m) (at_ lane batchSize table now ls n),
      e.id = lane.id row := by
  obtain ⟨k, hmk, hkn, hk⟩ := hroom m n row hmn hdue
  have hturn := h.turn hmk hdue.mem hdue.unsent
  rcases hturn.turn with hattempted | hwait
  · exact attempted_of_longer hturn.log (h.log_grows hkn) hattempted
  · have := hwait.room
    omega

/-- Without failures there is room. -/
theorem leavesRoom_of_no_failure
    (h : ∀ n, ∀ e ∈ (at_ lane batchSize table now ls n).log, e.attempt ≠ .failed) :
    LeavesRoom lane batchSize table now ls := by
  intro m n row hmn hdue
  refine ⟨n, hmn, Nat.le_refl n, ?_⟩
  have hnone : freshFailures (at_ lane batchSize table now ls m)
      (at_ lane batchSize table now ls n) = 0 := by
    rw [freshFailures, List.length_eq_zero_iff, List.filter_eq_nil_iff]
    exact fun e he hfailed => h n e he (of_decide_eq_true hfailed).2
  rw [hnone]
  exact hdue.ticks

/-- In a careful run whose failures leave room, every unsent row is attempted within `⌈n / B⌉` ticks
and so goes out in time if its own send works, and no row is sent twice. -/
theorem served_of_careful (lane : Lane ρ) (batchSize : ℕ) (table : List ρ) (now : ℕ)
    (ls : List (Label ρ)) (h : CarefulRun lane batchSize table now ls)
    (hroom : LeavesRoom lane batchSize table now ls) : Served lane batchSize table now ls where
  attempted m n row hmn hdue := h.attempted hroom hmn hdue
  goesOut m n row deadline hmn hdue hnow hworks := by
    obtain ⟨e, he, hid⟩ := h.attempted hroom hmn hdue
    have hlogged := (h.calm n).logged e (List.mem_of_mem_drop he)
    exact ⟨e, he, hid, hworks e he hid, hlogged.2.trans hnow⟩
  once n id := (h.calm n).once id

end Served

section Samples

def newMerchants : List Merchant :=
  [⟨"m1", "one@shop.example", 5, none⟩, ⟨"m2", "two@shop.example", 7, none⟩]

/-- Two ticks that greet one merchant each. -/
def greeted : List (Label Merchant) :=
  [.tick (newMerchants.take 1), .attempt 0 true true, .tick (newMerchants.drop 1),
    .attempt 0 true true]

theorem served_greeted : Served welcomeLane 1 newMerchants 10 greeted := by
  have hrun : CarefulRun welcomeLane 1 newMerchants 10 greeted := by
    have hfree : (at_ welcomeLane 1 newMerchants 10 greeted 2).ticks = [] := by decide
    refine ⟨by decide, fun n l hl => ?_⟩
    match n, hl with
    | 0, rfl => exact rfl
    | 1, rfl => exact rfl
    | 2, rfl => exact hfree
    | 3, rfl => exact rfl
  refine served_of_careful welcomeLane 1 newMerchants 10 greeted hrun
    (leavesRoom_of_no_failure fun n e he => ?_)
  have hall : ∀ e ∈ (at_ welcomeLane 1 newMerchants 10 greeted 4).log, e.attempt ≠ .failed := by
    decide
  refine hall e ?_
  rcases Nat.le_total n 4 with hn | hn
  · exact (hrun.log_grows hn).subset he
  · have hend : min n greeted.length = 4 := min_eq_right hn
    rwa [at_, stateAt_min, hend] at he

def payoutAlerts : List MerchantSecurityAlert :=
  [⟨"a1", 5, none, "merchant.payout_change_initiated_onchain",
      ⟨some "0x01", some "0x0a", some 90000, none, none⟩, "gone@shop.example"⟩,
    ⟨"a2", 7, none, "merchant.payout_change_initiated_onchain",
      ⟨some "0x02", some "0x0b", some 90000, none, none⟩, "two@shop.example"⟩]

/-- Two ticks that fail to send the first alert. -/
def undeliverable : List (Label MerchantSecurityAlert) :=
  [.tick (payoutAlerts.take 1), .attempt 0 false true, .tick (payoutAlerts.take 1),
    .attempt 0 false true]

/-- Two ticks that greet one merchant, the first without the stamp. -/
def unstamped : List (Label Merchant) :=
  [.tick (newMerchants.take 1), .attempt 0 true false, .tick (newMerchants.take 1),
    .attempt 0 true true]

/-- An alert behind one whose address takes no email has no turn, and a merchant whose stamp failed
is greeted again. -/
theorem starved_and_sent_twice : ¬ Served securityLane 1 payoutAlerts 10 undeliverable ∧
    ¬ Served welcomeLane 1 newMerchants 10 unstamped := by
  constructor
  · intro h
    have hdue : Due securityLane 1 (at_ securityLane 1 payoutAlerts 10 undeliverable 0)
        (at_ securityLane 1 payoutAlerts 10 undeliverable 4)
        ⟨"a2", 7, none, "merchant.payout_change_initiated_onchain",
          ⟨some "0x02", some "0x0b", some 90000, none, none⟩, "two@shop.example"⟩ :=
      ⟨by decide, by decide, by decide⟩
    obtain ⟨e, he, hid⟩ := h.attempted 0 4 _ (Nat.zero_le 4) hdue
    have hnone : ∀ e ∈ attempts (at_ securityLane 1 payoutAlerts 10 undeliverable 0)
        (at_ securityLane 1 payoutAlerts 10 undeliverable 4), e.id = "a1" := by decide
    rw [hnone e he] at hid
    exact absurd hid (by decide)
  · intro h
    have htwice : sends (at_ welcomeLane 1 newMerchants 10 unstamped 4) "m1" = 2 := by decide
    have honce := h.once 4 "m1"
    omega

end Samples

end Strimz.MerchantNotifications
