import Strimz.SessionSteps

/-!
# Storefront stock

A unit of a product with finite stock is on the shelf or held by a session, and it goes back
once, when its session leaves the open set unpaid. The transactions that move a unit take the
session and the counter together, so the sum is kept (`Stocked.step`), except where a sweep
flips a session that left the open set after the sweep had read it: the unit is then given
back a second time, or given back although it is being paid for. Without such a flip the
stock is conserved (`stock_conserved`).
-/

namespace Strimz.Sessions

open Indexer Runs

/-! ## Held units -/

/-- The statuses in which a session holds its unit. -/
def HOLDING : List PaymentSessionStatus := [.created, .awaiting_payment, .submitted, .confirmed]

def Session.holds (p : RowId) (s : Session) : Bool :=
  s.storefrontProductId = some p ∧ s.row.status ∈ HOLDING

/-- The session is for the product. -/
def Session.isFor (p : RowId) (s : Session) : Bool := s.storefrontProductId = some p

def World.held (w : World) (p : RowId) : Nat := w.sessions.countP (Session.holds p)

/-- The product's stock, if it has the column set. -/
def World.stockOf (w : World) (p : RowId) : Option Int := (w.product? p).bind (·.stock)

/-- One unit more, if the session is for the product. -/
def unit (p : RowId) (s : Session) : Nat := if s.isFor p then 1 else 0

section Release

variable {w : World} {s : Session} {p : RowId} {t : Int}

theorem stockOf_eq_some : w.stockOf p = some t ↔ ∃ q, w.product? p = some q ∧ q.stock = some t :=
  Option.bind_eq_some_iff

theorem product?_update (id : RowId) {c : StorefrontProduct → Bool}
    {f : StorefrontProduct → StorefrontProduct} (hf : ∀ q, (f q).id = q.id) :
    World.product? { w with products := Table.updateWhere c f w.products } id =
      (w.product? id).map fun q => if c q then f q else q := Table.find_updateWhere hf

theorem stockOf_release (h : w.stockOf p = some t) :
    (w.release s).stockOf p = some (t + unit p s) := by
  obtain ⟨q, hq, hstock⟩ := stockOf_eq_some.mp h
  unfold World.release
  cases hs : s.storefrontProductId with
  | none => simp [h, unit, Session.isFor, hs]
  | some id =>
      have hid : q.id = p := (World.product?_eq_some hq).2
      have hfind := product?_update (w := w) p
        (c := fun q => q.id = id ∧ q.stock ≠ none)
        (f := fun q => { q with stock := q.stock.map (· + 1) }) fun _ => rfl
      rw [hq] at hfind
      refine stockOf_eq_some.mpr ⟨_, hfind, ?_⟩
      by_cases hp : p = id
      · simp [hid, hp, hstock, unit, Session.isFor, hs]
      · simp [hid, hp, hstock, unit, Session.isFor, hs, Ne.symm hp]

theorem count_release (id : RowId) :
    (w.release s).released.count id =
      w.released.count id + if s.storefrontProductId ≠ none ∧ s.id = id then 1 else 0 := by
  unfold World.release
  cases hs : s.storefrontProductId with
  | none => simp
  | some p => simp [List.count_append, List.count_singleton]

/-- Every returned row gives its unit back. -/
theorem stockOf_foldl (rows : List Session) : ∀ (w : World) (t : Int), w.stockOf p = some t →
    (rows.foldl expireRow w).stockOf p = some (t + rows.countP (Session.isFor p)) := by
  induction rows with
  | nil =>
      intro w t h
      simpa using h
  | cons s rows ih =>
      intro w t h
      rw [List.foldl_cons, ih (expireRow w s) _ (stockOf_release h), List.countP_cons, unit]
      congr 1
      push_cast
      omega

theorem count_foldl (id : RowId) (rows : List Session) : ∀ w : World,
    (rows.foldl expireRow w).released.count id = w.released.count id +
      rows.countP fun s => s.storefrontProductId ≠ none ∧ s.id = id := by
  induction rows with
  | nil => exact fun w => rfl
  | cons s rows ih =>
      intro w
      have hrow : (expireRow w s).released.count id = _ := count_release id
      rw [List.foldl_cons, ih (expireRow w s), hrow, List.countP_cons]
      simp only [decide_eq_true_eq]
      omega

end Release

/-! ## Products -/

section Products

variable {a : Mode} {w : World} {l : Label}

theorem release_productIds (s : Session) :
    (w.release s).products.map (·.id) = w.products.map (·.id) := by
  unfold World.release
  split
  · rfl
  · exact Table.map_key_updateWhere fun _ => rfl

theorem foldl_productIds (rows : List Session) : ∀ w : World,
    (rows.foldl expireRow w).products.map (·.id) = w.products.map (·.id) := by
  induction rows with
  | nil => exact fun w => rfl
  | cons s rows ih => exact fun w => (ih (expireRow w s)).trans (release_productIds s)

theorem reserve_productIds (id m : RowId) (p : StorefrontProduct) :
    (reserve a id m p w).products.map (·.id) = w.products.map (·.id) := by
  unfold reserve
  dsimp only
  split
  · rfl
  · split
    · rfl
    · split
      · rfl
      · exact Table.map_key_updateWhere fun _ => rfl

/-- A step lists the same products, or one more under a fresh id. -/
theorem step_productIds :
    (step a w l).products.map (·.id) = w.products.map (·.id) ∨
      ∃ p, l = .createProduct p ∧ w.product? p.id = none ∧
        (step a w l).products = w.products ++ [p] := by
  cases l with
  | wait | putStorefront | sweepInvoices | sweepSessions | project | drop | stamp => exact .inl rfl
  | createProduct p =>
      unfold step; dsimp only
      split
      · exact .inr ⟨p, rfl, ‹_›, rfl⟩
      · exact .inl rfl
  | archiveProduct id => exact .inl (Table.map_key_updateWhere fun _ => rfl)
  | createSession => unfold step; dsimp only; split <;> exact .inl rfl
  | createInvoice => unfold step createInvoice; dsimp only; split <;> exact .inl rfl
  | send => unfold step World.start; dsimp only; split <;> exact .inl rfl
  | voidInvoice => unfold step World.start; dsimp only; split <;> exact .inl rfl
  | checkout => unfold step; dsimp only; split <;> exact .inl rfl
  | close m mode id to_ =>
      unfold step; dsimp only
      obtain ⟨w', rfl, h | ⟨row, h⟩⟩ := close_eq w m mode id to_
      · rw [h]; exact .inl rfl
      · rw [h]; exact .inl (release_productIds row)
  | run k id =>
      unfold step; dsimp only
      split
      · exact .inl rfl
      · rename_i t ht
        cases t with
        | send | voidSession | overdue => exact .inl rfl
        | void row => unfold runTask; dsimp only; split <;> exact .inl rfl
        | expiry due => exact .inl (foldl_productIds _ _)
        | checkout m p => exact .inl (reserve_productIds id m p)
        | settle in_ m sessionId =>
            unfold runTask; dsimp only
            rcases settle_cases (w.finish k) in_ m sessionId with h | ⟨-, h⟩ | ⟨sid, rfl, -, h⟩
            · rw [h]; exact .inl rfl
            · rw [h]; exact .inl rfl
            · rw [h, (settleSession_rows _ in_ m sid).2.2.2.1]; exact .inl rfl

end Products

/-- Ids that are listed: what every reachable state has. -/
structure Listed (w : World) : Prop extends Linked w where
  productIds : (w.products.map (·.id)).Nodup
  sold : ∀ s ∈ w.sessions, ∀ p, s.storefrontProductId = some p → p ∈ w.products.map (·.id)
  reserving : ∀ m product, .checkout m product ∈ w.tasks → product.id ∈ w.products.map (·.id)
  known : ∀ id ∈ w.released, id ∈ w.sessions.map (·.id)
  notFailed : ∀ s ∈ w.sessions, s.row.status ≠ .failed

theorem listed_empty (now : Int) : Listed (World.empty now) where
  toLinked := linked_empty now
  productIds := List.nodup_nil
  sold := fun _ h => absurd h List.not_mem_nil
  reserving := fun _ _ h => absurd h List.not_mem_nil
  known := fun _ h => absurd h List.not_mem_nil
  notFailed := fun _ h => absurd h List.not_mem_nil

theorem mem_released {w : World} {s : Session} {id : RowId} (h : id ∈ (w.release s).released) :
    id ∈ w.released ∨ id = s.id := by
  unfold World.release at h
  split at h
  · exact .inl h
  · rcases List.mem_append.mp h with h | h
    · exact .inl h
    · exact .inr (List.mem_singleton.mp h)

theorem mem_released_foldl {id : RowId} (rows : List Session) : ∀ w : World,
    id ∈ (rows.foldl expireRow w).released → id ∈ w.released ∨ id ∈ rows.map (·.id) := by
  induction rows with
  | nil => exact fun w h => .inl h
  | cons s rows ih =>
      intro w h
      rcases ih (expireRow w s) h with h | h
      · rcases mem_released h with h | rfl
        · exact .inl h
        · exact .inr List.mem_cons_self
      · exact .inr (List.mem_cons_of_mem _ h)

section Step

variable {a : Mode} {w : World} {l : Label}

theorem closable_ids (m : RowId) (mode : Mode) (id : RowId) (to_ : Closed) :
    (Table.updateWhere (closable m mode id) (Session.to_ to_.status) w.sessions).map Session.id =
      w.sessions.map Session.id :=
  Table.map_key_updateWhere fun _ => rfl

/-- The row whose unit `close` gives back is one it read. -/
theorem close_released {m id : RowId} {mode : Mode} {to_ : Closed} {sid : RowId}
    (h : sid ∈ (close m mode id to_ w).released) :
    sid ∈ w.released ∨ sid ∈ w.sessions.map (·.id) := by
  have hids := closable_ids (w := w) m mode id to_
  unfold close at h
  dsimp only at h
  split at h
  · exact .inl h
  · rename_i row hrow
    split at h
    · rcases mem_released h with h | rfl
      · exact .inl h
      · rw [← hids]
        exact .inr (List.mem_map_of_mem (List.mem_of_find?_eq_some hrow))
    · exact .inl h

theorem mem_released_step {id : RowId} (h : id ∈ (step a w l).released) :
    id ∈ w.released ∨ id ∈ w.sessions.map (·.id) := by
  cases l with
  | wait | putStorefront | archiveProduct | sweepInvoices | sweepSessions | project | drop
  | stamp => exact .inl h
  | createProduct p => unfold step at h; dsimp only at h; split at h <;> exact .inl h
  | createSession => unfold step at h; dsimp only at h; split at h <;> exact .inl h
  | createInvoice => unfold step createInvoice at h; dsimp only at h; split at h <;> exact .inl h
  | send => unfold step World.start at h; dsimp only at h; split at h <;> exact .inl h
  | voidInvoice => unfold step World.start at h; dsimp only at h; split at h <;> exact .inl h
  | checkout => unfold step at h; dsimp only at h; split at h <;> exact .inl h
  | close m mode id' to_ => exact close_released h
  | run k id' =>
      unfold step at h; dsimp only at h
      split at h
      · exact .inl h
      · rename_i t ht
        cases t with
        | send | voidSession | overdue => exact .inl h
        | void row => unfold runTask at h; dsimp only at h; split at h <;> exact .inl h
        | expiry due =>
            rcases mem_released_foldl _ _ h with h | h
            · exact .inl h
            · obtain ⟨s, hs, rfl⟩ := List.mem_map.mp h
              obtain ⟨s₀, hs₀, rfl⟩ := List.mem_map.mp hs
              exact .inr (List.mem_map.mpr ⟨s₀, (List.mem_filter.mp hs₀).1, rfl⟩)
        | checkout m p =>
            unfold runTask at h; dsimp only at h
            rcases reserve_cases (w.finish k) a id' m p with hr | ⟨-, products, hr⟩
            · rw [hr] at h; exact .inl h
            · rw [hr] at h; exact .inl h
        | settle in_ m sessionId =>
            unfold runTask at h; dsimp only at h
            rcases settle_cases (w.finish k) in_ m sessionId with hr | ⟨-, hr⟩ | ⟨sid, rfl, -, hr⟩
            · rw [hr] at h; exact .inl h
            · rw [hr] at h; exact .inl h
            · rw [hr, (settleSession_rows _ in_ m sid).2.2.2.2] at h; exact .inl h

theorem step_productIds_subset {p : RowId} (h : p ∈ w.products.map (·.id)) :
    p ∈ (step a w l).products.map (·.id) := by
  rcases step_productIds (a := a) (w := w) (l := l) with hsame | ⟨q, -, -, hq⟩
  · rwa [hsame]
  · rw [hq, List.map_append]
    exact List.mem_append_left _ h

theorem SessionMove.notFailed {s s' : Session} (h : SessionMove w l s s')
    (hs : s.row.status ≠ .failed) : s'.row.status ≠ .failed := by
  cases h with
  | stays => exact hs
  | close to_ hopen => cases to_ <;> exact nofun
  | stamp | expire | void | confirm => exact nofun

theorem Listed.step (h : Listed w) : Listed (Sessions.step a w l) := by
  refine ⟨h.toLinked.step, ?_, fun s hs p hp => ?_, fun m product ht => ?_, fun id hid => ?_,
    fun s hs => ?_⟩
  · rcases step_productIds (a := a) (w := w) (l := l) with hsame | ⟨q, -, hnew, hq⟩
    · rw [hsame]
      exact h.productIds
    · rw [hq, List.map_append, List.nodup_append]
      refine ⟨h.productIds, List.nodup_singleton _, fun a ha b hb => ?_⟩
      obtain ⟨q', hq', rfl⟩ := List.mem_map.mp ha
      obtain rfl : b = q.id := by simpa using hb
      exact Table.find_eq_none.mp hnew q' hq'
  · rcases step_sessions.mem_back hs with ⟨s₀, hs₀, hmove⟩ | ⟨hnew, -⟩
    · exact step_productIds_subset (h.sold s₀ hs₀ p (hmove.keeps.2.1.symm.trans hp))
    · obtain ⟨m, product, ht, rfl⟩ := hnew.2 p hp
      exact step_productIds_subset (h.reserving m product ht)
  · rcases mem_tasks_step ht with ht | hnew
    · exact step_productIds_subset (h.reserving m product ht)
    · cases hnew with
      | checkout _ hmem => exact step_productIds_subset (List.mem_map_of_mem hmem)
  · have hold : id ∈ w.sessions.map (·.id) := (mem_released_step hid).elim (h.known id) fun h => h
    obtain ⟨s, hs, rfl⟩ := List.mem_map.mp hold
    obtain ⟨s', hs', -⟩ := session?_step (a := a) (l := l)
      (Table.find_of_mem h.sessionIds hs)
    obtain ⟨hmem, heq⟩ := World.session?_eq_some hs'
    rw [← heq]
    exact List.mem_map_of_mem hmem
  · rcases step_sessions.mem_back hs with ⟨s₀, hs₀, hmove⟩ | ⟨hnew, -⟩
    · exact hmove.notFailed (h.notFailed s₀ hs₀)
    · rw [hnew.1]
      exact nofun

/-- A task ends without a trace. -/
theorem Linked.finish (h : Linked w) (k : Nat) : Linked (w.finish k) where
  sessionIds := h.sessionIds
  invoiceIds := h.invoiceIds
  backed := h.backed
  voiding := fun row hrow => h.voiding row (mem_finish hrow)
  cancelling := fun id hid => h.cancelling id (mem_finish hid)

theorem Listed.finish (h : Listed w) (k : Nat) : Listed (w.finish k) where
  toLinked := h.toLinked.finish k
  productIds := h.productIds
  sold := h.sold
  reserving := fun m product ht => h.reserving m product (mem_finish ht)
  known := h.known
  notFailed := h.notFailed

end Step

/-! ## The sum of the units -/

/-- Whether the session's unit went back. -/
def Settles (w : World) (p : RowId) : Prop :=
  ∀ s ∈ w.sessions, s.storefrontProductId = some p →
    w.released.count s.id = if s.row.status ∈ HOLDING then 0 else 1

/-- The units on the shelf and the units held make up `S`. -/
def InStock (w : World) (p : RowId) (S : Nat) : Prop :=
  ∃ t : Nat, w.stockOf p = some (t : Int) ∧ t + w.held p = S

/-- No checkout under way read the product as unlimited. -/
def Finite (w : World) (p : RowId) : Prop :=
  ∀ m product, .checkout m product ∈ w.tasks → product.id = p → product.stock ≠ none

structure Stocked (p : RowId) (S : Nat) (w : World) : Prop where
  inStock : InStock w p S
  settles : Settles w p
  finite : Finite w p

/-- A session of the product moves without its unit. -/
def SameUnit (p : RowId) (s s' : Session) : Prop :=
  s'.id = s.id ∧ s'.storefrontProductId = s.storefrontProductId ∧
    (s.storefrontProductId = some p → (s'.row.status ∈ HOLDING ↔ s.row.status ∈ HOLDING))

theorem SameUnit.refl (p : RowId) (s : Session) : SameUnit p s s := ⟨rfl, rfl, fun _ => Iff.rfl⟩

theorem SameUnit.holds {p : RowId} {s s' : Session} (h : SameUnit p s s') :
    s'.holds p = s.holds p := by
  have hiff : (s'.storefrontProductId = some p ∧ s'.row.status ∈ HOLDING) ↔
      (s.storefrontProductId = some p ∧ s.row.status ∈ HOLDING) := by
    rw [h.2.1]
    exact and_congr_right h.2.2
  exact decide_eq_decide.mpr hiff

section Frame

variable {w w' : World} {p : RowId} {S : Nat} {N : Session → Prop}

/-- A step that moves no unit of the product. -/
theorem InStock.frame (h : InStock w p S)
    (hrows : Table.Steps Session.id (SameUnit p) N w.sessions w'.sessions)
    (hnew : ∀ s, N s → s.storefrontProductId ≠ some p) (hstock : w'.stockOf p = w.stockOf p) :
    InStock w' p S := by
  obtain ⟨t, ht, hsum⟩ := h
  have hheld : w'.held p = w.held p := hrows.countP_eq (fun s s' hs => hs.holds)
    fun s hs => decide_eq_false fun hc => hnew s hs hc.1
  exact ⟨t, hstock.trans ht, by rw [hheld]; exact hsum⟩

theorem Settles.frame (h : Settles w p)
    (hrows : Table.Steps Session.id (SameUnit p) N w.sessions w'.sessions)
    (hnew : ∀ s, N s → s.storefrontProductId ≠ some p) (hreleased : w'.released = w.released) :
    Settles w' p := by
  intro s hs hp
  rcases hrows.mem_back hs with ⟨s₀, hs₀, hmove⟩ | ⟨hN, -⟩
  · have hp₀ : s₀.storefrontProductId = some p := hmove.2.1.symm.trans hp
    rw [hreleased, hmove.1, h s₀ hs₀ hp₀]
    exact if_congr (hmove.2.2 hp₀).symm rfl rfl
  · exact absurd hp (hnew s hN)

end Frame

section Step

variable {a : Mode} {w : World} {l : Label} {p : RowId} {S : Nat}

theorem InStock.finite (h : InStock w p S) (hw : Listed w) {product : StorefrontProduct}
    (hmem : product ∈ w.products) (hid : product.id = p) : product.stock ≠ none := by
  obtain ⟨t, ht, -⟩ := h
  obtain ⟨q, hq, hstock⟩ := stockOf_eq_some.mp ht
  obtain ⟨hqmem, hqid⟩ := World.product?_eq_some hq
  rw [Table.eq_of_key hw.productIds hmem hqmem (hid.trans hqid.symm), hstock]
  exact nofun

theorem Stocked.finite_step (h : Stocked p S w) (hw : Listed w) : Finite (step a w l) p := by
  intro m product ht hid
  rcases mem_tasks_step ht with ht | hnew
  · exact h.finite m product ht hid
  · cases hnew with
    | checkout _ hmem => exact h.inStock.finite hw hmem hid

end Step

/-! ## Units that go back -/

section Close

variable {w : World} {p : RowId} {S : Nat} {m id : RowId} {mode : Mode} {to_ : Closed}

theorem Closed.not_holding (to_ : Closed) : to_.status ∉ HOLDING := by
  cases to_ <;> decide

/-- An open session for the product holds a unit. -/
theorem Session.IsOpen.holds {s : Session} (h : s.IsOpen) : s.holds p = s.isFor p := by
  have hmem : s.row.status ∈ HOLDING := by
    rcases List.mem_cons.mp h with h | h
    · rw [h]; decide
    · rw [List.mem_singleton.mp h]; decide
  unfold Session.holds Session.isFor
  exact decide_eq_decide.mpr (and_iff_left hmem)

theorem not_holds {s : Session} (h : s.row.status ∉ HOLDING) : s.holds p = false :=
  decide_eq_false fun hc => h hc.2

/-- `close` finds nothing to close, or one session, whose unit goes back. -/
theorem close_cases (hw : Linked w) (m : RowId) (mode : Mode) (id : RowId) (to_ : Closed) :
    ((close m mode id to_ w).sessions = w.sessions ∧
        (close m mode id to_ w).products = w.products ∧
        (close m mode id to_ w).released = w.released) ∨
      ∃ s ∈ w.sessions, s.IsOpen ∧ w.sessions.filter (closable m mode id) = [s] ∧
        close m mode id to_ w = (w.updateSessions (closable m mode id)
          (Session.to_ to_.status)).release (s.to_ to_.status) := by
  rcases Table.filter_of_key (p := closable m mode id) hw.sessionIds (k := id)
    (fun s hs => (of_decide_eq_true hs).1) with hnil | ⟨s, hs, hclosable, hone⟩
  · left
    have hcount : w.sessions.countP (closable m mode id) = 0 := by
      rw [List.countP_eq_length_filter, hnil]; rfl
    have hrows : Table.updateWhere (closable m mode id) (Session.to_ to_.status) w.sessions =
        w.sessions := by
      rw [Table.updateWhere]
      conv_rhs => rw [← List.map_id w.sessions]
      exact List.map_congr_left fun s hs => if_neg (List.filter_eq_nil_iff.mp hnil s hs)
    unfold close
    dsimp only
    rw [hcount]
    split
    · exact ⟨hrows, rfl, rfl⟩
    · rw [if_neg Nat.zero_ne_one]
      exact ⟨hrows, rfl, rfl⟩
  · right
    have hcount : w.sessions.countP (closable m mode id) = 1 := by
      rw [List.countP_eq_length_filter, hone]; rfl
    have hrow : s.id = id ∧ s.row.merchantId = m ∧ s.row.mode = mode ∧
        s.row.status ∈ OPEN_SESSION_STATUSES := of_decide_eq_true hclosable
    have hids := closable_ids (w := w) m mode id to_
    have hmem : s.to_ to_.status ∈
        Table.updateWhere (closable m mode id) (Session.to_ to_.status) w.sessions :=
      List.mem_map.mpr ⟨s, hs, if_pos hclosable⟩
    refine ⟨s, hs, hrow.2.2.2, hone, ?_⟩
    have hfind : (w.updateSessions (closable m mode id)
        (Session.to_ to_.status)).sessions.find?
          (fun s => s.id = id ∧ s.row.merchantId = m ∧ s.row.mode = mode) =
        some (s.to_ to_.status) := by
      cases hf : (w.updateSessions (closable m mode id)
          (Session.to_ to_.status)).sessions.find?
            (fun s => s.id = id ∧ s.row.merchantId = m ∧ s.row.mode = mode) with
      | none =>
          exact absurd (decide_eq_true ⟨hrow.1, hrow.2.1, hrow.2.2.1⟩)
            (List.find?_eq_none.mp hf _ hmem)
      | some s' =>
          have hrow' : s'.id = id ∧ s'.row.merchantId = m ∧ s'.row.mode = mode := by
            simpa using List.find?_some hf
          have huniq := Table.eq_of_key (hids.symm ▸ hw.sessionIds)
            (List.mem_of_find?_eq_some hf) hmem (hrow'.1.trans hrow.1.symm)
          rw [huniq]
    unfold close
    dsimp only
    rw [hfind, hcount]
    exact if_pos rfl

theorem InStock.close (h : InStock w p S) (hw : Linked w) :
    InStock (Sessions.close m mode id to_ w) p S := by
  obtain ⟨t, ht, hsum⟩ := h
  rcases close_cases hw m mode id to_ with ⟨hs, hp, -⟩ | ⟨s, hs, hopen, hone, heq⟩
  · refine ⟨t, ?_, ?_⟩
    · rw [World.stockOf, World.product?, hp]; exact ht
    · rw [World.held, hs]; exact hsum
  · refine ⟨t + unit p s, ?_, ?_⟩
    · have hstock := stockOf_release (s := s.to_ to_.status) (w := w.updateSessions
        (closable m mode id) (Session.to_ to_.status)) (p := p) (t := t) ht
      rw [heq, hstock]
      rfl
    · have hcount := Table.countP_updateWhere (t := w.sessions) (p := closable m mode id)
        (f := Session.to_ to_.status) (q := Session.holds p)
      have hgone : (s.to_ to_.status).holds p = false := not_holds to_.not_holding
      rw [hone, List.countP_singleton, List.countP_singleton, hgone, hopen.holds] at hcount
      have hheld : (Sessions.close m mode id to_ w).held p =
          (Table.updateWhere (closable m mode id) (Session.to_ to_.status) w.sessions).countP
            (Session.holds p) := by
        rw [heq, World.held, release_sessions]
        rfl
      rw [World.held] at hsum
      rw [hheld, unit]
      simp only [Bool.false_eq_true, if_false] at hcount
      omega

theorem Settles.close (h : Settles w p) (hw : Linked w) :
    Settles (Sessions.close m mode id to_ w) p := by
  intro s' hs' hp'
  rcases close_cases hw m mode id to_ with ⟨hs, -, hr⟩ | ⟨s, hs, hopen, hone, heq⟩
  · rw [hs] at hs'
    rw [hr]
    exact h s' hs' hp'
  · rw [heq, release_sessions] at hs'
    obtain ⟨s₀, hs₀, rfl⟩ := Table.mem_updateWhere hs'
    have hmem : closable m mode id s₀ = true ↔ s₀ = s := by
      constructor
      · intro hc
        have := List.mem_filter.mpr ⟨hs₀, hc⟩
        rw [hone] at this
        exact List.mem_singleton.mp this
      · rintro rfl
        have : s₀ ∈ w.sessions.filter (closable m mode id) := by
          rw [hone]; exact List.mem_singleton_self _
        exact (List.mem_filter.mp this).2
    rw [heq, count_release]
    by_cases hc : closable m mode id s₀ = true
    · obtain rfl := hmem.mp hc
      rw [if_pos hc] at hp' ⊢
      have hzero : w.released.count s₀.id = 0 := by
        rw [h s₀ hs₀ hp', if_pos]
        by_contra hnot
        have hholds : s₀.holds p = true := hopen.holds.trans (decide_eq_true hp')
        exact hnot (of_decide_eq_true hholds).2
      have hcond : (s₀.to_ to_.status).storefrontProductId ≠ none ∧
          (s₀.to_ to_.status).id = (s₀.to_ to_.status).id := ⟨by rw [hp']; exact nofun, rfl⟩
      rw [if_pos hcond, if_neg (show (s₀.to_ to_.status).row.status ∉ HOLDING from to_.not_holding)]
      exact congrArg (· + 1) hzero
    · rw [if_neg hc] at hp' ⊢
      have hother : ¬((s.to_ to_.status).storefrontProductId ≠ none ∧
          (s.to_ to_.status).id = s₀.id) := fun hboth =>
        hc (hmem.mpr (Table.eq_of_key hw.sessionIds hs₀ hs hboth.2.symm))
      rw [if_neg hother]
      exact h s₀ hs₀ hp'

end Close

section Expire

variable {w : World} {p : RowId} {S : Nat} {due : List RowId}

theorem expired_not_holding (s : Session) : (s.to_ .expired).row.status ∉ HOLDING := by
  show PaymentSessionStatus.expired ∉ HOLDING
  decide

/-- Every session of the product that a sweep is about to flip is open. -/
def DueOpen (w : World) (p : RowId) (due : List RowId) : Prop :=
  ∀ s ∈ w.sessions, s.id ∈ due → s.storefrontProductId = some p → s.IsOpen

theorem DueOpen.holds (h : DueOpen w p due) {s : Session}
    (hs : s ∈ w.sessions.filter (·.id ∈ due)) : s.holds p = s.isFor p := by
  obtain ⟨hmem, hdue⟩ := List.mem_filter.mp hs
  cases hfor : s.isFor p with
  | true =>
      have hp : s.storefrontProductId = some p := of_decide_eq_true hfor
      rw [(h s hmem (of_decide_eq_true hdue) hp).holds, hfor]
  | false => exact decide_eq_false fun hc => (of_decide_eq_false hfor) hc.1

theorem InStock.expire (h : InStock w p S) (hdue : DueOpen w p due) :
    InStock (Sessions.expire due w) p S := by
  obtain ⟨t, ht, hsum⟩ := h
  have hstock := stockOf_foldl (p := p)
    (Table.returning (·.id ∈ due) (Session.to_ .expired) w.sessions)
    (w.updateSessions (·.id ∈ due) (Session.to_ .expired)) t ht
  have hcount := Table.countP_updateWhere (t := w.sessions) (p := fun s => s.id ∈ due)
    (f := Session.to_ .expired) (q := Session.holds p)
  have hgone : (w.sessions.filter (·.id ∈ due)).countP
      (fun s => (s.to_ .expired).holds p) = 0 :=
    List.countP_eq_zero.mpr fun s _ => by
      rw [not_holds (expired_not_holding s)]
      exact Bool.false_ne_true
  have hback : (Table.returning (·.id ∈ due) (Session.to_ .expired) w.sessions).countP
      (Session.isFor p) = (w.sessions.filter (·.id ∈ due)).countP (Session.holds p) := by
    rw [Table.returning, List.countP_map]
    exact List.countP_congr fun s hs => by rw [hdue.holds hs]; rfl
  refine ⟨_, hstock.trans (by rw [← Int.natCast_add]), ?_⟩
  rw [World.held, (expire_rows w due).1]
  rw [World.held] at hsum
  omega

theorem Settles.expire (h : Settles w p) (hw : Linked w) (hdue : DueOpen w p due) :
    Settles (Sessions.expire due w) p := by
  intro s' hs' hp'
  rw [(expire_rows w due).1] at hs'
  obtain ⟨s, hs, rfl⟩ := Table.mem_updateWhere hs'
  have hcount : (Sessions.expire due w).released.count s.id = w.released.count s.id +
      (w.sessions.filter (·.id ∈ due)).countP
        (fun r => r.storefrontProductId ≠ none ∧ r.id = s.id) := by
    refine (count_foldl s.id _ _).trans ?_
    rw [Table.returning, List.countP_map]
    rfl
  by_cases hmem : s.id ∈ due
  · rw [if_pos (decide_eq_true hmem)] at hp' ⊢
    have hp : s.storefrontProductId = some p := hp'
    have hopen := hdue s hs hmem hp
    have hone : (w.sessions.filter (·.id ∈ due)).countP
        (fun r => r.storefrontProductId ≠ none ∧ r.id = s.id) = 1 := by
      rw [List.countP_filter]
      refine Table.countP_of_key hw.sessionIds hs ?_ fun r hr => ?_
      · simp [hp, hmem]
      · simp only [Bool.and_eq_true, decide_eq_true_eq] at hr
        exact hr.1.2
    have hzero : w.released.count s.id = 0 := by
      have hholds : s.holds p = true := hopen.holds.trans (decide_eq_true hp)
      rw [h s hs hp, if_pos (of_decide_eq_true hholds).2]
    rw [if_neg (expired_not_holding s)]
    exact hcount.trans (by rw [hone, hzero])
  · rw [if_neg (by simp [hmem])] at hp' ⊢
    have hnone : (w.sessions.filter (·.id ∈ due)).countP
        (fun r => r.storefrontProductId ≠ none ∧ r.id = s.id) = 0 := by
      refine List.countP_eq_zero.mpr fun r hr hc => hmem ?_
      rw [← (of_decide_eq_true hc).2]
      exact of_decide_eq_true (List.mem_filter.mp hr).2
    rw [hcount, hnone, Nat.add_zero]
    exact h s hs hp'

end Expire

/-! ## Units that are taken -/

section Reserve

variable {a : Mode} {w : World} {p : RowId} {S : Nat} {id m : RowId}
  {product : StorefrontProduct}

/-- A checkout of the product that goes through takes a unit. -/
theorem Stocked.reserve (h : Stocked p S w) (hw : Listed w)
    (ht : product.id = p → product.stock ≠ none) :
    InStock (Sessions.reserve a id m product w) p S ∧
      Settles (Sessions.reserve a id m product w) p := by
  have hsame : InStock w p S ∧ Settles w p := ⟨h.inStock, h.settles⟩
  obtain ⟨t, hstock, hsum⟩ := h.inStock
  obtain ⟨q, hq, hqstock⟩ := stockOf_eq_some.mp hstock
  unfold Sessions.reserve
  dsimp only
  by_cases hid : w.session? id ≠ none
  · rw [if_pos hid]
    exact hsame
  have hfresh : w.session? id = none := not_not.mp hid
  rw [if_neg hid]
  have hsettles (products : List StorefrontProduct) :
      Settles (World.insertSession (newSession id m a product.price product.currency
        (w.now + 30 * 60000) (some product.id)) { w with products := products }) p := by
    intro s hs hp
    rcases List.mem_append.mp hs with hs | hs
    · exact h.settles s hs hp
    · obtain rfl := List.mem_singleton.mp hs
      have hunknown : id ∉ w.released := fun hmem => by
        obtain ⟨s, hs, hsid⟩ := List.mem_map.mp (hw.known id hmem)
        exact Table.find_eq_none.mp hfresh s hs hsid
      exact List.count_eq_zero.mpr hunknown
  have hheld (products : List StorefrontProduct) :
      (World.insertSession (newSession id m a product.price product.currency
        (w.now + 30 * 60000) (some product.id)) { w with products := products }).held p =
        w.held p + if product.id = p then 1 else 0 := by
    rw [World.held, World.insertSession, List.countP_append, List.countP_singleton]
    congr 1
    refine if_congr ?_ rfl rfl
    simp [Session.holds, newSession, HOLDING]
  by_cases hp : product.id = p
  · rw [if_neg (ht hp)]
    by_cases hsold : w.products.countP (Sessions.inStock product.id) = 0
    · rw [if_pos hsold]
      exact hsame
    rw [if_neg hsold]
    refine ⟨?_, hsettles _⟩
    obtain ⟨q', hq'mem, hq'⟩ := List.countP_pos_iff.mp (Nat.pos_of_ne_zero hsold)
    obtain ⟨hqmem, hqid⟩ := World.product?_eq_some hq
    have hq'' : q'.id = product.id ∧ q'.stock.any (0 < ·) = true := of_decide_eq_true hq'
    obtain rfl := Table.eq_of_key hw.productIds hq'mem hqmem (hq''.1.trans (hp.trans hqid.symm))
    have hpos : 0 < (t : Int) := by
      have := hq''.2
      rw [hqstock] at this
      exact of_decide_eq_true this
    have hfind := product?_update (w := w) p (c := Sessions.inStock product.id)
      (f := fun q => { q with stock := q.stock.map (· - 1) }) fun _ => rfl
    rw [hq, Option.map_some, if_pos hq'] at hfind
    refine ⟨t - 1, stockOf_eq_some.mpr ⟨_, hfind, ?_⟩, ?_⟩
    · show q'.stock.map (· - 1) = some ((t - 1 : Nat) : Int)
      rw [hqstock, Option.map_some]
      congr 1
      omega
    · rw [hheld, if_pos hp]
      omega
  · have hother (c : StorefrontProduct → Bool) (f : StorefrontProduct → StorefrontProduct)
        (hf : ∀ q, (f q).id = q.id) (hc : ∀ q, q.id = p → c q = false) :
        World.stockOf { w with products := Table.updateWhere c f w.products } p = some (t : Int) := by
      have hfind := product?_update (w := w) p (c := c) hf
      rw [hq, Option.map_some, if_neg (by simp [hc q (World.product?_eq_some hq).2])] at hfind
      exact stockOf_eq_some.mpr ⟨q, hfind, hqstock⟩
    split
    · refine ⟨⟨t, hstock, ?_⟩, hsettles w.products⟩
      exact (congrArg (t + ·) ((hheld w.products).trans (by rw [if_neg hp]; rfl))).trans hsum
    · split
      · exact hsame
      · refine ⟨⟨t, hother _ _ (fun _ => rfl) fun q hqp => ?_, ?_⟩, hsettles _⟩
        · exact decide_eq_false fun hc => hp (hc.1.symm.trans hqp)
        · rw [hheld, if_neg hp]
          exact hsum

end Reserve

/-! ## Steps -/

/-- A payment is not projected onto a session of the product that has closed. -/
def NotLate (p : RowId) (w : World) : Label → Prop
  | .run k _ =>
      match w.tasks[k]? with
      | some (.settle _ _ (some id)) => ∀ s ∈ w.sessions, s.id = id →
          s.storefrontProductId = some p → s.row.status ≠ .expired ∧ s.row.status ≠ .cancelled
      | _ => True
  | _ => True

/-- A sweep flips only sessions that are still open. -/
def SweptOpen (p : RowId) (w : World) : Label → Prop
  | .run k _ =>
      match w.tasks[k]? with
      | some (.expiry due) => DueOpen w p due
      | _ => True
  | _ => True

section Step

variable {a : Mode} {w : World} {l : Label} {p : RowId} {S : Nat}

theorem SessionMove.sameUnit {s s' : Session} (h : SessionMove w l s s') (hw : Listed w)
    (hs : s ∈ w.sessions) (hlate : NotLate p w l)
    (hclose : ∀ m mode id to_, l ≠ .close m mode id to_)
    (hexpiry : ∀ k id due, l = .run k id → w.tasks[k]? ≠ some (.expiry due)) :
    SameUnit p s s' := by
  cases h with
  | stays => exact SameUnit.refl p s
  | close to_ hopen => exact absurd rfl (hclose _ _ _ to_)
  | stamp hopen txHash =>
      refine ⟨rfl, rfl, fun hp => iff_of_true (by show PaymentSessionStatus.submitted ∈ HOLDING; decide) ?_⟩
      have hholds : s.holds p = true := (Session.IsOpen.holds hopen).trans (decide_eq_true hp)
      exact (of_decide_eq_true hholds).2
  | expire ht => exact absurd ht (hexpiry _ _ _ rfl)
  | void ht =>
      obtain ⟨s₀, hs₀, hnone⟩ := hw.cancelling s.id (List.mem_of_getElem? ht)
      obtain ⟨hmem, hid⟩ := World.session?_eq_some hs₀
      obtain rfl := Table.eq_of_key hw.sessionIds hmem hs hid
      exact ⟨rfl, rfl, fun hp => absurd (hp.symm.trans hnone) nofun⟩
  | confirm ht hstatus =>
      refine ⟨rfl, rfl, fun hp => iff_of_true (by show PaymentSessionStatus.confirmed ∈ HOLDING; decide) ?_⟩
      unfold NotLate at hlate
      dsimp only at hlate
      rw [ht] at hlate
      have hopen := hlate s hs rfl hp
      have hfailed := hw.notFailed s hs
      cases hst : s.row.status with
      | created | awaiting_payment | submitted | confirmed => decide
      | failed => exact absurd hst hfailed
      | expired => exact absurd hst hopen.1
      | cancelled => exact absurd hst hopen.2

/-- A step that moves no session out of the open set and changes no stock. -/
theorem Stocked.frame (h : Stocked p S w) {w' : World} {N : Session → Prop}
    (hrows : Table.Steps Session.id (SameUnit p) N w.sessions w'.sessions)
    (hnew : ∀ s, N s → s.storefrontProductId ≠ some p) (hstock : w'.stockOf p = w.stockOf p)
    (hreleased : w'.released = w.released) : InStock w' p S ∧ Settles w' p :=
  ⟨h.inStock.frame hrows hnew hstock, h.settles.frame hrows hnew hreleased⟩

theorem Stocked.same (h : Stocked p S w) {w' : World} (hsessions : w'.sessions = w.sessions)
    (hproducts : w'.products = w.products) (hreleased : w'.released = w.released) :
    InStock w' p S ∧ Settles w' p := by
  refine h.frame (N := fun _ => False) ?_ (fun _ h => h.elim) ?_ hreleased
  · rw [hsessions]
    exact Table.Steps.same (SameUnit.refl p)
  · rw [World.stockOf, World.product?, hproducts]
    rfl

/-- A session without a product comes in. -/
theorem Stocked.insert (h : Stocked p S w) {s : Session} (hid : w.session? s.id = none)
    (hs : s.storefrontProductId = none) {w' : World} (hsessions : w'.sessions = w.sessions ++ [s])
    (hproducts : w'.products = w.products) (hreleased : w'.released = w.released) :
    InStock w' p S ∧ Settles w' p := by
  refine h.frame (N := fun s => s.storefrontProductId = none) ?_
    (fun s hs => by rw [hs]; exact nofun) ?_ hreleased
  · rw [hsessions]
    exact Table.Steps.insert (SameUnit.refl p) hs hid
  · rw [World.stockOf, World.product?, hproducts]
    rfl

/-- The sessions move, and none of the product moves its unit. -/
theorem Stocked.update (h : Stocked p S w) (hw : Listed w) (hlate : NotLate p w l)
    (hclose : ∀ m mode id to_, l ≠ .close m mode id to_)
    (hexpiry : ∀ k id due, l = .run k id → w.tasks[k]? ≠ some (.expiry due))
    {c : Session → Bool} {f : Session → Session} (hmove : ∀ s, c s = true → SessionMove w l s (f s))
    {w' : World} (hsessions : w'.sessions = Table.updateWhere c f w.sessions)
    (hproducts : w'.products = w.products) (hreleased : w'.released = w.released) :
    InStock w' p S ∧ Settles w' p := by
  refine h.frame (N := fun _ => False) ?_ (fun _ h => h.elim) ?_ hreleased
  · rw [hsessions]
    exact (Table.Steps.update (SessionMove.stays l) hmove).mono
      (fun s hs s' hmove => hmove.sameUnit hw hs hlate hclose hexpiry) fun _ h => h
  · rw [World.stockOf, World.product?, hproducts]
    rfl

theorem stockOf_update {c : StorefrontProduct → Bool}
    {f : StorefrontProduct → StorefrontProduct} (hf : ∀ q, (f q).id = q.id)
    (hstock : ∀ q, (f q).stock = q.stock) :
    World.stockOf { w with products := Table.updateWhere c f w.products } p = w.stockOf p := by
  rw [World.stockOf, product?_update p hf, World.stockOf, Option.bind_map]
  refine congrArg _ (funext fun q => ?_)
  rw [Function.comp_apply]
  split
  · exact hstock q
  · rfl

/-- One step keeps the sum and the releases. -/
theorem Stocked.units_step (h : Stocked p S w) (hw : Listed w) (hlate : NotLate p w l)
    (hswept : SweptOpen p w l) :
    InStock (step a w l) p S ∧ Settles (step a w l) p := by
  have hsame : InStock w p S ∧ Settles w p := ⟨h.inStock, h.settles⟩
  cases l with
  | wait | putStorefront | sweepInvoices | sweepSessions | project | drop => exact h.same rfl rfl rfl
  | createProduct q =>
      unfold step; dsimp only
      split
      · refine h.frame (N := fun _ => False) (Table.Steps.same (SameUnit.refl p))
          (fun _ h => h.elim) ?_ rfl
        obtain ⟨t, hstock, -⟩ := h.inStock
        obtain ⟨q', hq', -⟩ := stockOf_eq_some.mp hstock
        have hfind : World.product? { w with products := w.products ++ [q] } p = some q' :=
          Table.find_concat.trans (by
            rw [show Table.find StorefrontProduct.id w.products p = some q' from hq']
            exact Option.some_or)
        rw [World.stockOf, World.stockOf, hfind, hq']
      · exact hsame
  | archiveProduct id =>
      exact h.frame (N := fun _ => False) (Table.Steps.same (SameUnit.refl p)) (fun _ h => h.elim)
        (stockOf_update (fun _ => rfl) fun _ => rfl) rfl
  | createSession id m mode amount currency minutes =>
      unfold step; dsimp only
      split
      · exact h.insert (s := newSession id m mode amount currency _ none) ‹_› rfl rfl rfl rfl
      · exact hsame
  | createInvoice id sessionId m mode total currency email days =>
      unfold step createInvoice; dsimp only
      split
      · exact hsame
      · rename_i hnew
        exact h.insert (s := newSession sessionId m mode total currency _ none)
          (not_not.mp (not_or.mp hnew).1) rfl rfl rfl rfl
  | send => unfold step World.start; dsimp only; split <;> exact h.same rfl rfl rfl
  | voidInvoice => unfold step World.start; dsimp only; split <;> exact h.same rfl rfl rfl
  | checkout => unfold step; dsimp only; split <;> exact h.same rfl rfl rfl
  | close m mode id to_ => exact ⟨h.inStock.close hw.toLinked, h.settles.close hw.toLinked⟩
  | stamp id txHash =>
      refine h.update hw hlate nofun nofun (c := stampable id) (f := stamped txHash)
        (fun s hs => ?_) rfl rfl rfl
      obtain ⟨rfl, hopen⟩ := of_decide_eq_true hs
      exact .stamp hopen txHash
  | run k id =>
      unfold step; dsimp only
      cases ht : w.tasks[k]? with
      | none => exact hsame
      | some t =>
      have hne {due : List RowId} (hdue : t ≠ .expiry due) : w.tasks[k]? ≠ some (.expiry due) := by
        rw [ht]
        exact fun h => hdue (Option.some.inj h)
      cases t with
      | send | overdue => exact h.same rfl rfl rfl
      | void row => unfold runTask; dsimp only; split <;> exact h.same rfl rfl rfl
      | voidSession sessionId =>
          refine h.update hw hlate nofun (fun k' id' due heq => ?_) (l := .run k id)
            (c := fun s => s.id = sessionId) (f := Session.to_ .cancelled) (fun s hs => ?_) rfl rfl rfl
          · cases heq
            exact hne nofun
          · obtain rfl : s.id = sessionId := of_decide_eq_true hs
            exact .void ht
      | expiry due =>
          have hopen : DueOpen w p due := by
            unfold SweptOpen at hswept
            dsimp only at hswept
            rwa [ht] at hswept
          have hfinish : Stocked p S (w.finish k) := ⟨h.inStock, h.settles, fun m product hmem =>
            h.finite m product (mem_finish hmem)⟩
          exact ⟨InStock.expire (w := w.finish k) hfinish.inStock hopen,
            Settles.expire (w := w.finish k) hfinish.settles (hw.toLinked.finish k) hopen⟩
      | checkout m product =>
          have hfinish : Stocked p S (w.finish k) := ⟨h.inStock, h.settles, fun m product hmem =>
            h.finite m product (mem_finish hmem)⟩
          exact hfinish.reserve (hw.finish k) (h.finite m product (List.mem_of_getElem? ht))
      | settle in_ m sessionId =>
          unfold runTask; dsimp only
          rcases settle_cases (w.finish k) in_ m sessionId with hr | ⟨-, hr⟩ | ⟨sid, rfl, -, hr⟩
          · rw [hr]
            exact h.same rfl rfl rfl
          · rw [hr]
            exact h.same rfl rfl rfl
          · rw [hr]
            obtain ⟨hsessions, -, -, hproducts, hreleased⟩ := settleSession_rows
              { w.finish k with
                transactions := (w.finish k).transactions ++ [(in_.key, some sid)] } in_ m sid
            refine h.update hw hlate nofun (fun k' id' due heq => ?_) (l := .run k id)
              (fun s hs => ?_) hsessions hproducts hreleased
            · cases heq
              exact hne nofun
            · obtain ⟨rfl, hstatus⟩ := of_decide_eq_true hs
              exact .confirm ht hstatus

theorem Stocked.step (h : Stocked p S w) (hw : Listed w) (hlate : NotLate p w l)
    (hswept : SweptOpen p w l) : Stocked p S (Sessions.step a w l) :=
  ⟨(h.units_step hw hlate hswept).1, (h.units_step hw hlate hswept).2, h.finite_step hw⟩

end Step

/-! ## Runs -/

/-- After its creation the product's units are on the shelf or held, they add up to `S`, and
each session that closed unpaid has given its unit back once, and no other has. -/
def StockConserved (a : Mode) (now : Int) (ls : List Label) (m : Nat) (p : RowId) (S : Nat) :
    Prop :=
  ∀ n, m < n → InStock (stateAt (step a) (.empty now) ls n) p S ∧
    Settles (stateAt (step a) (.empty now) ls n) p

/-- No payment comes in after its session has closed. -/
def NoLatePayment (a : Mode) (now : Int) (ls : List Label) (p : RowId) : Prop :=
  ∀ n l, ls[n]? = some l → NotLate p (stateAt (step a) (.empty now) ls n) l

/-- Every sweep finds the sessions it flips as open as it read them. -/
def SweepsOpen (a : Mode) (now : Int) (ls : List Label) (p : RowId) : Prop :=
  ∀ n l, ls[n]? = some l → SweptOpen p (stateAt (step a) (.empty now) ls n) l

section Runs

variable {a : Mode} {now : Int} {ls : List Label}

theorem listed_stateAt (n : Nat) : Listed (stateAt (step a) (.empty now) ls n) :=
  stateAt_invariant (Nat.zero_le n) (listed_empty now) fun _ _ _ h => h.step

/-- A product as it is created. -/
theorem stocked_created {w : World} {product : StorefrontProduct} {S : Nat} (hw : Listed w)
    (hnew : w.product? product.id = none) (hS : product.stock = some (S : Int)) :
    Stocked product.id S (step a w (.createProduct product)) := by
  have hstep : step a w (.createProduct product) =
      { w with products := w.products ++ [product] } := if_pos hnew
  have hunlisted : product.id ∉ w.products.map (·.id) := fun hmem => by
    obtain ⟨q, hq, hid⟩ := List.mem_map.mp hmem
    exact Table.find_eq_none.mp hnew q hq hid
  have hfor : ∀ s ∈ w.sessions, s.storefrontProductId ≠ some product.id := fun s hs hp =>
    hunlisted (hw.sold s hs product.id hp)
  rw [hstep]
  refine ⟨⟨S, stockOf_eq_some.mpr ⟨product, ?_, hS⟩, ?_⟩, fun s hs hp => absurd hp (hfor s hs),
    fun m q hq hid => ?_⟩
  · refine Table.find_concat.trans ?_
    rw [show Table.find StorefrontProduct.id w.products product.id = none from hnew]
    exact if_pos rfl
  · have hnone : w.held product.id = 0 :=
      List.countP_eq_zero.mpr fun s hs hc => hfor s hs (of_decide_eq_true hc).1
    exact congrArg (S + ·) hnone
  · exact absurd (hw.reserving m q hq) (by rw [hid]; exact hunlisted)

end Runs

/-- A product with finite stock, and any run from the first row on: as long as every session a
sweep flips is still open, no unit is lost, sold twice or given back twice. -/
theorem stock_conserved (a : Mode) (now : Int) (ls : List Label) (m : Nat)
    (product : StorefrontProduct) (S : Nat) (hm : ls[m]? = some (.createProduct product))
    (hnew : (stateAt (step a) (.empty now) ls m).product? product.id = none)
    (hS : product.stock = some (S : Int)) (hlate : NoLatePayment a now ls product.id)
    (hswept : SweepsOpen a now ls product.id) :
    StockConserved a now ls m product.id S := by
  intro n hn
  have hstocked : Stocked product.id S (stateAt (step a) (.empty now) ls n) := by
    refine stateAt_induct (m := m + 1) ?_ (fun i l _ hl hi => ?_) hn
    · rw [stateAt_succ (step a) _ hm]
      exact stocked_created (listed_stateAt m) hnew hS
    · exact hi.step (listed_stateAt i) (hlate i l hl) (hswept i l hl)
  exact ⟨hstocked.inStock, hstocked.settles⟩

section Shelf

instance (p : RowId) (w : World) : (l : Label) → Decidable (NotLate p w l)
  | .run k _ => by
      unfold NotLate
      dsimp only
      split <;> infer_instance
  | .wait _ | .putStorefront _ | .createProduct _ | .archiveProduct _
  | .createSession _ _ _ _ _ _ | .createInvoice _ _ _ _ _ _ _ _ | .send _ _ _
  | .voidInvoice _ _ _ | .close _ _ _ _ | .stamp _ _ | .sweepInvoices | .sweepSessions
  | .project _ _ | .checkout _ _ | .drop _ => isTrue trivial

local instance : LawfulBEq RowId := inferInstance

instance (w : World) (p : RowId) (due : List RowId) : Decidable (DueOpen w p due) := by
  unfold DueOpen
  infer_instance

instance (p : RowId) (w : World) : (l : Label) → Decidable (SweptOpen p w l)
  | .run k _ => by
      unfold SweptOpen
      dsimp only
      split <;> infer_instance
  | .wait _ | .putStorefront _ | .createProduct _ | .archiveProduct _
  | .createSession _ _ _ _ _ _ | .createInvoice _ _ _ _ _ _ _ _ | .send _ _ _
  | .voidInvoice _ _ _ | .close _ _ _ _ | .stamp _ _ | .sweepInvoices | .sweepSessions
  | .project _ _ | .checkout _ _ | .drop _ => isTrue trivial

/-- A T-shirt, the last one. -/
def shirt : StorefrontProduct := ⟨[7], [5], "25000000", .usdc, .one_time, some 1, none, true⟩

/-- A shopper takes it and walks away, and two schedulers sweep at once. -/
def twoSweeps : List Label :=
  [.putStorefront ⟨[5], [8], "tees", .published⟩, .createProduct shirt, .checkout "tees" [7],
   .run 0 [1], .wait 1800001, .sweepSessions, .sweepSessions, .run 0 [], .run 0 []]

/-- Two replicas sweep the same expired session: its unit goes back twice. -/
theorem swept_twice_released_twice :
    NoLatePayment .test 0 twoSweeps [7] ∧ ¬ StockConserved .test 0 twoSweeps 1 [7] 1 := by
  refine ⟨fun n l hl => ?_, fun h => ?_⟩
  · have hall : ∀ n, (h : n < twoSweeps.length) →
        NotLate [7] (stateAt (step .test) (.empty 0) twoSweeps n) twoSweeps[n] := by
      decide +kernel
    obtain ⟨hn, rfl⟩ := List.getElem?_eq_some_iff.mp hl
    exact hall n hn
  · have htwo : (stateAt (step .test) (.empty 0) twoSweeps 9).stockOf [7] = some 2 := by
      decide +kernel
    obtain ⟨⟨t, ht, hsum⟩, -⟩ := h 9 (by decide)
    rw [htwo] at ht
    have := Option.some.inj ht
    omega

/-- The shirt is taken, comes back with the sweep, and is taken and paid for. -/
def soldSecond : List Label :=
  [.putStorefront ⟨[5], [8], "tees", .published⟩, .createProduct shirt, .checkout "tees" [7],
   .run 0 [1], .wait 1800001, .sweepSessions, .run 0 [], .checkout "tees" [7], .run 0 [2],
   .stamp [2] 9,
   .project ⟨1, 3, 25000000, 0, 25000000, .usdc, [2], 9, 1, 0, 0, .test⟩ [8], .run 0 []]

theorem stock_conserved_soldSecond : StockConserved .test 0 soldSecond 1 [7] 1 := by
  have hlate : ∀ n, (h : n < soldSecond.length) →
      NotLate [7] (stateAt (step .test) (.empty 0) soldSecond n) soldSecond[n] := by
    decide +kernel
  have hswept : ∀ n, (h : n < soldSecond.length) →
      SweptOpen [7] (stateAt (step .test) (.empty 0) soldSecond n) soldSecond[n] := by
    decide +kernel
  refine stock_conserved .test 0 soldSecond 1 shirt 1 rfl (by decide +kernel) rfl
    (fun n l hl => ?_) fun n l hl => ?_
  · obtain ⟨hn, rfl⟩ := List.getElem?_eq_some_iff.mp hl
    exact hlate n hn
  · obtain ⟨hn, rfl⟩ := List.getElem?_eq_some_iff.mp hl
    exact hswept n hn

end Shelf

end Strimz.Sessions
