import Strimz.Invoices

/-!
# Invoice numbers have no gaps

Whoever has locked a merchant's row is the only one about to number an invoice of that merchant, so
the number it has read stays one more than the committed ones until it commits or rolls back.
-/

namespace Strimz.Invoicing

open Script Runs InFlight

/-- The sequence parts of a merchant's invoices, in commit order. -/
def World.sequences (w : World) (merchantId : Id) : List (Option ℕ) :=
  (w.invoicesOf merchantId).map fun i => sequencePart i.number

def World.count (w : World) (merchantId : Id) : ℕ := (w.invoicesOf merchantId).length

/-- The merchant's invoices are numbered from one on. -/
def World.Gapless (w : World) (merchantId : Id) : Prop :=
  w.sequences merchantId = (List.range' 1 (w.count merchantId)).map some

structure World.Inv (w : World) : Prop where
  gapless : ∀ merchantId, w.Gapless merchantId
  /-- No row is locked twice. -/
  alone : (w.calls.filterMap Call.holds).Nodup
  pending : ∀ c ∈ w.calls, ∀ number, c.number = some number →
    sequencePart number = some (w.count c.merchantId + 1)
  own : ∀ c ∈ w.calls, ∀ session invoice, c.stage = .inserted session invoice →
    invoice.merchantId = c.merchantId

/-! ## What a step does -/

/-- What a step does to the committed invoices and to the calls under way. -/
inductive Effect (w w' : World) : Prop where
  | same (hinvoices : w'.invoices = w.invoices) (hcalls : w'.calls = w.calls)
  | began (c : Call) (hstage : c.stage = .started) (hinvoices : w'.invoices = w.invoices)
      (hcalls : w'.calls = w.calls ++ [c])
  | ended (k : ℕ) (hinvoices : w'.invoices = w.invoices) (hcalls : w'.calls = w.calls.eraseIdx k)
  | moved (k : ℕ) (c c' : Call) (hc : w.calls[k]? = some c)
      (hmerchant : c'.merchantId = c.merchantId)
      (hholds : c'.holds = c.holds ∨ c'.holds = some c.merchantId ∧
        ∀ other ∈ w.calls, other.holds ≠ some c.merchantId)
      (hnumber : ∀ number, c'.number = some number → c.number = some number ∨
        ∃ year, w.nextInvoiceNumber c.merchantId year = some number)
      (hown : ∀ session invoice, c'.stage = .inserted session invoice →
        invoice.merchantId = c'.merchantId)
      (hinvoices : w'.invoices = w.invoices) (hcalls : w'.calls = w.calls.set k c')
  | committed (k : ℕ) (c : Call) (session : PaymentSession) (invoice : Invoice)
      (hc : w.calls[k]? = some c) (hstage : c.stage = .inserted session invoice)
      (hinvoices : w'.invoices = w.invoices ++ [invoice])
      (hcalls : w'.calls = w.calls.eraseIdx k)

section Effects

variable {origin : Str} {w : World}

theorem effect_run {k : ℕ} {c : Call} (hc : w.calls[k]? = some c) (m : Moment) :
    Effect w (w.run origin k c m) := by
  have ends : ∀ w', w' = { w with calls := w.calls.eraseIdx k } → Effect w w' := by
    rintro w' rfl
    exact .ended k rfl rfl
  obtain ⟨merchantId, mode, input, stage⟩ := c
  cases stage with
  | started =>
      cases hterms : w.terms ⟨merchantId, mode, input, .started⟩ m with
      | none => exact ends _ (by simp [World.run, World.statement, hterms])
      | some terms =>
          refine .moved k _ ⟨merchantId, mode, input, .checked terms⟩ hc rfl (.inl rfl) ?_ ?_
            (by simp [World.run, World.statement, hterms])
            (by simp [World.run, World.statement, hterms])
          · intro number h
            cases h
          · intro session invoice h
            cases h
  | checked terms =>
      by_cases hfree : w.calls.any fun c' => c'.holds = some merchantId
      · exact .same (by simp only [World.run, World.statement, if_pos hfree])
          (by simp only [World.run, World.statement, if_pos hfree])
      · refine .moved k _ ⟨merchantId, mode, input, .locked terms⟩ hc rfl (.inr ⟨rfl, ?_⟩) ?_ ?_
          (by simp only [World.run, World.statement, if_neg hfree])
          (by simp only [World.run, World.statement, if_neg hfree])
        · intro other hother hholds
          exact hfree (List.any_eq_true.mpr ⟨other, hother, decide_eq_true hholds⟩)
        · intro number h
          cases h
        · intro session invoice h
          cases h
  | locked terms =>
      cases hnext : w.nextInvoiceNumber merchantId m.year with
      | none => exact ends _ (by simp [World.run, World.statement, hnext])
      | some number =>
          refine .moved k _ ⟨merchantId, mode, input, .numbered terms number⟩ hc rfl (.inl rfl) ?_ ?_
            (by simp [World.run, World.statement, hnext])
            (by simp [World.run, World.statement, hnext])
          · intro number' h
            obtain rfl : number = number' := Option.some.inj h
            exact .inr ⟨m.year, hnext⟩
          · intro session invoice h
            cases h
  | numbered terms number =>
      refine .moved k _ ⟨merchantId, mode, input, .opened terms number
        (sessionData ⟨merchantId, mode, input, .numbered terms number⟩ terms number m.freshId)⟩
        hc rfl (.inl rfl) (fun _ h => .inl h) ?_ rfl rfl
      intro session invoice h
      cases h
  | opened terms number session =>
      refine .moved k _ ⟨merchantId, mode, input, .linked terms number
        { session with checkoutUrl := buildCheckoutUrl origin session.id }⟩
        hc rfl (.inl rfl) (fun _ h => .inl h) ?_ rfl rfl
      intro session invoice h
      cases h
  | linked terms number session =>
      by_cases hunique : (w.invoicesOf merchantId).any fun i => i.number = number
      · exact ends _ (by simp only [World.run, World.statement, if_pos hunique])
      · refine .moved k _ ⟨merchantId, mode, input, .inserted session
          (invoiceData ⟨merchantId, mode, input, .linked terms number session⟩ terms number session)⟩
          hc rfl (.inl rfl) (fun _ h => .inl h) ?_
          (by simp only [World.run, World.statement, if_neg hunique])
          (by simp only [World.run, World.statement, if_neg hunique])
        intro session' invoice h
        cases h
        rfl
  | inserted session invoice => exact .committed k _ session invoice hc rfl rfl rfl

/-- Every step has one of these effects. -/
theorem effect_step (l : Label) : Effect w (step origin w l) := by
  cases l with
  | signUp merchantId => exact .same rfl rfl
  | create merchantId mode input => exact .began ⟨merchantId, mode, input, .started⟩ rfl rfl rfl
  | fail k => exact .ended k rfl rfl
  | next k m =>
      cases hc : w.calls[k]? with
      | none => exact .same (by simp [step, hc]) (by simp [step, hc])
      | some c =>
          have hstep : step origin w (.next k m) = w.run origin k c m := by simp [step, hc]
          rw [hstep]
          exact effect_run hc m

end Effects

/-! ## The invariant -/

section Invariant

variable {w w' : World}

theorem invoicesOf_congr (h : w'.invoices = w.invoices) (merchantId : Id) :
    w'.invoicesOf merchantId = w.invoicesOf merchantId := by
  rw [World.invoicesOf, World.invoicesOf, h]

theorem count_congr (h : w'.invoices = w.invoices) (merchantId : Id) :
    w'.count merchantId = w.count merchantId := by
  rw [World.count, World.count, invoicesOf_congr h]

theorem gapless_congr (h : w'.invoices = w.invoices) {merchantId : Id}
    (hgapless : w.Gapless merchantId) : w'.Gapless merchantId := by
  rw [World.Gapless, World.sequences, count_congr h, invoicesOf_congr h]
  exact hgapless

/-- A call that has a number holds its merchant's row. -/
theorem holds_of_number {c : Call} {number : Str} (h : c.number = some number) :
    c.holds = some c.merchantId := by
  obtain ⟨merchantId, mode, input, stage⟩ := c
  cases stage <;> first | rfl | cases h

/-- What `nextInvoiceNumber` reads is one more than the invoices there are. -/
theorem sequencePart_next {merchantId : Id} {year : ℕ} {number : Str}
    (hgapless : w.Gapless merchantId) (h : w.nextInvoiceNumber merchantId year = some number) :
    sequencePart number = some (w.count merchantId + 1) := by
  obtain ⟨last, hlast, rfl⟩ := Option.map_eq_some_iff.mp h
  have hnumbers : ((w.invoicesOf merchantId).map Invoice.number).map sequencePart =
      (List.range' 1 (w.count merchantId)).map some := by
    rw [List.map_map]
    exact hgapless
  have hvalue := lastSequence_eq hnumbers hlast
  rw [sequencePart_invoiceNumber]
  split at hvalue
  · rename_i hcount
    rw [hvalue, hcount]
  · rw [hvalue, Nat.add_sub_cancel_left]

theorem Inv.same (h : w.Inv) (hinvoices : w'.invoices = w.invoices)
    (hcalls : List.Sublist w'.calls w.calls) : w'.Inv where
  gapless merchantId := gapless_congr hinvoices (h.gapless merchantId)
  alone := h.alone.sublist (hcalls.filterMap _)
  pending c hc number hnumber := by
    rw [count_congr hinvoices]
    exact h.pending c (hcalls.subset hc) number hnumber
  own c hc := h.own c (hcalls.subset hc)

theorem Inv.began (h : w.Inv) {c : Call} (hstage : c.stage = .started)
    (hinvoices : w'.invoices = w.invoices) (hcalls : w'.calls = w.calls ++ [c]) : w'.Inv where
  gapless merchantId := gapless_congr hinvoices (h.gapless merchantId)
  alone := by
    have hholds : c.holds = none := by rw [Call.holds, hstage]
    rw [hcalls, List.filterMap_append, List.filterMap_cons, hholds]
    simpa using h.alone
  pending c' hc' number hnumber := by
    rw [count_congr hinvoices]
    rw [hcalls] at hc'
    rcases List.mem_append.mp hc' with hc' | hc'
    · exact h.pending c' hc' number hnumber
    · rw [List.mem_singleton.mp hc', Call.number, hstage] at hnumber
      cases hnumber
  own c' hc' session invoice hinserted := by
    rw [hcalls] at hc'
    rcases List.mem_append.mp hc' with hc' | hc'
    · exact h.own c' hc' session invoice hinserted
    · rw [List.mem_singleton.mp hc', hstage] at hinserted
      cases hinserted

theorem Inv.moved (h : w.Inv) {k : ℕ} {c c' : Call} (hc : w.calls[k]? = some c)
    (hmerchant : c'.merchantId = c.merchantId)
    (hholds : c'.holds = c.holds ∨ c'.holds = some c.merchantId ∧
      ∀ other ∈ w.calls, other.holds ≠ some c.merchantId)
    (hnumber : ∀ number, c'.number = some number → c.number = some number ∨
      ∃ year, w.nextInvoiceNumber c.merchantId year = some number)
    (hown : ∀ session invoice, c'.stage = .inserted session invoice →
      invoice.merchantId = c'.merchantId)
    (hinvoices : w'.invoices = w.invoices) (hcalls : w'.calls = w.calls.set k c') : w'.Inv where
  gapless merchantId := gapless_congr hinvoices (h.gapless merchantId)
  alone := by
    obtain ⟨hk, -⟩ := List.getElem?_eq_some_iff.mp hc
    have hperm : w'.calls.Perm (c' :: w.calls.eraseIdx k) := by
      rw [hcalls]
      exact List.set_perm_cons_eraseIdx hk c'
    rw [(hperm.filterMap _).nodup_iff]
    rcases hholds with hholds | ⟨hholds, hfree⟩
    · rw [List.filterMap_cons, hholds, ← List.filterMap_cons,
        ← ((perm_erase hc).filterMap _).nodup_iff]
      exact h.alone
    · rw [List.filterMap_cons, hholds]
      refine List.nodup_cons.mpr ⟨fun hmem => ?_,
        h.alone.sublist ((List.eraseIdx_sublist _ _).filterMap _)⟩
      obtain ⟨other, hother, heq⟩ := List.mem_filterMap.mp hmem
      exact hfree other (List.mem_of_mem_eraseIdx hother) heq
  pending other hother number hother_number := by
    rw [count_congr hinvoices]
    rw [hcalls] at hother
    rcases List.mem_or_eq_of_mem_set hother with hother | rfl
    · exact h.pending other hother number hother_number
    · rw [hmerchant]
      rcases hnumber number hother_number with hold | ⟨year, hnext⟩
      · exact h.pending c (List.mem_of_getElem? hc) number hold
      · exact sequencePart_next (h.gapless c.merchantId) hnext
  own other hother := by
    rw [hcalls] at hother
    rcases List.mem_or_eq_of_mem_set hother with hother | rfl
    · exact h.own other hother
    · exact hown

theorem Inv.committed (h : w.Inv) {k : ℕ} {c : Call} {session : PaymentSession} {invoice : Invoice}
    (hc : w.calls[k]? = some c) (hstage : c.stage = .inserted session invoice)
    (hinvoices : w'.invoices = w.invoices ++ [invoice])
    (hcalls : w'.calls = w.calls.eraseIdx k) : w'.Inv := by
  have hmem : c ∈ w.calls := List.mem_of_getElem? hc
  have hmerchant : invoice.merchantId = c.merchantId := h.own c hmem session invoice hstage
  have hnumber : c.number = some invoice.number := by rw [Call.number, hstage]
  have hthis : w'.invoicesOf c.merchantId = w.invoicesOf c.merchantId ++ [invoice] := by
    rw [World.invoicesOf, World.invoicesOf, hinvoices, List.filter_append, List.filter_cons,
      if_pos (decide_eq_true hmerchant), List.filter_nil]
  have hother : ∀ merchantId, merchantId ≠ c.merchantId →
      w'.invoicesOf merchantId = w.invoicesOf merchantId := by
    intro merchantId hne
    have hnot : ¬ decide (invoice.merchantId = merchantId) = true := by
      rw [decide_eq_true_eq, hmerchant]
      exact hne.symm
    rw [World.invoicesOf, World.invoicesOf, hinvoices, List.filter_append, List.filter_cons,
      if_neg hnot, List.filter_nil, List.append_nil]
  have hsub : List.Sublist w'.calls w.calls := by
    rw [hcalls]
    exact List.eraseIdx_sublist _ _
  refine ⟨fun merchantId => ?_, h.alone.sublist (hsub.filterMap _), ?_, fun c' hc' =>
    h.own c' (hsub.subset hc')⟩
  · by_cases hm : merchantId = c.merchantId
    · subst hm
      have hnext := h.pending c hmem invoice.number hnumber
      rw [World.Gapless, World.sequences, World.count, hthis, List.map_append, List.map_singleton,
        hnext, List.length_append, List.length_singleton, List.range'_1_concat, List.map_append,
        List.map_singleton, Nat.add_comm 1]
      exact congrArg (· ++ [some (w.count c.merchantId + 1)]) (h.gapless c.merchantId)
    · rw [World.Gapless, World.sequences, World.count, hother merchantId hm]
      exact h.gapless merchantId
  · intro c' hc' number hc'_number
    -- the others hold other rows
    have hne : c'.merchantId ≠ c.merchantId := by
      intro heq
      have hnodup := ((perm_erase hc).filterMap Call.holds).nodup_iff.mp h.alone
      rw [List.filterMap_cons, holds_of_number hnumber] at hnodup
      refine (List.nodup_cons.mp hnodup).1 (List.mem_filterMap.mpr ⟨c', ?_, ?_⟩)
      · rwa [hcalls] at hc'
      · rw [holds_of_number hc'_number, heq]
    rw [World.count, hother _ hne]
    exact h.pending c' (hsub.subset hc') number hc'_number

theorem inv_effect (h : w.Inv) (heffect : Effect w w') : w'.Inv := by
  cases heffect with
  | same hinvoices hcalls => exact Inv.same h hinvoices (by rw [hcalls])
  | began c hstage hinvoices hcalls => exact Inv.began h hstage hinvoices hcalls
  | ended k hinvoices hcalls =>
      exact Inv.same h hinvoices (by rw [hcalls]; exact List.eraseIdx_sublist _ _)
  | moved k c c' hc hmerchant hholds hnumber hown hinvoices hcalls =>
      exact Inv.moved h hc hmerchant hholds hnumber hown hinvoices hcalls
  | committed k c session invoice hc hstage hinvoices hcalls =>
      exact Inv.committed h hc hstage hinvoices hcalls

theorem inv_initial : World.initial.Inv where
  gapless _ := rfl
  alone := List.nodup_nil
  pending _ hc := absurd hc List.not_mem_nil
  own _ hc := absurd hc List.not_mem_nil

theorem inv_exec (origin : Str) (ls : List Label) : (exec (step origin) World.initial ls).Inv :=
  exec_invariant inv_initial fun _ l _ h => inv_effect h (effect_step l)

end Invariant

/-- After any run the sequence parts of a merchant's invoices are `1..n` in commit order, and no
number is used twice. -/
theorem invoice_numbers_gapless (origin : Str) (ls : List Label) (merchantId : Id) :
    let invoices := (exec (step origin) World.initial ls).invoicesOf merchantId
    invoices.map (fun i => sequencePart i.number) = (List.range' 1 invoices.length).map some ∧
      (invoices.map Invoice.number).Nodup := by
  have h := (inv_exec origin ls).gapless merchantId
  refine ⟨h, List.Nodup.of_map sequencePart ?_⟩
  rw [List.map_map]
  have hnodup : ((List.range' 1 ((exec (step origin) World.initial ls).count merchantId)).map
      some).Nodup := List.Nodup.map (Option.some_injective ℕ) (List.nodup_range' _)
  rw [← h] at hnodup
  exact hnodup

/-- Two calls side by side over a new year: the second waits for the first one's row lock. -/
example :
    let input : CreateInvoiceInput := ⟨none, none, [⟨[], 1, text "2000000"⟩], .usdc, none, 7⟩
    let next (k year : ℕ) : Label := .next k ⟨0, year, 100, text "s"⟩
    let w := exec (step (text "https://pay/")) World.initial
      ([.signUp (text "m"), .create (text "m") .live input, .create (text "m") .test input,
        next 0 2026, next 1 2026, next 1 2026, next 0 2026, next 1 2026, next 1 2026] ++
        List.replicate 5 (next 1 2026) ++ List.replicate 6 (next 0 2027))
    w.invoices.map Invoice.number = [text "2026-0001", text "2027-0002"] ∧ w.calls = [] := by
  decide +kernel

end Strimz.Invoicing
