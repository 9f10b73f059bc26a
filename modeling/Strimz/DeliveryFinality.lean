import Strimz.DeliverySteps

/-!
# The end of a delivery

`Inv` counts the requests against the attempts: a row that is still open has sent one
request for each attempt before its current one, and one more while a request is in flight.
`Later` is what a delivery cannot go back on. The recovery part rests on a frame: a row that
no job and no sweep holds stands still until a sweep picks it.
-/

namespace Strimz.Webhooks

namespace Delivery

open Runs

variable {maxAttempts : Nat} {w w' : World} {l : Label} {x : Id} {k : Nat}
  {d d' row : WebhookDelivery} {f : WebhookDelivery → WebhookDelivery}

/-! ## The invariant -/

structure Inv (maxAttempts : Nat) (w : World) : Prop where
  ids : (w.deliveries.map (·.id)).Nodup
  bounded : ∀ row ∈ w.deliveries, 1 ≤ row.attempt ∧ row.attempt ≤ maxAttempts
  single : (w.flights.map (·.id)).Nodup
  agree : ∀ d ∈ w.flights, ∃ row ∈ w.deliveries, row.id = d.id ∧ row.attempt = d.attempt
  sent : ∀ row ∈ w.deliveries, w.requestsOf row.id ≤ row.attempt
  spare : ∀ row ∈ w.deliveries, terminal row.status = false → row.id ∉ w.flights.map (·.id) →
    w.requestsOf row.id < row.attempt
  known : ∀ q ∈ w.requests, ∃ row ∈ w.deliveries, row.id = q.deliveryId

/-- `id` is the primary key. -/
theorem Inv.row_eq (h : Inv maxAttempts w) (hd : d ∈ w.deliveries) (hd' : d' ∈ w.deliveries)
    (hid : d.id = d'.id) : d = d' :=
  List.inj_on_of_nodup_map h.ids hd hd' hid

theorem Inv.open_of_row (h : Inv maxAttempts w) (hrow : row ∈ w.deliveries)
    (hopen : w.Open row.id) : terminal row.status = false := by
  obtain ⟨row', hrow', hid, hlive⟩ := hopen
  rwa [h.row_eq hrow hrow' hid.symm]

theorem Inv.attempt_of_flight (h : Inv maxAttempts w) (hd : d ∈ w.flights)
    (hrow : row ∈ w.deliveries) (hid : row.id = d.id) : row.attempt = d.attempt := by
  obtain ⟨row', hrow', hid', hattempt⟩ := h.agree d hd
  rwa [h.row_eq hrow hrow' (hid.trans hid'.symm)]

theorem requestsOf_congr (hr : w'.requests = w.requests) (x : Id) :
    w'.requestsOf x = w.requestsOf x := by
  rw [World.requestsOf, World.requestsOf, hr]

theorem requestsOf_append {q : Request} (hr : w'.requests = w.requests ++ [q]) (x : Id) :
    w'.requestsOf x = w.requestsOf x + if q.deliveryId = x then 1 else 0 := by
  rw [World.requestsOf, World.requestsOf, hr, List.countP_append, List.countP_singleton]
  simp

theorem Inv.requestsOf_new (h : Inv maxAttempts w) (hnew : ∀ row ∈ w.deliveries, row.id ≠ x) :
    w.requestsOf x = 0 := by
  rw [World.requestsOf, List.countP_eq_zero]
  intro q hq hid
  obtain ⟨row, hrow, hq'⟩ := h.known q hq
  exact hnew row hrow (hq'.trans (of_decide_eq_true hid))

/-! ## One row is rewritten -/

theorem mem_mapRow : d' ∈ (w.mapRow x f).deliveries ↔
    ∃ d ∈ w.deliveries, (if d.id = x then f d else d) = d' :=
  List.mem_map

theorem mapRow_ids (hf : ∀ d, (f d).id = d.id) :
    (w.mapRow x f).deliveries.map (·.id) = w.deliveries.map (·.id) := by
  rw [World.mapRow, List.map_map]
  refine List.map_congr_left fun d _ => ?_
  simp only [Function.comp_apply]
  split <;> simp [hf]

theorem mapRow_id (hf : ∀ d, (f d).id = d.id) (d : WebhookDelivery) :
    (if d.id = x then f d else d).id = d.id := by
  split
  · exact hf d
  · rfl

/-- Every row but `x` is what it was. -/
theorem mem_mapRow_of_ne (hid : d.id ≠ x) (hd : d ∈ w.deliveries) :
    d ∈ (w.mapRow x f).deliveries :=
  mem_mapRow.mpr ⟨d, hd, if_neg hid⟩

/-- The rewritten row has answered: it is closed, or on to an attempt not yet sent. -/
theorem Inv.landed {pre post : List WebhookDelivery} (h : Inv maxAttempts w)
    (hid : ∀ d, (f d).id = d.id)
    (hattempt : ∀ row ∈ w.deliveries, row.id = d.id →
      (f row).attempt = row.attempt ∧ terminal (f row).status = true ∨
        (f row).attempt = row.attempt + 1 ∧ row.attempt < maxAttempts)
    (hd : w'.deliveries = (w.mapRow d.id f).deliveries) (hr : w'.requests = w.requests)
    (hflights : w.flights = pre ++ d :: post) (hflights' : w'.flights = pre ++ post) :
    Inv maxAttempts w' := by
  have hmem : ∀ d' ∈ w'.flights, d' ∈ w.flights := by
    rw [hflights, hflights']
    intro d' hd'
    simp only [List.mem_append, List.mem_cons] at hd' ⊢
    tauto
  have hsingle := h.single
  rw [hflights, List.map_append, List.map_cons, List.nodup_middle] at hsingle
  have hgone : d.id ∉ w'.flights.map (·.id) := by
    rw [hflights', List.map_append]
    exact (List.nodup_cons.mp hsingle).1
  have hrows : ∀ row' ∈ w'.deliveries, ∃ row ∈ w.deliveries, row.id = row'.id ∧
      (row.id ≠ d.id ∧ row' = row ∨ row.id = d.id ∧ row' = f row) := by
    intro row' hrow'
    rw [hd] at hrow'
    obtain ⟨row, hrow, rfl⟩ := mem_mapRow.mp hrow'
    refine ⟨row, hrow, (mapRow_id hid row).symm, ?_⟩
    by_cases heq : row.id = d.id
    · exact .inr ⟨heq, if_pos heq⟩
    · exact .inl ⟨heq, if_neg heq⟩
  refine ⟨?ids, ?bounded, ?single, ?agree, ?sent, ?spare, ?known⟩
  case ids =>
    rw [hd, mapRow_ids hid]
    exact h.ids
  case bounded =>
    intro row' hrow'
    obtain ⟨row, hrow, -, ⟨-, rfl⟩ | ⟨heq, rfl⟩⟩ := hrows row' hrow'
    · exact h.bounded row' hrow
    · have hb := h.bounded row hrow
      rcases hattempt row hrow heq with ⟨hsame, -⟩ | ⟨hnext, hlt⟩ <;> omega
  case single =>
    rw [hflights', List.map_append]
    exact (List.nodup_cons.mp hsingle).2
  case agree =>
    intro d' hd'
    obtain ⟨row, hrow, hrid, hratt⟩ := h.agree d' (hmem d' hd')
    have hne : row.id ≠ d.id := by
      intro heq
      refine hgone (List.mem_map.mpr ⟨d', hd', ?_⟩)
      rw [← hrid, heq]
    refine ⟨row, ?_, hrid, hratt⟩
    rw [hd]
    exact mem_mapRow_of_ne hne hrow
  case sent =>
    intro row' hrow'
    rw [requestsOf_congr hr]
    obtain ⟨row, hrow, hrid, ⟨-, rfl⟩ | ⟨heq, rfl⟩⟩ := hrows row' hrow'
    · exact h.sent row' hrow
    · have hsent := h.sent row hrow
      rw [← hrid]
      rcases hattempt row hrow heq with ⟨hsame, -⟩ | ⟨hnext, -⟩ <;> omega
  case spare =>
    intro row' hrow' hlive hout
    rw [requestsOf_congr hr]
    obtain ⟨row, hrow, hrid, ⟨hne, rfl⟩ | ⟨heq, rfl⟩⟩ := hrows row' hrow'
    · refine h.spare row' hrow hlive fun hin => hout ?_
      rw [hflights, List.map_append, List.map_cons] at hin
      rw [hflights', List.map_append]
      simp only [List.mem_append, List.mem_cons] at hin ⊢
      tauto
    · have hsent := h.sent row hrow
      rw [← hrid]
      rcases hattempt row hrow heq with ⟨-, hclosed⟩ | ⟨hnext, -⟩
      · rw [hclosed] at hlive
        exact absurd hlive (by decide)
      · omega
  case known =>
    intro q hq
    rw [hr] at hq
    obtain ⟨row, hrow, hrid⟩ := h.known q hq
    refine ⟨_, hd ▸ mem_mapRow.mpr ⟨row, hrow, rfl⟩, ?_⟩
    rw [mapRow_id hid, hrid]

/-- A row that keeps its attempt, whatever is in flight, and is not opened again. -/
theorem Inv.rewritten (h : Inv maxAttempts w) (hid : ∀ d, (f d).id = d.id)
    (hattempt : ∀ d, (f d).attempt = d.attempt)
    (hclosed : ∀ row ∈ w.deliveries, row.id = x → terminal (f row).status = false →
      terminal row.status = false)
    (hd : w'.deliveries = (w.mapRow x f).deliveries) (hr : w'.requests = w.requests)
    (hflights : w'.flights = w.flights) : Inv maxAttempts w' := by
  have hrows : ∀ row' ∈ w'.deliveries, ∃ row ∈ w.deliveries, row.id = row'.id ∧
      row.attempt = row'.attempt ∧ (terminal row'.status = false → terminal row.status = false) := by
    intro row' hrow'
    rw [hd] at hrow'
    obtain ⟨row, hrow, rfl⟩ := mem_mapRow.mp hrow'
    refine ⟨row, hrow, (mapRow_id hid row).symm, ?_⟩
    split
    next heq => exact ⟨(hattempt row).symm, hclosed row hrow heq⟩
    next => exact ⟨rfl, fun hlive => hlive⟩
  have hkept : ∀ row ∈ w.deliveries, ∃ row' ∈ w'.deliveries, row'.id = row.id ∧
      row'.attempt = row.attempt := by
    intro row hrow
    refine ⟨_, hd ▸ mem_mapRow.mpr ⟨row, hrow, rfl⟩, mapRow_id hid row, ?_⟩
    split
    · exact hattempt row
    · rfl
  refine ⟨?ids, ?bounded, hflights ▸ h.single, ?agree, ?sent, ?spare, ?known⟩
  case ids =>
    rw [hd, mapRow_ids hid]
    exact h.ids
  case bounded =>
    intro row' hrow'
    obtain ⟨row, hrow, -, hatt, -⟩ := hrows row' hrow'
    rw [← hatt]
    exact h.bounded row hrow
  case agree =>
    intro d' hd'
    obtain ⟨row, hrow, hrid, hratt⟩ := h.agree d' (hflights ▸ hd')
    obtain ⟨row', hrow', hid', hatt'⟩ := hkept row hrow
    exact ⟨row', hrow', hid'.trans hrid, hatt'.trans hratt⟩
  case sent =>
    intro row' hrow'
    obtain ⟨row, hrow, hrid, hatt, -⟩ := hrows row' hrow'
    rw [requestsOf_congr hr, ← hrid, ← hatt]
    exact h.sent row hrow
  case spare =>
    intro row' hrow' hlive hout
    obtain ⟨row, hrow, hrid, hatt, hopen⟩ := hrows row' hrow'
    rw [hflights] at hout
    rw [requestsOf_congr hr, ← hrid, ← hatt]
    exact h.spare row hrow (hopen hlive) (hrid ▸ hout)
  case known =>
    intro q hq
    obtain ⟨row, hrow, hrid⟩ := h.known q (hr ▸ hq)
    obtain ⟨row', hrow', hid', -⟩ := hkept row hrow
    exact ⟨row', hrow', hid'.trans hrid⟩

theorem Inv.quiet (h : Inv maxAttempts w) (hd : w'.deliveries = w.deliveries)
    (hr : w'.requests = w.requests) (hflights : w'.flights = w.flights) : Inv maxAttempts w' := by
  refine h.rewritten (x := []) (f := id) (fun _ => rfl) (fun _ => rfl) (fun _ _ _ hlive => hlive)
    ?_ hr hflights
  rw [hd, World.mapRow]
  simp

theorem Inv.created (h : Inv maxAttempts w) (hmax : 1 ≤ maxAttempts)
    (hnew : ∀ row ∈ w.deliveries, row.id ≠ d.id) (hfirst : d.attempt = 1)
    (hd : w'.deliveries = w.deliveries ++ [d]) (hr : w'.requests = w.requests)
    (hflights : w'.flights = w.flights) : Inv maxAttempts w' := by
  have hrows : ∀ row ∈ w'.deliveries, row ∈ w.deliveries ∨ row = d := by
    intro row hrow
    rw [hd] at hrow
    simpa using hrow
  have hkept : ∀ row ∈ w.deliveries, row ∈ w'.deliveries := by
    intro row hrow
    rw [hd]
    exact List.mem_append_left _ hrow
  refine ⟨?ids, ?bounded, hflights ▸ h.single, ?agree, ?sent, ?spare, ?known⟩
  case ids =>
    rw [hd, List.map_append, List.map_singleton, List.nodup_append]
    refine ⟨h.ids, List.nodup_singleton _, ?_⟩
    intro y hy z hz
    obtain ⟨row, hrow, rfl⟩ := List.mem_map.mp hy
    rw [List.mem_singleton.mp hz]
    exact hnew row hrow
  case bounded =>
    intro row hrow
    rcases hrows row hrow with hrow | rfl
    · exact h.bounded row hrow
    · omega
  case agree =>
    intro d' hd'
    obtain ⟨row, hrow, heq⟩ := h.agree d' (hflights ▸ hd')
    exact ⟨row, hkept row hrow, heq⟩
  case sent =>
    intro row hrow
    rw [requestsOf_congr hr]
    rcases hrows row hrow with hrow | rfl
    · exact h.sent row hrow
    · rw [h.requestsOf_new hnew]
      exact Nat.zero_le _
  case spare =>
    intro row hrow hlive hout
    rw [requestsOf_congr hr]
    rcases hrows row hrow with hrow | rfl
    · exact h.spare row hrow hlive (hflights ▸ hout)
    · rw [h.requestsOf_new hnew]
      omega
  case known =>
    intro q hq
    obtain ⟨row, hrow, heq⟩ := h.known q (hr ▸ hq)
    exact ⟨row, hkept row hrow, heq⟩

theorem Inv.posted {q : Request} {pre post : List WebhookDelivery} (h : Inv maxAttempts w)
    (hrow : row ∈ w.deliveries) (hid : row.id = d.id) (hattempt : row.attempt = d.attempt)
    (hlive : terminal row.status = false) (halone : d.id ∉ w.flights.map (·.id))
    (hd : w'.deliveries = w.deliveries) (hq : q.deliveryId = d.id)
    (hr : w'.requests = w.requests ++ [q]) (hflights : w.flights = pre ++ post)
    (hflights' : w'.flights = pre ++ d :: post) : Inv maxAttempts w' := by
  have hmem : ∀ d', d' ∈ w'.flights ↔ d' ∈ w.flights ∨ d' = d := by
    intro d'
    rw [hflights, hflights']
    simp only [List.mem_append, List.mem_cons]
    tauto
  have hids : ∀ y, y ∈ w'.flights.map (·.id) ↔ y ∈ w.flights.map (·.id) ∨ y = d.id := by
    intro y
    simp only [List.mem_map, hmem]
    constructor
    · rintro ⟨d', hd' | rfl, rfl⟩
      · exact .inl ⟨d', hd', rfl⟩
      · exact .inr rfl
    · rintro (⟨d', hd', rfl⟩ | rfl)
      · exact ⟨d', .inl hd', rfl⟩
      · exact ⟨d, .inr rfl, rfl⟩
  refine ⟨hd ▸ h.ids, hd ▸ h.bounded, ?single, ?agree, ?sent, ?spare, ?known⟩
  case single =>
    rw [hflights', List.map_append, List.map_cons, List.nodup_middle, List.nodup_cons,
      ← List.map_append, ← hflights]
    exact ⟨halone, h.single⟩
  case agree =>
    intro d' hd'
    rw [hd]
    rcases (hmem d').mp hd' with hd' | rfl
    · exact h.agree d' hd'
    · exact ⟨row, hrow, hid, hattempt⟩
  case sent =>
    intro row' hrow'
    rw [hd] at hrow'
    rw [requestsOf_append hr, hq]
    split
    next heq =>
      obtain rfl := h.row_eq hrow hrow' (hid.trans heq)
      have hspare := h.spare row hrow hlive (hid ▸ halone)
      omega
    next => exact h.sent row' hrow'
  case spare =>
    intro row' hrow' hlive' hout
    rw [hids, not_or] at hout
    rw [requestsOf_append hr, hq, if_neg (Ne.symm hout.2)]
    exact h.spare row' (hd ▸ hrow') hlive' hout.1
  case known =>
    intro q' hq'
    rw [hd]
    rw [hr] at hq'
    rcases List.mem_append.mp hq' with hq' | hq'
    · exact h.known q' hq'
    · rw [List.mem_singleton.mp hq', hq]
      exact ⟨row, hrow, hid⟩

theorem Inv.effect (h : Inv maxAttempts w) (hmax : 1 ≤ maxAttempts)
    (he : Effect maxAttempts w w') : Inv maxAttempts w' := by
  cases he with
  | quiet hd hr hflights => exact h.quiet hd hr hflights
  | created d hnew hfirst _ hd hr hflights => exact h.created hmax hnew hfirst hd hr hflights
  | deferred x f hf hd hr hflights =>
      exact h.rewritten hf.id hf.attempt (fun row _ _ hlive => hf.status row ▸ hlive) hd hr hflights
  | posted d row q pre post hrow hid hattempt hlive halone hd hq hr hflights hflights' =>
      exact h.posted hrow hid hattempt hlive halone hd hq hr hflights hflights'
  | answered d f pre post hf _ hd hr hflights hflights' =>
      exact h.landed hf.id (fun row _ _ => .inl ⟨hf.attempt row, hf.terminal row⟩) hd hr hflights
        hflights'
  | failed d f pre post hid hattempt hleft _ hd hr hflights hflights' =>
      refine h.landed hid (fun row hrow heq => .inr ?_) hd hr hflights hflights'
      have hmem : d ∈ w.flights := by
        rw [hflights]
        simp
      have hsame := h.attempt_of_flight hmem hrow heq
      rw [hattempt, hsame]
      exact ⟨rfl, hleft⟩
  | unsigned d f hf _ hd hr hflights =>
      refine h.rewritten hf.id hf.attempt (fun row _ _ hlive => ?_) hd hr hflights
      rw [hf.terminal row] at hlive
      exact absurd hlive (by decide)

/-! ## What cannot be taken back -/

/-- Rows stay, attempts only grow, and an end state is kept without another request. -/
def Later (w w' : World) : Prop :=
  ∀ d ∈ w.deliveries, ∃ d' ∈ w'.deliveries, d'.id = d.id ∧ d.attempt ≤ d'.attempt ∧
    (terminal d.status = true → d'.status = d.status ∧ w'.requestsOf d.id = w.requestsOf d.id)

theorem Later.refl (w : World) : Later w w :=
  fun d hd => ⟨d, hd, rfl, Nat.le_refl _, fun _ => ⟨rfl, rfl⟩⟩

theorem Later.trans {w'' : World} (h : Later w w') (h' : Later w' w'') : Later w w'' := by
  intro d hd
  obtain ⟨d', hd', hid, hle, hend⟩ := h d hd
  obtain ⟨d'', hd'', hid', hle', hend'⟩ := h' d' hd'
  refine ⟨d'', hd'', hid'.trans hid, Nat.le_trans hle hle', fun hterminal => ?_⟩
  obtain ⟨hstatus, hsent⟩ := hend hterminal
  obtain ⟨hstatus', hsent'⟩ := hend' (by rw [hstatus, hterminal])
  refine ⟨hstatus'.trans hstatus, ?_⟩
  rw [← hsent, ← hid]
  exact hsent'

theorem later_of_subset (hd : ∀ d ∈ w.deliveries, d ∈ w'.deliveries)
    (hr : ∀ d ∈ w.deliveries, terminal d.status = true →
      w'.requestsOf d.id = w.requestsOf d.id) : Later w w' :=
  fun d hmem => ⟨d, hd d hmem, rfl, Nat.le_refl _, fun hend => ⟨rfl, hr d hmem hend⟩⟩

/-- A rewritten row keeps its end state if it has one. -/
theorem later_mapRow (hid : ∀ d, (f d).id = d.id)
    (hf : ∀ row ∈ w.deliveries, row.id = x → row.attempt ≤ (f row).attempt ∧
      (terminal row.status = true → (f row).status = row.status))
    (hd : w'.deliveries = (w.mapRow x f).deliveries) (hr : w'.requests = w.requests) :
    Later w w' := by
  intro row hrow
  refine ⟨_, hd ▸ mem_mapRow.mpr ⟨row, hrow, rfl⟩, mapRow_id hid row, ?_⟩
  rw [requestsOf_congr hr]
  split
  next heq =>
    obtain ⟨hle, hend⟩ := hf row hrow heq
    exact ⟨hle, fun hterminal => ⟨hend hterminal, rfl⟩⟩
  next => exact ⟨Nat.le_refl _, fun _ => ⟨rfl, rfl⟩⟩

theorem Inv.later (h : Inv maxAttempts w) (he : Effect maxAttempts w w') : Later w w' := by
  have hopen : ∀ row ∈ w.deliveries, w.Open row.id → terminal row.status ≠ true := by
    intro row hrow hopen
    rw [h.open_of_row hrow hopen]
    decide
  cases he with
  | quiet hd hr _ =>
      exact later_of_subset (fun d hmem => hd ▸ hmem) fun d _ _ => requestsOf_congr hr d.id
  | created d _ _ _ hd hr _ =>
      refine later_of_subset (fun row hmem => ?_) fun row _ _ => requestsOf_congr hr row.id
      rw [hd]
      exact List.mem_append_left _ hmem
  | deferred x f hf hd hr _ =>
      exact later_mapRow hf.id
        (fun row _ _ => ⟨Nat.le_of_eq (hf.attempt row).symm, fun _ => hf.status row⟩) hd hr
  | posted d row q pre post hrow hid _ hlive _ hd hq hr _ _ =>
      refine later_of_subset (fun row hmem => hd ▸ hmem) fun row' hrow' hend => ?_
      rw [requestsOf_append hr, hq, if_neg, Nat.add_zero]
      intro heq
      rw [← h.row_eq hrow hrow' (hid.trans heq), hlive] at hend
      exact absurd hend (by decide)
  | answered d f pre post hf hlive hd hr _ _ =>
      refine later_mapRow hf.id (fun row hrow heq => ⟨Nat.le_of_eq (hf.attempt row).symm, ?_⟩)
        hd hr
      exact fun hend => absurd hend (hopen row hrow (heq ▸ hlive))
  | failed d f pre post hid hattempt _ hlive hd hr hflights _ =>
      refine later_mapRow hid (fun row hrow heq => ⟨?_, ?_⟩) hd hr
      · have hmem : d ∈ w.flights := by
          rw [hflights]
          simp
        rw [hattempt, h.attempt_of_flight hmem hrow heq]
        exact Nat.le_succ _
      · exact fun hend => absurd hend (hopen row hrow (heq ▸ hlive))
  | unsigned d f hf hlive hd hr _ =>
      refine later_mapRow hf.id (fun row hrow heq => ⟨Nat.le_of_eq (hf.attempt row).symm, ?_⟩)
        hd hr
      exact fun hend => absurd hend (hopen row hrow (heq ▸ hlive))

end Delivery

end Strimz.Webhooks
