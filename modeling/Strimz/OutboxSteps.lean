import Strimz.Outbox

/-!
# What the dispatcher keeps

Every claimed event is held by one tick until its deliveries are complete, and an event that
is not claimed has none. The invariant carries, for each event, the endpoints that were
found when it was dispatched (`F`): a held event has the rows of a prefix of them, a
finished one the rows of all. It survives every step but three: a process that dies, a
`catch` that fails, and a failure past the first row of an event.
-/

namespace Strimz.Webhooks

namespace Outbox

open Runs

variable {hydrate : String → String → String} {w w' : World} {e f : WebhookEvent} {x : Id}
  {t t' : Tick} {pre post : List Tick} {eps : List MerchantWebhookEndpoint}

/-! ## Rows and jobs of one event -/

def World.rows (w : World) (x : Id) : List WebhookDelivery :=
  w.deliveries.filter fun d => d.eventId = x

def World.queued (w : World) (x : Id) : List WebhookDeliveryJob :=
  w.jobs.filter fun j => j.eventId = x

/-- The event has one row and one job for each of these endpoints, and no others. -/
structure Made (w : World) (x : Id) (eps : List MerchantWebhookEndpoint) : Prop where
  rows : (w.rows x).map (·.endpointId) = eps.map (·.id)
  jobs : (w.queued x).map (·.deliveryId) = (w.rows x).map (·.id)

/-- Nothing was written for any other event. -/
def SameElsewhere (x : Id) (w w' : World) : Prop :=
  ∀ y ≠ x, w'.rows y = w.rows y ∧ w'.queued y = w.queued y

theorem Made.congr (h : Made w x eps) (hrows : w'.rows x = w.rows x)
    (hjobs : w'.queued x = w.queued x) : Made w' x eps :=
  ⟨hrows ▸ h.rows, hrows ▸ hjobs ▸ h.jobs⟩

theorem Made.elsewhere (h : Made w x eps) {y : Id} (hy : x ≠ y) (hw : SameElsewhere y w w') :
    Made w' x eps :=
  h.congr (hw x hy).1 (hw x hy).2

theorem made_nil_iff : Made w x [] ↔ w.rows x = [] ∧ w.queued x = [] := by
  constructor
  · rintro ⟨hrows, hjobs⟩
    have hnil : w.rows x = [] := by simpa using hrows
    rw [hnil] at hjobs
    exact ⟨hnil, by simpa using hjobs⟩
  · rintro ⟨hrows, hjobs⟩
    exact ⟨by rw [hrows]; rfl, by rw [hrows, hjobs]; rfl⟩

/-! ## Who holds what -/

def Tick.held (t : Tick) : List Id := (t.event :: t.rest).map (·.id)

def World.held (w : World) : List Id := w.ticks.flatMap Tick.held

/-- The rows and jobs of the event a tick dispatches, as far as it got. -/
def Tick.Progress (w : World) (t : Tick) : Prop :=
  match t.stage with
  | .hydrate | .store _ | .findEndpoints _ => Made w t.event.id []
  | .release _ permanent => Made w t.event.id [] ∧ permanent = false
  | .createDelivery _ eps i => Made w t.event.id (eps.take i)
  | .enqueue _ eps i d _ =>
      (w.rows t.event.id).map (·.endpointId) = (eps.take (i + 1)).map (·.id) ∧
        ∃ before, w.rows t.event.id = before ++ [d] ∧
          (w.queued t.event.id).map (·.deliveryId) = before.map (·.id)

/-- The endpoints a tick walks through are those found for its event. -/
def Tick.Found (F : Id → List MerchantWebhookEndpoint → Prop) (t : Tick) : Prop :=
  match t.stage with
  | .createDelivery _ eps i => F t.event.id eps ∧ i < eps.length
  | .enqueue _ eps i d _ => F t.event.id eps ∧ i < eps.length ∧ d.eventId = t.event.id
  | _ => True

structure Inv (F : Id → List MerchantWebhookEndpoint → Prop) (w : World) : Prop where
  ids : (w.events.map (·.id)).Nodup
  endpoints : (w.endpoints.map (·.id)).Nodup
  held : w.held.Nodup
  claimed : ∀ y ∈ w.held, ∃ e ∈ w.events, e.id = y ∧ e.dispatched = true
  waiting : ∀ e ∈ w.events, e.dispatched = false → Made w e.id []
  rest : ∀ t ∈ w.ticks, ∀ e ∈ t.rest, Made w e.id []
  progress : ∀ t ∈ w.ticks, t.Progress w ∧ t.Found F
  finished : ∀ e ∈ w.events, e.dispatched = true → e.id ∉ w.held →
    ∃ eps, F e.id eps ∧ Made w e.id eps
  known : (∀ d ∈ w.deliveries, ∃ e ∈ w.events, e.id = d.eventId) ∧
    ∀ j ∈ w.jobs, ∃ e ∈ w.events, e.id = j.eventId

/-! ## Replacing one tick -/

theorem held_append {next : List Tick} (h : w.ticks = pre ++ next ++ post) :
    w.held = pre.flatMap Tick.held ++ next.flatMap Tick.held ++ post.flatMap Tick.held := by
  simp [World.held, h]

theorem held_next : t.next.flatMap Tick.held = t.rest.map (·.id) := by
  unfold Tick.next
  split <;> simp_all [Tick.held]

theorem ticks_split {k : Nat} (hk : w.ticks[k]? = some t) :
    w.ticks = w.ticks.take k ++ [t] ++ w.ticks.drop (k + 1) := by
  obtain ⟨hlt, rfl⟩ := List.getElem?_eq_some_iff.mp hk
  simp

theorem Tick.Progress.congr (h : t.Progress w) (hrows : w'.rows t.event.id = w.rows t.event.id)
    (hjobs : w'.queued t.event.id = w.queued t.event.id) : t.Progress w' := by
  unfold Tick.Progress at h ⊢
  split at h
  iterate 3 exact h.congr hrows hjobs
  · exact ⟨h.1.congr hrows hjobs, h.2⟩
  · exact h.congr hrows hjobs
  · rw [hrows, hjobs]
    exact h

theorem Tick.Found.mono {F F' : Id → List MerchantWebhookEndpoint → Prop} (h : t.Found F)
    (hF : ∀ y eps, F y eps → F' y eps) : t.Found F' := by
  unfold Tick.Found at h ⊢
  split at h
  · exact ⟨hF _ _ h.1, h.2⟩
  · exact ⟨hF _ _ h.1, h.2⟩
  · exact h

/-- What a step of one tick does to the rest of the world. -/
structure Replaces (w w' : World) (pre : List Tick) (t : Tick) (next post : List Tick) : Prop where
  before : w.ticks = pre ++ [t] ++ post
  after : w'.ticks = pre ++ next ++ post
  held : next.flatMap Tick.held = t.held ∨ next.flatMap Tick.held = t.rest.map (·.id)
  rests : ∀ t' ∈ next, ∀ e ∈ t'.rest, e ∈ t.rest
  events : ∃ g : WebhookEvent → WebhookEvent, w'.events = w.events.map g ∧
    (∀ e, (g e).id = e.id) ∧ ∀ e, e.id ≠ t.event.id → g e = e
  endpoints : w'.endpoints = w.endpoints
  elsewhere : SameElsewhere t.event.id w w'
  deliveries : ∀ d ∈ w'.deliveries, d ∈ w.deliveries ∨ d.eventId = t.event.id
  jobs : ∀ j ∈ w'.jobs, j ∈ w.jobs ∨ j.eventId = t.event.id

section Replaces

variable {next : List Tick} {F F' : Id → List MerchantWebhookEndpoint → Prop}

theorem Replaces.mem_held (hr : Replaces w w' pre t next post) {y : Id} (hne : y ≠ t.event.id) :
    y ∈ w'.held ↔ y ∈ w.held := by
  rw [held_append hr.before, held_append hr.after]
  have hmid : y ∈ next.flatMap Tick.held ↔ y ∈ [t].flatMap Tick.held := by
    rcases hr.held with heq | heq <;> rw [heq] <;> simp [Tick.held, hne]
  simp only [List.mem_append, hmid]

/-- No other tick holds the event of this one, and it does not wait in its own batch. -/
theorem Replaces.others (hr : Replaces w w' pre t next post) (hnodup : w.held.Nodup) :
    (∀ t' ∈ pre ++ post, t.event.id ∉ t'.held) ∧ ∀ e ∈ t.rest, e.id ≠ t.event.id := by
  rw [held_append hr.before, List.nodup_append, List.nodup_append] at hnodup
  obtain ⟨⟨-, hmid, hpre⟩, -, hpost⟩ := hnodup
  have hself : t.event.id ∈ [t].flatMap Tick.held := by simp [Tick.held]
  refine ⟨fun t' ht' hmem => ?_, fun e he heq => ?_⟩
  · rcases List.mem_append.mp ht' with ht' | ht'
    · exact hpre _ (List.mem_flatMap_of_mem ht' hmem) _ hself rfl
    · exact hpost _ (List.mem_append_right _ hself) _ (List.mem_flatMap_of_mem ht' hmem) rfl
  · simp only [List.flatMap_cons, List.flatMap_nil, List.append_nil, Tick.held,
      List.map_cons, List.nodup_cons] at hmid
    exact hmid.1 (List.mem_map.mpr ⟨e, he, heq⟩)

theorem Inv.replaces (h : Inv F w) (hr : Replaces w w' pre t next post)
    (hF : ∀ y eps, F y eps → F' y eps)
    (hnext : ∀ t' ∈ next, t'.Progress w' ∧ t'.Found F')
    (hself : ∀ e ∈ w'.events, e.id = t.event.id →
      (e.dispatched = false → Made w' e.id []) ∧
        (e.dispatched = true → e.id ∈ next.flatMap Tick.held ∨
          ∃ eps, F' e.id eps ∧ Made w' e.id eps) ∧
          (e.id ∈ next.flatMap Tick.held → e.dispatched = true)) : Inv F' w' := by
  obtain ⟨hothers, hrest⟩ := hr.others h.held
  obtain ⟨g, hevents, hid, hsame⟩ := hr.events
  have hmem : ∀ e ∈ w.events, g e ∈ w'.events := fun e he => by
    rw [hevents]
    exact List.mem_map_of_mem he
  have hticks' : ∀ t' ∈ w'.ticks, t' ∈ next ∨ t' ∈ pre ++ post := by
    intro t' ht'
    rw [hr.after] at ht'
    simp only [List.mem_append] at ht' ⊢
    tauto
  have hticks : ∀ t' ∈ pre ++ post, t' ∈ w.ticks := by
    intro t' ht'
    rw [hr.before]
    simp only [List.mem_append] at ht' ⊢
    tauto
  have hnotself : ∀ e ∈ w.events, e.id = t.event.id → (g e).id = t.event.id := fun e _ he =>
    (hid e).trans he
  refine ⟨?_, ?_, ?_, ?_, ?_, ?_, ?_, ?_, ?_, ?_⟩
  · rw [hevents, List.map_map]
    have hcomp : ((·.id) ∘ g) = fun e : WebhookEvent => e.id := funext hid
    rw [hcomp]
    exact h.ids
  · rw [hr.endpoints]
    exact h.endpoints
  · have hsub : (next.flatMap Tick.held).Sublist ([t].flatMap Tick.held) := by
      rcases hr.held with heq | heq <;> rw [heq]
      · simp
      · simp [Tick.held]
    have hnodup := h.held
    rw [held_append hr.before] at hnodup
    rw [held_append hr.after]
    exact hnodup.sublist ((hsub.append_left _).append_right _)
  · intro y hy
    by_cases hyx : y = t.event.id
    · subst hyx
      obtain ⟨e, he, heq, -⟩ := h.claimed t.event.id (by
        rw [held_append hr.before]
        simp [Tick.held])
      refine ⟨g e, hmem e he, hnotself e he heq, ?_⟩
      refine (hself (g e) (hmem e he) (hnotself e he heq)).2.2 ?_
      rw [held_append hr.after] at hy
      rw [hnotself e he heq]
      rcases List.mem_append.mp hy with hy | hy
      · rcases List.mem_append.mp hy with hy | hy
        · obtain ⟨t', ht', hheld⟩ := List.mem_flatMap.mp hy
          exact absurd hheld (hothers t' (List.mem_append_left _ ht'))
        · exact hy
      · obtain ⟨t', ht', hheld⟩ := List.mem_flatMap.mp hy
        exact absurd hheld (hothers t' (List.mem_append_right _ ht'))
    · obtain ⟨e, he, rfl, hd⟩ := h.claimed y ((hr.mem_held hyx).mp hy)
      refine ⟨g e, hmem e he, hid e, ?_⟩
      rw [hsame e hyx]
      exact hd
  · intro e' he' hd
    rw [hevents] at he'
    obtain ⟨e, he, rfl⟩ := List.mem_map.mp he'
    by_cases hex : e.id = t.event.id
    · exact (hself (g e) (hmem e he) (hnotself e he hex)).1 hd
    · rw [hsame e hex] at hd ⊢
      exact (h.waiting e he hd).elsewhere hex hr.elsewhere
  · intro t' ht' e he
    rcases hticks' t' ht' with ht' | ht'
    · have hmemt : t ∈ w.ticks := by
        rw [hr.before]
        simp
      exact (h.rest t hmemt e (hr.rests t' ht' e he)).elsewhere
        (hrest e (hr.rests t' ht' e he)) hr.elsewhere
    · refine (h.rest t' (hticks t' ht') e he).elsewhere ?_ hr.elsewhere
      rintro heq
      refine hothers t' ht' ?_
      rw [← heq]
      exact List.mem_map_of_mem (List.mem_cons_of_mem _ he)
  · intro t' ht'
    rcases hticks' t' ht' with ht' | ht'
    · exact hnext t' ht'
    · obtain ⟨hprogress, hfound⟩ := h.progress t' (hticks t' ht')
      have hne : t'.event.id ≠ t.event.id := by
        intro heq
        refine hothers t' ht' ?_
        rw [← heq]
        exact List.mem_map_of_mem List.mem_cons_self
      obtain ⟨hrows, hjobs⟩ := hr.elsewhere _ hne
      exact ⟨hprogress.congr hrows hjobs, hfound.mono hF⟩
  · intro e' he' hd hheld
    rw [hevents] at he'
    obtain ⟨e, he, rfl⟩ := List.mem_map.mp he'
    by_cases hex : e.id = t.event.id
    · refine ((hself (g e) (hmem e he) (hnotself e he hex)).2.1 hd).resolve_left fun hmem => ?_
      refine hheld ?_
      rw [held_append hr.after]
      exact List.mem_append_left _ (List.mem_append_right _ hmem)
    · rw [hsame e hex] at hd hheld ⊢
      obtain ⟨eps, hFe, hmade⟩ := h.finished e he hd fun hh => hheld ((hr.mem_held hex).mpr hh)
      exact ⟨eps, hF _ _ hFe, hmade.elsewhere hex hr.elsewhere⟩
  · intro d hd
    rcases hr.deliveries d hd with hd | hd
    · obtain ⟨e, he, heq⟩ := h.known.1 d hd
      exact ⟨g e, hmem e he, (hid e).trans heq⟩
    · obtain ⟨e, he, heq, -⟩ := h.claimed t.event.id (by
        rw [held_append hr.before]
        simp [Tick.held])
      exact ⟨g e, hmem e he, ((hid e).trans heq).trans hd.symm⟩
  · intro j hj
    rcases hr.jobs j hj with hj | hj
    · obtain ⟨e, he, heq⟩ := h.known.2 j hj
      exact ⟨g e, hmem e he, (hid e).trans heq⟩
    · obtain ⟨e, he, heq, -⟩ := h.claimed t.event.id (by
        rw [held_append hr.before]
        simp [Tick.held])
      exact ⟨g e, hmem e he, ((hid e).trans heq).trans hj.symm⟩

end Replaces

/-! ## One statement of a tick -/

section Advance

variable {F : Id → List MerchantWebhookEndpoint → Prop} {k : Nat} {w₁ : World} {next : List Tick}

theorem Inv.dispatched (h : Inv F w) (hk : w.ticks[k]? = some t) (he : e ∈ w.events)
    (hid : e.id = t.event.id) : e.dispatched = true := by
  have hheld : t.event.id ∈ w.held :=
    List.mem_flatMap_of_mem (List.mem_of_getElem? hk) (List.mem_map_of_mem List.mem_cons_self)
  obtain ⟨f, hf, hfid, hd⟩ := h.claimed _ hheld
  rw [List.inj_on_of_nodup_map h.ids he hf (hid.trans hfid.symm)]
  exact hd

theorem rest_of_next : ∀ t' ∈ t.next, ∀ e ∈ t'.rest, e ∈ t.rest := by
  unfold Tick.next
  split
  · exact fun _ h => absurd h List.not_mem_nil
  · rename_i heq
    intro t' ht' e he
    rw [List.mem_singleton.mp ht'] at he
    rw [heq]
    exact List.mem_cons_of_mem _ he

/-- A statement that only moves the tick on. -/
theorem replaces_putTick (hk : w.ticks[k]? = some t)
    (hheld : next.flatMap Tick.held = t.held ∨ next.flatMap Tick.held = t.rest.map (·.id))
    (hrests : ∀ t' ∈ next, ∀ e ∈ t'.rest, e ∈ t.rest) :
    Replaces w (w.putTick k next) (w.ticks.take k) t next (w.ticks.drop (k + 1)) where
  before := ticks_split hk
  after := rfl
  held := hheld
  rests := hrests
  events := ⟨id, (List.map_id _).symm, fun _ => rfl, fun _ _ => rfl⟩
  endpoints := rfl
  elsewhere _ _ := ⟨rfl, rfl⟩
  deliveries _ hd := Or.inl hd
  jobs _ hj := Or.inl hj

/-- A statement that also updates the event. -/
theorem replaces_mapEvent {g : WebhookEvent → WebhookEvent} (hk : w.ticks[k]? = some t)
    (hheld : next.flatMap Tick.held = t.held ∨ next.flatMap Tick.held = t.rest.map (·.id))
    (hrests : ∀ t' ∈ next, ∀ e ∈ t'.rest, e ∈ t.rest) (hg : ∀ e, (g e).id = e.id) :
    Replaces w ((w.mapEvent t.event.id g).putTick k next) (w.ticks.take k) t next
      (w.ticks.drop (k + 1)) where
  before := ticks_split hk
  after := rfl
  held := hheld
  rests := hrests
  events := by
    refine ⟨fun e => if e.id = t.event.id then g e else e, rfl, fun e => ?_, fun e he => if_neg he⟩
    dsimp only
    split
    · exact hg e
    · rfl
  endpoints := rfl
  elsewhere _ _ := ⟨rfl, rfl⟩
  deliveries _ hd := Or.inl hd
  jobs _ hj := Or.inl hj

/-- A statement that inserts a row of the event. -/
theorem replaces_delivery {d : WebhookDelivery} (hk : w.ticks[k]? = some t)
    (hheld : next.flatMap Tick.held = t.held ∨ next.flatMap Tick.held = t.rest.map (·.id))
    (hrests : ∀ t' ∈ next, ∀ e ∈ t'.rest, e ∈ t.rest) (hd : d.eventId = t.event.id) :
    Replaces w ({ w with deliveries := w.deliveries ++ [d] }.putTick k next) (w.ticks.take k) t
      next (w.ticks.drop (k + 1)) where
  before := ticks_split hk
  after := rfl
  held := hheld
  rests := hrests
  events := ⟨id, (List.map_id _).symm, fun _ => rfl, fun _ _ => rfl⟩
  endpoints := rfl
  elsewhere y hy := by
    refine ⟨?_, rfl⟩
    have hne : d.eventId ≠ y := fun heq => hy (heq.symm.trans hd)
    simp [World.rows, World.putTick, hne]
  deliveries d' hd' := by
    rcases List.mem_append.mp hd' with hd' | hd'
    · exact Or.inl hd'
    · rw [List.mem_singleton.mp hd']
      exact Or.inr hd
  jobs _ hj := Or.inl hj

/-- A statement that adds a job of the event. -/
theorem replaces_job {j : WebhookDeliveryJob} (hk : w.ticks[k]? = some t)
    (hheld : next.flatMap Tick.held = t.held ∨ next.flatMap Tick.held = t.rest.map (·.id))
    (hrests : ∀ t' ∈ next, ∀ e ∈ t'.rest, e ∈ t.rest) (hj : j.eventId = t.event.id) :
    Replaces w ({ w with jobs := w.jobs ++ [j] }.putTick k next) (w.ticks.take k) t next
      (w.ticks.drop (k + 1)) where
  before := ticks_split hk
  after := rfl
  held := hheld
  rests := hrests
  events := ⟨id, (List.map_id _).symm, fun _ => rfl, fun _ _ => rfl⟩
  endpoints := rfl
  elsewhere y hy := by
    refine ⟨rfl, ?_⟩
    have hne : j.eventId ≠ y := fun heq => hy (heq.symm.trans hj)
    simp [World.queued, World.putTick, hne]
  deliveries _ hd := Or.inl hd
  jobs j' hj' := by
    rcases List.mem_append.mp hj' with hj' | hj'
    · exact Or.inl hj'
    · rw [List.mem_singleton.mp hj']
      exact Or.inr hj

variable {F' : Id → List MerchantWebhookEndpoint → Prop}

/-- The tick stays with its event. -/
theorem Inv.keeps (h : Inv F w) (hF : ∀ y eps, F y eps → F' y eps)
    (hr : Replaces w w' (w.ticks.take k) t [t'] (w.ticks.drop (k + 1)))
    (hevents : ∀ e ∈ w'.events, e.id = t.event.id → e.dispatched = true)
    (hevent : t'.event = t.event) (hprogress : t'.Progress w') (hfound : t'.Found F') :
    Inv F' w' := by
  refine h.replaces hr hF (fun t'' ht'' => ?_) fun e he hid => ⟨fun hd => ?_, fun _ => ?_, fun _ => ?_⟩
  · rw [List.mem_singleton.mp ht'']
    exact ⟨hprogress, hfound⟩
  · rw [hevents e he hid] at hd
    cases hd
  · left
    rw [hid, ← hevent]
    simp [Tick.held]
  · exact hevents e he hid

/-- The tick is done with its event. -/
theorem Inv.finishes (h : Inv F w) (hk : w.ticks[k]? = some t) (hF : ∀ y eps, F y eps → F' y eps)
    (hr : Replaces w w' (w.ticks.take k) t t.next (w.ticks.drop (k + 1)))
    (hself : ∀ e ∈ w'.events, e.id = t.event.id → (e.dispatched = false → Made w' e.id []) ∧
      (e.dispatched = true → ∃ eps, F' e.id eps ∧ Made w' e.id eps)) : Inv F' w' := by
  obtain ⟨-, hrest⟩ := hr.others h.held
  refine h.replaces hr hF (fun t' ht' => ?_) fun e he hid =>
    ⟨(hself e he hid).1, fun hd => Or.inr ((hself e he hid).2 hd), fun hmem => ?_⟩
  · unfold Tick.next at ht'
    split at ht'
    · exact absurd ht' List.not_mem_nil
    · rename_i e rest heq
      rw [List.mem_singleton.mp ht']
      have hmem : e ∈ t.rest := by
        rw [heq]
        exact List.mem_cons_self
      refine ⟨?_, trivial⟩
      exact (h.rest t (List.mem_of_getElem? hk) e hmem).elsewhere (hrest e hmem) hr.elsewhere
  · rw [held_next] at hmem
    obtain ⟨f, hf, heq⟩ := List.mem_map.mp hmem
    exact absurd (heq.trans hid) (hrest f hf)

/-- The endpoints that the step finds for the event `y`. -/
def FoundBy (w : World) (l : Label) (y : Id) (eps : List MerchantWebhookEndpoint) : Prop :=
  ∃ k uuid now t wireType, l = .advance k uuid now ∧ w.ticks[k]? = some t ∧
    t.stage = .findEndpoints wireType ∧ y = t.event.id ∧
      eps = w.endpoints.filter (subscribes t.event wireType)

theorem loop_cases (t : Tick) (wireType : String) (eps : List MerchantWebhookEndpoint) (i : Nat) :
    (i < eps.length ∧ t.loop wireType eps i = [{ t with stage := .createDelivery wireType eps i }]) ∨
      (eps.length ≤ i ∧ t.loop wireType eps i = t.next) := by
  unfold Tick.loop
  split
  · exact Or.inl ⟨by assumption, rfl⟩
  · exact Or.inr ⟨by omega, rfl⟩

/-- The loop goes on with the next endpoint, or the event is done. -/
theorem Inv.loops (h : Inv F w) (hk : w.ticks[k]? = some t) (hF : ∀ y eps, F y eps → F' y eps)
    {wireType : String} {i : Nat} (hfound : F' t.event.id eps)
    (hmade : Made w' t.event.id (eps.take i))
    (hr : ∀ next, (next.flatMap Tick.held = t.held ∨
        next.flatMap Tick.held = t.rest.map (·.id)) →
      (∀ t' ∈ next, ∀ e ∈ t'.rest, e ∈ t.rest) →
        Replaces w (w'.putTick k next) (w.ticks.take k) t next (w.ticks.drop (k + 1)))
    (hevents : w'.events = w.events) : Inv F' (w'.putTick k (t.loop wireType eps i)) := by
  have hd : ∀ e ∈ w'.events, e.id = t.event.id → e.dispatched = true := fun e he hid =>
    h.dispatched hk (hevents ▸ he) hid
  rcases loop_cases t wireType eps i with ⟨hlt, heq⟩ | ⟨hge, heq⟩
  · rw [heq]
    refine h.keeps hF (hr _ (Or.inl (by simp [Tick.held])) ?_) hd rfl (hmade.congr rfl rfl)
      ⟨hfound, hlt⟩
    intro t' ht'
    rw [List.mem_singleton.mp ht']
    exact fun _ he => he
  · rw [heq]
    refine h.finishes hk hF (hr _ (Or.inr held_next) rest_of_next) fun e he hid =>
      ⟨fun hfalse => ?_, fun _ => ⟨eps, hid ▸ hfound, ?_⟩⟩
    · rw [hd e he hid] at hfalse
      cases hfalse
    · rw [hid]
      rw [List.take_of_length_le hge] at hmade
      exact hmade.congr rfl rfl

theorem Inv.mono (h : Inv F w) (hF : ∀ y eps, F y eps → F' y eps) : Inv F' w where
  ids := h.ids
  endpoints := h.endpoints
  held := h.held
  claimed := h.claimed
  waiting := h.waiting
  rest := h.rest
  progress t ht := ⟨(h.progress t ht).1, (h.progress t ht).2.mono hF⟩
  finished e he hd hheld := by
    obtain ⟨eps, hFe, hmade⟩ := h.finished e he hd hheld
    exact ⟨eps, hF _ _ hFe, hmade⟩
  known := h.known

theorem mem_mapEvent {g : WebhookEvent → WebhookEvent}
    (hf : f ∈ (w.mapEvent x g).events) (hid : f.id = x) :
    ∃ e ∈ w.events, e.id = x ∧ f = g e := by
  obtain ⟨e, he, rfl⟩ := List.mem_map.mp hf
  split at hid
  · rename_i hex
    exact ⟨e, he, hex, if_pos hex⟩
  · rename_i hex
    exact absurd hid hex

theorem Inv.advance (h : Inv F w) (hk : w.ticks[k]? = some t) (hF : ∀ y eps, F y eps → F' y eps)
    (hfind : ∀ wireType, t.stage = .findEndpoints wireType →
      F' t.event.id (w.endpoints.filter (subscribes t.event wireType))) {uuid : Id} {now : Int} :
    Inv F' (w.advance hydrate k uuid now t) := by
  obtain ⟨hprogress, hfound⟩ := h.progress t (List.mem_of_getElem? hk)
  have hd : ∀ e ∈ w.events, e.id = t.event.id → e.dispatched = true := fun e he hid =>
    h.dispatched hk he hid
  have hheld : ∀ stage, [{ t with stage := stage }].flatMap Tick.held = t.held := by
    simp [Tick.held]
  have hrests : ∀ stage, ∀ t' ∈ [{ t with stage := stage }], ∀ e ∈ t'.rest, e ∈ t.rest := by
    intro stage t' ht'
    rw [List.mem_singleton.mp ht']
    exact fun _ he => he
  unfold World.advance
  unfold Tick.Progress at hprogress
  unfold Tick.Found at hfound
  cases hstage : t.stage with
  | hydrate =>
      rw [hstage] at hprogress
      have hmade : Made w t.event.id [] := hprogress
      exact h.keeps hF (replaces_putTick hk (Or.inl (hheld _)) (hrests _)) hd rfl
        (hmade.congr rfl rfl) trivial
  | store body =>
      rw [hstage] at hprogress
      have hmade : Made w t.event.id [] := hprogress
      refine h.keeps hF (replaces_mapEvent hk (Or.inl (hheld _)) (hrests _) fun _ => rfl) ?_ rfl
        (hmade.congr rfl rfl) trivial
      intro e' he' hid
      obtain ⟨e, he, heid, rfl⟩ := mem_mapEvent
        (g := fun e => { e with payload := .envelope body, dispatchError := none })
        he' hid
      exact hd e he heid
  | findEndpoints wireType =>
      rw [hstage] at hprogress
      exact h.loops hk hF (hfind wireType hstage) hprogress
        (fun next hn hr => replaces_putTick hk hn hr) rfl
  | createDelivery wireType eps i =>
      rw [hstage] at hprogress hfound
      have hmade : Made w t.event.id (eps.take i) := hprogress
      obtain ⟨hFeps, hlt⟩ := hfound
      dsimp only
      rw [List.getElem?_eq_getElem hlt]
      dsimp only
      split
      · exact h.mono hF
      · refine h.keeps hF (replaces_delivery hk (Or.inl (hheld _)) (hrests _) rfl) hd rfl ?_
          ⟨hF _ _ hFeps, hlt, rfl⟩
        refine ⟨?_, w.rows t.event.id, by simp [World.rows, World.putTick, newDelivery],
          hmade.jobs⟩
        rw [List.take_add_one, List.getElem?_eq_getElem hlt, List.map_append]
        have hrows := hmade.rows
        simp only [World.rows] at hrows
        simp [World.rows, World.putTick, newDelivery, hrows]
  | enqueue wireType eps i d ep =>
      rw [hstage] at hprogress hfound
      obtain ⟨hrows, before, hbefore, hjobs⟩ := hprogress
      obtain ⟨hFeps, hlt, hdx⟩ := hfound
      refine h.loops hk hF (hF _ _ hFeps)
        ⟨hrows, ?_⟩ (fun next hn hr => replaces_job hk hn hr hdx) rfl
      have hqueued : ({ w with jobs := w.jobs ++ [deliveryJob d ep] } : World).queued t.event.id =
          w.queued t.event.id ++ [deliveryJob d ep] := by
        simp [World.queued, deliveryJob, hdx]
      have hsame : ({ w with jobs := w.jobs ++ [deliveryJob d ep] } : World).rows t.event.id =
          before ++ [d] := hbefore
      rw [hqueued, hsame, List.map_append, hjobs, List.map_append]
      rfl
  | release message permanent =>
      rw [hstage] at hprogress
      obtain ⟨hmade, rfl⟩ := hprogress
      refine h.finishes hk hF (replaces_mapEvent hk (Or.inr held_next) rest_of_next fun _ => rfl) ?_
      intro e' he' hid
      obtain ⟨e, he, heid, rfl⟩ := mem_mapEvent
        (g := fun e => { e with dispatchError := some message, dispatched := false })
        he' hid
      refine ⟨fun _ => ?_, fun hfalse => ?_⟩
      · rw [hid]
        exact hmade.congr rfl rfl
      · cases hfalse

end Advance

end Outbox

end Strimz.Webhooks
