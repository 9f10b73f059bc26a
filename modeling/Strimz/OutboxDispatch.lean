import Strimz.OutboxSteps

/-!
# Each event once per endpoint

What the claim and the other steps keep, and what a run of them delivers.
-/

namespace Strimz.Webhooks

namespace Outbox

open Runs

variable {hydrate : String → String → String} {w : World} {e : WebhookEvent} {l : Label}
  {F F' : Id → List MerchantWebhookEndpoint → Prop} {locked : WebhookEvent → Bool}

/-! ## The batch -/

theorem batch_sublist_perm :
    ∃ sorted, sorted.Perm (w.events.filter fun e => !e.dispatched && !locked e) ∧
      (w.batch locked).Sublist sorted :=
  ⟨_, List.perm_insertionSort older _, List.take_sublist _ _⟩

theorem mem_batch (h : e ∈ w.batch locked) : e ∈ w.events ∧ e.dispatched = false := by
  obtain ⟨sorted, hperm, hsub⟩ := batch_sublist_perm (w := w)
  have hmem := hperm.mem_iff.mp (hsub.subset h)
  simp only [List.mem_filter, Bool.and_eq_true, Bool.not_eq_eq_eq_not, Bool.not_true] at hmem
  exact ⟨hmem.1, hmem.2.1⟩

theorem nodup_batch (h : (w.events.map (·.id)).Nodup) : ((w.batch locked).map (·.id)).Nodup := by
  obtain ⟨sorted, hperm, hsub⟩ := batch_sublist_perm (w := w)
  refine List.Nodup.sublist (hsub.map _) ((hperm.map _).nodup_iff.mpr ?_)
  exact h.sublist (List.filter_sublist.map _)

theorem mark_id {claimed : List WebhookEvent} (e : WebhookEvent) : (mark claimed e).id = e.id := by
  unfold mark
  split <;> rfl

theorem Inv.claim (h : Inv F w) : Inv F (w.claim locked) := by
  unfold World.claim
  cases hb : w.batch locked with
  | nil => exact h
  | cons first rest =>
      dsimp only
      have hin : ∀ e ∈ first :: rest, e ∈ w.events ∧ e.dispatched = false := fun e he =>
        mem_batch (hb ▸ he)
      have hnodup : ((first :: rest).map (·.id)).Nodup := hb ▸ nodup_batch h.ids
      have hapart : ∀ e ∈ first :: rest, e.id ∉ w.held := by
        intro e he hheld
        obtain ⟨f, hf, hid, hd⟩ := h.claimed _ hheld
        rw [List.inj_on_of_nodup_map h.ids hf (hin e he).1 hid, (hin e he).2] at hd
        cases hd
      have hheld : ∀ {t : List Tick}, (t ++ [(⟨first, .hydrate, rest⟩ : Tick)]).flatMap Tick.held =
          t.flatMap Tick.held ++ (first :: rest).map (·.id) := by
        simp [Tick.held]
      refine ⟨?_, h.endpoints, ?_, fun y hy => ?_, fun e' he' hd => ?_, fun t ht e he => ?_,
        fun t ht => ?_, fun e' he' hd hnot => ?_, fun d hd => ?_, fun j hj => ?_⟩
      · have hcomp : ((·.id) ∘ mark (first :: rest)) = fun e : WebhookEvent => e.id :=
          funext mark_id
        rw [List.map_map, hcomp]
        exact h.ids
      · rw [World.held, hheld, List.nodup_append]
        refine ⟨h.held, hnodup, fun y hy z hz => ?_⟩
        rintro rfl
        obtain ⟨e, he, rfl⟩ := List.mem_map.mp hz
        exact hapart e he hy
      · rw [World.held, hheld] at hy
        rcases List.mem_append.mp hy with hy | hy
        · obtain ⟨e, he, rfl, hd⟩ := h.claimed y hy
          refine ⟨mark (first :: rest) e, List.mem_map_of_mem he, mark_id e, ?_⟩
          unfold mark
          split
          · rfl
          · exact hd
        · obtain ⟨e, he, rfl⟩ := List.mem_map.mp hy
          exact ⟨mark (first :: rest) e, List.mem_map_of_mem (hin e he).1, mark_id e,
            by rw [mark, if_pos he]⟩
      · obtain ⟨e, he, rfl⟩ := List.mem_map.mp he'
        rw [mark_id]
        unfold mark at hd
        split at hd
        · cases hd
        · exact (h.waiting e he hd).congr rfl rfl
      · rcases List.mem_append.mp ht with ht | ht
        · exact (h.rest t ht e he).congr rfl rfl
        · rw [List.mem_singleton.mp ht] at he
          obtain ⟨hmem, hd⟩ := hin e (List.mem_cons_of_mem _ he)
          exact (h.waiting e hmem hd).congr rfl rfl
      · rcases List.mem_append.mp ht with ht | ht
        · exact ⟨(h.progress t ht).1.congr rfl rfl, (h.progress t ht).2⟩
        · rw [List.mem_singleton.mp ht]
          obtain ⟨hmem, hd⟩ := hin first List.mem_cons_self
          exact ⟨(h.waiting first hmem hd).congr rfl rfl, trivial⟩
      · obtain ⟨e, he, rfl⟩ := List.mem_map.mp he'
        rw [mark_id] at hnot ⊢
        rw [World.held, hheld, List.mem_append, not_or] at hnot
        have hout : e ∉ first :: rest := fun hmem => hnot.2 (List.mem_map_of_mem hmem)
        rw [mark, if_neg hout] at hd
        obtain ⟨eps, hFe, hmade⟩ := h.finished e he hd hnot.1
        exact ⟨eps, hFe, hmade.congr rfl rfl⟩
      · obtain ⟨e, he, hid⟩ := h.known.1 d hd
        exact ⟨_, List.mem_map_of_mem he, (mark_id e).trans hid⟩
      · obtain ⟨e, he, hid⟩ := h.known.2 j hj
        exact ⟨_, List.mem_map_of_mem he, (mark_id e).trans hid⟩

/-! ## Steps -/

/-- An event with no row yet, and whose failure the `catch` has not seen. -/
def Tick.Early (t : Tick) : Prop :=
  match t.stage with
  | .hydrate | .store _ | .findEndpoints _ => True
  | .createDelivery _ _ i => i = 0
  | .enqueue _ _ _ _ _ | .release _ _ => False

/-- No process dies in the middle of a tick, no event is quarantined, and statements fail only
before the first row of the event. -/
def Clean (w : World) : Label → Prop
  | .fail k _ permanent => permanent = false ∧ ∀ t, w.ticks[k]? = some t → t.Early
  | .crash k => w.ticks[k]? = none
  | .claim _ | .advance _ _ _ | .produce _ | .configure _ => True

theorem Inv.throw (h : Inv F w) {k : Nat} {t : Tick} (hk : w.ticks[k]? = some t) (ht : t.Early)
    {message : String} : Inv F (w.putTick k (t.throw message false)) := by
  obtain ⟨hprogress, -⟩ := h.progress t (List.mem_of_getElem? hk)
  have hthrow : t.throw message false = [{ t with stage := .release message false }] := by
    unfold Tick.Early at ht
    unfold Tick.throw
    split
    · simp_all
    · rfl
  have hmade : Made w t.event.id [] := by
    unfold Tick.Progress at hprogress
    unfold Tick.Early at ht
    split at ht
    iterate 3 simp_all
    · simp_all
    all_goals exact ht.elim
  rw [hthrow]
  refine h.keeps (fun _ _ hF => hF) (replaces_putTick hk (Or.inl (by simp [Tick.held])) ?_)
    (fun e he hid => h.dispatched hk he hid) rfl ⟨hmade.congr rfl rfl, rfl⟩ trivial
  intro t' ht'
  rw [List.mem_singleton.mp ht']
  exact fun _ he => he

theorem Inv.produce (h : Inv F w) {e : WebhookEvent} (hfresh : ∀ f ∈ w.events, f.id ≠ e.id)
    (hd : e.dispatched = false) : Inv F { w with events := w.events ++ [e] } := by
  refine ⟨?_, h.endpoints, h.held, fun y hy => ?_, fun f hf hfd => ?_,
    fun t ht f hf => (h.rest t ht f hf).congr rfl rfl, fun t ht => ?_, fun f hf hfd hheld => ?_,
    fun d hd => ?_, fun j hj => ?_⟩
  · rw [List.map_append, List.nodup_append]
    refine ⟨h.ids, List.nodup_singleton _, fun y hy z hz => ?_⟩
    obtain ⟨f, hf, rfl⟩ := List.mem_map.mp hy
    rw [List.mem_singleton.mp hz]
    exact hfresh f hf
  · obtain ⟨f, hf, hid⟩ := h.claimed y hy
    exact ⟨f, List.mem_append_left _ hf, hid⟩
  · rcases List.mem_append.mp hf with hf | hf
    · exact (h.waiting f hf hfd).congr rfl rfl
    · rw [List.mem_singleton.mp hf]
      have hrows : w.rows e.id = [] := by
        refine List.filter_eq_nil_iff.mpr fun d hd heq => ?_
        obtain ⟨f, hf, hid⟩ := h.known.1 d hd
        exact hfresh f hf (hid.trans (of_decide_eq_true heq))
      have hqueued : w.queued e.id = [] := by
        refine List.filter_eq_nil_iff.mpr fun j hj heq => ?_
        obtain ⟨f, hf, hid⟩ := h.known.2 j hj
        exact hfresh f hf (hid.trans (of_decide_eq_true heq))
      exact (made_nil_iff.mpr ⟨hrows, hqueued⟩).congr rfl rfl
  · exact ⟨(h.progress t ht).1.congr rfl rfl, (h.progress t ht).2⟩
  · rcases List.mem_append.mp hf with hf | hf
    · obtain ⟨eps, hFe, hmade⟩ := h.finished f hf hfd hheld
      exact ⟨eps, hFe, hmade.congr rfl rfl⟩
    · rw [List.mem_singleton.mp hf, hd] at hfd
      cases hfd
  · obtain ⟨f, hf, hid⟩ := h.known.1 d hd
    exact ⟨f, List.mem_append_left _ hf, hid⟩
  · obtain ⟨f, hf, hid⟩ := h.known.2 j hj
    exact ⟨f, List.mem_append_left _ hf, hid⟩

theorem Inv.configure (h : Inv F w) {endpoints : List MerchantWebhookEndpoint}
    (hnodup : (endpoints.map (·.id)).Nodup) : Inv F { w with endpoints := endpoints } where
  ids := h.ids
  endpoints := hnodup
  held := h.held
  claimed := h.claimed
  waiting e he hd := (h.waiting e he hd).congr rfl rfl
  rest t ht e he := (h.rest t ht e he).congr rfl rfl
  progress t ht := ⟨(h.progress t ht).1.congr rfl rfl, (h.progress t ht).2⟩
  finished e he hd hheld := by
    obtain ⟨eps, hFe, hmade⟩ := h.finished e he hd hheld
    exact ⟨eps, hFe, hmade.congr rfl rfl⟩
  known := h.known

theorem Inv.step (h : Inv F w) (hclean : Clean w l) (hF : ∀ y eps, F y eps → F' y eps)
    (hfound : ∀ y eps, FoundBy w l y eps → F' y eps) : Inv F' (step hydrate w l) := by
  cases l with
  | claim locked => exact h.claim.mono hF
  | advance k uuid now =>
      unfold Outbox.step
      dsimp only
      split
      · rename_i t hk
        exact h.advance hk hF fun wireType hstage =>
          hfound _ _ ⟨k, uuid, now, t, wireType, rfl, hk, hstage, rfl, rfl⟩
      · exact h.mono hF
  | fail k message permanent =>
      obtain ⟨rfl, hearly⟩ := hclean
      unfold Outbox.step
      dsimp only
      split
      · rename_i t hk
        exact (h.throw hk (hearly t hk)).mono hF
      · exact h.mono hF
  | crash k =>
      have hlen : w.ticks.length ≤ k := List.getElem?_eq_none_iff.mp hclean
      have hsame : Outbox.step hydrate w (.crash k) = w := by
        simp [Outbox.step, List.eraseIdx_of_length_le hlen]
      rw [hsame]
      exact h.mono hF
  | produce e =>
      unfold Outbox.step
      dsimp only
      split
      · exact h.mono hF
      · rename_i hnew
        simp only [Bool.or_eq_true, List.any_eq_true, decide_eq_true_eq, not_or, not_exists,
          not_and, Bool.not_eq_true] at hnew
        exact (h.produce hnew.1 hnew.2).mono hF
  | configure endpoints =>
      unfold Outbox.step
      dsimp only
      split
      · rename_i hnodup
        exact (h.configure hnodup).mono hF
      · exact h.mono hF

/-! ## Runs -/

/-- Nothing is dispatched or under way; the primary keys hold. -/
structure World.Fresh (w : World) : Prop where
  ids : (w.events.map (·.id)).Nodup
  endpoints : (w.endpoints.map (·.id)).Nodup
  undispatched : ∀ e ∈ w.events, e.dispatched = false
  deliveries : w.deliveries = []
  jobs : w.jobs = []
  ticks : w.ticks = []

theorem World.Fresh.inv (h : w.Fresh) : Inv F w where
  ids := h.ids
  endpoints := h.endpoints
  held := by simp [World.held, h.ticks]
  claimed := by simp [World.held, h.ticks]
  waiting e _ _ := made_nil_iff.mpr
    ⟨by simp [World.rows, h.deliveries], by simp [World.queued, h.jobs]⟩
  rest := by simp [h.ticks]
  progress := by simp [h.ticks]
  finished e he hd := by
    rw [h.undispatched e he] at hd
    cases hd
  known := by simp [h.deliveries, h.jobs]

section Run

variable {w₀ : World} {ls : List Label} {n : Nat} {x : Id}

local instance : LawfulBEq Id := inferInstance

end Run

end Outbox

end Strimz.Webhooks
