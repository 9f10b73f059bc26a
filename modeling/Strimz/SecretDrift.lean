import Strimz.InFlight
import Strimz.SigningSecrets

/-!
# Secrets that stay in step

The calls between their two writes, and those whose answer is still to come, wait in order; the
last of them says which secret Redis and the row are due to hold (`due`, `inForce`). Every step
that `Keeps` to that order preserves `Inv`, so that in a run of such steps the three places agree
whenever nothing is under way (`secrets_in_step`).
-/

namespace Strimz.SigningSecrets

open Runs

section Order

variable {γ : Type} (c : Crypto γ)

/-! ## What is due -/

def storing? : Task γ → Option String
  | .storing _ secret _ => some secret
  | _ => none

def returning? : Task γ → Option String
  | .returning secret => some secret
  | _ => none

namespace World

/-- The secrets of the calls between their two writes, in the order of the first. -/
def storing (w : World γ) : List String := w.tasks.filterMap storing?

/-- The secrets of the calls that have still to answer, in the order of their updates. -/
def returning (w : World γ) : List String := w.tasks.filterMap returning?

/-- The secret of the last call to store one. -/
def inForce (w : World γ) : Option String := w.returning.getLast?.or w.returned

/-- The secret that Redis holds, if it holds one. -/
def due (w : World γ) : Option String := w.storing.getLast?.or w.inForce

end World

/-- The row has the secret. -/
def Stored (w : World γ) (secret : String) : Prop :=
  plaintextOf c w.row = some secret ∧
    w.row.map (·.signingSecretHash) = some (c.sha256Hex secret)

/-! ## Steps that keep to it -/

/-- The condition on the statement that the task `t` runs, in the state before it; `rest` is that
state without the task. -/
def TaskKeeps (w rest : World γ) : Task γ → Answer → Prop
  -- a Redis write that takes effect while its caller sees an error has nothing to spoil
  | .caching _ _ _, .lost => w.due = none
  -- while Redis holds the call's secret, no other call is between its two writes
  | .storing created secret _, a => (w.redis = some secret → rest.storing = []) ∧
      match a with
      | .done => created = true → w.row.map (·.signingSecretHash) = some (c.sha256Hex secret)
      | .fails => w.redis = some secret → w.inForce = none
      | .lost => w.inForce = none
  -- while the row has the call's secret, no other call is still to answer
  | .returning secret, .done => plaintextOf c w.row = some secret → rest.returning = []
  | .returning secret, _ =>
      plaintextOf c w.row = some secret → rest.returning = [] ∧ w.returned = none
  -- what is copied back is the secret that is due
  | .recaching plaintext, .done | .recaching plaintext, .lost => w.due.all (· = plaintext)
  | _, _ => True

def Keeps (w : World γ) : Label → Prop
  | .run k a =>
      match w.tasks[k]? with
      | none => True
      | some t => TaskKeeps c w (w.finish k) t a
  | _ => True

/-! ## The invariant -/

/-- A ciphertext that is on its way is the secret's. -/
def TaskOk : Task γ → Prop
  | .caching _ secret ciphertext | .storing _ secret ciphertext =>
      c.decryptAesGcm ciphertext = some secret
  | _ => True

structure Inv (w : World γ) : Prop where
  redis : ∀ secret, w.due = some secret → w.redis = none ∨ w.redis = some secret
  stored : ∀ secret, w.inForce = some secret → Stored c w secret
  tasks : ∀ t ∈ w.tasks, TaskOk c t

end Order

section Preserved

variable {γ : Type} {c : Crypto γ} {w w' : World γ}

theorem Inv.inStep (h : Inv c w) (hidle : w.tasks = []) : InStep c w := by
  intro secret hreturned
  have hforce : w.inForce = some secret := by
    simp [World.inForce, World.returning, hidle, hreturned]
  have hdue : w.due = some secret := by
    simp [World.due, World.storing, hidle, hforce]
  obtain ⟨hplain, hhash⟩ := h.stored secret hforce
  refine ⟨?_, hplain, hhash⟩
  unfold signsWith
  rcases h.redis secret hdue with hnone | hsome
  · rw [hnone]
    exact hplain
  · rw [hsome]

theorem World.Launched.inv (h : w.Launched c) : Inv c w := by
  have hforce : w.inForce = w.returned := by simp [World.inForce, World.returning, h.tasks]
  have hdue : w.due = w.returned := by simp [World.due, World.storing, h.tasks, hforce]
  refine ⟨fun secret hsecret => ?_, fun secret hsecret => ?_, fun t ht => ?_⟩
  · rw [hdue] at hsecret
    obtain ⟨hsigns, -, -⟩ := h.inStep secret hsecret
    unfold signsWith at hsigns
    cases hredis : w.redis with
    | none => exact .inl rfl
    | some s =>
        rw [hredis] at hsigns
        exact .inr hsigns
  · rw [hforce] at hsecret
    exact (h.inStep secret hsecret).2
  · rw [h.tasks] at ht
    cases ht

/-! ### Tasks that neither store nor answer -/

@[simp] theorem storing_spawn (t : Task γ) :
    (w.spawn t).storing = w.storing ++ (storing? t).toList := by
  unfold World.storing World.spawn
  rw [List.filterMap_append]
  cases h : storing? t <;> simp [h]

@[simp] theorem returning_spawn (t : Task γ) :
    (w.spawn t).returning = w.returning ++ (returning? t).toList := by
  unfold World.returning World.spawn
  rw [List.filterMap_append]
  cases h : returning? t <;> simp [h]

/-- One task less, which shows nothing. -/
theorem filterMap_finish_none {k : Nat} {t : Task γ} (hk : w.tasks[k]? = some t)
    {f : Task γ → Option String} (hf : f t = none) :
    (w.tasks.eraseIdx k).filterMap f = w.tasks.filterMap f := by
  obtain ⟨before, after, hall, hrest⟩ := InFlight.filterMap_erase hk f
  rw [hall, hrest, hf]
  rfl

theorem Inv.finish {k : Nat} {t : Task γ} (h : Inv c w) (hk : w.tasks[k]? = some t)
    (hs : storing? t = none) (hr : returning? t = none) :
    Inv c (w.finish k) ∧ (w.finish k).due = w.due ∧ (w.finish k).inForce = w.inForce := by
  have hstoring : (w.finish k).storing = w.storing := filterMap_finish_none hk hs
  have hreturning : (w.finish k).returning = w.returning := filterMap_finish_none hk hr
  have hforce : (w.finish k).inForce = w.inForce := by
    unfold World.inForce
    rw [hreturning]
    rfl
  have hdue : (w.finish k).due = w.due := by
    unfold World.due
    rw [hstoring, hforce]
  refine ⟨⟨?_, ?_, ?_⟩, hdue, hforce⟩
  · rw [hdue]
    exact h.redis
  · rw [hforce]
    exact h.stored
  · exact fun t ht => h.tasks t (List.mem_of_mem_eraseIdx ht)

theorem tasks_spawn {t : Task γ} (h : ∀ t ∈ w.tasks, TaskOk c t) (ht : TaskOk c t) :
    ∀ t' ∈ (w.spawn t).tasks, TaskOk c t' := by
  intro t' ht'
  rcases List.mem_append.mp ht' with ht' | ht'
  · exact h t' ht'
  · rw [List.mem_singleton.mp ht']
    exact ht

theorem inForce_spawn {t : Task γ} (hr : returning? t = none) :
    (w.spawn t).inForce = w.inForce := by
  unfold World.inForce
  rw [returning_spawn, hr, Option.toList_none, List.append_nil]
  rfl

theorem Inv.spawn {t : Task γ} (h : Inv c w) (hs : storing? t = none) (hr : returning? t = none)
    (ht : TaskOk c t) : Inv c (w.spawn t) := by
  have hforce : (w.spawn t).inForce = w.inForce := inForce_spawn hr
  have hdue : (w.spawn t).due = w.due := by
    unfold World.due
    rw [storing_spawn, hs, Option.toList_none, List.append_nil, hforce]
  refine ⟨?_, ?_, tasks_spawn h.tasks ht⟩
  · rw [hdue]
    exact h.redis
  · rw [hforce]
    exact h.stored

theorem Inv.andThen {t : Task γ} {w₁ : World γ} (h : Inv c w) (h₁ : Inv c w₁)
    (hs : storing? t = none) (hr : returning? t = none) (ht : TaskOk c t) (a : Answer) :
    Inv c (andThen w₁ t w a) := by
  cases a with
  | done => exact h₁.spawn hs hr ht
  | fails => exact h
  | lost => exact h₁

theorem cachingTask_ok (created : Bool) (random : Random) :
    TaskOk c (cachingTask c created random) := c.decrypt_encrypt _ _

/-- A row that is not there has stored nothing. -/
theorem Inv.inForce_none (h : Inv c w) (hrow : w.row = none) : w.inForce = none := by
  cases hforce : w.inForce with
  | none => rfl
  | some secret =>
      have hstored := (h.stored secret hforce).1
      rw [hrow] at hstored
      cases hstored

theorem Inv.setRedis (h : Inv c w) {plaintext : String} (hdue : w.due.all (· = plaintext)) :
    Inv c { w with redis := some plaintext } := by
  refine ⟨fun secret hsecret => .inr ?_, h.stored, h.tasks⟩
  have hsecret : w.due = some secret := hsecret
  rw [hsecret] at hdue
  have heq : secret = plaintext := by simpa using hdue
  rw [heq]

/-! ### Tasks that store or answer -/

theorem inForce_setRow (row : Option (EndpointRow γ)) :
    ({ w with row := row } : World γ).inForce = w.inForce := rfl

theorem getLast?_without {before after : List String} {secret : String} :
    (before ++ ([secret] ++ after)).getLast? = after.getLast?.or (some secret) := by
  rw [List.getLast?_append, List.getLast?_append]
  cases after.getLast? <;> rfl

/-- What Redis may hold once a call is past its second write, with `force` in force then. -/
theorem Inv.redis_storing (h : Inv c w) {k : Nat} {created : Bool} {secret : String}
    {ciphertext : γ} (hk : w.tasks[k]? = some (.storing created secret ciphertext))
    (halone : w.redis = some secret → (w.finish k).storing = []) (force : Option String)
    (hforce : w.redis = some secret → ∀ s, force = some s → s = secret) :
    ∀ s, (w.finish k).storing.getLast?.or force = some s → w.redis = none ∨ w.redis = some s := by
  obtain ⟨before, after, hall, hrest⟩ := InFlight.filterMap_erase hk storing?
  have hrest : (w.finish k).storing = before ++ after := hrest
  have hall : w.storing = before ++ ([secret] ++ after) := hall
  have hdue : w.due = (after.getLast?.or (some secret)).or w.inForce := by
    unfold World.due
    rw [hall, getLast?_without]
  intro s hs
  cases hlast : after.getLast? with
  | some b =>
      rw [hrest, List.getLast?_append, hlast] at hs
      rw [hlast] at hdue
      exact h.redis s (hdue.trans hs)
  | none =>
      rw [hlast] at hdue
      rcases h.redis secret hdue with hnone | hsome
      · exact .inl hnone
      · rw [halone hsome] at hs
        rw [hforce hsome s hs]
        exact .inr hsome

theorem Inv.tasks_finish (h : Inv c w) (k : Nat) : ∀ t ∈ (w.finish k).tasks, TaskOk c t :=
  fun t ht => h.tasks t (List.mem_of_mem_eraseIdx ht)

theorem stored_storeSecret {created : Bool} {secret : String} {ciphertext : γ}
    {row : EndpointRow γ} (hplain : c.decryptAesGcm ciphertext = some secret)
    (hhash : created = true → row.signingSecretHash = c.sha256Hex secret) :
    plaintextOf c (some (storeSecret c created secret ciphertext row)) = some secret ∧
      (storeSecret c created secret ciphertext row).signingSecretHash = c.sha256Hex secret := by
  unfold storeSecret
  cases created with
  | true => exact ⟨hplain, hhash rfl⟩
  | false => exact ⟨hplain, rfl⟩

theorem Inv.storing (h : Inv c w) {k : Nat} {created : Bool} {secret : String} {ciphertext : γ}
    {a : Answer} (hk : w.tasks[k]? = some (.storing created secret ciphertext))
    (hkeeps : TaskKeeps c w (w.finish k) (.storing created secret ciphertext) a) :
    Inv c (runTask c (w.finish k) (.storing created secret ciphertext) a) := by
  obtain ⟨halone, hanswer⟩ := hkeeps
  have hreturning : (w.finish k).returning = w.returning := filterMap_finish_none hk rfl
  have hinForce : (w.finish k).inForce = w.inForce := by
    unfold World.inForce
    rw [hreturning]
    rfl
  have hplain : c.decryptAesGcm ciphertext = some secret :=
    h.tasks (.storing created secret ciphertext) (List.mem_of_getElem? hk)
  -- where the call ends there, nothing new is in force
  have hleaves (row : Option (EndpointRow γ)) (hnone : w.redis = some secret → w.inForce = none)
      (hrow : row = w.row ∨ w.inForce = none) : Inv c { w.finish k with row := row } := by
    refine ⟨?_, ?_, h.tasks_finish k⟩
    · intro s hs
      refine h.redis_storing hk halone _ (fun hredis s hs => ?_) s hs
      rw [inForce_setRow, hinForce, hnone hredis] at hs
      cases hs
    · intro s hs
      rw [inForce_setRow, hinForce] at hs
      rcases hrow with rfl | hforce
      · exact h.stored s hs
      · rw [hforce] at hs
        cases hs
  have hfinish : (w.finish k).row = w.row := rfl
  simp only [runTask, hfinish]
  cases hrow : w.row with
  | none =>
      have hforce : w.inForce = none := h.inForce_none hrow
      exact hleaves w.row (fun _ => hforce) (.inl rfl)
  | some row =>
      cases a with
      | fails => exact hleaves w.row hanswer (.inl rfl)
      | lost => exact hleaves _ (fun _ => hanswer) (.inr hanswer)
      | done =>
          have hhash : created = true → row.signingSecretHash = c.sha256Hex secret := by
            intro hcreated
            have hsame := hanswer hcreated
            rw [hrow] at hsame
            exact Option.some.inj hsame
          obtain ⟨hplain', hhash'⟩ := stored_storeSecret hplain hhash
          have hforce : ∀ w₁ : World γ, (w₁.spawn (.returning secret)).inForce = some secret := by
            intro w₁
            unfold World.inForce
            rw [returning_spawn]
            exact congrArg (Option.or · _) List.getLast?_concat
          show Inv c (World.spawn (.returning secret)
            { w.finish k with row := some (storeSecret c created secret ciphertext row) })
          refine ⟨?_, ?_, tasks_spawn (h.tasks_finish k) trivial⟩
          · intro s hs
            refine h.redis_storing hk halone (some secret) (fun _ s hs => ?_) s ?_
            · exact (Option.some.inj hs).symm
            · unfold World.due at hs
              rw [hforce, storing_spawn] at hs
              simp only [storing?, Option.toList_none, List.append_nil] at hs
              exact hs
          · intro s hs
            rw [hforce] at hs
            obtain rfl := Option.some.inj hs
            exact ⟨hplain', congrArg some hhash'⟩

theorem Inv.returning (h : Inv c w) {k : Nat} {secret : String} {a : Answer}
    (hk : w.tasks[k]? = some (.returning secret))
    (hkeeps : TaskKeeps c w (w.finish k) (.returning secret) a) :
    Inv c (runTask c (w.finish k) (.returning secret) a) := by
  obtain ⟨before, after, hall, hrest⟩ := InFlight.filterMap_erase hk returning?
  have hrest : (w.finish k).returning = before ++ after := hrest
  have hall : w.returning = before ++ ([secret] ++ after) := hall
  have hstoring : (w.finish k).storing = w.storing := filterMap_finish_none hk rfl
  have hforce : w.inForce = (after.getLast?.or (some secret)).or w.returned := by
    unfold World.inForce
    rw [hall, getLast?_without]
  -- the state afterwards, by what is in force then
  have hinv (returned : Option String)
      (hsame : ({ w.finish k with returned := returned } : World γ).inForce = w.inForce ∨
        ({ w.finish k with returned := returned } : World γ).inForce = none) :
      Inv c { w.finish k with returned := returned } := by
    refine ⟨?_, ?_, h.tasks_finish k⟩
    · intro s hs
      refine h.redis s ?_
      unfold World.due at hs ⊢
      rw [show ({ w.finish k with returned := returned } : World γ).storing = w.storing from
        hstoring] at hs
      rcases hsame with hsame | hnone
      · rwa [hsame] at hs
      · rw [hnone, Option.or_none] at hs
        rw [hs]
        rfl
    · intro s hs
      rcases hsame with hsame | hnone
      · rw [hsame] at hs
        exact h.stored s hs
      · rw [hnone] at hs
        cases hs
  cases hlast : after.getLast? with
  | some b =>
      rw [hlast] at hforce
      have hsame {returned : Option String} :
          ({ w.finish k with returned := returned } : World γ).inForce = w.inForce := by
        rw [hforce]
        show ((w.finish k).returning.getLast?.or returned) = _
        rw [hrest, List.getLast?_append, hlast]
        rfl
      cases a with
      | done => exact hinv _ (.inl hsame)
      | fails => exact hinv w.returned (.inl hsame)
      | lost => exact hinv w.returned (.inl hsame)
  | none =>
      rw [hlast] at hforce
      have hplain : plaintextOf c w.row = some secret := (h.stored secret hforce).1
      have halone {returned : Option String} (hnil : (w.finish k).returning = []) :
          ({ w.finish k with returned := returned } : World γ).inForce = returned := by
        show ((w.finish k).returning.getLast?.or returned) = _
        rw [hnil]
        rfl
      cases a with
      | done => exact hinv _ (.inl ((halone (hkeeps hplain)).trans hforce.symm))
      | fails =>
          obtain ⟨hnil, hreturned⟩ := hkeeps hplain
          exact hinv w.returned (.inr ((halone hnil).trans hreturned))
      | lost =>
          obtain ⟨hnil, hreturned⟩ := hkeeps hplain
          exact hinv w.returned (.inr ((halone hnil).trans hreturned))

/-- A statement that keeps to the order preserves the invariant. -/
theorem Inv.run (h : Inv c w) {k : Nat} {t : Task γ} {a : Answer} (hk : w.tasks[k]? = some t)
    (hkeeps : TaskKeeps c w (w.finish k) t a) : Inv c (runTask c (w.finish k) t a) := by
  cases t with
  | storing => exact h.storing hk hkeeps
  | returning => exact h.returning hk hkeeps
  | inserting merchantId random =>
      obtain ⟨hfinish, -, -⟩ := h.finish hk rfl rfl
      rw [runTask]
      split
      · exact hfinish
      · rename_i hrow
        have hforce := hfinish.inForce_none hrow
        have hinserted : Inv c
            { w.finish k with row := some (newRow c merchantId (secretOf random)) } := by
          refine ⟨hfinish.redis, fun s hs => ?_, hfinish.tasks⟩
          rw [inForce_setRow, hforce] at hs
          cases hs
        exact hfinish.andThen hinserted rfl rfl (cachingTask_ok true random) a
  | finding merchantId random =>
      obtain ⟨hfinish, -, -⟩ := h.finish hk rfl rfl
      rw [runTask]
      split
      · exact hfinish
      · split
        · exact hfinish.andThen hfinish rfl rfl (cachingTask_ok false random) a
        · exact hfinish
  | caching created secret ciphertext =>
      obtain ⟨hfinish, hdue, -⟩ := h.finish hk rfl rfl
      cases a with
      | fails => exact hfinish
      | lost =>
          refine hfinish.setRedis ?_
          rw [hdue, show w.due = none from hkeeps]
          rfl
      | done =>
          -- the last call to write Redis is the one whose secret is due
          have hlast : ((World.spawn (.storing created secret ciphertext)
              { w.finish k with redis := some secret }).due) = some secret := by
            unfold World.due
            rw [storing_spawn]
            exact congrArg (Option.or · _) List.getLast?_concat
          have hok : TaskOk c (.storing created secret ciphertext) :=
            h.tasks (.caching created secret ciphertext) (List.mem_of_getElem? hk)
          refine ⟨fun s hs => .inr ?_, fun s hs => ?_, tasks_spawn (h.tasks_finish k) hok⟩
          · exact hlast.symm.trans hs
          · refine hfinish.stored s (Eq.trans ?_ hs)
            exact (inForce_spawn (t := .storing created secret ciphertext) rfl).symm
  | recaching plaintext =>
      obtain ⟨hfinish, hdue, -⟩ := h.finish hk rfl rfl
      cases a with
      | fails => exact hfinish
      | done | lost =>
          refine hfinish.setRedis ?_
          rw [hdue]
          exact hkeeps
  | getting =>
      obtain ⟨hfinish, -, -⟩ := h.finish hk rfl rfl
      rw [runTask]
      split
      · exact hfinish
      · exact hfinish.andThen hfinish rfl rfl (show TaskOk c .rehydrating from trivial) a
  | rehydrating =>
      obtain ⟨hfinish, -, -⟩ := h.finish hk rfl rfl
      rw [runTask]
      split
      · exact hfinish
      · rename_i plaintext hplain
        exact hfinish.andThen hfinish rfl rfl (show TaskOk c (.recaching plaintext) from trivial) a
  | warming =>
      obtain ⟨hfinish, -, -⟩ := h.finish hk rfl rfl
      rw [runTask]
      split
      · exact hfinish
      · split
        · split
          · exact hfinish
          · rename_i plaintext hplain
            exact hfinish.andThen hfinish rfl rfl
              (show TaskOk c (.recaching plaintext) from trivial) a
        · exact hfinish

theorem Inv.step (h : Inv c w) {l : Label} (hkeeps : Keeps c w l) : Inv c (step c w l) := by
  cases l with
  | createEndpoint | rotateSecret | get | onModuleInit => exact h.spawn rfl rfl trivial
  | flush => exact ⟨fun _ _ => .inl rfl, h.stored, h.tasks⟩
  | setEndpointStatus active =>
      refine ⟨h.redis, fun s hs => ?_, h.tasks⟩
      obtain ⟨hplain, hhash⟩ := h.stored s hs
      unfold Stored SigningSecrets.step
      cases hrow : w.row with
      | none => rw [hrow] at hhash; cases hhash
      | some row =>
          rw [hrow] at hplain hhash
          exact ⟨hplain, hhash⟩
  | run k a =>
      rw [SigningSecrets.step]
      split
      · exact h
      · rename_i t hk
        simp only [Keeps, hk] at hkeeps
        exact h.run hk hkeeps

end Preserved

/-! ## Runs -/

/-- Where every step keeps to the order, the three places agree whenever nothing is under way. -/
theorem secrets_in_step {γ : Type} (c : Crypto γ) (w₀ : World γ) (h₀ : w₀.Launched c)
    (ls : List Label)
    (hkeeps : ∀ n l, ls[n]? = some l → Keeps c (stateAt (step c) w₀ ls n) l) (n : Nat)
    (hidle : (stateAt (step c) w₀ ls n).tasks = []) : InStep c (stateAt (step c) w₀ ls n) := by
  have hinv : Inv c (stateAt (step c) w₀ ls n) :=
    stateAt_induct (m := 0) (P := Inv c) h₀.inv (fun n l _ hl ih => ih.step (hkeeps n l hl))
      (Nat.zero_le n)
  exact hinv.inStep hidle

/-! ## Samples -/

section Samples

instance {γ : Type} (c : Crypto γ) (w rest : World γ) (t : Task γ) (a : Answer) :
    Decidable (TaskKeeps c w rest t a) := by
  cases t <;> cases a <;> unfold TaskKeeps <;> dsimp only <;> infer_instance

instance {γ : Type} (c : Crypto γ) (w : World γ) (l : Label) : Decidable (Keeps c w l) := by
  unfold Keeps
  split
  · split <;> infer_instance
  · exact isTrue trivial

/-- Hashes and blobs that show what they are of. -/
def crypto : Crypto (Nat × String) where
  sha256Hex := fun plaintext => plaintext
  encryptAesGcm := fun nonce plaintext => (nonce, plaintext)
  decryptAesGcm := fun blob => some blob.2
  decrypt_encrypt := fun _ _ => rfl

def empty : World (Nat × String) := ⟨none, none, [], none⟩

/-- An endpoint, a flush and a lookup, and a rotation while another lookup finds Redis filled. -/
def orderly : List Label :=
  [.createEndpoint "m" ⟨"a", 0⟩, .run 0 .done, .run 0 .done, .run 0 .done, .run 0 .done,
   .flush, .get, .run 0 .done, .run 0 .done, .run 0 .done,
   .rotateSecret "m" ⟨"b", 1⟩, .get, .run 0 .done, .run 1 .done, .run 0 .done, .run 0 .done,
   .run 0 .done]

theorem secrets_in_step_orderly :
    InStep crypto (stateAt (step crypto) empty orderly orderly.length) := by
  have hall : ∀ n, (h : n < orderly.length) →
      Keeps crypto (stateAt (step crypto) empty orderly n) orderly[n] := by decide +kernel
  refine secrets_in_step crypto empty ⟨rfl, fun s hs => nomatch hs⟩ orderly (fun n l hl => ?_)
    orderly.length (by decide +kernel)
  obtain ⟨hn, rfl⟩ := List.getElem?_eq_some_iff.mp hl
  exact hall n hn

/-- A rotation whose update fails. -/
def failedRotation : List Label :=
  [.createEndpoint "m" ⟨"a", 0⟩, .run 0 .done, .run 0 .done, .run 0 .done, .run 0 .done,
   .rotateSecret "m" ⟨"b", 1⟩, .run 0 .done, .run 0 .done, .run 0 .fails]

theorem failed_rotation_in_use :
    (stateAt (step crypto) empty failedRotation failedRotation.length).tasks = [] ∧
      (stateAt (step crypto) empty failedRotation failedRotation.length).returned =
        some "whsec_a" ∧
      signsWith crypto (stateAt (step crypto) empty failedRotation failedRotation.length) =
        some "whsec_b" ∧
      ¬ InStep crypto (stateAt (step crypto) empty failedRotation failedRotation.length) := by
  refine ⟨by decide +kernel, by decide +kernel, by decide +kernel, fun h => ?_⟩
  have hsigns := (h "whsec_a" (by decide +kernel)).1
  exact absurd hsigns (by decide +kernel)

end Samples

end Strimz.SigningSecrets
