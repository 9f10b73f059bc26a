import Strimz.RelayNonces

/-!
# What a step leaves of the queue

A job keeps its number and what it asks for, and one that is done stays done until it is
removed; only an unfinished job sends; and the chain only grows. Statements about more than one
job, or about those who wait for one, need nothing else of the runner.
-/

namespace Strimz.Relay

section Queue

variable {w w' w'' : World} {l : Label} {key : Key} {job job' job'' : Job} {stage : Stage}
  {node fee tip : Nat}

structure Carries (job job' : Job) : Prop where
  number : job'.number = job.number
  data : job'.data = job.data
  unfinished : job'.state.unfinished = true → job.state.unfinished = true
  failed : job.state = .failed → job'.state = .failed

theorem Carries.refl (job : Job) : Carries job job := ⟨rfl, rfl, id, id⟩

theorem Carries.trans (h : Carries job job') (h' : Carries job' job'') : Carries job job'' where
  number := h'.number.trans h.number
  data := h'.data.trans h.data
  unfinished hunfinished := h.unfinished (h'.unfinished hunfinished)
  failed hfailed := h'.failed (h.failed hfailed)

/-- Every job is carried on from one the queue had, and only an unfinished one has sent. -/
structure Kept (w w' : World) : Prop where
  jobs : ∀ key job', w'.jobs key = some job' → ∃ job, w.jobs key = some job ∧ Carries job job'
  sent : ∀ tx ∈ w'.sent, tx ∈ w.sent ∨ ∃ job, w.jobs tx.key = some job ∧
    job.state.unfinished = true ∧ tx.job = job.number
  confirmed : w.confirmed ≤ w'.confirmed
  mined : ∀ e ∈ w.mined, e ∈ w'.mined
  nextNumber : w'.nextNumber = w.nextNumber

theorem Kept.of_eq (hjobs : w'.jobs = w.jobs) (hsent : w'.sent = w.sent)
    (hconfirmed : w'.confirmed = w.confirmed) (hmined : w'.mined = w.mined)
    (hnext : w'.nextNumber = w.nextNumber) : Kept w w' where
  jobs _ job' hjob' := ⟨job', hjobs ▸ hjob', .refl job'⟩
  sent _ htx := .inl (hsent ▸ htx)
  confirmed := Nat.le_of_eq hconfirmed.symm
  mined _ he := hmined ▸ he
  nextNumber := hnext

theorem Kept.refl (w : World) : Kept w w := .of_eq rfl rfl rfl rfl rfl

theorem Kept.trans (h : Kept w w') (h' : Kept w' w'') : Kept w w'' where
  jobs key job'' hjob'' := by
    obtain ⟨job', hjob', hcarries'⟩ := h'.jobs key job'' hjob''
    obtain ⟨job, hjob, hcarries⟩ := h.jobs key job' hjob'
    exact ⟨job, hjob, hcarries.trans hcarries'⟩
  sent tx htx := by
    rcases h'.sent tx htx with htx | ⟨job', hjob', hunfinished, hnumber⟩
    · exact h.sent tx htx
    · obtain ⟨job, hjob, hcarries⟩ := h.jobs tx.key job' hjob'
      exact .inr ⟨job, hjob, hcarries.unfinished hunfinished, hnumber.trans hcarries.number⟩
  confirmed := Nat.le_trans h.confirmed h'.confirmed
  mined e he := h'.mined e (h.mined e he)
  nextNumber := h'.nextNumber.trans h.nextNumber

/-- One job is written. -/
theorem Kept.setJob (hjob : w.jobs key = some job) (hcarries : Carries job job')
    (hjobs : w'.jobs = Function.update w.jobs key (some job')) (hsent : w'.sent = w.sent)
    (hconfirmed : w'.confirmed = w.confirmed) (hmined : w'.mined = w.mined)
    (hnext : w'.nextNumber = w.nextNumber) : Kept w w' where
  jobs k j hj := by
    rw [hjobs] at hj
    by_cases hk : k = key
    · subst hk
      rw [Function.update_self] at hj
      cases hj
      exact ⟨job, hjob, hcarries⟩
    · rw [Function.update_of_ne hk] at hj
      exact ⟨j, hj, .refl j⟩
  sent _ htx := .inl (hsent ▸ htx)
  confirmed := Nat.le_of_eq hconfirmed.symm
  mined _ he := hmined ▸ he
  nextNumber := hnext

theorem Carries.running (hstate : job.state = .active) (hnumber : job'.number = job.number)
    (hdata : job'.data = job.data) : Carries job job' where
  number := hnumber
  data := hdata
  unfinished _ := by rw [hstate]; rfl
  failed hfailed := by
    rw [hstate] at hfailed
    exact nomatch hfailed

theorem Kept.release (hjob : w.jobs key = some job) (hstate : job.state = .active)
    (hnumber : job'.number = job.number) (hdata : job'.data = job.data) (state : JobState) :
    Kept w (w.release key job' state) := by
  have hcarries : Carries job { job' with state, finishedAt := w.now } :=
    .running hstate hnumber hdata
  exact .setJob hjob hcarries rfl rfl rfl rfl rfl

theorem Kept.fail (hjob : w.jobs key = some job) (hstate : job.state = .active)
    (permanent : Bool) : Kept w (w.fail key job permanent) := by
  have hrelease : ∀ state, Kept w
      (w.release key { job with attemptsMade := job.attemptsMade + 1 } state) :=
    .release hjob hstate rfl rfl
  exact hrelease _

theorem Kept.follow (hjob : w.jobs key = some job) (hstate : job.state = .active) (next : Next) :
    Kept w (w.follow key job next) := by
  cases next with
  | goto stage => exact .of_eq rfl rfl rfl rfl rfl
  | completes => exact .release hjob hstate rfl rfl _
  | throws => exact .fail hjob hstate _
  | permanent => exact .fail hjob hstate _

/-- An `await` leaves the job running. -/
theorem perform_kept (hjob : w.jobs key = some job) (hstate : job.state = .active)
    (hok : StageOk false w key job stage) :
    Kept w (w.perform key job node fee tip stage).1 ∧
      ∃ job', (w.perform key job node fee tip stage).1.jobs key = some job' ∧
        job'.state = .active := by
  have hsame : ∀ next : Next, Kept w (w, next).1 ∧
      ∃ job', (w, next).1.jobs key = some job' ∧ job'.state = .active :=
    fun _ => ⟨.refl w, job, hjob, hstate⟩
  cases stage with
  | merchant =>
      simp only [World.perform]
      split <;> exact hsame _
  | receipt lookup tx =>
      simp only [World.perform]
      split <;> exact hsame _
  | transaction lookup tx =>
      simp only [World.perform]
      split <;> exact hsame _
  | waitForReceipt lookup tx =>
      simp only [World.perform]
      split <;> exact hsame _
  | confirmed recorded =>
      simp only [World.perform]
      split <;> exact hsame _
  | resync => exact hsame _
  | setCounter pending => exact ⟨.of_eq rfl rfl rfl rfl rfl, job, hjob, hstate⟩
  | acquire => exact hsame _
  | incr seed => exact ⟨.of_eq rfl rfl rfl rfl rfl, job, hjob, hstate⟩
  | price nonce previous =>
      simp only [World.perform]
      split <;> exact hsame _
  | sign nonce price => exact hsame _
  | updateData tx =>
      have hcarries : Carries job { job with broadcast := some tx } := .running hstate rfl rfl
      exact ⟨.setJob hjob hcarries rfl rfl rfl rfl rfl, _, Function.update_self .., hstate⟩
  | onRecorded tx =>
      simp only [World.perform]
      split
      · exact ⟨.of_eq rfl rfl rfl rfl rfl, job, hjob, hstate⟩
      · exact hsame _
  | sendRaw tx =>
      obtain ⟨hnumber, hkey, -⟩ := hok
      simp only [World.perform]
      split
      · refine ⟨⟨fun k j hj => ⟨j, hj, .refl j⟩, fun tx' htx' => ?_, Nat.le_refl _,
          fun _ he => he, rfl⟩, job, hjob, hstate⟩
        rcases List.mem_append.mp htx' with htx' | htx'
        · exact .inl htx'
        · rw [List.mem_singleton.mp htx', hkey]
          exact .inr ⟨job, hjob, by rw [hstate]; rfl, hnumber⟩
      · exact hsame _
  | settle =>
      simp only [World.perform]
      split
      · exact ⟨.of_eq rfl rfl rfl rfl rfl, job, hjob, hstate⟩
      · exact hsame _

theorem advance_kept (hjob : w.jobs key = some job) (hstate : job.state = .active)
    (hok : StageOk false w key job stage) (o : Outcome) :
    Kept w (w.advance key job stage o node fee tip) := by
  obtain ⟨hkept, job', hjob', hstate'⟩ := perform_kept hjob hstate hok
  have hreload : (w.perform key job node fee tip stage).1.reload key job = job' := by
    rw [World.reload, hjob']
    rfl
  cases o with
  | done =>
      have hfollow := Kept.follow hjob' hstate' (w.perform key job node fee tip stage).2
      rw [← hreload] at hfollow
      exact hkept.trans hfollow
  | lost =>
      have hfail := Kept.fail hjob' hstate' false
      rw [← hreload] at hfail
      exact hkept.trans hfail
  | failed => exact .fail hjob hstate false

/-- A step other than `queue.add` carries every job on. -/
theorem step_kept (h : Inv false w) (hl : ∀ data, l ≠ .enqueue data) : Kept w (step w l) := by
  cases l with
  | enqueue data => exact absurd rfl (hl data)
  | start key =>
      simp only [step, World.start]
      split
      next job _ hjob =>
        split
        next hwaits =>
          have hcarries : Carries job { job with state := .active } := by
            refine ⟨rfl, rfl, fun _ => ?_, fun hfailed => ?_⟩
            · rcases hwaits with hwaits | hwaits <;> rw [hwaits] <;> rfl
            · rw [hfailed] at hwaits
              simp at hwaits
          exact .setJob hjob hcarries rfl rfl rfl rfl rfl
        · exact .refl w
      · exact .refl w
  | advance o node fee tip =>
      simp only [step]
      split
      next key stage hactive =>
        obtain ⟨job, hjob, hstate, hok⟩ := h.active key stage hactive
        rw [hjob]
        exact advance_kept hjob hstate hok o
      · exact .refl w
  | crash givenUp =>
      simp only [step, World.crash]
      split
      next key stage hactive =>
        obtain ⟨job, hjob, hstate, -⟩ := h.active key stage hactive
        rw [hjob]
        exact .release hjob hstate rfl rfl _
      · exact .refl w
  | age key =>
      simp only [step, World.age]
      split
      next job hjob =>
        split
        · refine ⟨fun k j hj => ?_, fun _ htx => .inl htx, Nat.le_refl _, fun _ he => he, rfl⟩
          by_cases hk : k = key
          · subst hk
            simp only [Function.update_self] at hj
            cases hj
          · exact ⟨j, by simpa only [Function.update_of_ne hk] using hj, .refl j⟩
        · exact .refl w
      · exact .refl w
  | gossip tx node =>
      simp only [step]
      split <;> exact .of_eq rfl rfl rfl rfl rfl
  | drop tx node => exact .of_eq rfl rfl rfl rfl rfl
  | sync node => exact .of_eq rfl rfl rfl rfl rfl
  | mine tx node status =>
      simp only [step, World.mine]
      split
      · exact ⟨fun k j hj => ⟨j, hj, .refl j⟩, fun _ htx => .inl htx, Nat.le_succ _,
          fun e he => List.mem_append_left _ he, rfl⟩
      · exact .refl w
  | editMerchant merchantId linked complete => exact .of_eq rfl rfl rfl rfl rfl
  | elapse seconds => exact .of_eq rfl rfl rfl rfl rfl

theorem perform_now : (w.perform key job node fee tip stage).1.now = w.now := by
  unfold World.perform
  split <;> (try split) <;> rfl

theorem follow_now (next : Next) : (w.follow key job next).now = w.now := by
  cases next <;> rfl

theorem advance_now (o : Outcome) : (w.advance key job stage o node fee tip).now = w.now := by
  cases o with
  | done => exact (follow_now _).trans perform_now
  | lost => exact perform_now
  | failed => rfl

/-- Only the clock's own step moves the clock. -/
theorem step_now (hl : ∀ seconds, l ≠ .elapse seconds) : (step w l).now = w.now := by
  cases l with
  | enqueue data =>
      simp only [step, World.enqueue]
      split <;> rfl
  | start key =>
      simp only [step, World.start]
      split
      · split <;> rfl
      · rfl
  | advance o node fee tip =>
      simp only [step]
      split
      · split
        · exact advance_now o
        · rfl
      · rfl
  | crash givenUp =>
      simp only [step, World.crash]
      split
      · split <;> rfl
      · rfl
  | age key =>
      simp only [step, World.age]
      split
      · split <;> rfl
      · rfl
  | gossip tx node =>
      simp only [step]
      split <;> rfl
  | drop tx node => rfl
  | sync node => rfl
  | mine tx node status =>
      simp only [step, World.mine]
      split <;> rfl
  | editMerchant merchantId linked complete => rfl
  | elapse seconds => exact absurd rfl (hl seconds)

end Queue

end Strimz.Relay
