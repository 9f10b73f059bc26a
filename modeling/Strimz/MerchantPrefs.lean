import Strimz.Objects
import Strimz.Runs

/-!
# Email preferences in the metadata bag

A merchant's opt-outs live at `Merchant.metadata.emailPrefs`. `MerchantsService.update` writes the
column in two ways: an update that names preferences reads the bag, merges and writes the whole of
it back in a second statement, and one that only has metadata writes what it was sent. Calls of one
merchant run side by side, and any of them can fail at any statement.
-/

namespace Strimz.Preferences

open Script Binary64 Objects Runs

/-! ## The request -/

/-- A metadata value a client may send. -/
inductive Entry where
  | string (s : Str)
  | number (n : Number)
  | boolean (b : Bool)
  | null

def Entry.value : Entry → Value
  | .string s => .string s
  | .number n => .number n
  | .boolean b => .boolean b
  | .null => .null

def Entry.accepted : Entry → Bool
  | .string s => s.length ≤ 500
  | .number _ | .boolean _ | .null => true

/-- `metadataSchema` -/
structure Metadata where
  entries : List (Str × Entry)
  names : (entries.map Prod.fst).Nodup
  accepted : ∀ e ∈ entries, 1 ≤ e.1.length ∧ e.1.length ≤ 40 ∧ e.2.accepted = true
  few : entries.length ≤ 50

def Metadata.fields (m : Metadata) : Fields := m.entries.map fun e => (e.1, e.2.value)

inductive PrefKey where
  | paymentReceived
  | subscriptionCharged
deriving DecidableEq, Repr

def PrefKey.name : PrefKey → Str
  | .paymentReceived => text "paymentReceived"
  | .subscriptionCharged => text "subscriptionCharged"

/-- `merchantEmailPrefsSchema.partial()` -/
structure EmailPrefs where
  paymentReceived : Option Bool
  subscriptionCharged : Option Bool
deriving DecidableEq, Repr

def EmailPrefs.get (prefs : EmailPrefs) : PrefKey → Option Bool
  | .paymentReceived => prefs.paymentReceived
  | .subscriptionCharged => prefs.subscriptionCharged

def EmailPrefs.field (prefs : EmailPrefs) (key : PrefKey) : Fields :=
  ((prefs.get key).map fun b => (key.name, Value.boolean b)).toList

def EmailPrefs.fields (prefs : EmailPrefs) : Fields :=
  prefs.field .paymentReceived ++ prefs.field .subscriptionCharged

/-- `UpdateMerchantParsed`: a field is `none` where the request does not have it. -/
structure UpdateMerchantInput where
  businessName : Option Str
  payoutAddress : Option Str
  defaultCurrency : Option Str
  websiteUrl : Option (Option Str)
  logoUrl : Option (Option Str)
  countryCode : Option (Option Str)
  metadata : Option Metadata
  emailPrefs : Option EmailPrefs

/-- The preference the update asks for, if it mentions it. -/
def UpdateMerchantInput.mentions (input : UpdateMerchantInput) (key : PrefKey) : Option Bool :=
  input.emailPrefs.bind fun prefs => prefs.get key

/-! ## The row -/

structure Merchant where
  businessName : Str
  payoutAddress : Option Str
  defaultCurrency : Str
  websiteUrl : Option Str
  logoUrl : Option Str
  countryCode : Option Str
  metadata : Value

def EMAIL_PREFS : Str := text "emailPrefs"

/-- `prefEnabled`: on, unless the bag says otherwise. -/
def prefEnabled (metadata : Value) (key : PrefKey) : Bool :=
  let bag : Option Value := match metadata with
    | .array _ | .object _ => some metadata
    | .null | .boolean _ | .number _ | .string _ => none
  let prefs := bag.bind fun bag => bag.get EMAIL_PREFS
  match prefs.bind fun prefs => prefs.get key.name with
  | some (.boolean b) => b
  | _ => true

/-- The bag a merge of preferences writes, from the one it has read. -/
def mergedMetadata (existing : Value) (metadata : Option Metadata) (prefs : EmailPrefs) : Value :=
  let currentBag := orEmpty (some existing)
  let currentPrefs := orEmpty (currentBag.get EMAIL_PREFS)
  .object (spread (spread currentBag.own (metadata.elim [] Metadata.fields))
    [(EMAIL_PREFS, .object (spread currentPrefs.own prefs.fields))])

/-- The `update` statement: columns without a value stay. -/
def Merchant.update (m : Merchant) (input : UpdateMerchantInput) (metadata : Option Value) :
    Merchant where
  businessName := input.businessName.getD m.businessName
  payoutAddress := input.payoutAddress.or m.payoutAddress
  defaultCurrency := input.defaultCurrency.getD m.defaultCurrency
  websiteUrl := input.websiteUrl.getD m.websiteUrl
  logoUrl := input.logoUrl.getD m.logoUrl
  countryCode := input.countryCode.getD m.countryCode
  metadata := metadata.getD m.metadata

/-! ## Calls side by side -/

/-- A call under way, with the bag it has read. -/
structure Call where
  input : UpdateMerchantInput
  existing : Option Value

inductive Statement where
  /-- `findUniqueOrThrow` -/
  | read
  /-- `merchant.update` with this `metadata` -/
  | write (metadata : Option Value)

/-- What the call does next. -/
def Call.next (c : Call) : Statement :=
  match c.input.emailPrefs, c.existing with
  | some _, none => .read
  | some prefs, some existing => .write (some (mergedMetadata existing c.input.metadata prefs))
  | none, _ => .write (c.input.metadata.map fun m => .object m.fields)

/-- A merchant's row, the calls on it, and the updates committed so far in commit order. -/
structure World where
  merchant : Merchant
  calls : List Call
  committed : List UpdateMerchantInput

inductive Label where
  | update (input : UpdateMerchantInput)
  /-- the `k`-th call's next statement -/
  | next (k : Nat)
  /-- the `k`-th call ends without it -/
  | fail (k : Nat)

def World.run (w : World) (k : Nat) (c : Call) : World :=
  match c.next with
  | .read => { w with calls := w.calls.set k { c with existing := some w.merchant.metadata } }
  | .write metadata => {
      merchant := w.merchant.update c.input metadata
      calls := w.calls.eraseIdx k
      committed := w.committed ++ [c.input] }

def step (w : World) : Label → World
  | .update input => { w with calls := w.calls ++ [⟨input, none⟩] }
  | .next k => (w.calls[k]?).elim w (w.run k)
  | .fail k => { w with calls := w.calls.eraseIdx k }

/-- No call under way. -/
def World.initial (merchant : Merchant) : World := ⟨merchant, [], []⟩

/-- The world before the `n`-th label. -/
def at_ (merchant : Merchant) (ls : List Label) (n : Nat) : World :=
  stateAt step (World.initial merchant) ls n

/-! ## The law -/

/-- What the last update that mentions the preference asked for, or else what it was before. -/
def lastMention (key : PrefKey) (before : Bool) (updates : List UpdateMerchantInput) : Bool :=
  updates.foldl (fun value input => (input.mentions key).getD value) before

/-- Every preference is what the last committed update that mentions it asked for. -/
def World.PrefsKept (before : Merchant) (w : World) : Prop :=
  ∀ key, prefEnabled w.merchant.metadata key =
    lastMention key (prefEnabled before.metadata key) w.committed

/-- What a preference is taken to be by a write that does not mention it: what the merge has read,
or on where the bag is replaced. -/
def Call.assumes (c : Call) (key : PrefKey) : Option Bool :=
  match c.input.emailPrefs with
  | some _ => c.existing.map fun existing => prefEnabled existing key
  | none => c.input.metadata.map fun _ => true

/-- A write meets the preferences it does not mention as it takes them to be. -/
def World.Careful (w : World) : Label → Prop
  | .next k => ∀ c, w.calls[k]? = some c → ∀ key, c.input.mentions key = none →
      ∀ value, c.assumes key = some value → prefEnabled w.merchant.metadata key = value
  | .update _ | .fail _ => True

/-! ## One write -/

section Write

variable {key : PrefKey}

/-- Neither the bag's key nor a preference's is an index. -/
theorem exists_letter (key : PrefKey) :
    (∃ c ∈ EMAIL_PREFS, isDigit c = false) ∧ ∃ c ∈ key.name, isDigit c = false := by
  refine ⟨⟨101, by decide, rfl⟩, ?_⟩
  cases key with
  | paymentReceived => exact ⟨112, by decide, rfl⟩
  | subscriptionCharged => exact ⟨115, by decide, rfl⟩

/-- The check that the bag is an object makes no difference. -/
theorem prefEnabled_eq (metadata : Value) (key : PrefKey) :
    prefEnabled metadata key =
      match (metadata.get EMAIL_PREFS).bind fun prefs => prefs.get key.name with
      | some (.boolean b) => b
      | _ => true := by
  obtain ⟨c, hc, hdigit⟩ := (exists_letter key).1
  cases metadata with
  | object fields => rfl
  | array items => rfl
  | null | boolean b | number n => rfl
  | string s =>
      rw [get_of_not_index hc hdigit fun fields h => by cases h]
      rfl

theorem lookup_prefs (prefs : EmailPrefs) (key : PrefKey) :
    prefs.fields.lookup key.name = (prefs.get key).map .boolean := by
  have hne : (PrefKey.subscriptionCharged.name == PrefKey.paymentReceived.name) = false := by decide
  obtain ⟨paymentReceived, subscriptionCharged⟩ := prefs
  cases key with
  | paymentReceived =>
      cases paymentReceived <;> cases subscriptionCharged <;> rfl
  | subscriptionCharged =>
      cases paymentReceived <;> cases subscriptionCharged <;> rfl

/-- A merge sets what the update mentions and leaves the rest as it was read. -/
theorem prefEnabled_merged (existing : Value) (metadata : Option Metadata) (prefs : EmailPrefs)
    (key : PrefKey) : prefEnabled (mergedMetadata existing metadata prefs) key =
      (prefs.get key).getD (prefEnabled existing key) := by
  have hbag : (mergedMetadata existing metadata prefs).get EMAIL_PREFS =
      some (.object (spread (orEmpty ((orEmpty (some existing)).get EMAIL_PREFS)).own
        prefs.fields)) := by
    rw [mergedMetadata, Value.get, Value.own, lookup_spread, List.lookup_cons_self]
    rfl
  have hcurrent : (orEmpty (some existing)).get EMAIL_PREFS = existing.get EMAIL_PREFS := by
    rw [Value.get, own_orEmpty]
    rfl
  rw [prefEnabled_eq, prefEnabled_eq, hbag, Option.bind_some, Value.get, Value.own, lookup_spread,
    lookup_prefs, hcurrent, own_orEmpty]
  cases hkey : prefs.get key with
  | some b => rfl
  | none => cases hprefs : existing.get EMAIL_PREFS <;> rfl

/-- A bag a client sends has no preferences in it. -/
theorem prefEnabled_sent (m : Metadata) (key : PrefKey) :
    prefEnabled (.object m.fields) key = true := by
  obtain ⟨c, hc, hdigit⟩ := (exists_letter key).2
  rw [prefEnabled_eq, Value.get, Value.own]
  cases hlookup : m.fields.lookup EMAIL_PREFS with
  | none => rfl
  | some value =>
      obtain ⟨e, he, heq⟩ : ∃ e ∈ m.entries, e.2.value = value := by
        have hmem := List.lookup_eq_some_iff.mp hlookup
        obtain ⟨before, after, hfields, -⟩ := hmem
        have : (EMAIL_PREFS, value) ∈ m.fields := by rw [hfields]; simp
        obtain ⟨e, he, hpair⟩ := List.mem_map.mp this
        exact ⟨e, he, congrArg Prod.snd hpair⟩
      have hnone : value.get key.name = none := by
        refine get_of_not_index hc hdigit fun fields h => ?_
        rw [← heq] at h
        cases hentry : e.2 <;> rw [hentry, Entry.value] at h <;> cases h
      rw [Option.bind_some, hnone]

/-- What a write makes of a preference: what the update mentions, or what it takes it to be, or
what it was. -/
theorem prefEnabled_write {c : Call} {metadata : Option Value} (h : c.next = .write metadata)
    (m : Merchant) (key : PrefKey) : prefEnabled (m.update c.input metadata).metadata key =
      (c.input.mentions key).getD ((c.assumes key).getD (prefEnabled m.metadata key)) := by
  obtain ⟨input, existing⟩ := c
  cases hprefs : input.emailPrefs with
  | none =>
      simp only [Call.next, hprefs, Statement.write.injEq] at h
      subst h
      simp only [Merchant.update, UpdateMerchantInput.mentions, Call.assumes, hprefs]
      cases hmeta : input.metadata with
      | none => rfl
      | some bag => exact prefEnabled_sent bag key
  | some prefs =>
      cases existing with
      | none => simp [Call.next, hprefs] at h
      | some existing =>
          simp only [Call.next, hprefs, Statement.write.injEq] at h
          subst h
          simp only [Merchant.update, UpdateMerchantInput.mentions, Call.assumes, hprefs]
          exact prefEnabled_merged existing input.metadata prefs key

end Write

/-! ## Runs -/

section Runs

variable {before : Merchant} {w : World} {l : Label}

/-- A step keeps the law exactly if it is careful. -/
theorem prefsKept_step (h : w.PrefsKept before) :
    (step w l).PrefsKept before ↔ w.Careful l := by
  cases l with
  | update input => exact ⟨fun _ => trivial, fun _ => h⟩
  | fail k => exact ⟨fun _ => trivial, fun _ => h⟩
  | next k =>
      cases hc : w.calls[k]? with
      | none => simpa [step, World.Careful, hc] using h
      | some c =>
          have hstep : step w (.next k) = w.run k c := by simp [step, hc]
          have hcareful : w.Careful (.next k) ↔ ∀ key, c.input.mentions key = none →
              ∀ value, c.assumes key = some value → prefEnabled w.merchant.metadata key = value := by
            simp [World.Careful, hc]
          rw [hstep, hcareful]
          cases hnext : c.next with
          | read =>
              have hassumes : ∀ key, c.assumes key = none := by
                intro key
                unfold Call.next at hnext
                split at hnext
                · rename_i hprefs hexisting
                  simp [Call.assumes, hprefs, hexisting]
                · cases hnext
                · cases hnext
              have hrun : (w.run k c).PrefsKept before := by
                simpa [World.run, hnext, World.PrefsKept] using h
              refine ⟨fun _ key _ value hvalue => ?_, fun _ => hrun⟩
              rw [hassumes] at hvalue
              cases hvalue
          | write metadata =>
              have hpref : ∀ key, prefEnabled (w.run k c).merchant.metadata key =
                  (c.input.mentions key).getD
                    ((c.assumes key).getD (prefEnabled w.merchant.metadata key)) := fun key => by
                simp only [World.run, hnext]
                exact prefEnabled_write hnext w.merchant key
              have hlast : ∀ key, lastMention key (prefEnabled before.metadata key)
                  (w.run k c).committed =
                    (c.input.mentions key).getD (prefEnabled w.merchant.metadata key) := fun key => by
                simp only [World.run, hnext, lastMention, List.foldl_append, List.foldl_cons,
                  List.foldl_nil]
                rw [h key, lastMention]
              refine forall_congr' fun key => ?_
              rw [hpref, hlast]
              cases hmention : c.input.mentions key with
              | some b => simp
              | none =>
                  cases hassumes : c.assumes key with
                  | none => simp
                  | some value => simp [eq_comm]

/-- Preferences stick in a run, from one commit to the next, exactly if all its writes are
careful. -/
theorem prefs_stick_iff (before : Merchant) (ls : List Label) :
    (∀ n, (at_ before ls n).PrefsKept before) ↔
      ∀ n l, ls[n]? = some l → (at_ before ls n).Careful l := by
  constructor
  · intro h n l hl
    rw [← prefsKept_step (h n), at_, ← stateAt_succ step _ hl]
    exact h (n + 1)
  · intro h n
    refine stateAt_induct (m := 0) (P := World.PrefsKept before) (fun key => rfl) ?_ (Nat.zero_le n)
    intro n l _ hl hkept
    exact (prefsKept_step hkept).mpr (h n l hl)

end Runs

/-! ## Where they do not -/

def noUpdate : UpdateMerchantInput := ⟨none, none, none, none, none, none, none, none⟩

def freshMerchant : Merchant :=
  ⟨text "Acme", none, text "USDC", none, none, none, .object []⟩

def goldPlan : Metadata where
  entries := [(text "plan", .string (text "gold"))]
  names := List.nodup_singleton _
  accepted := by simp [text, Entry.accepted]
  few := by decide

/-- An opt-out, then an update that only has metadata. -/
def replacedBag : List Label :=
  [.update { noUpdate with emailPrefs := some ⟨some false, none⟩ }, .next 0, .next 0,
   .update { noUpdate with metadata := some goldPlan }, .next 0]

/-- Two opt-outs that both read the bag before either writes it. -/
def overlappedMerges : List Label :=
  [.update { noUpdate with emailPrefs := some ⟨some false, none⟩ },
   .update { noUpdate with emailPrefs := some ⟨none, some false⟩ },
   .next 0, .next 1, .next 0, .next 0]

/-- All calls are done, and mail the merchant opted out of goes on. -/
theorem optOut_lost :
    (at_ freshMerchant replacedBag 5).calls = [] ∧
      ¬ (at_ freshMerchant replacedBag 5).PrefsKept freshMerchant ∧
    (at_ freshMerchant overlappedMerges 6).calls = [] ∧
      ¬ (at_ freshMerchant overlappedMerges 6).PrefsKept freshMerchant := by
  refine ⟨rfl, fun h => ?_, rfl, fun h => ?_⟩
  · exact absurd (h .paymentReceived) (by decide +kernel)
  · exact absurd (h .paymentReceived) (by decide +kernel)

end Strimz.Preferences
