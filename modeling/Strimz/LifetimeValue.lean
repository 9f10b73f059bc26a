import Strimz.Base64url
import Strimz.Database
import Strimz.JsonText
import Strimz.Keyset

/-!
# Lifetime value, page by page

`AnalyticsService.ltv` lists a merchant's customers by what they have spent in one currency, most
first and ties by id. A page's cursor is the base64url of a JSON object with the total and the id of
its last row; the next page selects what comes after them.
-/

namespace Strimz.LifetimeValue

open Script Objects
open Indexer (Currency Mode TransactionKind TransactionStatus)
open Binary64 (Number)

abbrev Id := Str

/-! ## Ids and amounts as text -/

def isIdChar (c : CodeUnit) : Bool :=
  isDigit c || decide (65 ≤ c ∧ c ≤ 90) || decide (97 ≤ c ∧ c ≤ 122) || c == 95 || c == 45

/-- `idSchema` -/
def isId (s : Str) : Bool := decide (1 ≤ s.length ∧ s.length ≤ 64) && s.all isIdChar

/-- `tokenAmountSchema` -/
def isTokenAmount (s : Str) : Bool := !s.isEmpty && s.all isDigit

/-! ## The tables -/

structure Transaction where
  merchantId : Id
  mode : Mode
  currency : Currency
  status : TransactionStatus
  kind : TransactionKind
  amount : Str
  customerId : Option Id
  sessionId : Option Id
  subscriptionId : Option Id
deriving DecidableEq, Repr

/-- The columns `ltv` reads. Amounts are the decimals of `uint256`s in 78 characters; a customer's
id is a `cuid()` or the text of a UUID; a table has fewer rows than a `bigint` counts. -/
structure Tables where
  transactions : List Transaction
  /-- id and customer -/
  sessions : List (Id × Option Id)
  subscriptions : List (Id × Id)
  customers : List Id
  amounts : ∀ t ∈ transactions, isTokenAmount t.amount = true ∧ t.amount.length ≤ 78
  few : transactions.length < 2 ^ 63
  ids : ∀ c ∈ customers, isId c = true ∧ c.length ≤ 36
  /-- the foreign keys -/
  transactionCustomer : ∀ t ∈ transactions, ∀ c, t.customerId = some c → c ∈ customers
  sessionCustomer : ∀ s ∈ sessions, ∀ c, s.2 = some c → c ∈ customers
  subscriptionCustomer : ∀ s ∈ subscriptions, s.2 ∈ customers

/-- `COALESCE(t."customerId", ps."customerId", s."customerId")`; the joins are on primary keys. -/
def Tables.customerOf (T : Tables) (t : Transaction) : Option Id :=
  t.customerId.or <|
    (t.sessionId.bind fun id => (T.sessions.find? fun s => s.1 = id).bind Prod.snd).or <|
      t.subscriptionId.bind fun id => (T.subscriptions.find? fun s => s.1 = id).map Prod.snd

/-- The `WHERE` of the sums. -/
def Tables.counted (T : Tables) (merchantId : Id) (mode : Mode) (currency : Currency) :
    List Transaction :=
  T.transactions.filter fun t => t.merchantId = merchantId ∧ t.mode = mode ∧
    t.currency = currency ∧ t.status = .confirmed ∧ t.kind ≠ .refund

structure Spend where
  customerId : Id
  total : ℕ
  transactionCount : ℕ
deriving DecidableEq, Repr

/-- The group of a customer. -/
def Tables.spendOf (T : Tables) (counted : List Transaction) (customerId : Id) : Spend :=
  let group := counted.filter fun t => T.customerOf t = some customerId
  ⟨customerId, (group.map fun t => digitsValue t.amount).sum, group.length⟩

/-- `spend`, less the group without a customer. -/
def Tables.spend (T : Tables) (merchantId : Id) (mode : Mode) (currency : Currency) : List Spend :=
  let counted := T.counted merchantId mode currency
  (counted.filterMap T.customerOf).dedup.map (T.spendOf counted)

/-! ## Cursors -/

/-- `encodeLtvCursor` -/
def encodeLtvCursor (totalSpend : Str) (customerId : Id) : Str :=
  Base64url.encode
    (utf8ToBytes (JsonText.objectText [(text "s", totalSpend), (text "c", customerId)]))

/-- `ltvCursorSchema` -/
def ltvCursor (decoded : Value) : Option (Str × Id) :=
  match decoded with
  | .object fields =>
      match fields.lookup (text "s"), fields.lookup (text "c") with
      | some (.string s), some (.string c) =>
          if isTokenAmount s && isId c &&
              fields.all (fun f => f.1 == text "s" || f.1 == text "c") then some (s, c)
          else none
      | _, _ => none
  | _ => none

/-- `buffer.toString('utf8')`. What is not ASCII is not told apart here: no cursor may have any. -/
def fromUtf8 (bytes : List UInt8) : Str :=
  bytes.map fun b => if b.toNat < 0x80 then UInt16.ofNat b.toNat else 0xFFFD

/-- `decodeLtvCursor`; what it has no result for is refused. -/
def decodeLtvCursor (cursor : Str) : Option (Str × Id) :=
  (JsonText.parse (fromUtf8 (Base64url.decode cursor))).bind ltvCursor

/-! ## The endpoint -/

structure StatsLtvQuery where
  currency : Currency
  limit : ℕ
  cursor : Option Str
deriving DecidableEq, Repr

/-- `statsLtvQuerySchema` -/
def StatsLtvQuery.accepted (q : StatsLtvQuery) : Bool :=
  decide (1 ≤ q.limit ∧ q.limit ≤ 100) &&
    q.cursor.all fun c => decide (1 ≤ c.length ∧ c.length ≤ 200)

structure StatsLtvRow where
  customerId : Id
  totalSpend : Str
  transactionCount : Number
deriving DecidableEq

structure StatsLtv where
  currency : Currency
  data : List StatsLtvRow
  nextCursor : Option Str
  hasMore : Bool
deriving DecidableEq

def Spend.row (r : Spend) : StatsLtvRow where
  customerId := r.customerId
  totalSpend := decimal r.total
  transactionCount := .ofRatio false r.transactionCount 1

section Endpoint

-- the sort keys of the database's collation
variable {κ : Type} [LinearOrder κ] (collate : Id ↪ κ)

/-- `ORDER BY total DESC, "customerId" ASC` -/
def sortKey (total : ℕ) (customerId : Id) : ℕᵒᵈ ×ₗ κ :=
  toLex (OrderDual.toDual total, collate customerId)

def Spend.key (r : Spend) : ℕᵒᵈ ×ₗ κ := sortKey collate r.total r.customerId

/-- `total < $4 OR (total = $4 AND "customerId" > $5)` -/
def afterCursor (totalSpend : Str) (customerId : Id) (r : Spend) : Bool :=
  decide (r.total < digitsValue totalSpend ∨
    (r.total = digitsValue totalSpend ∧ collate customerId < collate r.customerId))

/-- The rows the query returns. -/
def Tables.ltvRows (T : Tables) (merchantId : Id) (mode : Mode) (currency : Currency)
    (after : Option (Str × Id)) (limit : ℕ) : List Spend :=
  (Keyset.sorted (Spend.key collate) ((T.spend merchantId mode currency).filter fun r =>
    after.all fun a => afterCursor collate a.1 a.2 r)).take limit

/-- `ltv` -/
def ltv (T : Tables) (merchantId : Id) (mode : Mode) (params : StatsLtvQuery) : Option StatsLtv :=
  let after : Option (Option (Str × Id)) := match params.cursor with
    | none | some [] => some none
    | some cursor => (decodeLtvCursor cursor).map some
  after.map fun after =>
    let rows := T.ltvRows collate merchantId mode params.currency after (params.limit + 1)
    let hasMore := decide (params.limit < rows.length)
    let page := if hasMore then rows.take params.limit else rows
    { currency := params.currency
      data := page.map Spend.row
      nextCursor :=
        if hasMore then page.getLast?.map fun last =>
          encodeLtvCursor (decimal last.total) last.customerId
        else none
      hasMore := hasMore }

/-- A request, with the check of its query. -/
def request (T : Tables) (merchantId : Id) (mode : Mode) (q : StatsLtvQuery) : Option StatsLtv :=
  if q.accepted then ltv collate T merchantId mode q else none

/-- A page size the query schema takes. -/
def Limit : Type := { n : ℕ // 1 ≤ n ∧ n ≤ 100 }

/-- A client that asks from a cursor on until there is no next one; the rows of all its pages, if
no request is refused and the fuel is enough. -/
def follow (T : Tables) (merchantId : Id) (mode : Mode) (currency : Currency) (limits : ℕ → Limit) :
    ℕ → ℕ → Option Str → Option (List StatsLtvRow)
  | 0, _, _ => none
  | fuel + 1, k, cursor =>
      (request collate T merchantId mode ⟨currency, (limits k).1, cursor⟩).bind fun page =>
        match page.nextCursor with
        | none => some page.data
        | some next =>
            (follow T merchantId mode currency limits fuel (k + 1) (some next)).map (page.data ++ ·)

end Endpoint

/-! ## A cursor is read back -/

section Cursors

variable {s : Str} {c : CodeUnit}

theorem plain_of_isIdChar (h : isIdChar c = true) :
    0x20 ≤ c.toNat ∧ c.toNat ≤ 0x7E ∧ c ≠ JsonText.QUOTE ∧ c ≠ JsonText.BACKSLASH := by
  have hrange : 48 ≤ c.toNat ∧ c.toNat ≤ 57 ∨ 65 ≤ c.toNat ∧ c.toNat ≤ 90 ∨
      97 ≤ c.toNat ∧ c.toNat ≤ 122 ∨ c.toNat = 95 ∨ c.toNat = 45 := by
    simp only [isIdChar, isDigit, Bool.or_eq_true, decide_eq_true_eq, beq_iff_eq,
      UInt16.le_iff_toNat_le, UInt16.reduceToNat] at h
    rcases h with (((h | h) | h) | rfl) | rfl
    · exact .inl h
    · exact .inr (.inl h)
    · exact .inr (.inr (.inl h))
    · exact .inr (.inr (.inr (.inl rfl)))
    · exact .inr (.inr (.inr (.inr rfl)))
  refine ⟨by omega, by omega, ?_, ?_⟩
  · rintro rfl
    simp [JsonText.QUOTE] at hrange
  · rintro rfl
    simp [JsonText.BACKSLASH] at hrange

theorem isIdChar_of_isDigit (h : isDigit c = true) : isIdChar c = true := by
  rw [isIdChar, h]
  rfl

theorem fromUtf8_ascii (h : ∀ u ∈ s, u.toNat ≤ 0x7E) : fromUtf8 (utf8ToBytes s) = s := by
  rw [fromUtf8, utf8ToBytes_ascii h, List.map_map]
  conv_rhs => rw [← List.map_id s]
  refine List.map_congr_left fun u hu => ?_
  have hsmall := h u hu
  have hbyte : (UInt8.ofNat u.toNat).toNat = u.toNat := by
    rw [UInt8.toNat_ofNat']
    omega
  rw [Function.comp_apply, hbyte, if_pos (by omega), UInt16.ofNat_toNat, id]

/-- The JSON of a cursor, when nothing in it needs an escape. -/
theorem objectText_plain {totalSpend : Str} {customerId : Id}
    (hs : JsonText.Plain totalSpend) (hc : JsonText.Plain customerId) :
    JsonText.objectText [(text "s", totalSpend), (text "c", customerId)] =
      text "\x7b\"s\":\"" ++ totalSpend ++ text "\",\"c\":\"" ++ customerId ++ text "\"\x7d" := by
  have hname : JsonText.quote (text "s") = text "\"s\"" ∧
      JsonText.quote (text "c") = text "\"c\"" := by decide
  simp only [JsonText.objectText, JsonText.membersText, JsonText.fieldText, hname.1, hname.2,
    JsonText.quote_plain hs, JsonText.quote_plain hc]
  simp [text, JsonText.QUOTE]

/-- A total and a customer's id are read back from their cursor, which is short enough. -/
theorem decodeLtvCursor_encode {totalSpend : Str} {customerId : Id}
    (hs : isTokenAmount totalSpend = true) (hslen : totalSpend.length ≤ 97)
    (hc : isId customerId = true) (hclen : customerId.length ≤ 36) :
    decodeLtvCursor (encodeLtvCursor totalSpend customerId) = some (totalSpend, customerId) ∧
      1 ≤ (encodeLtvCursor totalSpend customerId).length ∧
      (encodeLtvCursor totalSpend customerId).length ≤ 200 := by
  have hsall : ∀ u ∈ totalSpend, isIdChar u = true := by
    simp only [isTokenAmount, Bool.and_eq_true, List.all_eq_true] at hs
    exact fun u hu => isIdChar_of_isDigit (hs.2 u hu)
  have hcall : ∀ u ∈ customerId, isIdChar u = true := by
    simp only [isId, Bool.and_eq_true, List.all_eq_true] at hc
    exact hc.2
  have hplain : ∀ t : Str, (∀ u ∈ t, isIdChar u = true) → JsonText.Plain t := fun t ht u hu =>
    ⟨(plain_of_isIdChar (ht u hu)).1, (plain_of_isIdChar (ht u hu)).2.2⟩
  have htext := objectText_plain (hplain _ hsall) (hplain _ hcall)
  have hascii : ∀ u ∈ JsonText.objectText [(text "s", totalSpend), (text "c", customerId)],
      u.toNat ≤ 0x7E := by
    intro u hu
    rw [htext] at hu
    simp only [List.mem_append] at hu
    have hliteral : ∀ t : Str, (t.all fun u => decide (u.toNat ≤ 0x7E)) = true →
        u ∈ t → u.toNat ≤ 0x7E := fun t ht hu => of_decide_eq_true (List.all_eq_true.mp ht u hu)
    rcases hu with (((hu | hu) | hu) | hu) | hu
    · exact hliteral _ (by decide) hu
    · exact (plain_of_isIdChar (hsall u hu)).2.1
    · exact hliteral _ (by decide) hu
    · exact (plain_of_isIdChar (hcall u hu)).2.1
    · exact hliteral _ (by decide) hu
  have hlength : (JsonText.objectText [(text "s", totalSpend), (text "c", customerId)]).length =
      15 + totalSpend.length + customerId.length := by
    have hliterals : (text "\x7b\"s\":\"").length = 6 ∧ (text "\",\"c\":\"").length = 7 ∧
        (text "\"\x7d").length = 2 := by decide
    rw [htext]
    simp only [List.length_append, hliterals.1, hliterals.2.1, hliterals.2.2]
    omega
  have hbytes : (utf8ToBytes (JsonText.objectText
      [(text "s", totalSpend), (text "c", customerId)])).length =
        15 + totalSpend.length + customerId.length := by
    rw [utf8ToBytes_ascii hascii, List.length_map, hlength]
  refine ⟨?_, ?_, ?_⟩
  · rw [decodeLtvCursor, encodeLtvCursor, Base64url.decode_encode, fromUtf8_ascii hascii,
      JsonText.parse_objectText (List.cons_ne_nil _ _)]
    · have hsc : (text "s" == text "c") = false ∧ (text "c" == text "s") = false := by decide
      have hobject : [(text "s", totalSpend), (text "c", customerId)].foldl
          (fun acc e => JsonText.setField acc e.1 (.string e.2)) [] =
            [(text "s", .string totalSpend), (text "c", .string customerId)] := by
        simp [JsonText.setField, spread, List.lookup_cons, hsc.1]
      rw [Option.bind_some, hobject]
      simp [ltvCursor, List.lookup_cons, hsc.2, hs, hc]
    · have hnames : JsonText.Plain (text "s") ∧ JsonText.Plain (text "c") :=
        ⟨hplain _ (List.all_eq_true.mp (by decide)), hplain _ (List.all_eq_true.mp (by decide))⟩
      intro e he
      simp only [List.mem_cons, List.not_mem_nil, or_false] at he
      rcases he with rfl | rfl
      · exact ⟨hnames.1, hplain _ hsall⟩
      · exact ⟨hnames.2, hplain _ hcall⟩
  · rw [encodeLtvCursor, Base64url.length_encode, hbytes]
    omega
  · rw [encodeLtvCursor, Base64url.length_encode, hbytes]
    omega

end Cursors

/-! ## What is listed -/

section Rows

variable {T : Tables} {merchantId : Id} {mode : Mode} {currency : Currency} {r : Spend}

theorem mem_spend : r ∈ T.spend merchantId mode currency ↔
    (∃ t ∈ T.counted merchantId mode currency, T.customerOf t = some r.customerId) ∧
      r = T.spendOf (T.counted merchantId mode currency) r.customerId := by
  simp only [Tables.spend, List.mem_map, List.mem_dedup, List.mem_filterMap]
  constructor
  · rintro ⟨customerId, ht, rfl⟩
    exact ⟨ht, rfl⟩
  · rintro ⟨ht, hr⟩
    exact ⟨r.customerId, ht, hr.symm⟩

theorem spend_customerIds : (T.spend merchantId mode currency).map Spend.customerId =
    ((T.counted merchantId mode currency).filterMap T.customerOf).dedup := by
  rw [Tables.spend, List.map_map]
  exact List.map_id _

theorem nodup_customerIds : ((T.spend merchantId mode currency).map Spend.customerId).Nodup := by
  rw [spend_customerIds]
  exact List.nodup_dedup _

theorem nodup_spend : (T.spend merchantId mode currency).Nodup :=
  List.Nodup.of_map _ nodup_customerIds

/-- The customer of a transaction is one of the table. -/
theorem customerOf_mem {t : Transaction} (ht : t ∈ T.transactions) {c : Id}
    (hc : T.customerOf t = some c) : c ∈ T.customers := by
  rcases Option.or_eq_some_iff.mp hc with hown | ⟨-, hc⟩
  · exact T.transactionCustomer t ht c hown
  rcases Option.or_eq_some_iff.mp hc with hsession | ⟨-, hsubscription⟩
  · obtain ⟨id, -, hid⟩ := Option.bind_eq_some_iff.mp hsession
    obtain ⟨s, hs, hcustomer⟩ := Option.bind_eq_some_iff.mp hid
    exact T.sessionCustomer s (List.mem_of_find?_eq_some hs) c hcustomer
  · obtain ⟨id, -, hid⟩ := Option.bind_eq_some_iff.mp hsubscription
    obtain ⟨s, hs, rfl⟩ := Option.map_eq_some_iff.mp hid
    exact T.subscriptionCustomer s (List.mem_of_find?_eq_some hs)

theorem digitsValue_lt {s : Str} (h : isTokenAmount s = true) : digitsValue s < 10 ^ s.length := by
  simp only [isTokenAmount, Bool.and_eq_true, List.all_eq_true] at h
  have hlt : Nat.ofDigits 10 (s.map fun c => c.toNat - 48).reverse <
      10 ^ (s.map fun c => c.toNat - 48).reverse.length := by
    refine Nat.ofDigits_lt_base_pow_length (by omega) fun d hd => ?_
    obtain ⟨c, hc, rfl⟩ := List.mem_map.mp (List.mem_reverse.mp hd)
    have hdigit := (isDigit_spec (h.2 c hc)).2.2
    omega
  rwa [List.length_reverse, List.length_map] at hlt

/-- A total has at most 97 digits: amounts have 78, and there are fewer than `10 ^ 19`. -/
theorem total_lt (h : r ∈ T.spend merchantId mode currency) : r.total < 10 ^ 97 := by
  rw [(mem_spend.mp h).2]
  set group := (T.counted merchantId mode currency).filter fun t =>
    T.customerOf t = some r.customerId with hgroup
  have hsub : group.Sublist T.transactions :=
    List.filter_sublist.trans List.filter_sublist
  have hamount : ∀ a ∈ group.map fun t => digitsValue t.amount, a ≤ 10 ^ 78 := by
    intro a ha
    obtain ⟨t, ht, rfl⟩ := List.mem_map.mp ha
    obtain ⟨htoken, hlen⟩ := T.amounts t (hsub.subset ht)
    exact (digitsValue_lt htoken).le.trans (Nat.pow_le_pow_right (by omega) hlen)
  have hsum := List.sum_le_card_nsmul _ _ hamount
  rw [List.length_map, smul_eq_mul] at hsum
  have hfew : group.length < 10 ^ 19 :=
    (hsub.length_le.trans_lt T.few).trans (by norm_num)
  calc (group.map fun t => digitsValue t.amount).sum
      ≤ group.length * 10 ^ 78 := hsum
    _ < 10 ^ 19 * 10 ^ 78 := Nat.mul_lt_mul_of_pos_right hfew (by positivity)
    _ = 10 ^ 97 := by rw [← pow_add]

/-- The cursor at a row. -/
def Spend.cursor (r : Spend) : Str := encodeLtvCursor (decimal r.total) r.customerId

/-- The cursor at a listed row is one the query schema takes, and says where it is. -/
theorem cursor_spec (h : r ∈ T.spend merchantId mode currency) :
    decodeLtvCursor r.cursor = some (decimal r.total, r.customerId) ∧
      1 ≤ r.cursor.length ∧ r.cursor.length ≤ 200 := by
  obtain ⟨t, ht, hcustomer⟩ := (mem_spend.mp h).1
  have hid := T.ids r.customerId (customerOf_mem (List.mem_of_mem_filter ht) hcustomer)
  refine decodeLtvCursor_encode ?_ (decimal_length_le (by omega) (total_lt h)) hid.1 hid.2
  rw [isTokenAmount, List.all_eq_true.mpr (isDigit_decimal r.total), Bool.and_true]
  cases hdecimal : decimal r.total with
  | nil => exact absurd hdecimal (decimal_ne_nil r.total)
  | cons c ds => rfl

end Rows

/-! ## One page -/

section Pages

variable {κ : Type} [LinearOrder κ] (collate : Id ↪ κ)
variable (T : Tables) (merchantId : Id) (mode : Mode) (currency : Currency)

theorem key_lt {a b : Spend} : a.key collate < b.key collate ↔
    b.total < a.total ∨ (a.total = b.total ∧ collate a.customerId < collate b.customerId) :=
  Prod.Lex.toLex_lt_toLex

/-- The query's comparison is the order of the keys. -/
theorem afterCursor_decimal (last r : Spend) :
    afterCursor collate (decimal last.total) last.customerId r =
      decide (last.key collate < r.key collate) := by
  rw [afterCursor, digitsValue_decimal, decide_eq_decide, key_lt]
  exact or_congr_right (and_congr_left' eq_comm)

omit [LinearOrder κ] in
theorem distinct_spend : Keyset.Distinct (Spend.key collate) (T.spend merchantId mode currency) := by
  intro a ha b hb hkey
  have hid : a.customerId = b.customerId :=
    collate.injective (congrArg (fun k => (ofLex k).2) hkey)
  rw [(mem_spend.mp ha).2, (mem_spend.mp hb).2, hid]

/-- Every row, in the order of the listing. -/
def Tables.listing : List Spend :=
  Keyset.sorted (Spend.key collate) (T.spend merchantId mode currency)

variable {collate T merchantId mode currency}

theorem mem_listing {r : Spend} : r ∈ T.listing collate merchantId mode currency ↔
    r ∈ T.spend merchantId mode currency :=
  Keyset.mem_sorted

/-- The rows behind the cursor at the last row so far are the ones not listed yet. -/
theorem ltvRows_after {before rest : List Spend}
    (hsplit : T.listing collate merchantId mode currency = before ++ rest) (n : ℕ) :
    T.ltvRows collate merchantId mode currency
      (before.getLast?.map fun last => (decimal last.total, last.customerId)) n = rest.take n := by
  rcases List.eq_nil_or_concat' before with rfl | ⟨before, last, rfl⟩
  · rw [← List.nil_append rest, ← hsplit]
    exact Keyset.select_first _ n
  · rw [List.getLast?_concat, Option.map_some, Tables.ltvRows]
    simp only [Option.all_some, afterCursor_decimal]
    rw [List.append_assoc, List.singleton_append] at hsplit
    exact Keyset.select_after (distinct_spend collate T merchantId mode currency) nodup_spend
      hsplit n

/-- A request with the cursor at the last row so far gets the next rows. -/
theorem request_after {before rest : List Spend}
    (hsplit : T.listing collate merchantId mode currency = before ++ rest) (limit : Limit) :
    request collate T merchantId mode ⟨currency, limit.1, before.getLast?.map Spend.cursor⟩ =
      some ⟨currency, (rest.take limit.1).map Spend.row,
        if limit.1 < rest.length then (rest.take limit.1).getLast?.map Spend.cursor else none,
        decide (limit.1 < rest.length)⟩ := by
  have hlast : ∀ last, before.getLast? = some last →
      last ∈ T.spend merchantId mode currency := fun last hlast =>
    mem_listing.mp (hsplit ▸ List.mem_append_left _ (List.mem_of_getLast? hlast))
  have haccepted : (StatsLtvQuery.mk currency limit.1
      (before.getLast?.map Spend.cursor)).accepted = true := by
    rw [StatsLtvQuery.accepted, decide_eq_true limit.2, Bool.true_and]
    cases h : before.getLast? with
    | none => rfl
    | some last => exact decide_eq_true (cursor_spec (hlast last h)).2
  have hafter : (match before.getLast?.map Spend.cursor with
      | none | some [] => some none
      | some cursor => (decodeLtvCursor cursor).map some) =
        some (before.getLast?.map fun last => (decimal last.total, last.customerId)) := by
    cases h : before.getLast? with
    | none => rfl
    | some last =>
        obtain ⟨hdecode, hlen, -⟩ := cursor_spec (hlast last h)
        obtain ⟨c, cs, hcs⟩ := List.exists_cons_of_length_pos hlen
        simp only [Option.map_some, hcs]
        rw [← hcs, hdecode]
        rfl
  have hmore : (limit.1 < (rest.take (limit.1 + 1)).length) = (limit.1 < rest.length) := by
    rw [List.length_take]
    exact propext (by omega)
  have hpage : (if limit.1 < rest.length then (rest.take (limit.1 + 1)).take limit.1
      else rest.take (limit.1 + 1)) = rest.take limit.1 := by
    split
    · rw [List.take_take, min_eq_left (by omega)]
    · rw [List.take_of_length_le (by omega), List.take_of_length_le (by omega)]
  rw [request, if_pos haccepted, ltv, hafter, Option.map_some]
  simp only [ltvRows_after hsplit, hmore, decide_eq_true_eq, hpage]
  rfl

/-! ## All pages -/

/-- From the cursor at the last row so far on, a client gets the rows not listed yet. -/
theorem follow_after (limits : ℕ → Limit) {before rest : List Spend}
    (hsplit : T.listing collate merchantId mode currency = before ++ rest) {fuel : ℕ}
    (hfuel : rest.length < fuel) (k : ℕ) :
    follow collate T merchantId mode currency limits fuel k (before.getLast?.map Spend.cursor) =
      some (rest.map Spend.row) := by
  induction fuel generalizing before rest k with
  | zero => exact absurd hfuel (Nat.not_lt_zero _)
  | succ fuel ih =>
      obtain ⟨hone, -⟩ := (limits k).2
      rw [follow, request_after hsplit, Option.bind_some]
      by_cases hmore : (limits k).1 < rest.length
      · have hne : rest.take (limits k).1 ≠ [] := by
          rw [← List.length_pos_iff, List.length_take]
          omega
        have hlast : (before ++ rest.take (limits k).1).getLast? =
            (rest.take (limits k).1).getLast? :=
          List.getLast?_append_of_ne_nil _ hne
        have hsplit' : T.listing collate merchantId mode currency =
            (before ++ rest.take (limits k).1) ++ rest.drop (limits k).1 := by
          rw [List.append_assoc, List.take_append_drop, hsplit]
        have hnext := ih hsplit' (by rw [List.length_drop]; omega) (k + 1)
        rw [hlast] at hnext
        simp only [if_pos hmore]
        cases hcursor : (rest.take (limits k).1).getLast? with
        | none => exact absurd (List.getLast?_eq_none_iff.mp hcursor) hne
        | some last =>
            rw [hcursor, Option.map_some] at hnext
            simp only [Option.map_some, hnext]
            rw [← List.map_append, List.take_append_drop]
      · simp only [if_neg hmore]
        rw [List.take_of_length_le (by omega)]

variable (collate T merchantId) (mode) in
/-- The cursor of any answer is at the last row of its page, and the next request takes it. -/
theorem nextCursor_spec {q : StatsLtvQuery} {page : StatsLtv} {c : Str}
    (h : request collate T merchantId mode q = some page) (hc : page.nextCursor = some c) :
    ∃ last ∈ T.spend merchantId mode q.currency,
      page.data.getLast? = some last.row ∧ c = last.cursor := by
  rw [request] at h
  split at h
  · obtain ⟨after, -, rfl⟩ := Option.map_eq_some_iff.mp h
    simp only at hc ⊢
    split at hc
    · rename_i hmore
      obtain ⟨last, hlast, rfl⟩ := Option.map_eq_some_iff.mp hc
      rw [if_pos hmore]
      refine ⟨last, ?_, by rw [List.getLast?_map, hlast]; rfl, rfl⟩
      have hmem := List.mem_of_mem_take (List.mem_of_mem_take (List.mem_of_getLast? hlast))
      exact List.mem_of_mem_filter (Keyset.mem_sorted.mp hmem)
    · cases hc
  · cases h

variable (collate T merchantId mode currency) in
/-- Whatever the sizes of its pages are, a client that follows the cursors of a fixed set of
transactions comes to an end, with every customer once, the largest total first and ties by id. A
cursor is short enough for the next request, and decodes to the last row of its page. -/
theorem ltv_pages_cover (limits : ℕ → Limit) :
    (∃ rows fuel, follow collate T merchantId mode currency limits fuel 0 none = some rows ∧
      (rows.map StatsLtvRow.customerId).Nodup ∧
      (∀ c, c ∈ rows.map StatsLtvRow.customerId ↔
        ∃ t ∈ T.transactions, t.merchantId = merchantId ∧ t.mode = mode ∧
          t.currency = currency ∧ t.status = .confirmed ∧ t.kind ≠ .refund ∧
          T.customerOf t = some c) ∧
      (∀ row ∈ rows, row.totalSpend = decimal
        (((T.counted merchantId mode currency).filter fun t =>
          T.customerOf t = some row.customerId).map fun t => digitsValue t.amount).sum) ∧
      rows.Pairwise fun a b => digitsValue b.totalSpend < digitsValue a.totalSpend ∨
        (digitsValue a.totalSpend = digitsValue b.totalSpend ∧
          collate a.customerId < collate b.customerId)) ∧
    ∀ q page c, request collate T merchantId mode q = some page → page.nextCursor = some c →
      c.length ≤ 200 ∧
      (∀ limit : Limit,
        (request collate T merchantId mode ⟨q.currency, limit.1, some c⟩).isSome = true) ∧
      ∃ last, page.data.getLast? = some last ∧
        decodeLtvCursor c = some (last.totalSpend, last.customerId) := by
  have hids : ((T.listing collate merchantId mode currency).map Spend.row).map
      StatsLtvRow.customerId = (T.listing collate merchantId mode currency).map Spend.customerId := by
    rw [List.map_map]
    rfl
  have hperm : (T.listing collate merchantId mode currency).Perm (T.spend merchantId mode currency) :=
    Keyset.perm_sorted _
  refine ⟨⟨(T.listing collate merchantId mode currency).map Spend.row, _,
    follow_after limits (List.nil_append _).symm (Nat.lt_succ_self _) 0, ?_, ?_, ?_, ?_⟩, ?_⟩
  · rw [hids]
    exact (hperm.map _).nodup_iff.mpr nodup_customerIds
  · intro c
    rw [hids, (hperm.map Spend.customerId).mem_iff, spend_customerIds, List.mem_dedup,
      List.mem_filterMap]
    simp only [Tables.counted, List.mem_filter, decide_eq_true_eq, and_assoc]
  · intro row hrow
    obtain ⟨r, hr, rfl⟩ := List.mem_map.mp hrow
    rw [Spend.row, (mem_spend.mp (mem_listing.mp hr)).2]
    rfl
  · rw [List.pairwise_map]
    refine (Keyset.strict_sorted (distinct_spend collate T merchantId mode currency)
      nodup_spend).imp fun {a b} hlt => ?_
    rw [Spend.row, Spend.row, digitsValue_decimal, digitsValue_decimal]
    exact (key_lt collate).mp hlt
  · intro q page c h hc
    obtain ⟨last, hmem, hlast, rfl⟩ := nextCursor_spec collate T merchantId mode h hc
    obtain ⟨hdecode, hpos, hlen⟩ := cursor_spec hmem
    refine ⟨hlen, fun limit => ?_, last.row, hlast, hdecode⟩
    have hlisted : last ∈ T.listing collate merchantId mode q.currency := mem_listing.mpr hmem
    obtain ⟨before, rest, hsplit⟩ := List.append_of_mem hlisted
    have hsplit' : T.listing collate merchantId mode q.currency = (before ++ [last]) ++ rest := by
      rw [hsplit, List.append_assoc, List.singleton_append]
    have hnext := request_after hsplit' limit
    rw [List.getLast?_concat, Option.map_some] at hnext
    rw [hnext]
    rfl

end Pages

end Strimz.LifetimeValue
