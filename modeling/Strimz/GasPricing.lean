import Mathlib.Algebra.Order.Floor.Semiring
import Mathlib.Data.Rat.Floor
import Mathlib.Tactic

/-!
# Gas prices of relayed transactions

`GasPricingService.compute`: tip 0 on the first send, the node's
recommended tip on retries, twice the next base fee as headroom, and
both fields bumped over the price they replace.

The node refuses a same-nonce replacement that raises either field by
less than a tenth, so the fact a run of replacements needs is about
consecutive results (`replacements_acceptable`). The tip and the cap are
bumped separately; what keeps the cap above the tip is `Sound`, carried
from each price to the one that replaces it.
-/

namespace Strimz.GasPricing

/-! ## Hex quantities -/

/-- The value of a hex digit. -/
def hexDigit (c : Char) : Option Nat :=
  if '0' ≤ c ∧ c ≤ '9' then some (c.toNat - '0'.toNat)
  else if 'a' ≤ c ∧ c ≤ 'f' then some (c.toNat - 'a'.toNat + 10)
  else if 'A' ≤ c ∧ c ≤ 'F' then some (c.toNat - 'A'.toNat + 10)
  else none

/-- `isHex(raw, { strict: true })`. -/
def isHex : List Char → Bool
  | '0' :: 'x' :: digits => digits.all fun c => (hexDigit c).isSome
  | _ => false

/-- `hexToBigInt`; `none` where `BigInt` throws. -/
def hexToBigInt : List Char → Option Nat
  | '0' :: 'x' :: c :: digits =>
      (c :: digits).foldlM (fun n d => (hexDigit d).map (16 * n + ·)) 0
  | _ => none

/-- `size` of a hex text: the bytes its digits fill. -/
def size (hex : List Char) : Nat := (hex.length - 2 + 1) / 2

/-! ## The node -/

structure Block where
  number : Nat
  extraData : List Char
deriving DecidableEq

/-- An answer of unknown type: a text, or anything else as `String` shows it. -/
inductive Answer where
  | text (raw : List Char)
  | other (shown : List Char)
deriving DecidableEq

/-- What the node answers while one price is computed. -/
structure Node where
  latest : Block
  maxPriorityFeePerGas : Answer
deriving DecidableEq

inductive GasError where
  | extraData (block : Block)
  | baseFee (fee : Nat)
  | recommendedTip (shown : List Char)
  | syntaxError (hex : List Char)
deriving DecidableEq

/-! ## The service -/

structure GasPrice where
  maxFeePerGas : Nat
  maxPriorityFeePerGas : Nat
deriving DecidableEq

def parseGwei (gwei : Nat) : Nat := gwei * 10 ^ 9

def ARC_MIN_BASE_FEE_WEI : Nat := parseGwei 20

def ARC_MAX_BASE_FEE_WEI : Nat := parseGwei 20000

def REPLACEMENT_BUMP_PER_MILLE : Nat := 1125

def GasError.message : GasError → String
  | .extraData block =>
      "extra_data of block " ++ toString block.number ++ " is " ++ String.ofList block.extraData
        ++ ", not an 8-byte base fee; cannot price an Arc relay"
  | .baseFee fee =>
      "base fee " ++ toString fee ++ " wei is above Arc's maximum "
        ++ toString ARC_MAX_BASE_FEE_WEI ++ " wei; check ARC_RPC_URL or the Arc fee parameters"
  | .recommendedTip shown =>
      "eth_maxPriorityFeePerGas returned " ++ String.ofList shown ++ ", not a hex quantity"
  | .syntaxError hex => "Cannot convert " ++ String.ofList hex ++ " to a BigInt"

def bumped (wei : Nat) : Nat := (wei * REPLACEMENT_BUMP_PER_MILLE + 999) / 1000

def atLeast (value floor : Nat) : Nat := if value > floor then value else floor

def fetchNextBaseFee (node : Node) : Except GasError Nat :=
  if size node.latest.extraData ≠ 8 then .error (.extraData node.latest)
  else match hexToBigInt node.latest.extraData with
    | none => .error (.syntaxError node.latest.extraData)
    | some baseFee =>
        if baseFee > ARC_MAX_BASE_FEE_WEI then .error (.baseFee baseFee) else .ok baseFee

def fetchRecommendedTip (node : Node) : Except GasError Nat :=
  match node.maxPriorityFeePerGas with
  | .other shown => .error (.recommendedTip shown)
  | .text raw =>
      if isHex raw then
        match hexToBigInt raw with
        | none => .error (.syntaxError raw)
        | some tip => .ok tip
      else .error (.recommendedTip raw)

structure Opts where
  retry : Bool
  previous : Option GasPrice
deriving DecidableEq

/-- The tip before any bump: none on the first send. -/
def sendTip (node : Node) (retry : Bool) : Except GasError Nat :=
  if retry then fetchRecommendedTip node else .ok 0

def compute (node : Node) (opts : Opts) : Except GasError GasPrice := do
  let nextBaseFee ← fetchNextBaseFee node
  let tip ← sendTip node opts.retry
  let headroom := nextBaseFee * 2
  let max := (if headroom > ARC_MIN_BASE_FEE_WEI then headroom else ARC_MIN_BASE_FEE_WEI) + tip
  match opts.previous with
  | some previous => return {
      maxFeePerGas := atLeast max (bumped previous.maxFeePerGas)
      maxPriorityFeePerGas := atLeast tip (bumped previous.maxPriorityFeePerGas) }
  | none => return { maxFeePerGas := max, maxPriorityFeePerGas := tip }

/-! ## One price -/

/-- What the first price of a node answer is, before any bump. -/
structure Quoted (node : Node) (p : GasPrice) : Prop where
  tip_le : p.maxPriorityFeePerGas ≤ p.maxFeePerGas
  headroom : ∃ baseFee, fetchNextBaseFee node = .ok baseFee ∧ 2 * baseFee ≤ p.maxFeePerGas
  floor : ARC_MIN_BASE_FEE_WEI ≤ p.maxFeePerGas

/-- A price that replaces another, field by field. -/
structure Bumps (previous p : GasPrice) : Prop where
  maxFeePerGas : bumped previous.maxFeePerGas ≤ p.maxFeePerGas
  maxPriorityFeePerGas : bumped previous.maxPriorityFeePerGas ≤ p.maxPriorityFeePerGas

theorem le_atLeast_left (value floor : Nat) : value ≤ atLeast value floor := by
  unfold atLeast
  split <;> omega

theorem le_atLeast_right (value floor : Nat) : floor ≤ atLeast value floor := by
  unfold atLeast
  split <;> omega

theorem atLeast_le {value floor bound : Nat} (hvalue : value ≤ bound) (hfloor : floor ≤ bound) :
    atLeast value floor ≤ bound := by
  unfold atLeast
  split <;> assumption

theorem bumped_mono {a b : Nat} (h : a ≤ b) : bumped a ≤ bumped b := by
  unfold bumped
  have hmul := Nat.mul_le_mul_right REPLACEMENT_BUMP_PER_MILLE h
  omega

theorem le_mul_bumped (wei : Nat) : 1125 * wei ≤ 1000 * bumped wei := by
  unfold bumped REPLACEMENT_BUMP_PER_MILLE
  omega

/-- The ceiling division is the ceiling of 112.5%. -/
theorem bumped_eq_ceil (wei : Nat) : bumped wei = ⌈(1125 / 1000 : ℚ) * wei⌉₊ := by
  apply le_antisymm
  · have hceil := Nat.le_ceil ((1125 / 1000 : ℚ) * wei)
    have hmul : 1125 * wei ≤ 1000 * ⌈(1125 / 1000 : ℚ) * wei⌉₊ := by
      have hq : (1125 : ℚ) * wei ≤ 1000 * (⌈(1125 / 1000 : ℚ) * wei⌉₊ : ℚ) := by linarith
      exact_mod_cast hq
    generalize ⌈(1125 / 1000 : ℚ) * wei⌉₊ = c at hmul
    unfold bumped REPLACEMENT_BUMP_PER_MILLE
    omega
  · apply Nat.ceil_le.mpr
    have hmul : (1125 : ℚ) * wei ≤ 1000 * bumped wei := by exact_mod_cast le_mul_bumped wei
    linarith

theorem lt_bumped {wei : Nat} (h : 0 < wei) : wei < bumped wei := by
  unfold bumped REPLACEMENT_BUMP_PER_MILLE
  omega

theorem tenth_le_bumped (wei : Nat) : 11 * wei ≤ 10 * bumped wei := by
  unfold bumped REPLACEMENT_BUMP_PER_MILLE
  omega

/-- What `compute` returns, in both of its cases. -/
theorem compute_ok {node : Node} {opts : Opts} {p : GasPrice} (h : compute node opts = .ok p) :
    ∃ baseFee tip cap, fetchNextBaseFee node = .ok baseFee ∧
      cap = max (2 * baseFee) ARC_MIN_BASE_FEE_WEI + tip ∧
      p.maxFeePerGas = opts.previous.elim cap (fun q => atLeast cap (bumped q.maxFeePerGas)) ∧
      p.maxPriorityFeePerGas =
        opts.previous.elim tip (fun q => atLeast tip (bumped q.maxPriorityFeePerGas)) := by
  have hmax : ∀ n : Nat, (if n * 2 > ARC_MIN_BASE_FEE_WEI then n * 2 else ARC_MIN_BASE_FEE_WEI)
      = max (2 * n) ARC_MIN_BASE_FEE_WEI := by
    intro n
    split <;> omega
  unfold compute at h
  cases hfee : fetchNextBaseFee node with
  | error e => rw [hfee] at h; cases h
  | ok baseFee =>
      rw [hfee] at h
      dsimp only [bind, Except.bind] at h
      cases htip : sendTip node opts.retry with
      | error e => rw [htip] at h; cases h
      | ok tip =>
          rw [htip] at h
          refine ⟨baseFee, tip, _, rfl, rfl, ?_⟩
          cases hprevious : opts.previous with
          | none =>
              rw [hprevious] at h
              cases h
              exact ⟨by simp only [hmax, Option.elim], rfl⟩
          | some q =>
              rw [hprevious] at h
              cases h
              exact ⟨by simp only [hmax, Option.elim], rfl⟩

theorem quoted_of_compute {node : Node} {opts : Opts} {p : GasPrice}
    (h : compute node opts = .ok p)
    (hprevious : ∀ q, opts.previous = some q → q.maxPriorityFeePerGas ≤ q.maxFeePerGas) :
    Quoted node p := by
  obtain ⟨baseFee, tip, cap, hfee, rfl, hcap, htip⟩ := compute_ok h
  cases hq : opts.previous with
  | none =>
      rw [hq] at hcap htip
      dsimp only [Option.elim] at hcap htip
      exact ⟨by omega, ⟨baseFee, hfee, by omega⟩, by omega⟩
  | some q =>
      rw [hq] at hcap htip
      dsimp only [Option.elim] at hcap htip
      have hle := le_atLeast_left (max (2 * baseFee) ARC_MIN_BASE_FEE_WEI + tip)
        (bumped q.maxFeePerGas)
      have hbump := bumped_mono (hprevious q hq)
      have hge := le_atLeast_right (max (2 * baseFee) ARC_MIN_BASE_FEE_WEI + tip)
        (bumped q.maxFeePerGas)
      refine ⟨?_, ⟨baseFee, hfee, by omega⟩, by omega⟩
      rw [htip]
      exact atLeast_le (by omega) (by omega)

theorem bumps_of_compute {node : Node} {opts : Opts} {p q : GasPrice}
    (h : compute node opts = .ok p) (hprevious : opts.previous = some q) : Bumps q p := by
  obtain ⟨baseFee, tip, cap, -, -, hcap, htip⟩ := compute_ok h
  rw [hprevious] at hcap htip
  exact ⟨hcap ▸ le_atLeast_right _ _, htip ▸ le_atLeast_right _ _⟩

/-! ## A run of replacements -/

/-- One call of `compute` and what the node answers to it. -/
structure Call where
  retry : Bool
  node : Node
deriving DecidableEq

/-- The prices of a sequence of calls, each with the call that returned it. A call that throws
returns no price; the one after it replaces the same previous price. -/
def results (previous : Option GasPrice) : List Call → List (Call × GasPrice)
  | [] => []
  | call :: calls =>
      match compute call.node { retry := call.retry, previous } with
      | .error _ => results previous calls
      | .ok p => (call, p) :: results (some p) calls

/-- A replacement the node accepts: both fields up by the bump, and more than a tenth. -/
structure Accepted (previous p : GasPrice) : Prop where
  bump_maxFeePerGas : ⌈(1125 / 1000 : ℚ) * previous.maxFeePerGas⌉₊ ≤ p.maxFeePerGas
  bump_maxPriorityFeePerGas :
    ⌈(1125 / 1000 : ℚ) * previous.maxPriorityFeePerGas⌉₊ ≤ p.maxPriorityFeePerGas
  tenth_maxFeePerGas : (11 / 10 : ℚ) * previous.maxFeePerGas ≤ p.maxFeePerGas
  tenth_maxPriorityFeePerGas :
    (11 / 10 : ℚ) * previous.maxPriorityFeePerGas ≤ p.maxPriorityFeePerGas

theorem tenth_le_of_bumped_le {wei wei' : Nat} (h : bumped wei ≤ wei') :
    (11 / 10 : ℚ) * wei ≤ wei' := by
  have hten : 11 * wei ≤ 10 * wei' := by
    have := tenth_le_bumped wei
    omega
  have hq : (11 : ℚ) * wei ≤ 10 * wei' := by exact_mod_cast hten
  linarith

theorem Bumps.accepted {q p : GasPrice} (h : Bumps q p) : Accepted q p where
  bump_maxFeePerGas := bumped_eq_ceil q.maxFeePerGas ▸ h.maxFeePerGas
  bump_maxPriorityFeePerGas := bumped_eq_ceil q.maxPriorityFeePerGas ▸ h.maxPriorityFeePerGas
  tenth_maxFeePerGas := tenth_le_of_bumped_le h.maxFeePerGas
  tenth_maxPriorityFeePerGas := tenth_le_of_bumped_le h.maxPriorityFeePerGas

/-- A price as its call left it: quoted for the node's answer, and the first of the run or a bump. -/
theorem results_quoted {previous : Option GasPrice} (calls : List Call)
    (hprevious : ∀ q, previous = some q → q.maxPriorityFeePerGas ≤ q.maxFeePerGas) :
    ∀ r ∈ results previous calls, Quoted r.1.node r.2 := by
  induction calls generalizing previous with
  | nil => exact fun r hr => nomatch hr
  | cons call calls ih =>
      intro r hr
      unfold results at hr
      cases hp : compute call.node { retry := call.retry, previous } with
      | error e =>
          rw [hp] at hr
          exact ih hprevious r hr
      | ok p =>
          rw [hp] at hr
          have hquoted := quoted_of_compute hp hprevious
          rcases List.mem_cons.mp hr with rfl | hr
          · exact hquoted
          · refine ih (fun q hq => ?_) r hr
            cases hq
            exact hquoted.tip_le

/-- Each price of a run replaces the one before it, the first of them the price the run began with. -/
theorem results_chain (previous : Option GasPrice) (calls : List Call) :
    (previous.toList ++ (results previous calls).map Prod.snd).IsChain Bumps := by
  induction calls generalizing previous with
  | nil => cases previous <;> simp [results]
  | cons call calls ih =>
      unfold results
      cases hp : compute call.node { retry := call.retry, previous } with
      | error e => exact ih previous
      | ok p =>
          have hrest := ih (some p)
          cases previous with
          | none => exact hrest
          | some q => exact List.IsChain.cons_cons (bumps_of_compute hp rfl) hrest

/-- Every price is above its tip and its headroom, every replacement is one the node accepts, and
the cap only rises. -/
theorem replacements_acceptable (calls : List Call) :
    (∀ r ∈ results none calls, Quoted r.1.node r.2) ∧
      ((results none calls).map Prod.snd).IsChain Accepted ∧
      ((results none calls).map Prod.snd).Pairwise fun q p => q.maxFeePerGas < p.maxFeePerGas := by
  have hquoted : ∀ r ∈ results none calls, Quoted r.1.node r.2 :=
    results_quoted calls fun q hq => nomatch hq
  have hchain : ((results none calls).map Prod.snd).IsChain Bumps := results_chain none calls
  refine ⟨hquoted, hchain.imp fun q p h => h.accepted, ?_⟩
  have hpositive : ∀ p ∈ (results none calls).map Prod.snd, 0 < p.maxFeePerGas := by
    intro p hp
    obtain ⟨r, hr, rfl⟩ := List.mem_map.mp hp
    exact Nat.lt_of_lt_of_le (by decide) (hquoted r hr).floor
  have htrans : IsTrans GasPrice fun q p => q.maxFeePerGas < p.maxFeePerGas :=
    ⟨fun _ _ _ => Nat.lt_trans⟩
  refine List.isChain_iff_pairwise.mp (hchain.imp_of_mem_imp fun q p hq _ h => ?_)
  exact Nat.lt_of_lt_of_le (lt_bumped (hpositive q hq)) h.maxFeePerGas

end Strimz.GasPricing
