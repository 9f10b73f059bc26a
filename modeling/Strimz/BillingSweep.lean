import Strimz.Billing
import Strimz.ReferenceToken
import Strimz.Runs

/-!
# How long a due subscription waits for a sweep

A sweep that passes over a due subscription has spent its limit on rows that were due
earlier. If none of those comes ahead of it a second time, and none comes ahead that was not
there when it became due, the rows of different sweeps are different rows, and there are
only so many. Nothing in a job moves its row (`advance_db`): a row whose charge can never
succeed comes ahead again and again.
-/

namespace Strimz.Billing

open Tx Runs

section Sweeps

variable {ξ δ : Type} {S : Setup ξ δ} {w : World ξ} {l : Label ξ} {id other : Nat}
  {candidates : List Nat}

/-- What a step enqueues. -/
def enqueued (S : Setup ξ δ) (w : World ξ) : Label ξ → List Nat
  | .sweep candidates => if w.firstDue S candidates then candidates else []
  | _ => []

/-- The step is a sweep. -/
def sweeps (S : Setup ξ δ) (w : World ξ) : Label ξ → List Unit
  | .sweep candidates => if w.firstDue S candidates then [()] else []
  | _ => []

/-- The other row may be taken before this one. -/
structure World.Ahead (w : World ξ) (id other : Nat) : Prop where
  found : other ∈ w.found
  ne : other ≠ id
  le : w.chargeAt other ≤ w.chargeAt id

/-- The worker writes no row: what it leaves ahead stays ahead. -/
theorem advance_db {k : Nat} {wk : Worker} {ok : Bool} :
    (w.advance S k wk ok).db = w.db := by
  unfold World.advance
  split <;> rfl

/-! ## One sweep -/

theorem found_nodup : w.found.Nodup := List.nodup_range.filter _

/-- While the row waits it stays due, and only rows that were there when it became due, and
that no sweep has locked since, are ahead of it. -/
def InTurn (S : Setup ξ δ) (w₀ : World ξ) (ls : List (Label ξ)) (id : Nat) : Prop :=
  ∀ j l, ls[j]? = some l → sweeps S (stateAt (step S) w₀ ls j) l ≠ [] →
    id ∈ (stateAt (step S) w₀ ls j).found ∧ ∀ other, (stateAt (step S) w₀ ls j).Ahead id other →
      other ∈ w₀.found ∧ ∀ k < j, ∀ l' ∈ ls[k]?, sweeps S (stateAt (step S) w₀ ls k) l' ≠ [] →
        (stateAt (step S) w₀ ls (k + 1)).locks other = (stateAt (step S) w₀ ls k).locks other

theorem InTurn.init {w₀ : World ξ} {ls : List (Label ξ)} (h : InTurn S w₀ (ls ++ [l]) id) :
    InTurn S w₀ ls id := by
  have hstate : ∀ i ≤ ls.length, stateAt (step S) w₀ (ls ++ [l]) i = stateAt (step S) w₀ ls i := by
    intro i hi
    rw [stateAt, stateAt, List.take_append_of_le_length hi]
  intro j l' hl' hsweep
  have hlt : j < ls.length := (List.getElem?_eq_some_iff.mp hl').1
  have hj := h j l' (by rwa [List.getElem?_append_left hlt])
  rw [hstate j hlt.le] at hj
  refine ⟨(hj hsweep).1, fun other hahead => ⟨((hj hsweep).2 other hahead).1, ?_⟩⟩
  intro k hk l'' hl'' hearlier
  have hkept := ((hj hsweep).2 other hahead).2 k hk l''
  rw [List.getElem?_append_left (by omega), hstate k (by omega),
    hstate (k + 1) (by omega)] at hkept
  exact hkept hl'' hearlier

end Sweeps

/-! ## An ended subscription ahead of a due one -/

section Starved

open ReferenceToken

def billedMerchant : Indexer.MerchantRow :=
  ⟨[109], some 1, none, none, none, none, none, some 8, .active⟩

def launched : World (Peers State) where
  chain := ⟨Subscriptions.deployed sampleRoles 103 102 104, samplePeers⟩
  db := { Indexer.Db.empty with merchants := [billedMerchant] }
  projected := 0
  locks := fun _ => none
  queue := []
  workers := []
  broadcasts := []
  now := 100000

/-- A sweep, its job, and the next sweep. -/
def twoSweeps : List (Label (Peers State)) :=
  [.sweep [1], .take 0, .advance 0 true, .advance 0 true, .advance 0 true, .sweep [1]]

theorem launched_launched : launched.Launched where
  chain := ⟨sampleRoles, 103, 102, 104, rfl⟩
  subscriptions _ := rfl
  projected := rfl
  locks _ := rfl
  queue := rfl
  workers := rfl
  broadcasts := rfl

end Starved

end Strimz.Billing
