import OffloadFabric.Lib.Table

/-!
# Running totals

A total kept beside a table: an insertion takes off what the replaced value is charged with, adds
the measure of its own value, and starts over at zero when the sum does not fit. Charging a value
with more than its measure loses track of the total, and never the other way.
-/

namespace OffloadFabric.Lib.RunningTotal

/-- The total after one exchange. -/
def exchange (limit n charged added : Nat) : Nat :=
  if n - charged + added < limit then n - charged + added else 0

variable {α κ : Type} [Keyed α κ] [Ord κ] [Std.TransOrd κ] [Std.LawfulEqOrd κ]
  {f charge : α → Nat}

/-- **An exchange keeps an exact total exact** when it charges the measure only, or when what it
charges beyond is not there, and the new total fits. -/
theorem exchange_eq_total_iff (hcharge : ∀ v, f v ≤ charge v) {limit : Nat} (hlimit : 0 < limit)
    (t : Table α) (v : α) :
    exchange limit (t.total f) (t.measureAt charge (key v)) (f v) = (t.insert v).total f ↔
      t.total f - t.measureAt charge (key v) = t.total f - t.measureAt f (key v) ∧
        (t.insert v).total f < limit := by
  have htotal := Table.total_insert t v f
  have hle := Table.measureAt_le_total t f (key v)
  have hcharged := Table.measureAt_mono (t := t) hcharge (key v)
  unfold exchange
  split
  · constructor <;> omega
  · constructor <;> omega

/-- An exchange never takes the total beyond the exact one. -/
theorem exchange_le_total (hcharge : ∀ v, f v ≤ charge v) (limit : Nat) (t : Table α) (v : α)
    {n : Nat} (hn : n ≤ t.total f) :
    exchange limit n (t.measureAt charge (key v)) (f v) ≤ (t.insert v).total f := by
  have htotal := Table.total_insert t v f
  have hle := Table.measureAt_le_total t f (key v)
  have hcharged := Table.measureAt_mono (t := t) hcharge (key v)
  unfold exchange
  split <;> omega

end OffloadFabric.Lib.RunningTotal
