import Mathlib.Data.Rat.Floor
import OffloadFabric.Base.Checked
import OffloadFabric.Lib.IntegerType

/-!
# Overflow-checked arithmetic of every width

The templates of `include/nof/checked.hpp:15-151` at any integer type. Every function takes the
value that its output argument has before the call and answers with the flag it returns and the
value the argument has then; `none` is an evaluation that the language leaves undefined.
-/

namespace OffloadFabric.Checked

open Lib

variable (T : IntegerType)

/-- `add_would_overflow`, `include/nof/checked.hpp:15-26`. -/
def addWouldOverflow (a b : Int) : Option Bool := do
  if T.signed then
    if 0 < b then return decide (a > T.wrap (← T.arith (T.max - b)))
    else return decide (a < T.wrap (← T.arith (T.min - b)))
  else return decide (a > T.wrap (← T.arith (T.max - b)))

/-- `sub_would_overflow`, `include/nof/checked.hpp:28-39`. -/
def subWouldOverflow (a b : Int) : Option Bool := do
  if T.signed then
    if 0 < b then return decide (a < T.wrap (← T.arith (T.min + b)))
    else return decide (a > T.wrap (← T.arith (T.max + b)))
  else return decide (a < b)

/-- `mul_would_overflow`, `include/nof/checked.hpp:41-63`. -/
def mulWouldOverflow (a b : Int) : Option Bool := do
  if a = 0 ∨ b = 0 then return false
  if T.signed then
    if 0 < a then
      if 0 < b then return decide (a > (← T.arith (T.max.tdiv b)))
      else return decide (b < (← T.arith (T.min.tdiv a)))
    else if 0 < b then return decide (a < (← T.arith (T.min.tdiv b)))
    else return decide (a ≠ 0 ∧ b < (← T.arith (T.max.tdiv a)))
  else return decide (a > T.wrap (← T.arith (T.max.tdiv b)))

/-- `checked_add`, `include/nof/checked.hpp:66-73`. -/
def checkedAdd (a b out : Int) : Option (Bool × Int) := do
  if ← addWouldOverflow T a b then return (false, out)
  return (true, T.wrap (← T.arith (a + b)))

/-- `checked_sub`, `include/nof/checked.hpp:76-83`. -/
def checkedSub (a b out : Int) : Option (Bool × Int) := do
  if ← subWouldOverflow T a b then return (false, out)
  return (true, T.wrap (← T.arith (a - b)))

/-- `checked_mul`, `include/nof/checked.hpp:85-92`. -/
def checkedMul (a b out : Int) : Option (Bool × Int) := do
  if ← mulWouldOverflow T a b then return (false, out)
  return (true, T.wrap (← T.arith (a * b)))

/-- The refusals of `checked_cast`, with a branch for each combination of signs. -/
def castRefuses (To From : IntegerType) (value : Int) : Bool :=
  if From.signed = To.signed then value < From.wrap To.min ∨ value > From.wrap To.max
  else if From.signed then
    let unsigned : IntegerType := { From with signed := false }
    value < 0 ∨ unsigned.wrap value > unsigned.wrap To.max
  else value > From.wrap To.max

/-- `checked_cast`, `include/nof/checked.hpp:96-119`. -/
def checkedCast (To From : IntegerType) (value out : Int) : Option (Bool × Int) :=
  if castRefuses To From value then some (false, out) else some (true, To.wrap value)

/-- `checked_ceil_div`, `include/nof/checked.hpp:140-151`. -/
def checkedCeilDiv (num den out : Int) : Option (Bool × Int) := do
  if den = 0 then return (false, out)
  let (added, q) ← checkedAdd T num (T.wrap (← T.arith (den - 1))) 0
  if !added then return (false, out)
  return (true, T.wrap (← T.arith (q.tdiv den)))

end OffloadFabric.Checked
