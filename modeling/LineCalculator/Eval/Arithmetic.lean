import LineCalculator.Program.Operator

/-!
# Arithmetic on 64-bit words

Operators are applied with wrap-around, and the result comes with a flag
that tells whether it wrapped. The flag is found with word operations only:

* a sum wrapped if both operands have a sign other than the sum's;
* a difference wrapped if the operands have different signs and the
  difference has the sign of the right one;
* a product wrapped if dividing it by the right operand does not give the
  left one back. Where that division could wrap itself, between minus one and
  the least word, the product is known to have wrapped;
* the one quotient that wraps is the least word divided by minus one.

Division goes toward zero. It is only asked for with a divisor other than
zero.
-/

namespace LineCalculator

/-- The result of an operation on words. -/
structure Computed where
  /-- The result, wrapped into 64 bits. -/
  value : Int64
  /-- Did it wrap? -/
  wrapped : Bool
  deriving DecidableEq

namespace Operator

/-- Applies an operator; a code without meaning has no result. -/
def compute (op : Operator) (l r : Int64) : Option Computed :=
  match op with
  | add =>
    let v := l + r
    some ⟨v, decide ((l ^^^ v) &&& (r ^^^ v) < 0)⟩
  | sub =>
    let v := l - r
    some ⟨v, decide ((l ^^^ r) &&& (l ^^^ v) < 0)⟩
  | mul =>
    let v := l * r
    if l = 0 ∨ r = 0 then some ⟨0, false⟩
    else if (l = -1 ∧ r = Int64.minValue) ∨ (r = -1 ∧ l = Int64.minValue) then some ⟨v, true⟩
    else some ⟨v, decide (v / r ≠ l)⟩
  | div => some ⟨l / r, decide (l = Int64.minValue ∧ r = -1)⟩
  | unknown _ => none

end Operator

end LineCalculator
