import OrderPlatform.Wire.Numerals
import OrderPlatform.Wire.Values

/-! # Numbers written in texts

A reader of numbers trims what it takes for white space, takes a sign and a numeral, and
refuses a text that goes on after them.
-/

namespace Wire

inductive Sign
  | absent | plus | minus
  deriving DecidableEq, Repr

def Sign.apply (s : Sign) (q : ℚ) : ℚ := if s = .minus then -q else q

def takeSign : List Char → Sign × List Char
  | '-' :: cs => (.minus, cs)
  | '+' :: cs => (.plus, cs)
  | cs => (.absent, cs)

def Decimal.HasDigits (d : Decimal) : Prop := d.whole ≠ [] ∨ d.fraction.getD [] ≠ []

instance (d : Decimal) : Decidable d.HasDigits := inferInstanceAs (Decidable (_ ∨ _))

/-- The number that a whole text stands for, for a reader with some notion of white space. -/
def readNumber (space : Char → Bool) (cs : List Char) : Option ℚ :=
  let signed := takeSign (trim space cs)
  let scanned := Decimal.scan signed.2
  if scanned.2 = [] ∧ scanned.1.HasDigits then some (signed.1.apply scanned.1.toRat) else none

end Wire
