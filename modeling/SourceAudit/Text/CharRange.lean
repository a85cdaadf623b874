/-!
# Stretches of characters

A class of characters is given as a list of stretches: from a first to a last code point, in steps
of one or of two, because many scripts alternate capital and small letters.
-/

namespace SourceAudit

/-- The code points `first`, `first + step`, … up to `last`. -/
structure CharRange where
  first : Nat
  last : Nat
  step : Nat
  deriving DecidableEq, Repr

namespace CharRange

/-- Whether a character lies in the stretch. -/
def contains (range : CharRange) (c : Char) : Bool :=
  range.first ≤ c.toNat && c.toNat ≤ range.last && (c.toNat - range.first) % range.step = 0

/-- Whether a character lies in one of the stretches. -/
def anyContains (ranges : List CharRange) (c : Char) : Bool := ranges.any (·.contains c)

end CharRange

end SourceAudit
