/-!
# Spans of time

* `Span`: a length of time in nanoseconds, of either sign. Numerals and integers stand for seconds.
* `Span.Representable`: the span has no more milliseconds than 64 bits hold.
* `Span.times?`: a multiple of a span, if it is representable.
-/

namespace LogRouter

/-- A length of time in nanoseconds. -/
structure Span where
  nanos : Int
  deriving DecidableEq, Repr

namespace Span

/-- The span of so many seconds. -/
def ofSeconds (seconds : Int) : Span := ⟨seconds * 1000000000⟩

/-- The whole seconds of a span. -/
def seconds (span : Span) : Int := span.nanos.tdiv 1000000000

instance (n : Nat) : OfNat Span n := ⟨ofSeconds n⟩

instance : Coe Int Span := ⟨ofSeconds⟩

instance : CoeOut Span Int := ⟨seconds⟩

/-- The largest number of milliseconds of a span. -/
def largestMillis : Int := 9223372036854775807

/-- The span has no more than the largest number of milliseconds. -/
def Representable (span : Span) : Prop := span.nanos.natAbs ≤ largestMillis * 1000000

instance (span : Span) : Decidable span.Representable := inferInstanceAs (Decidable (_ ≤ _))

/-- The span that many times, if it is representable. -/
def times? (span : Span) (n : Int) : Option Span :=
  let product : Span := ⟨span.nanos * n⟩
  if product.Representable then some product else none

end Span

end LogRouter
