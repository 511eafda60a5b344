import ReliableTransport.Fault

/-!
# Lengths of time

A length of time is a number of nanoseconds below `2 ^ 64` seconds.  A sum or a product that leaves
this range is a fault, even if a later step would have brought it back.  A point in time is a number
of nanoseconds after the start of the clock, below `2 ^ 63` seconds.
-/

namespace ReliableTransport

namespace Duration

/-- Nanoseconds in a microsecond. -/
def microsecond : Nat := 1000

/-- Nanoseconds in a millisecond. -/
def millisecond : Nat := 1000 * microsecond

/-- Nanoseconds in a second. -/
def second : Nat := 1000 * millisecond

/-- The first length beyond the representable range. -/
def limit : Nat := UInt64.size * second

/-- The length itself, provided that it is representable. -/
def checked (length : Nat) : Except Fault Nat :=
  if length < limit then .ok length else .error .duration

/-- The decimal digits of a length with a point in front of the last `places` of them, and without
zeros at the end of the fraction. -/
def fixed (places : Nat) (length : Nat) : String :=
  let digits := Nat.toDigits 10 length
  let whole := digits.take (digits.length - places)
  let fraction := (digits.drop whole.length).reverse.dropWhile (· == '0') |>.reverse
  String.ofList (if fraction.isEmpty then whole else whole ++ ['.'] ++ fraction)

/-- A length in the largest unit that it reaches, with its exact fraction. -/
def text (length : Nat) : String :=
  if second ≤ length then fixed 9 length ++ "s"
  else if millisecond ≤ length then fixed 6 length ++ "ms"
  else if microsecond ≤ length then fixed 3 length ++ "µs"
  else fixed 0 length ++ "ns"

end Duration

namespace Time

/-- The first point in time beyond the representable range. -/
def limit : Nat := UInt64.size / 2 * Duration.second

/-- The point in time itself, provided that it is representable. -/
def checked (time : Nat) : Except Fault Nat :=
  if time < limit then .ok time else .error .instant

end Time
end ReliableTransport
