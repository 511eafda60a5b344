/-!
# Byte strings and big-endian fields

A fixed-width field of a byte string is read and written with its most significant byte first.
-/

namespace ReliableTransport

/-- A finite byte string. -/
abbrev Bytes := List UInt8

namespace Bytes

/-- The number whose base 256 digits are the given bytes, most significant first. -/
def toNumber (digits : Bytes) : Nat :=
  digits.foldl (fun number digit => number * 256 + digit.toNat) 0

/-- The `width` least significant base 256 digits of a number, most significant first. -/
def ofNumber : Nat → Nat → Bytes
  | 0, _ => []
  | width + 1, number => ofNumber width (number / 256) ++ [UInt8.ofNat number]

/-- The number stored in `width` bytes from `offset` on. -/
def field (bytes : Bytes) (offset width : Nat) : Nat :=
  toNumber ((bytes.drop offset).take width)

/-- Replace the bytes from `offset` on by a patch of the same extent. -/
def overwrite (bytes : Bytes) (offset : Nat) (patch : Bytes) : Bytes :=
  bytes.take offset ++ patch ++ bytes.drop (offset + patch.length)

@[simp]
theorem length_ofNumber (width number : Nat) : (ofNumber width number).length = width := by
  induction width generalizing number with
  | zero => rfl
  | succ width ih => simp [ofNumber, ih]

@[simp]
theorem toNumber_append_singleton (digits : Bytes) (digit : UInt8) :
    toNumber (digits ++ [digit]) = toNumber digits * 256 + digit.toNat := by
  simp [toNumber]

theorem toNumber_ofNumber_succ (width number : Nat) :
    toNumber (ofNumber (width + 1) number) =
      toNumber (ofNumber width (number / 256)) * 256 + number % 256 := by
  simp [ofNumber]

theorem toNumber_ofNumber_word16 (word : UInt16) :
    toNumber (ofNumber 2 word.toNat) = word.toNat := by
  have bound : word.toNat < 65536 := word.toNat_lt
  simp only [toNumber_ofNumber_succ]
  simp [ofNumber, toNumber]
  omega

/-- A 32-bit word is recovered from its four bytes. -/
theorem toNumber_ofNumber_word32 (word : UInt32) :
    toNumber (ofNumber 4 word.toNat) = word.toNat := by
  have bound : word.toNat < 4294967296 := word.toNat_lt
  simp only [toNumber_ofNumber_succ]
  simp [ofNumber, toNumber]
  omega

end Bytes
end ReliableTransport
