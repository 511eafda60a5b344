import Mathlib.Algebra.Group.Nat.Defs
import Mathlib.Data.List.Induction
import ReliableTransport.Bytes

/-!
# Fields of byte strings

Big-endian digits and the number that they stand for determine each other.  A field depends on the
bytes in its place alone, and overwriting a part of a byte string leaves all other bytes as they
were.
-/

namespace ReliableTransport
namespace Bytes

theorem toNumber_lt (digits : Bytes) : toNumber digits < 256 ^ digits.length := by
  induction digits using List.reverseRecOn with
  | nil => exact Nat.one_pos
  | append_singleton digits digit ih =>
      have digit_lt : digit.toNat < 256 := digit.toNat_lt
      rw [toNumber_append_singleton, List.length_append, List.length_singleton, Nat.pow_succ]
      omega

theorem ofNumber_toNumber (digits : Bytes) : ofNumber digits.length (toNumber digits) = digits := by
  induction digits using List.reverseRecOn with
  | nil => rfl
  | append_singleton digits digit ih =>
      have digit_lt : digit.toNat < 256 := digit.toNat_lt
      have front_eq : (toNumber digits * 256 + digit.toNat) / 256 = toNumber digits := by omega
      have last_eq : UInt8.ofNat (toNumber digits * 256 + digit.toNat) = digit := by
        rw [← UInt8.toNat_inj, UInt8.toNat_ofNat']
        omega
      rw [toNumber_append_singleton, List.length_append, List.length_singleton, ofNumber, front_eq,
        ih, last_eq]

theorem field_of_eq_append {bytes : Bytes} {offset width : Nat} (front middle back : Bytes)
    (assembled : bytes = front ++ (middle ++ back)) (offset_eq : front.length = offset)
    (width_eq : middle.length = width) : bytes.field offset width = toNumber middle := by
  subst assembled offset_eq width_eq
  rw [field, List.drop_left, List.take_left]

variable {bytes other patch : Bytes} {offset width index : Nat}

theorem field_one {byte : UInt8} (there : bytes[offset]? = some byte) :
    bytes.field offset 1 = byte.toNat := by
  rw [field, List.take_one, List.head?_drop, there]
  simp [toNumber]

theorem getElem?_eq_field (inside : offset < bytes.length) :
    bytes[offset]? = some (UInt8.ofNat (bytes.field offset 1)) := by
  have there := List.getElem?_eq_getElem inside
  rw [field_one there, UInt8.ofNat_toNat, there]

theorem field_lt (bytes : Bytes) (offset width : Nat) : bytes.field offset width < 256 ^ width :=
  Nat.lt_of_lt_of_le (toNumber_lt _) (Nat.pow_le_pow_right (by decide) (List.length_take_le _ _))

theorem ofNumber_field (inside : offset + width ≤ bytes.length) :
    ofNumber width (bytes.field offset width) = (bytes.drop offset).take width := by
  have length_eq : ((bytes.drop offset).take width).length = width := by
    rw [List.length_take, List.length_drop]
    omega
  have digits := ofNumber_toNumber ((bytes.drop offset).take width)
  rwa [length_eq] at digits

theorem singleton_field (inside : offset < bytes.length) :
    [UInt8.ofNat (bytes.field offset 1)] = (bytes.drop offset).take 1 := by
  rw [← ofNumber_field inside]
  rfl

theorem ofNumber_field_word16 (inside : offset + 2 ≤ bytes.length) :
    ofNumber 2 (UInt16.ofNat (bytes.field offset 2)).toNat = (bytes.drop offset).take 2 := by
  rw [UInt16.toNat_ofNat_of_lt' (field_lt bytes offset 2), ofNumber_field inside]

theorem ofNumber_field_word32 (inside : offset + 4 ≤ bytes.length) :
    ofNumber 4 (UInt32.ofNat (bytes.field offset 4)).toNat = (bytes.drop offset).take 4 := by
  rw [UInt32.toNat_ofNat_of_lt' (field_lt bytes offset 4), ofNumber_field inside]

theorem take_drop_append (bytes : Bytes) (offset width : Nat) :
    (bytes.drop offset).take width ++ bytes.drop (offset + width) = bytes.drop offset := by
  rw [← List.drop_drop, List.take_append_drop]

theorem field_congr
    (same : ∀ index, offset ≤ index → index < offset + width → bytes[index]? = other[index]?) :
    bytes.field offset width = other.field offset width := by
  refine congrArg toNumber (List.ext_getElem? fun index => ?_)
  rcases Nat.lt_or_ge index width with inside | beyond
  · rw [List.getElem?_take_of_lt inside, List.getElem?_take_of_lt inside, List.getElem?_drop,
      List.getElem?_drop, same _ (by omega) (by omega)]
  · rw [List.getElem?_take_eq_none beyond, List.getElem?_take_eq_none beyond]

/-- Overwriting a field replaces the part that the byte string was assembled from. -/
theorem overwrite_of_eq_append {front middle back : Bytes}
    (assembled : bytes = front ++ (middle ++ back)) (offset_eq : front.length = offset)
    (width_eq : middle.length = patch.length) :
    bytes.overwrite offset patch = front ++ (patch ++ back) := by
  subst assembled offset_eq
  rw [overwrite, List.take_left, ← width_eq, ← List.drop_drop, List.drop_left, List.drop_left,
    List.append_assoc]

/-- A field that is overwritten twice shows the second patch. -/
theorem overwrite_overwrite {first second : Bytes} (le : offset ≤ bytes.length)
    (width_eq : first.length = second.length) :
    (bytes.overwrite offset first).overwrite offset second = bytes.overwrite offset second := by
  have assembled : bytes.overwrite offset first =
      bytes.take offset ++ (first ++ bytes.drop (offset + first.length)) := by
    rw [overwrite, List.append_assoc]
  rw [overwrite_of_eq_append assembled (List.length_take_of_le le) width_eq, overwrite, width_eq,
    List.append_assoc]

theorem length_overwrite (inside : offset + patch.length ≤ bytes.length) :
    (bytes.overwrite offset patch).length = bytes.length := by
  rw [overwrite, List.length_append, List.length_append, List.length_take, List.length_drop]
  omega

/-- Overwriting a field leaves the bytes outside of it as they were. -/
theorem getElem?_overwrite (inside : offset + patch.length ≤ bytes.length)
    (outside : index < offset ∨ offset + patch.length ≤ index) :
    (bytes.overwrite offset patch)[index]? = bytes[index]? := by
  have front_length : (bytes.take offset).length = offset := List.length_take_of_le (by omega)
  rw [overwrite]
  rcases outside with before | behind
  · rw [List.append_assoc, List.getElem?_append_left (by omega), List.getElem?_take_of_lt before]
  · rw [List.getElem?_append_right (by rw [List.length_append]; omega), List.getElem?_drop,
      List.length_append, front_length, Nat.add_sub_cancel' behind]

/-- Overwriting a field leaves the other fields as they were. -/
theorem field_overwrite {start : Nat} (inside : offset + patch.length ≤ bytes.length)
    (apart : start + width ≤ offset ∨ offset + patch.length ≤ start) :
    (bytes.overwrite offset patch).field start width = bytes.field start width :=
  field_congr fun _ _ _ => getElem?_overwrite inside (by omega)

theorem field_overwrite_self (le : offset ≤ bytes.length) (width_eq : patch.length = width) :
    (bytes.overwrite offset patch).field offset width = toNumber patch := by
  refine field_of_eq_append (bytes.take offset) patch (bytes.drop (offset + patch.length)) ?_
    (List.length_take_of_le le) width_eq
  rw [overwrite, List.append_assoc]

/-- Overwriting a field leaves what is behind it as it was. -/
theorem drop_overwrite {count : Nat} (inside : offset + patch.length ≤ bytes.length)
    (behind : offset + patch.length ≤ count) :
    (bytes.overwrite offset patch).drop count = bytes.drop count := by
  refine List.ext_getElem? fun index => ?_
  rw [List.getElem?_drop, List.getElem?_drop, getElem?_overwrite inside (by omega)]

end Bytes
end ReliableTransport
