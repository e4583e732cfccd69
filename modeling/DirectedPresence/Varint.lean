/-!
Variable-length numbers. A number is written in groups of seven bits, the lowest first, one group to
a byte; every byte but the last has its top bit set. Reading is bounded by a width in bits: it takes
no more bytes than the width needs and refuses a value beyond it, but accepts a number that is
written with superfluous zero groups.
-/

namespace DirectedPresence

inductive WireError where
  | unexpectedEnd
  | badVarint
  | badFlag
  | badOption
  | badText
  | unknownCase
deriving DecidableEq, Repr

namespace Varint

def encode (n : Nat) : List UInt8 :=
  if n < 128 then [n.toUInt8] else (n % 128 + 128).toUInt8 :: encode (n / 128)

/-- Reads a number of at most `bits` bits, and hands on the bytes after it. -/
def decode (bits : Nat) : List UInt8 → Except WireError (Nat × List UInt8)
  | [] => .error .unexpectedEnd
  | b :: bytes =>
    if b < 128 then
      if b.toNat < 1 <<< bits then .ok (b.toNat, bytes) else .error .badVarint
    else if bits ≤ 7 then .error .badVarint
    else
      match decode (bits - 7) bytes with
      | .ok (high, rest) => .ok (b.toNat - 128 + 128 * high, rest)
      | .error e => .error e

theorem encode_of_lt {n : Nat} (h : n < 128) : encode n = [n.toUInt8] := by
  rw [encode, if_pos h]

theorem encode_of_le {n : Nat} (h : 128 ≤ n) :
    encode n = (n % 128 + 128).toUInt8 :: encode (n / 128) := by
  rw [encode, if_neg (by omega)]

/-- What is left of a number after its lowest group fits what is left of the width. -/
theorem div_lt_of_lt {bits n : Nat} (large : 128 ≤ n) (h : n < 1 <<< bits) :
    ¬ bits ≤ 7 ∧ n / 128 < 1 <<< (bits - 7) := by
  have wide : ¬ bits ≤ 7 := by
    intro narrow
    have : 2 ^ bits ≤ 2 ^ 7 := Nat.pow_le_pow_right (by omega) narrow
    omega
  refine ⟨wide, ?_⟩
  rw [Nat.one_shiftLeft, Nat.div_lt_iff_lt_mul (by omega)]
  have : 2 ^ bits = 2 ^ (bits - 7) * 128 := by
    rw [show (128 : Nat) = 2 ^ 7 from rfl, ← Nat.pow_add]
    congr 1
    omega
  omega

/-- A byte with its top bit set calls for more bytes. -/
theorem decode_group {bits n : Nat} (large : 128 ≤ n) (h : n < 1 <<< bits) (bytes : List UInt8) :
    decode bits ((n % 128 + 128).toUInt8 :: bytes) =
      (decode (bits - 7) bytes).map fun (high, rest) => (n % 128 + 128 * high, rest) := by
  have byte : (n % 128 + 128).toUInt8.toNat = n % 128 + 128 := by simp; omega
  have high : ¬ (n % 128 + 128).toUInt8 < 128 := by
    rw [UInt8.lt_iff_toNat_lt, byte]
    simp
  rw [decode, if_neg high, if_neg (div_lt_of_lt large h).1, byte, Nat.add_sub_cancel]
  cases decode (bits - 7) bytes <;> rfl

/-- A number is read back from its bytes, whatever follows them. -/
theorem decode_encode_append {bits n : Nat} (h : n < 1 <<< bits) (rest : List UInt8) :
    decode bits (encode n ++ rest) = .ok (n, rest) := by
  induction n using Nat.strongRecOn generalizing bits with
  | _ n ih =>
    by_cases small : n < 128
    · have byte : n.toUInt8.toNat = n := by simp; omega
      have low : n.toUInt8 < 128 := by
        rw [UInt8.lt_iff_toNat_lt, byte]
        exact small
      simp [encode_of_lt small, decode, low, byte, h]
    · have large : 128 ≤ n := by omega
      rw [encode_of_le large, List.cons_append, decode_group large h,
        ih (n / 128) (by omega) (div_lt_of_lt large h).2]
      show Except.ok (n % 128 + 128 * (n / 128), rest) = _
      rw [Nat.mod_add_div]

end Varint

end DirectedPresence
