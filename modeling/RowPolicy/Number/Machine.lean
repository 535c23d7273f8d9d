import RowPolicy.Number.Binary64

/-!
# Doubles of the machine

Functions such as the sine are left to the machine. A double goes there and back as the
pattern of its bits: the sign, eleven bits of exponent and the mantissa without its first
bit.
-/

namespace RowPolicy.Binary64

/-- The pattern of bits of a double. -/
def bits : Binary64 → Nat
  | nan => 2047 * leastNormalMantissa + leastNormalMantissa / 2
  | infinite negative => signBit negative + 2047 * leastNormalMantissa
  | finite negative mantissa exponent =>
      match ofRat (mantissa * 2 ^ exponent) with
      | finite _ mantissa exponent =>
          if mantissa < leastNormalMantissa then signBit negative + mantissa
          else
            signBit negative + (exponent + 1075).toNat * leastNormalMantissa
              + (mantissa - leastNormalMantissa)
      | _ => signBit negative + 2047 * leastNormalMantissa
where
  /-- The first of the bits. -/
  signBit (negative : Bool) : Nat := if negative then Nat.pow 2 63 else 0

/-- The double with a pattern of bits. -/
def ofBits (n : Nat) : Binary64 :=
  let negative := Nat.pow 2 63 ≤ n
  let n := n % Nat.pow 2 63
  let exponent := n / leastNormalMantissa
  let mantissa := n % leastNormalMantissa
  if exponent = 2047 then if mantissa = 0 then infinite negative else nan
  else if exponent = 0 then finite negative mantissa leastExponent
  else finite negative (leastNormalMantissa + mantissa) (exponent - 1075)

/-- The double of the machine. -/
def machine (x : Binary64) : Float := Float.ofBits x.bits.toUInt64

/-- A double of the machine by its value. -/
def ofMachine (x : Float) : Binary64 := ofBits x.toBits.toNat

end RowPolicy.Binary64
