/-!
# Hexadecimal digits

Numbers and byte strings are written with sixteen digits, bytes with two digits each.
Both cases of the letters are read; lower case is written.
-/

namespace RowPolicy.Text

/-- The hexadecimal digits of `n`, at least `width` of them. -/
def hexDigits (width n : Nat) : List Char :=
  let digits := Nat.toDigits 16 n
  List.replicate (width - digits.length) '0' ++ digits

/-- The value of a hexadecimal digit. -/
def hexDigit? (c : Char) : Option Nat :=
  if c.isDigit then some (c.toNat - '0'.toNat)
  else if 'a' ≤ c.toLower && c.toLower ≤ 'f' then some (c.toLower.toNat - 'a'.toNat + 10)
  else none

/-- The bytes written by pairs of hexadecimal digits. -/
def hexBytes? : List Char → Option (List UInt8)
  | [] => some []
  | a :: b :: cs => do
      let high ← hexDigit? a
      let low ← hexDigit? b
      return UInt8.ofNat (16 * high + low) :: (← hexBytes? cs)
  | [_] => none

/-- The hexadecimal digits of bytes. -/
def hexText (data : List UInt8) : String :=
  String.ofList (data.flatMap fun b => hexDigits 2 b.toNat)

end RowPolicy.Text
