import RowPolicy.Number.Machine
import RowPolicy.Sql.Operation

/-!
# Functions of doubles

The usual functions of real numbers. They take numbers and texts that are numerals, and
have no value for anything else or where the mathematical function has none.
-/

namespace RowPolicy.Sql

/-- A function of doubles. -/
inductive RealFunction where
  | acos
  | acosh
  | asin
  | asinh
  | atan
  | atan2
  | atanh
  | cos
  | cosh
  | degrees
  | exp
  /-- The logarithm to a base, which is ten if it is not given. -/
  | log
  | log2
  | naturalLog
  | mod
  | pi
  | power
  | radians
  | sin
  | sinh
  | sqrt
  | tan
  | tanh
  /-- The nearest integer on one side. -/
  | ceiling
  | floor
  | trunc
  deriving DecidableEq, Repr

namespace RealFunction

/-- The names of the functions. -/
def names : List (String × RealFunction) :=
  [("acos", acos), ("acosh", acosh), ("asin", asin), ("asinh", asinh), ("atan", atan),
    ("atan2", atan2), ("atanh", atanh), ("ceil", ceiling), ("ceiling", ceiling), ("cos", cos),
    ("cosh", cosh), ("degrees", degrees), ("exp", exp), ("floor", floor), ("ln", naturalLog),
    ("log", log), ("log10", log), ("log2", log2), ("mod", mod), ("pi", pi), ("pow", power),
    ("power", power), ("radians", radians), ("sin", sin), ("sinh", sinh), ("sqrt", sqrt),
    ("tan", tan), ("tanh", tanh), ("trunc", trunc)]

/-- Whether a function can be called with so many arguments. -/
def accepts (count : Nat) : RealFunction → Bool
  | pi => count == 0
  | atan2 | mod | power => count == 2
  | log => count == 1 || count == 2
  | _ => count == 1

/-- The double that is half the circumference of a circle. -/
def halfTurn : Binary64 := .ofDecimal false 3141592653589793 (-15)

/-- The double of a number or of a numeral. -/
def real? (x : Scalar) : Option Binary64 :=
  match x.asNumeric with
  | .bool b => some (.nearestInt (if b then 1 else 0))
  | .int n => some (.nearestInt n)
  | .float x => some x
  | _ => none

/-- What is left of a double when another one is taken away as often as possible. -/
def remainder (x y : Binary64) : Binary64 :=
  match x.value?, y.value? with
  | some a, some b =>
      if b = 0 then .nan
      else
        let q := a / b
        let n : Int := if q < 0 then -(-q).floor else q.floor
        .ofExact x.isNegative (a - n * b)
  | some _, none => if y.isNaN then .nan else x
  | none, _ => .nan

/-- The logarithm of a positive double by a function of the machine. -/
def logarithm (f : Float → Float) (x : Binary64) : Scalar :=
  if x.compare? (.nearestInt 0) == some .gt then Scalar.ofReal (.ofMachine (f x.machine)) else .null

/-- The logarithm of a number to a base, both of them positive, and the base above one. -/
def logarithmTo (b x : Binary64) : Scalar :=
  let base := Float.log b.machine
  if b.compare? (.nearestInt 0) == some .gt && decide (0 < base)
      && x.compare? (.nearestInt 0) == some .gt then
    Scalar.ofReal (.ofMachine (Float.log x.machine / base))
  else .null

/-- A number without its fraction. -/
def rounded (f : Rat → Int) (x : Scalar) : Scalar :=
  match x.asNumeric with
  | .bool b => .int (if b then 1 else 0)
  | .int n => .int n
  | .float x =>
      match x.value? with
      | some r => .float (.ofExact x.isNegative (f r))
      | none => .float x
  | _ => .null

/-- A function of the machine on a number. -/
def onMachine (f : Float → Float) (x : Scalar) : Scalar :=
  match real? x with
  | some x => Scalar.ofReal (.ofMachine (f x.machine))
  | none => .null

/-- The value of a function. -/
def apply (f : RealFunction) (args : List Scalar) : Scalar :=
  match f, args with
  | acos, [x] => onMachine Float.acos x
  | acosh, [x] => onMachine Float.acosh x
  | asin, [x] => onMachine Float.asin x
  | asinh, [x] => onMachine Float.asinh x
  | atan, [x] => onMachine Float.atan x
  | atan2, [y, x] =>
      match real? y, real? x with
      | some y, some x => Scalar.ofReal (.ofMachine (Float.atan2 y.machine x.machine))
      | _, _ => .null
  | atanh, [x] => onMachine Float.atanh x
  | cos, [x] => onMachine Float.cos x
  | cosh, [x] => onMachine Float.cosh x
  | degrees, [x] =>
      ((real? x).map fun x =>
        Scalar.ofReal (x.mul ((Binary64.nearestInt 180).div halfTurn))).getD .null
  | radians, [x] =>
      ((real? x).map fun x => Scalar.ofReal (x.mul (halfTurn.div (.nearestInt 180)))).getD .null
  | exp, [x] => onMachine Float.exp x
  | log, [x] => ((real? x).map (logarithm Float.log10)).getD .null
  | log, [b, x] =>
      match real? b, real? x with
      | some b, some x => logarithmTo b x
      | some b, none => logarithmTo b (match CastKind.real.cast x with
          | .float y => y
          | _ => .nearestInt 0)
      | _, _ => .null
  | log2, [x] => ((real? x).map (logarithm Float.log2)).getD .null
  | naturalLog, [x] => ((real? x).map (logarithm Float.log)).getD .null
  | mod, [x, y] =>
      match real? x, real? y with
      | some x, some y => Scalar.ofReal (remainder x y)
      | _, _ => .null
  | pi, [] => .float halfTurn
  | power, [x, y] =>
      match real? x, real? y with
      | some x, some y => Scalar.ofReal (.ofMachine (Float.pow x.machine y.machine))
      | _, _ => .null
  | sin, [x] => onMachine Float.sin x
  | sinh, [x] => onMachine Float.sinh x
  | sqrt, [x] => onMachine Float.sqrt x
  | tan, [x] => onMachine Float.tan x
  | tanh, [x] => onMachine Float.tanh x
  | ceiling, [x] => rounded (fun r => -(-r).floor) x
  | floor, [x] => rounded Rat.floor x
  | trunc, [x] => rounded (fun r => if r < 0 then -(-r).floor else r.floor) x
  | _, _ => .null

end RealFunction

end RowPolicy.Sql
