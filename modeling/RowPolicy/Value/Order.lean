import RowPolicy.Dict
import RowPolicy.Value

/-!
# Equality, order and membership of values

Truth values and numbers compare as numbers, at any size, values of different kinds are
unequal, and a part of a statement equals no other unless it is a constant; whether an
expression equals null is not known. Order is defined for two numbers, two texts, two
byte strings and, element by element, for two lists or two tuples; sets are ordered by
inclusion. Every other question is a `Fault`.
-/

namespace RowPolicy

/-- Why a question about two values has no answer. -/
inductive Fault where
  /-- The values are of kinds that have no common order. -/
  | unordered
  /-- Nothing can be an element of the value asked about. -/
  | notContainer
  /-- The value cannot be looked up in a set or as a key. -/
  | notKey
  /-- The value has no elements to go through. -/
  | notIterable
  /-- A number outside `0 … 255` was looked up in a byte string. -/
  | byteRange
  /-- Whether an expression is null is not known before a statement runs. -/
  | undecided
  /-- An expression can be neither greater nor less than null or a truth value. -/
  | constantOrder
  /-- An expression has no elements to look up or to go through. -/
  | notSupported
  deriving DecidableEq, Repr

/-- A relation of order. -/
inductive OrderRelation where
  | lt
  | le
  | gt
  | ge
  deriving DecidableEq, Repr

/-- Whether two things in the given order stand in the relation. -/
def OrderRelation.holds : OrderRelation → Ordering → Bool
  | lt, o => o == .lt
  | le, o => o != .gt
  | gt, o => o == .gt
  | ge, o => o != .lt

/-- An exact number. -/
inductive Number where
  | int (n : Int)
  | float (x : Binary64)
  deriving DecidableEq

namespace Number

/-- The same number as a double's exact value. -/
def exact : Number → Binary64
  | int n => Binary64.ofInt n
  | float x => x

/-- The order of two numbers by exact value; `none` if one of them is not a number. -/
def compare? : Number → Number → Option Ordering
  | int a, int b => some (compare a b)
  | a, b => a.exact.compare? b.exact

end Number

namespace Scalar

/-- The number that a scalar is; truth values are zero and one. -/
def number? : Scalar → Option Number
  | bool b => some (.int (if b then 1 else 0))
  | int n => some (.int n)
  | float x => some (.float x)
  | _ => none

/-- Whether two scalars are equal. -/
def same (a b : Scalar) : Bool :=
  match a.number?, b.number? with
  | some x, some y => x.compare? y == some .eq
  | none, none => a == b
  | _, _ => false

/-- The order of two scalars of one ordered kind. The inner `none` stands for two
numbers in no order, the outer one for kinds without common order. -/
def order? (a b : Scalar) : Option (Option Ordering) :=
  match a.number?, b.number? with
  | some x, some y => some (x.compare? y)
  | none, none =>
      match a, b with
      | str s, str t => some (some (compare s t))
      | bytes s, bytes t => some (some (compareOfLessAndEq s t))
      | _, _ => none
  | _, _ => none

/-- Whether two scalars stand in a relation of order. -/
def ordered (r : OrderRelation) (a b : Scalar) : Except Fault Bool :=
  match a.order? b with
  | some (some o) => .ok (r.holds o)
  | some none => .ok false
  | none => .error .unordered

end Scalar

namespace Value

mutual

/-- Whether two values are the same where values are looked up by key. A constant
expression is the same as that constant only. -/
def same : Value → Value → Bool
  | .scalar a, .scalar b => a.same b
  | .collection k xs, .collection l ys =>
      if k.isSet && l.isSet then xs.length == ys.length && included xs ys
      else k == l && sameAll xs ys
  | .map xs, .map ys => xs.length == ys.length && sameEntries xs ys
  | .comparison t x, .comparison u y => t == u && same x y
  | .expr (.const a), .expr (.const b) => a == b
  | .resolved k x, .resolved l y => k == l && same x y
  | _, _ => false

/-- Whether two lists are the same element by element. -/
def sameAll : List Value → List Value → Bool
  | [], [] => true
  | x :: xs, y :: ys => same x y && sameAll xs ys
  | _, _ => false

/-- Whether every element of the first list is the same as one of the second. -/
def included : List Value → List Value → Bool
  | [], _ => true
  | x :: xs, ys => (ys.any fun y => same x y) && included xs ys

/-- Whether every key of the first mapping has the same value in the second. -/
def sameEntries : List (String × Value) → List (String × Value) → Bool
  | [], _ => true
  | (key, x) :: xs, ys =>
      (match Entries.get? key ys with
        | some y => same x y
        | none => false) && sameEntries xs ys

end

mutual

/-- Whether two values are equal, which is not known of null and an expression. Going
through elements stops at the first two that differ. -/
def equals : Value → Value → Except Fault Bool
  | .scalar a, .scalar b => .ok (a.same b)
  | .collection k xs, .collection l ys =>
      if k.isSet && l.isSet then .ok (xs.length == ys.length && included xs ys)
      else if k != l || (k == .list && xs.length != ys.length) then .ok false
      else equalAll xs ys
  | .map xs, .map ys => if xs.length == ys.length then equalEntries xs ys else .ok false
  | .comparison t x, .comparison u y => if t == u then equals x y else .ok false
  | .resolved k x, .resolved l y => if k == l then equals x y else .ok false
  | .expr (.const a), .expr (.const b) => .ok (a == b)
  | .expr (.const a), .scalar (.bool b) | .scalar (.bool a), .expr (.const b) => .ok (a == b)
  | a, b =>
      if (a.isNull && b.isExpression) || (a.isExpression && b.isNull) then .error .undecided
      else .ok false

/-- Whether two lists are equal element by element. -/
def equalAll : List Value → List Value → Except Fault Bool
  | [], [] => .ok true
  | x :: xs, y :: ys => do if ← equals x y then equalAll xs ys else return false
  | _, _ => .ok false

/-- Whether every key of the first mapping has an equal value in the second. -/
def equalEntries : List (String × Value) → List (String × Value) → Except Fault Bool
  | [], _ => .ok true
  | (key, x) :: xs, ys =>
      match Entries.get? key ys with
      | some y => do if ← equals x y then equalEntries xs ys else return false
      | none => .ok false

end

/-- Whether one set stands to another in a relation of inclusion. -/
def orderedSets (r : OrderRelation) (xs ys : List Value) : Bool :=
  match r with
  | .lt => included xs ys && xs.length < ys.length
  | .le => included xs ys
  | .gt => included ys xs && ys.length < xs.length
  | .ge => included ys xs

/-- Whether one of two values is an expression and the other null or a truth value. -/
def mixesConstant (a b : Value) : Bool :=
  (a.isExpression && b.isConstant) || (a.isConstant && b.isExpression)

mutual

/-- Whether two values stand in a relation of order, which is not known of expressions. -/
def compares (r : OrderRelation) : Value → Value → Except Fault Bool
  | .scalar a, .scalar b => a.ordered r b
  | .collection k xs, .collection l ys =>
      if k.isSet && l.isSet then .ok (orderedSets r xs ys)
      else if k == l then comparesAll r xs ys
      else .error .unordered
  | a, b => .error (if mixesConstant a b then .constantOrder else .unordered)

/-- Lists are ordered by the first elements that differ, else by length. -/
def comparesAll (r : OrderRelation) : List Value → List Value → Except Fault Bool
  | [], [] => .ok (r.holds .eq)
  | [], _ :: _ => .ok (r.holds .lt)
  | _ :: _, [] => .ok (r.holds .gt)
  | x :: xs, y :: ys => do if ← equals x y then comparesAll r xs ys else compares r x y

end

/-- Whether `needle` occurs as a block of consecutive elements. -/
def occursIn {α : Type} [BEq α] (needle : List α) : List α → Bool
  | [] => needle.isEmpty
  | x :: xs => needle.isPrefixOf (x :: xs) || occursIn needle xs

/-- Whether `value` is one of the elements of `container`: an equal element of a
collection, a key of a mapping, a part of a text, a number or a part of a byte
string. -/
def elementOf (value container : Value) : Except Fault Bool :=
  match container with
  | .collection kind items =>
      let isSet := match value with
        | .collection .set _ => true
        | _ => false
      if kind.isSet then
        if value.isKey || isSet then .ok (items.any fun item => value.same item)
        else .error .notKey
      else items.anyM fun item => value.equals item
  | .expr (.fragment _) => .error .notContainer
  | .expr _ => .error .notSupported
  | .map entries =>
      if value.isKey then .ok (entries.any fun entry => value.same (.str entry.1))
      else .error .notKey
  | .scalar (.str text) =>
      match value with
      | .scalar (.str part) => .ok (occursIn part.toList text.toList)
      | _ => .error .notContainer
  | .scalar (.bytes data) =>
      match value with
      | .scalar (.bytes part) => .ok (occursIn part data)
      | .scalar (.int n) =>
          if 0 ≤ n ∧ n < 256 then .ok (data.any fun b => b.toNat == n.toNat)
          else .error .byteRange
      | .scalar (.bool b) => .ok (data.any fun x => x.toNat == (if b then 1 else 0))
      | _ => .error .notContainer
  | _ => .error .notContainer

/-- The elements of a value, a fault if it has none to go through. -/
def elements (value : Value) : Except Fault (List Value) :=
  match value.elements? with
  | some items => .ok items
  | none => .error (if value.isExpression then .notSupported else .notIterable)

end Value

end RowPolicy
