import RowPolicy.Query.Records
import RowPolicy.Value.Printer

/-!
# Assertions about accessible rows

Assertions check what a policy allows on the rows of a database, or the text of the
statement. A failed assertion says what was expected and what was found.
-/

namespace RowPolicy

/-- Why an assertion does not succeed. -/
inductive AssertError where
  | query (e : QueryError)
  | run (e : Sql.RunError)
  | print (e : Sql.PrintError)
  /-- What was expected has no keys, keys without common order, or is no text. -/
  | fault (f : Fault)
  /-- What was asserted does not hold. -/
  | failed (message : String)

namespace Assertion

/-- Values without repetition. -/
def distinct (values : List Value) : List Value :=
  values.foldl (fun seen v => if seen.any v.same then seen else seen ++ [v]) []

/-- Whether two collections have the same elements. -/
def sameElements (a b : List Value) : Bool :=
  a.all (fun v => b.any v.same) && b.all (fun v => a.any v.same)

/-- Whether a value comes before another one. -/
def precedes (a b : Value) : Except Fault Bool := a.compares .lt b

/-- The sorted values as text. -/
def sortedText (values : List Value) : Except AssertError String := do
  for a in values do
    for b in values do
      if !a.same b then
        let _ ← (precedes a b).mapError .fault
  let sorted := values.mergeSort fun a b => (precedes b a).toOption != some true
  return (Value.collection .list sorted).text

/-- A check as part of an assertion. -/
def expect (condition : Bool) (message : String) : Except AssertError Unit :=
  if condition then .ok () else .error (.failed message)

/-- The keys of the accessible rows, as far as they have any. -/
def rows (db : Sql.Database) (q : Query) : Except AssertError (List (Option Scalar)) := do
  let statement ← q.statement.mapError .query
  (statement.runKeys db).mapError .run

/-- The keys of some rows all of which must have one. -/
def keysOf (rows : List (Option Scalar)) : Except AssertError (List Scalar) :=
  rows.mapM fun key => key.elim (.error (.run .noKey)) .ok

/-- Whether one key comes after another one. -/
def follows (a b : Scalar) : Bool := a.order? b == some (some .gt)

/-- The keys of the accessible rows in order. -/
def keys (db : Sql.Database) (q : Query) : Except AssertError (List Scalar) := do
  let found ← keysOf (← rows db q)
  if found.any fun a => found.any fun b => (a.order? b).isNone then throw (.fault .unordered)
  return found.mergeSort fun a b => !follows a b

/-- Some rows are accessible and, where given, as many and with the keys expected. -/
def accessible (db : Sql.Database) (q : Query) (action : Value)
    (expectedKeys expectedCount : Option Value) : Except AssertError Unit := do
  let found ← rows db q
  expect (!found.isEmpty)
    ("expected accessible " ++ q.entity ++ " rows, but got 0 (action=" ++ action.text ++ ")")
  match expectedCount with
  | none => pure ()
  | some count =>
      expect (count.same (.int found.length))
        ("expected " ++ count.plainText ++ " rows, but got " ++ toString found.length
          ++ " (action=" ++ action.text ++ ")")
  match expectedKeys with
  | none => pure ()
  | some expected =>
      let found := distinct ((← keysOf found).map .scalar)
      let items ← expected.elements.mapError .fault
      if !items.all Value.isKey then throw (.fault .notKey)
      let items := distinct items
      if !sameElements found items then
        let wanted ← sortedText items
        let got ← sortedText found
        throw (.failed ("expected " ++ q.entity ++ " ids " ++ wanted ++ ", got " ++ got))

/-- No row is accessible. -/
def notAccessible (db : Sql.Database) (q : Query) (action : Value) :
    Except AssertError Unit := do
  let found ← rows db q
  expect found.isEmpty
    ("expected zero " ++ q.entity ++ " rows but got " ++ toString found.length
      ++ " (action=" ++ action.text ++ ")")

/-- The text of the statement contains the given one. -/
def statementContains (q : Query) (text : Value) : Except AssertError Unit := do
  let statement ← q.statement.mapError .query
  let written ← statement.literalText.mapError .print
  let found ← (text.elementOf (.str written)).mapError .fault
  expect found (text.text ++ " not found in compiled SQL:\n" ++ written)

end Assertion

end RowPolicy
