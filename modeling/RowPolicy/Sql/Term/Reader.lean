import RowPolicy.Sql.Term
import RowPolicy.Sql.Token

/-!
# Taking tokens

Terms are read from a list of tokens, front to back. Keywords are words in either case.
Most keywords can also be names where the keyword is not expected; a few are reserved.
-/

namespace RowPolicy.Sql

namespace Token

/-- Whether a token is the given keyword, in either case. -/
def isKeyword (k : String) : Token → Bool
  | word s => s.toUpper == k
  | _ => false

end Token

/-- Reading takes tokens from the front of a list, or fails. -/
abbrev Reader := StateT (List Lexeme) Option

namespace Reader

/-- The words that cannot be names. -/
def reserved : List String :=
  ["ADD", "ALL", "ALTER", "AND", "AS", "AUTOINCREMENT", "BETWEEN", "CASE", "CHECK", "COLLATE",
    "COMMIT", "CONSTRAINT", "CREATE", "DEFAULT", "DEFERRABLE", "DELETE", "DISTINCT", "DROP", "ELSE",
    "ESCAPE", "EXCEPT", "EXISTS", "FOREIGN", "FROM", "GROUP", "HAVING", "IN", "INDEX", "INSERT",
    "INTERSECT", "INTO", "IS", "ISNULL", "JOIN", "LIMIT", "NOT", "NOTHING", "NOTNULL", "NULL", "ON",
    "OR", "ORDER", "PRIMARY", "REFERENCES", "RETURNING", "SELECT", "SET", "TABLE", "THEN", "TO",
    "TRANSACTION", "UNION", "UNIQUE", "UPDATE", "USING", "VALUES", "WHEN", "WHERE"]

/-- Whether a word can be a name. -/
def isName (word : String) : Bool := !reserved.contains word.toUpper

/-- The words with which a join can begin. -/
def joinWords : List String :=
  ["CROSS", "FULL", "INNER", "LEFT", "NATURAL", "OUTER", "RIGHT"]

/-- Whether a word can be a name where a join could follow as well. -/
def isPlainName (word : String) : Bool :=
  isName word && !joinWords.contains word.toUpper && word.toUpper != "INDEXED"

/-- Take the next token if it passes a test. -/
def take? (test : Token → Bool) : Reader Bool := do
  match ← get with
  | lexeme :: rest =>
      if test lexeme.token then
        set rest
        return true
      else return false
  | [] => return false

/-- Take the next token if it is the keyword. -/
def keyword? (k : String) : Reader Bool := take? (Token.isKeyword k)

/-- Take the next token if it is the symbol. -/
def symbol? (s : String) : Reader Bool := take? (· == .symbol s)

/-- Take what has to come next. -/
def require (found : Reader Bool) : Reader Unit := do
  if ← found then return
  failure

/-- Take a keyword that has to come next. -/
def keyword (k : String) : Reader Unit := require (keyword? k)

/-- Take a symbol that has to come next. -/
def symbol (s : String) : Reader Unit := require (symbol? s)

/-- Whether the next token is one of the keywords. -/
def sees (ks : List String) : Reader Bool :=
  return (← get).head?.any fun l => ks.any fun k => l.token.isKeyword k

/-- Whether the next token is the symbol. -/
def seesSymbol (s : String) : Reader Bool :=
  return (← get).head?.any fun l => l.token == .symbol s

/-- Whether a query begins here. -/
def seesQuery : Reader Bool := sees ["SELECT", "VALUES", "WITH"]

/-- Take the next token. -/
def next : Reader Token := do
  match ← get with
  | lexeme :: rest =>
      set rest
      return lexeme.token
  | [] => failure

/-- The name that a token is, where words are tested as given. -/
def nameOf? (test : String → Bool) : Token → Option String
  | .word s => if test s then some s else none
  | .name s _ | .literal (.str s) => some s
  | _ => none

/-- Take a name. -/
def name : Reader String := do
  match nameOf? isName (← next) with
  | some s => return s
  | none => failure

/-- Take a name that a join could not follow. -/
def plainName : Reader String := do
  match nameOf? isPlainName (← next) with
  | some s => return s
  | none => failure

/-- Whether the word `WINDOW` comes next and introduces windows. -/
def seesWindows : Reader Bool := do
  match ← get with
  | window :: name :: as :: _ =>
      return window.token.isKeyword "WINDOW" && (nameOf? isName name.token).isSome
        && as.token.isKeyword "AS"
  | _ => return false

/-- Take the name that is given to what stands in front of it, if there is one. -/
def label? : Reader (Option String) := do
  if ← keyword? "AS" then return some (← name)
  if ← seesWindows then return none
  match (← get).head?.bind fun l => nameOf? isPlainName l.token with
  | some s =>
      let _ ← next
      return some s
  | none => return none

/-- Take names with commas between them, at most `fuel`. -/
def names (fuel : Nat) : Reader (List String) := do
  match fuel with
  | 0 => failure
  | fuel + 1 =>
      let s ← name
      if ← symbol? "," then return s :: (← names fuel) else return [s]

/-- The words of the name of a type, at most `fuel` of them. -/
def typeWords (fuel : Nat) : Reader (List String) := do
  let word? := (← get).head?.bind fun l => nameOf? isPlainName l.token
  match fuel, word? with
  | fuel + 1, some s =>
      let _ ← next
      return s :: (← typeWords fuel)
  | _, _ => return []

/-- A number of the size of a type. -/
def typeSize : Reader Unit := do
  let _ ← if ← symbol? "-" then pure true else symbol? "+"
  match ← next with
  | .literal (.int _) | .literal (.float _) => return
  | _ => failure

/-- The name of a type, without the size that may follow it. -/
def typeName (fuel : Nat) : Reader String := do
  let words ← typeWords fuel
  if !words.isEmpty && (← symbol? "(") then
    typeSize
    if ← symbol? "," then typeSize
    symbol ")"
  return String.intercalate " " words

/-- Take the rest of a column's name, which may come after a table and a schema. -/
def column (first : String) (mayBeText : Bool) : Reader Term := do
  if ← symbol? "." then
    let second ← name
    if ← symbol? "." then return .name (some first) (some second) (← name) false
    return .name none (some first) second false
  return .name none none first mayBeText

/-- The words of a join, if one comes next: how the next table is joined, for commas and
joins alike. -/
def joinKind? : Reader (Option JoinKind) := do
  if ← symbol? "," then return some .inner
  if ← keyword? "JOIN" then return some .inner
  if !(← sees joinWords) then return none
  let first ← name
  let second ← if ← sees ["JOIN"] then pure [] else (fun s => [s]) <$> name
  let third ← if ← sees ["JOIN"] then pure [] else (fun s => [s]) <$> name
  keyword "JOIN"
  let words := (first :: second ++ third).map String.toUpper
  if !words.all joinWords.contains then failure
  let isSided := words.any ["LEFT", "RIGHT", "FULL"].contains
  let isOuter := isSided || words.contains "OUTER"
  if isOuter && (!isSided || words.any ["INNER", "CROSS"].contains) then failure
  return some {
    keepsLeft := words.any ["LEFT", "FULL"].contains
    keepsRight := words.any ["RIGHT", "FULL"].contains
    natural := words.contains "NATURAL"
    isCross := words.contains "CROSS" }

end Reader

end RowPolicy.Sql
