import RowPolicy.Sql.Term.Reader

/-!
# Reading terms and queries

Operators bind in ten levels, from `OR` at the loosest to the signs at the tightest, and
those of one level group to the left. A prefix `NOT` takes everything that binds tighter
than itself. A query reads as a sequence of selections with the order and the limits of
their rows behind the last one. Every function that reads is given more fuel than there
are steps to take.
-/

namespace RowPolicy.Sql

namespace Token

/-- The level and the meaning of an operator between two operands. -/
def operator? : Token → Option (Nat × (Term → Term → Term))
  | word s =>
      match s.toUpper with
      | "OR" => some (0, .binary .or)
      | "AND" => some (1, .both)
      | _ => none
  | symbol s =>
      match s with
      | "=" | "==" => some (3, .binary (.relation .eq))
      | "!=" | "<>" => some (3, .binary (.relation .ne))
      | "<" => some (4, .binary (.relation .lt))
      | "<=" => some (4, .binary (.relation .le))
      | ">" => some (4, .binary (.relation .gt))
      | ">=" => some (4, .binary (.relation .ge))
      | "&" => some (5, .binary (.arithmetic .bitAnd))
      | "|" => some (5, .binary (.arithmetic .bitOr))
      | "<<" => some (5, .binary (.arithmetic .shiftLeft))
      | ">>" => some (5, .binary (.arithmetic .shiftRight))
      | "+" => some (6, .binary (.arithmetic .add))
      | "-" => some (6, .binary (.arithmetic .sub))
      | "*" => some (7, .binary (.arithmetic .mul))
      | "/" => some (7, .binary (.arithmetic .div))
      | "%" => some (7, .binary (.arithmetic .mod))
      | "||" => some (8, .binary .concat)
      | "->" | "->>" => some (8, .binaryCall s)
      | _ => none
  | _ => none

end Token

namespace Reader

/-- No value is among none, whatever the value is. -/
def amongNone (negated : Bool) : Term := .name none none (if negated then "true" else "false") false

mutual

/-- Whether a term is the same for all rows as far as it is written. -/
def isConstant (fuel : Nat) (x : Term) : Bool :=
  match fuel with
  | 0 => false
  | fuel + 1 =>
      match x with
      | .literal _ | .parameter _ => true
      | .name none none s false => ["TRUE", "FALSE"].contains s.toUpper
      | .unary _ x => isConstant fuel x
      | .binary _ x y => isConstant fuel x && isConstant fuel y
      | .choose base branches otherwise =>
          areConstant fuel (base.toList ++ otherwise.toList)
            && areConstant fuel (branches.map Prod.fst) && areConstant fuel (branches.map Prod.snd)
      | .row items => areConstant fuel items
      | .member x items => isConstant fuel x && areConstant fuel items
      | _ => false

/-- Whether all of some terms are the same for all rows. -/
def areConstant (fuel : Nat) (items : List Term) : Bool :=
  match fuel with
  | 0 => false
  | fuel + 1 => items.all (isConstant fuel)

end

/-- The values that one of the items between parentheses stands for beside a row. -/
def rowItem : Term → List Term
  | .row items => items
  | x => [x]

/-- Whether a value is among some others. A single query in parentheses lists all of its
values, and a single constant is compared by itself. -/
def membership (fuel : Nat) (x : Term) (items : List Term) : Term :=
  match x, items with
  | .row _, [.query q] => .among x q
  | .row _, items => .among x (.ofSelection (.values (items.map rowItem)))
  | x, [y] =>
      if isConstant fuel y then .binary (.relation .eq) x (.unary .plus y)
      else
        match y with
        | .query q => .among x q
        | y => .member x [y]
  | x, items => .member x items

/-- Whether the words that exclude rows from a frame follow, and which. -/
def exclusion : Reader FrameExclusion := do
  if !(← keyword? "EXCLUDE") then return .nothing
  if ← keyword? "NO" then
    keyword "OTHERS"
    return .nothing
  if ← keyword? "CURRENT" then
    keyword "ROW"
    return .row
  if ← keyword? "GROUP" then return .group
  keyword "TIES"
  return .ties

mutual

/-- A term whose operators bind at the level or tighter. -/
def term (fuel level : Nat) : Reader Term := do
  match fuel with
  | 0 => failure
  | fuel + 1 => extended fuel level (← operand fuel)

/-- A term that starts with an operand already read. -/
def extended (fuel level : Nat) (x : Term) : Reader Term := do
  match fuel with
  | 0 => failure
  | fuel + 1 =>
      match (← get).head?.bind fun l => l.token.operator? with
      | some (own, combine) =>
          if own < level then return x
          let _ ← next
          extended fuel level (combine x (← term fuel (own + 1)))
      | none =>
          if ← keyword? "COLLATE" then
            match Collation.ofName? (← plainName) with
            | some k => extended fuel level (.unary (.collate k) x)
            | none => failure
          else if level ≤ 3 then
            match ← relation? fuel x with
            | some x => extended fuel level x
            | none => return x
          else return x

/-- A relation that is named by a word, if one follows. -/
def relation? (fuel : Nat) (x : Term) : Reader (Option Term) := do
  match fuel with
  | 0 => failure
  | fuel + 1 =>
      if ← keyword? "ISNULL" then return some (.unary .isNull x)
      if ← keyword? "NOTNULL" then return some (.negateIf true (.unary .isNull x))
      if ← keyword? "IS" then
        let negated ← keyword? "NOT"
        if ← keyword? "DISTINCT" then
          keyword "FROM"
          return some (.negateIf (!negated) (.binary .same x (← term fuel 4)))
        return some (.negateIf negated (.binary .same x (← term fuel 4)))
      let negated ← keyword? "NOT"
      for (word, function) in [("LIKE", "like"), ("GLOB", "glob"), ("REGEXP", "regexp"),
          ("MATCH", "match")] do
        if ← keyword? word then
          let pattern ← term fuel 4
          let escape ← if ← keyword? "ESCAPE" then (fun e => [e]) <$> term fuel 5 else pure []
          return some (.negateIf negated (.call (.ofArgs function (pattern :: x :: escape))))
      if ← keyword? "BETWEEN" then
        let low ← term fuel 3
        keyword "AND"
        let high ← term fuel 4
        return some (.negateIf negated (.binary .and (.binary (.relation .ge) x low)
          (.binary (.relation .le) x high)))
      if ← keyword? "IN" then return some (← members fuel negated x)
      if negated then
        keyword "NULL"
        return some (.negateIf true (.unary .isNull x))
      return none

/-- What a value has to be among. -/
def members (fuel : Nat) (negated : Bool) (x : Term) : Reader Term := do
  match fuel with
  | 0 => failure
  | fuel + 1 =>
      if ← symbol? "(" then
        if ← seesQuery then
          let q ← query fuel
          symbol ")"
          return .negateIf negated (.among x q)
        if ← symbol? ")" then return amongNone negated
        let items ← terms fuel
        symbol ")"
        return .negateIf negated (membership fuel x items)
      let first ← name
      let second ← if ← symbol? "." then some <$> name else pure none
      let args ← arguments? fuel
      match second with
      | some table => return .negateIf negated (.among x (.ofTable (some first) table args))
      | none => return .negateIf negated (.among x (.ofTable none first args))

/-- Terms between parentheses, if there are any parentheses. -/
def arguments? (fuel : Nat) : Reader (Option (List Term)) := do
  match fuel with
  | 0 => failure
  | fuel + 1 =>
      if !(← symbol? "(") then return none
      if ← symbol? ")" then return some []
      let args ← terms fuel
      symbol ")"
      return some args

/-- An operand of operators. -/
def operand (fuel : Nat) : Reader Term := do
  match fuel with
  | 0 => failure
  | fuel + 1 =>
      match ← next with
      | .literal (.str s) =>
          if ← seesSymbol "." then column s false else return .literal (.str s)
      | .literal v => return .literal v
      | .parameter _ place => return .parameter place
      | .name s mayBeText =>
          if ← seesSymbol "(" then calledWith fuel s else column s mayBeText
      | .symbol "-" =>
          match ← get with
          | ⟨.literal (.float _), _, text⟩ :: rest =>
              if text.filter (· ≠ '_') == "9223372036854775808".toList then
                set rest
                return .literal (.int (-9223372036854775808))
              return (← operand fuel).negative
          | _ => return (← operand fuel).negative
      | .symbol "+" => return .unary .plus (← operand fuel)
      | .symbol "~" => return .unary .complement (← operand fuel)
      | .symbol "(" =>
          if ← seesQuery then
            let q ← query fuel
            symbol ")"
            return .query q
          let items ← terms fuel
          symbol ")"
          match items with
          | [x] => return x
          | items => return .row items
      | .symbol _ => failure
      | .word s =>
          match s.toUpper with
          | "NULL" => return .literal .null
          | "NOT" => return .unary .not (← term fuel 3)
          | "EXISTS" =>
              symbol "("
              let q ← query fuel
              symbol ")"
              return .exists q
          | "CURRENT_DATE" | "CURRENT_TIME" | "CURRENT_TIMESTAMP" => return .call (.ofArgs s [])
          | "RAISE" => failure
          | "CAST" =>
              symbol "("
              let x ← term fuel 0
              keyword "AS"
              let type ← typeName fuel
              symbol ")"
              return .unary (.cast (.ofTypeName type)) x
          | "CASE" =>
              let base ← if ← sees ["WHEN"] then pure none else some <$> term fuel 0
              let branches ← branches fuel
              let otherwise ← if ← keyword? "ELSE" then some <$> term fuel 0 else pure none
              keyword "END"
              return .choose base branches otherwise
          | _ =>
              if !isName s then failure
              if ← seesSymbol "(" then calledWith fuel s else column s false

/-- The branches of a choice. -/
def branches (fuel : Nat) : Reader (List (Term × Term)) := do
  match fuel with
  | 0 => failure
  | fuel + 1 =>
      keyword "WHEN"
      let condition ← term fuel 0
      keyword "THEN"
      let value ← term fuel 0
      if ← sees ["WHEN"] then return (condition, value) :: (← branches fuel)
      return [(condition, value)]

/-- Terms with commas between them. -/
def terms (fuel : Nat) : Reader (List Term) := do
  match fuel with
  | 0 => failure
  | fuel + 1 =>
      let x ← term fuel 0
      if ← symbol? "," then return x :: (← terms fuel) else return [x]

/-- The call of a function whose name was read. -/
def calledWith (fuel : Nat) (name : String) : Reader Term := do
  match fuel with
  | 0 => failure
  | fuel + 1 =>
      symbol "("
      let star ← symbol? "*"
      let distinct ← if star then pure false else keyword? "DISTINCT"
      if !star && !distinct then let _ ← keyword? "ALL"
      let isEmpty := star || (← seesSymbol ")")
      let args ← if isEmpty then pure [] else terms fuel
      let keys ← if star then pure [] else orderKeys fuel
      symbol ")"
      let filter ←
        match ← get with
        | filter :: paren :: _ =>
            if filter.token.isKeyword "FILTER" && paren.token == .symbol "(" then
              let _ ← next
              symbol "("
              keyword "WHERE"
              let x ← term fuel 0
              symbol ")"
              pure (some x)
            else pure none
        | _ => pure none
      return .call ⟨name, star, distinct, args, keys, filter, ← overWindow? fuel⟩

/-- The window behind a call, if there is one. -/
def overWindow? (fuel : Nat) : Reader (Option (Over Term)) := do
  match fuel with
  | 0 => failure
  | fuel + 1 =>
      match ← get with
      | word :: after :: _ =>
          if !word.token.isKeyword "OVER" then return none
          if after.token == .symbol "(" then
            let _ ← next
            return some (.window (← window fuel))
          if (nameOf? isName after.token).isSome then
            let _ ← next
            return some (.named (← name))
          return none
      | _ => return none

/-- A window in parentheses. -/
def window (fuel : Nat) : Reader (Window Term) := do
  match fuel with
  | 0 => failure
  | fuel + 1 =>
      symbol "("
      let plain ← sees ["PARTITION", "ORDER", "RANGE", "ROWS", "GROUPS"]
      let base ← if plain || (← seesSymbol ")") then pure none else some <$> name
      let partition ←
        if ← keyword? "PARTITION" then
          keyword "BY"
          terms fuel
        else pure []
      let keys ← orderKeys fuel
      let frame ← frame? fuel
      symbol ")"
      return ⟨base, partition, keys, frame⟩

/-- The rows around a row, if they are given. -/
def frame? (fuel : Nat) : Reader (Option (Frame Term)) := do
  match fuel with
  | 0 => failure
  | fuel + 1 =>
      let unit ←
        if ← keyword? "RANGE" then pure FrameUnit.range
        else if ← keyword? "ROWS" then pure .rows
        else if ← keyword? "GROUPS" then pure .groups
        else return none
      if ← keyword? "BETWEEN" then
        let first ← frameBound fuel true
        keyword "AND"
        let last ← frameBound fuel false
        return some ⟨unit, first, last, ← exclusion⟩
      let first ← frameBound fuel true
      return some ⟨unit, first, .current, ← exclusion⟩

/-- Where a frame begins or ends. -/
def frameBound (fuel : Nat) (isFirst : Bool) : Reader (FrameBound Term) := do
  match fuel with
  | 0 => failure
  | fuel + 1 =>
      if ← keyword? "UNBOUNDED" then
        keyword (if isFirst then "PRECEDING" else "FOLLOWING")
        return if isFirst then .start else .stop
      if ← keyword? "CURRENT" then
        keyword "ROW"
        return .current
      let distance ← term fuel 0
      if ← keyword? "PRECEDING" then return .preceding distance
      keyword "FOLLOWING"
      return .following distance

/-- The keys behind `ORDER BY`, if it comes next. -/
def orderKeys (fuel : Nat) : Reader (List (SortKey Term)) := do
  match fuel with
  | 0 => failure
  | fuel + 1 =>
      if !(← keyword? "ORDER") then return []
      keyword "BY"
      sortKeys fuel

/-- Keys with commas between them. -/
def sortKeys (fuel : Nat) : Reader (List (SortKey Term)) := do
  match fuel with
  | 0 => failure
  | fuel + 1 =>
      let x ← term fuel 0
      let descending ← if ← keyword? "ASC" then pure false else keyword? "DESC"
      let nullsFirst ←
        if ← keyword? "NULLS" then
          if ← keyword? "FIRST" then pure true
          else
            keyword "LAST"
            pure false
        else pure (!descending)
      let key : SortKey Term := ⟨x, descending, nullsFirst⟩
      if ← symbol? "," then return key :: (← sortKeys fuel)
      return [key]

/-- What a selection shows. -/
def items (fuel : Nat) : Reader (List Item) := do
  match fuel with
  | 0 => failure
  | fuel + 1 =>
      let item ← item fuel
      if ← symbol? "," then return item :: (← items fuel) else return [item]

/-- One of the things that a selection shows. -/
def item (fuel : Nat) : Reader Item := do
  match fuel with
  | 0 => failure
  | fuel + 1 =>
      if ← symbol? "*" then return .all
      match ← get with
      | table :: dot :: star :: rest =>
          if dot.token == .symbol "." && star.token == .symbol "*" then
            match nameOf? isName table.token with
            | some s =>
                set rest
                return .allOf s
            | none => failure
          else labelled fuel
      | _ => labelled fuel

/-- A term that may have a name. -/
def labelled (fuel : Nat) : Reader Item := do
  match fuel with
  | 0 => failure
  | fuel + 1 =>
      let start ← get
      let x ← term fuel 0
      let rest ← get
      let text := Lexeme.written (start.take (start.length - rest.length)) rest.head?
      return .term x (← label?) text

/-- The tables of a selection, of which the first is joined as given. -/
def sources (fuel : Nat) (join : JoinKind) : Reader (List Source) := do
  match fuel with
  | 0 => failure
  | fuel + 1 =>
      let body ← sourceBody fuel
      let label ← label?
      if label.isNone then
        match body with
        | .table _ _ none =>
            if ← keyword? "INDEXED" then
              keyword "BY"
              failure
            if ← keyword? "NOT" then keyword "INDEXED"
        | _ => pure ()
      let on ← if ← keyword? "ON" then some <$> term fuel 0 else pure none
      let shared ←
        if on.isNone && (← keyword? "USING") then
          symbol "("
          let shared ← names fuel
          symbol ")"
          pure shared
        else pure []
      let source : Source := .mk join body label on shared
      match ← joinKind? with
      | some join => return source :: (← sources fuel join)
      | none => return [source]

/-- A table, a query or further tables in parentheses. -/
def sourceBody (fuel : Nat) : Reader SourceBody := do
  match fuel with
  | 0 => failure
  | fuel + 1 =>
      if ← symbol? "(" then
        if ← seesQuery then
          let q ← query fuel
          symbol ")"
          return .query q
        let nested ← sources fuel .inner
        symbol ")"
        return .nested nested
      let first ← name
      let second ← if ← symbol? "." then some <$> name else pure none
      let args ← arguments? fuel
      match second with
      | some table => return .table (some first) table args
      | none => return .table none first args

/-- A selection of rows. -/
def selection (fuel : Nat) : Reader Selection := do
  match fuel with
  | 0 => failure
  | fuel + 1 =>
      if ← keyword? "VALUES" then return .values (← valueRows fuel)
      keyword "SELECT"
      let distinct ← keyword? "DISTINCT"
      if !distinct then let _ ← keyword? "ALL"
      let items ← items fuel
      let sources ← if ← keyword? "FROM" then sources fuel .inner else pure []
      let condition ← if ← keyword? "WHERE" then some <$> term fuel 0 else pure none
      let groups ←
        if ← keyword? "GROUP" then
          keyword "BY"
          terms fuel
        else pure []
      let having ← if ← keyword? "HAVING" then some <$> term fuel 0 else pure none
      let windows ←
        if ← seesWindows then
          keyword "WINDOW"
          windowList fuel
        else pure []
      return .rows distinct items sources condition groups having windows

/-- Windows with names. -/
def windowList (fuel : Nat) : Reader (List (String × Window Term)) := do
  match fuel with
  | 0 => failure
  | fuel + 1 =>
      let s ← name
      keyword "AS"
      let w ← window fuel
      if ← symbol? "," then return (s, w) :: (← windowList fuel) else return [(s, w)]

/-- Rows of terms in parentheses. -/
def valueRows (fuel : Nat) : Reader (List (List Term)) := do
  match fuel with
  | 0 => failure
  | fuel + 1 =>
      symbol "("
      let row ← terms fuel
      symbol ")"
      if ← symbol? "," then return row :: (← valueRows fuel) else return [row]

/-- Further selections whose rows are put together with those in front. -/
def setOps (fuel : Nat) : Reader (List (SetOp × Selection)) := do
  match fuel with
  | 0 => failure
  | fuel + 1 =>
      let op ←
        if ← keyword? "UNION" then
          if ← keyword? "ALL" then pure SetOp.unionAll else pure .union
        else if ← keyword? "EXCEPT" then pure .except
        else if ← keyword? "INTERSECT" then pure .intersect
        else return []
      let s ← selection fuel
      return (op, s) :: (← setOps fuel)

/-- A query, after the tables that it defines for itself. -/
def query (fuel : Nat) : Reader Query := do
  match fuel with
  | 0 => failure
  | fuel + 1 =>
      let common ←
        if ← keyword? "WITH" then
          let _ ← keyword? "RECURSIVE"
          commonTables fuel
        else pure []
      let first ← selection fuel
      let rest ← setOps fuel
      let isListed := match rest.getLast? with
        | some (_, .values _) => true
        | some _ => false
        | none => match first with
          | .values _ => true
          | _ => false
      if isListed then return .mk common first rest [] none none
      let keys ← orderKeys fuel
      if ← keyword? "LIMIT" then
        let x ← term fuel 0
        if ← keyword? "OFFSET" then
          return .mk common first rest keys (some x) (some (← term fuel 0))
        if ← symbol? "," then return .mk common first rest keys (some (← term fuel 0)) (some x)
        return .mk common first rest keys (some x) none
      return .mk common first rest keys none none

/-- The tables that a query defines for itself. -/
def commonTables (fuel : Nat) : Reader (List CommonTable) := do
  match fuel with
  | 0 => failure
  | fuel + 1 =>
      let table ← name
      let columns ←
        if ← symbol? "(" then
          let columns ← names fuel
          symbol ")"
          pure columns
        else pure []
      keyword "AS"
      if ← keyword? "NOT" then keyword "MATERIALIZED"
      else let _ ← keyword? "MATERIALIZED"
      symbol "("
      let body ← query fuel
      symbol ")"
      let common : CommonTable := .mk table columns body
      if ← symbol? "," then return common :: (← commonTables fuel) else return [common]

end

/-- The fuel for reading some tokens. -/
def fuelFor (lexemes : List Lexeme) : Nat := 12 * lexemes.length + 24

/-- Read some tokens to the end. -/
def readAll {α : Type} (read : Nat → Reader α) (lexemes : List Lexeme) : Option α :=
  match (read (fuelFor lexemes)).run lexemes with
  | some (a, []) => some a
  | _ => none

end Reader

end RowPolicy.Sql
