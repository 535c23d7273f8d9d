import RowPolicy.Sql.Expr
import RowPolicy.Sql.Parameter
import RowPolicy.Sql.Truth
import RowPolicy.Sql.Wildcard

/-!
# The meaning of plain expressions

An assignment gives every column a cell; columns of a row that an outer join did not
find are missing values. Comparisons with a missing value are unknown. What is given as
text has no meaning of its own: it is read as a part of the whole statement.
-/

namespace RowPolicy.Sql

/-- Whether cells in the given order stand in the relation. -/
def Relation.holds : Relation → Ordering → Bool
  | eq, o => o == .eq
  | ne, o => o != .eq
  | lt, o => o == .lt
  | le, o => o != .gt
  | gt, o => o == .gt
  | ge, o => o != .lt

/-- The truth of a comparison of two cells with their affinities. -/
def Relation.test (r : Relation) (f : Affinity) (a : Scalar) (g : Affinity) (b : Scalar) : Truth :=
  match f.order? a g b with
  | some o => .ofBool (r.holds o)
  | none => .unknown

/-- The characters of a cell that count beside a pattern: those in front of the first
null character. -/
def patternChars (cell : Scalar) : List Char :=
  cell.cellText.toList.takeWhile fun c => c.toNat ≠ 0

/-- The truth of a comparison of a cell with a pattern, upper and lower case of the basic
alphabet alike. -/
def likeTest (cell pattern : Scalar) : Truth :=
  if cell = .null ∨ pattern = .null then .unknown
  else
    .ofBool (Wildcard.covers true (Wildcard.ofLike none (patternChars pattern))
      (patternChars cell))

/-- Whether a cell equals one of the others. No other cell at all makes this false, also
for a missing cell. -/
def memberTest (f : Affinity) (cell : Scalar) : List Scalar → Truth
  | [] => .no
  | other :: rest => (Relation.eq.test f cell .none other).or (memberTest f cell rest)

/-- What every column holds. -/
abbrev Assignment := Column → Scalar

namespace Expr

/-- The truth value of a plain expression. A comparison with a value that no cell can
hold is unknown, and so is everything that is not plain. -/
def eval (σ : Assignment) : Expr → Truth
  | const b | settled b => .ofBool b
  | unknown | blank _ | fragment _ => .unknown
  | nullTest negated c => .ofBool ((σ c == .null) != negated)
  | compare r c (.value v) => r.test c.affinity (σ c) .none v.cell
  | compare r c (.truth b) => r.test c.affinity (σ c) .none (.bool b)
  | compare r c (.column d) => r.test c.affinity (σ c) d.affinity (σ d)
  | like negated c pattern =>
      let found := likeTest (σ c) pattern.cell
      if negated then found.not else found
  | member negated c values =>
      let found := memberTest c.affinity (σ c) (values.map (c.memberType values).cell)
      if negated then found.not else found
  | isNotTrue e => (e.eval σ).isNotTrue
  | and l r => (l.eval σ).and (r.eval σ)
  | or l r => (l.eval σ).or (r.eval σ)

end Expr

end RowPolicy.Sql
