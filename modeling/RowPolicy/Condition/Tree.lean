import RowPolicy.Join.Tree
import RowPolicy.Value

/-!
# Condition trees

A condition maps names to values. A name with an ordinary value is a literal
condition on an attribute; a name with a mapping for a value is an association, and
the mapping is a condition on the associated row.
-/

namespace RowPolicy

/-- A condition on a row, entry by entry. -/
inductive ConditionTree where
  | nil
  /-- The attribute `name` is compared with a value. -/
  | literal (name : String) (value : Value) (rest : ConditionTree)
  /-- A row associated by `name` satisfies a condition. -/
  | association (name : String) (inner rest : ConditionTree)

namespace ConditionTree

instance : Inhabited ConditionTree := ⟨nil⟩

/-- The condition given by the entries of a mapping. -/
def ofEntries : List (String × Value) → ConditionTree
  | [] => nil
  | (name, .map inner) :: rest => association name (ofEntries inner) (ofEntries rest)
  | (name, value) :: rest => literal name value (ofEntries rest)

/-- The entries of a condition as those of a mapping. -/
def entries : ConditionTree → List (String × Value)
  | nil => []
  | literal name value rest => (name, value) :: rest.entries
  | association name inner rest => (name, .map inner.entries) :: rest.entries

/-- Reading a mapping as a condition loses nothing. -/
@[simp] theorem entries_ofEntries (es : List (String × Value)) : (ofEntries es).entries = es := by
  fun_induction ofEntries es <;> simp_all [entries]

/-- Whether a condition has no entry. -/
def isEmpty : ConditionTree → Bool
  | nil => true
  | literal _ _ _ | association _ _ _ => false

/-- The literal entries of the first level. -/
def literals : ConditionTree → List (String × Value)
  | nil => []
  | literal name value rest => (name, value) :: rest.literals
  | association _ _ rest => rest.literals

/-- The names of the associations that a condition refers to. -/
def associations : ConditionTree → JoinTree
  | nil => .nil
  | literal _ _ rest => rest.associations
  | association name inner rest => .node name inner.associations rest.associations

end ConditionTree

end RowPolicy
