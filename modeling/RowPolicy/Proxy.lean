import RowPolicy.Dict
import RowPolicy.Text.Quoted

/-!
# Proxies

A proxy is an entity whose rows refer to rows of other entities: one column names the
kind of the row referred to and another its key. A registry lists the proxies with the
field after which the two columns are named. A proxy keeps the field it was first
given, until the registry is cleared.
-/

namespace RowPolicy

/-- The field of a proxy. -/
structure ProxyField where
  name : String
  deriving DecidableEq, Repr

namespace ProxyField

/-- The attribute that names the kind of the row referred to. -/
def typeColumn (f : ProxyField) : String := f.name ++ "_type"

/-- The attribute that holds the key of the row referred to. -/
def idColumn (f : ProxyField) : String := f.name ++ "_id"

end ProxyField

/-- The proxies known, with their fields. -/
structure ProxyRegistry where
  fields : Dict String ProxyField

/-- Why a proxy is refused. -/
inductive ProxyError where
  /-- The field has no name. -/
  | emptyField
  /-- The entity is a proxy with another field. -/
  | alreadyProxy (entity : String) (field : ProxyField)
  deriving DecidableEq, Repr

namespace ProxyError

/-- The text of the error. -/
def message : ProxyError → String
  | emptyField => "field must be a non-empty association name"
  | alreadyProxy entity field =>
      entity ++ " is already a polymorphic proxy on " ++ Text.quoted field.name

end ProxyError

namespace ProxyRegistry

/-- The registry without proxies. -/
def empty : ProxyRegistry := ⟨∅⟩

instance : EmptyCollection ProxyRegistry := ⟨empty⟩
instance : Inhabited ProxyRegistry := ⟨empty⟩

/-- The field of a proxy; other entities have none. -/
def lookup (r : ProxyRegistry) (entity : String) : Option ProxyField := r.fields.get? entity

/-- Whether an entity is a proxy. -/
def contains (r : ProxyRegistry) (entity : String) : Bool := (r.lookup entity).isSome

/-- The name of the field of a proxy; other entities have none. -/
def fieldName? (r : ProxyRegistry) (entity : String) : Option String :=
  (r.lookup entity).map ProxyField.name

/-- The registry in which an entity is a proxy with the given field. -/
def configure (r : ProxyRegistry) (entity field : String) : Except ProxyError ProxyRegistry :=
  if field = "" then .error .emptyField
  else
    match r.lookup entity with
    | none => .ok ⟨r.fields.insert entity ⟨field⟩⟩
    | some known => if known.name = field then .ok r else .error (.alreadyProxy entity known)

/-- The registry with further proxies, one after the other. -/
def configureAll (r : ProxyRegistry) (entries : List (String × ProxyField)) :
    Except ProxyError ProxyRegistry :=
  entries.foldlM (fun acc (entity, field) => acc.configure entity field.name) r

end ProxyRegistry

end RowPolicy
