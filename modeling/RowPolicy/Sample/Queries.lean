import RowPolicy.Query.Records
import RowPolicy.Sample.Rows

/-!
# Sample queries

Queries for reading rows of the sample schema, in which activities are a proxy.
-/

namespace RowPolicy.Sample

/-- The only proxy: an activity refers to the row that it tracks. -/
def proxies : ProxyRegistry := ⟨.ofList [("Activity", ⟨"trackable"⟩)]⟩

/-- A rule on reading one kind of row. -/
def readRule (allow : Bool) (subject : String) (tree : ConditionTree) : Rule :=
  ⟨allow, ["read"], [.kind subject], .mapping tree⟩

/-- The query for reading an entity under some rules, latest first. -/
def reading (entity : String) (rules : List Rule) : Query where
  schema := schema
  entity := entity
  action := .str "read"
  rules := rules
  proxies := proxies
  config := default

end RowPolicy.Sample

namespace RowPolicy.Query

/-- Whether the posts that are readable under some rules have the given keys. -/
def ReadsPosts (rules : List Rule) (keys : List Scalar) : Prop :=
  ∃ s p joins, (Sample.reading "Post" rules).records = .ok ⟨.select s, p, joins⟩ ∧
    s.runKeys Sample.database = .ok keys

/-- The text of a statement that selects posts, up to its filter. -/
def postsWhere : String :=
  "SELECT posts.id, posts.title, posts.is_published, posts.author_id \nFROM posts \nWHERE "

end RowPolicy.Query
