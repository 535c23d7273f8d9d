import RowPolicy.Schema

/-!
# A sample schema

Organizations with their users, posts with comments and tags, activities that refer
to rows of other entities, and a few entities with unusual keys: an article is keyed
by a text and stores its title in a column of another name, a membership has a key of
two columns, and a category refers to categories.
-/

namespace RowPolicy.Sample

open Sql

/-- An attribute stored in the column of the same name. -/
def plain (name : String) (type : ScalarType) : Attribute := ⟨name, name, type, false⟩

/-- An attribute of the primary key. -/
def key (name : String) (type : ScalarType) : Attribute := ⟨name, name, type, true⟩

/-- A column that holds a number by which rows are known. -/
def number (table name : String) : Column := ⟨table, name, .integer⟩

def organization : Entity where
  name := "Organization"
  table := "organizations"
  attributes := [key "id" .integer, plain "name" .text]
  relationships := [
      ⟨"users", "User", true, .direct (number "organizations" "id") (number "users" "org_id")⟩]

def user : Entity where
  name := "User"
  table := "users"
  attributes :=
    [key "id" .integer, plain "name" .text, plain "manager_id" .integer,
      plain "self_managed" .truth, plain "banned" .truth, plain "org_id" .integer]
  relationships := [
      ⟨"organization", "Organization", false,
        .direct (number "organizations" "id") (number "users" "org_id")⟩,
      ⟨"posts", "Post", true, .direct (number "users" "id") (number "posts" "author_id")⟩]

def post : Entity where
  name := "Post"
  table := "posts"
  attributes :=
    [key "id" .integer, plain "title" .text, plain "is_published" .truth,
      plain "author_id" .integer]
  relationships := [
      ⟨"author", "User", false, .direct (number "users" "id") (number "posts" "author_id")⟩,
      ⟨"comments", "Comment", true, .direct (number "posts" "id") (number "comments" "post_id")⟩,
      ⟨"tags", "Tag", true,
        .through "post_tags" (number "posts" "id") "post_id" (number "tags" "id") "tag_id"⟩]

def comment : Entity where
  name := "Comment"
  table := "comments"
  attributes :=
    [key "id" .integer, plain "body" .text, plain "approved" .truth, plain "post_id" .integer]
  relationships := [
      ⟨"post", "Post", false, .direct (number "posts" "id") (number "comments" "post_id")⟩]

def tag : Entity where
  name := "Tag"
  table := "tags"
  attributes := [key "id" .integer, plain "name" .text, plain "visibility" .text]
  relationships := [
      ⟨"posts", "Post", true,
        .through "post_tags" (number "tags" "id") "tag_id" (number "posts" "id") "post_id"⟩]

def activity : Entity where
  name := "Activity"
  table := "activities"
  attributes :=
    [key "id" .integer, plain "key" .text, plain "trackable_type" .text,
      plain "trackable_id" .integer]
  relationships := []

def article : Entity where
  name := "Article"
  table := "articles"
  attributes :=
    [key "uid" .text, ⟨"title", "headline", .text, false⟩, plain "score" .real,
      plain "owner_id" .integer]
  relationships := [
      ⟨"owner", "User", false, .direct (number "users" "id") (number "articles" "owner_id")⟩]

def membership : Entity where
  name := "Membership"
  table := "memberships"
  attributes := [key "user_id" .integer, key "org_id" .integer, plain "role" .text]
  relationships := [
      ⟨"user", "User", false, .direct (number "users" "id") (number "memberships" "user_id")⟩,
      ⟨"organization", "Organization", false,
        .direct (number "organizations" "id") (number "memberships" "org_id")⟩]

def category : Entity where
  name := "Category"
  table := "categories"
  attributes := [key "id" .integer, plain "label" .text, plain "parent_id" .integer]
  relationships := [
      ⟨"parent", "Category", false,
        .direct (number "categories" "id") (number "categories" "parent_id")⟩]

/-- The sample schema. Every stored kind is below `Base`; articles are below the
abstract kind `Content`; all but memberships are accessible by rules. -/
def schema : Schema where
  entities :=
    [organization, user, post, comment, tag, activity, article, membership, category]
  tables := [("post_tags", [number "post_tags" "post_id", number "post_tags" "tag_id"])]
  ancestors :=
    let accessible := ["AccessibleMixin", "Base", "object"]
    [("Organization", accessible), ("User", accessible), ("Post", accessible),
      ("Comment", accessible), ("Tag", accessible), ("Activity", accessible),
      ("Article", "Content" :: accessible), ("Membership", ["Base", "object"]),
      ("Category", accessible), ("Content", ["Base", "object"]), ("Plain", ["object"]),
      ("PlainChild", ["Plain", "object"]), ("Base", ["object"]),
      ("AccessibleMixin", ["object"])]

end RowPolicy.Sample
