/-!
# Dictionaries in insertion order

A dictionary lists its entries in the order in which their keys were first
inserted. Inserting a key again replaces its value and keeps its place, so no key
occurs twice, and two dictionaries are equal when they list the same entries.
-/

namespace RowPolicy

universe u v

variable {κ : Type u} {α : Type v}

namespace Entries

variable [DecidableEq κ]

/-- Replace the value of `key` where it stands, or add it at the end. -/
def insert (key : κ) (value : α) : List (κ × α) → List (κ × α)
  | [] => [(key, value)]
  | (k, v) :: rest => if k = key then (k, value) :: rest else (k, v) :: insert key value rest

/-- The value of the first entry with the given key. -/
def get? (key : κ) : List (κ × α) → Option α
  | [] => none
  | (k, v) :: rest => if k = key then some v else get? key rest

/-- Inserting a key adds it at the end unless it is there already. -/
theorem map_fst_insert (key : κ) (value : α) (entries : List (κ × α)) :
    (insert key value entries).map Prod.fst =
      if key ∈ entries.map Prod.fst then entries.map Prod.fst
      else entries.map Prod.fst ++ [key] := by
  induction entries with
  | nil => simp [insert]
  | cons entry rest ih =>
      obtain ⟨k, v⟩ := entry
      by_cases hk : k = key
      · simp [insert, hk]
      · have hk' : ¬key = k := fun h => hk h.symm
        simp only [insert, hk, if_false, List.map_cons, ih, List.mem_cons, hk', false_or]
        split <;> simp

theorem nodup_insert (key : κ) (value : α) {entries : List (κ × α)}
    (h : (entries.map Prod.fst).Nodup) : ((insert key value entries).map Prod.fst).Nodup := by
  rw [map_fst_insert]
  split
  · exact h
  next hkey =>
      refine List.nodup_append.2 ⟨h, by simp, fun a ha b hb hab => ?_⟩
      rw [List.mem_singleton] at hb
      exact hkey (hb ▸ hab ▸ ha)

theorem get?_insert (key other : κ) (value : α) (entries : List (κ × α)) :
    get? other (insert key value entries) =
      if key = other then some value else get? other entries := by
  induction entries with
  | nil => simp [insert, get?]
  | cons entry rest ih =>
      obtain ⟨k, v⟩ := entry
      by_cases hk : k = key
      · subst hk
        by_cases ho : k = other <;> simp [insert, get?, ho]
      · by_cases ho : k = other
        · subst ho
          simp [insert, get?, hk, Ne.symm hk]
        · simp [insert, get?, hk, ho, ih]

theorem get?_eq_none {key : κ} {entries : List (κ × α)} :
    get? key entries = none ↔ key ∉ entries.map Prod.fst := by
  induction entries with
  | nil => simp [get?]
  | cons entry rest ih =>
      by_cases hk : entry.1 = key
      · simp [get?, hk]
      · simp [get?, hk, ih, Ne.symm hk]

end Entries

/-- A finite map that remembers the order in which its keys were inserted. -/
structure Dict (κ : Type u) (α : Type v) where
  /-- The entries, earliest key first. -/
  entries : List (κ × α)
  nodup_keys : (entries.map Prod.fst).Nodup

namespace Dict

@[ext] theorem ext {d e : Dict κ α} (h : d.entries = e.entries) : d = e := by
  cases d; cases e; cases h; rfl

instance [DecidableEq κ] [DecidableEq α] : DecidableEq (Dict κ α) := fun d e =>
  decidable_of_iff (d.entries = e.entries) ⟨ext, fun h => h ▸ rfl⟩

/-- The dictionary without entries. -/
def empty : Dict κ α := ⟨[], List.nodup_nil⟩

instance : EmptyCollection (Dict κ α) := ⟨empty⟩
instance : Inhabited (Dict κ α) := ⟨empty⟩

/-- The keys, earliest first. -/
def keys (d : Dict κ α) : List κ := d.entries.map Prod.fst

/-- Whether there is no entry. -/
def isEmpty (d : Dict κ α) : Bool := d.entries.isEmpty

@[simp] theorem entries_empty : (∅ : Dict κ α).entries = [] := rfl

variable [DecidableEq κ]

/-- The value stored under `key`. -/
def get? (d : Dict κ α) (key : κ) : Option α := Entries.get? key d.entries

/-- Store `value` under `key`: in place if the key is known, at the end otherwise. -/
def insert (d : Dict κ α) (key : κ) (value : α) : Dict κ α :=
  ⟨Entries.insert key value d.entries, Entries.nodup_insert key value d.nodup_keys⟩

/-- Insert the given entries one after the other. -/
def insertAll (d : Dict κ α) (entries : List (κ × α)) : Dict κ α :=
  entries.foldl (fun acc entry => acc.insert entry.1 entry.2) d

/-- The dictionary that results from inserting the given entries in order. -/
def ofList (entries : List (κ × α)) : Dict κ α := insertAll ∅ entries

/-- Insert all entries of the second dictionary into the first. -/
def update (d e : Dict κ α) : Dict κ α := d.insertAll e.entries

/-- Whether `key` has a value. -/
def contains (d : Dict κ α) (key : κ) : Bool := (d.get? key).isSome

@[simp] theorem get?_empty (key : κ) : (∅ : Dict κ α).get? key = none := rfl

@[simp] theorem get?_insert (d : Dict κ α) (key other : κ) (value : α) :
    (d.insert key value).get? other = if key = other then some value else d.get? other :=
  Entries.get?_insert key other value d.entries

/-- Exactly the keys have values. -/
theorem get?_eq_none {d : Dict κ α} {key : κ} : d.get? key = none ↔ key ∉ d.keys :=
  Entries.get?_eq_none

/-- A new key goes to the end of the keys; a known one leaves them as they are. -/
theorem keys_insert (d : Dict κ α) (key : κ) (value : α) :
    (d.insert key value).keys = if key ∈ d.keys then d.keys else d.keys ++ [key] :=
  Entries.map_fst_insert key value d.entries

end Dict

end RowPolicy
