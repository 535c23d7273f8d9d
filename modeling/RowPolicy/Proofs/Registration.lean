import Mathlib.Data.List.DropRight
import RowPolicy.Proofs.Calls
import RowPolicy.Proofs.Isolation

/-!
# What a registry of proxies has come to

A registry is changed by calls that make an entity a proxy and by calls that forget all proxies. An
entity has the field that it was given first since the proxies were last forgotten: a later call
with the same field changes nothing, and one with another field is refused.
-/

namespace RowPolicy

/-- A call of a registry. -/
inductive RegistryCall where
  | configure (entity field : String)
  | clear
  deriving DecidableEq

namespace RegistryCall

/-- The registry after a call, unless it is refused. -/
def applyTo (r : ProxyRegistry) : RegistryCall → Except ProxyError ProxyRegistry
  | configure entity field => r.configure entity field
  | clear => .ok ∅

/-- Whether a call forgets the proxies. -/
def isClear : RegistryCall → Bool
  | clear => true
  | configure _ _ => false

/-- The field that a call gives to an entity, if it is about that entity. -/
def fieldFor? (entity : String) : RegistryCall → Option ProxyField
  | configure other field => if other = entity then some ⟨field⟩ else none
  | clear => none

/-- The field that an entity is given first since the proxies were last forgotten. -/
def firstField? (calls : List RegistryCall) (entity : String) : Option ProxyField :=
  (calls.rtakeWhile fun call => !call.isClear).findSome? (fieldFor? entity)

theorem firstField?_configure (calls : List RegistryCall) (entity field other : String) :
    firstField? (calls ++ [configure entity field]) other =
      (firstField? calls other).or (if entity = other then some ⟨field⟩ else none) := by
  simp [firstField?, isClear, List.findSome?_append, fieldFor?]

theorem firstField?_clear (calls : List RegistryCall) (other : String) :
    firstField? (calls ++ [clear]) other = none := by
  simp [firstField?, isClear]

end RegistryCall

namespace ProxyRegistry

variable {r r' : ProxyRegistry} {entity field other : String}

/-- What is not done is refused, for one of two reasons. -/
theorem configure_eq_error {e : ProxyError} : r.configure entity field = .error e ↔
    (field = "" ∧ e = .emptyField) ∨ (field ≠ "" ∧
      ∃ known, r.lookup entity = some known ∧ known.name ≠ field ∧
        e = .alreadyProxy entity known) := by
  unfold configure
  split
  next hempty =>
    rw [Except.error.injEq, and_iff_right hempty, eq_comm]
    simp [hempty]
  next hfield =>
    cases hknown : r.lookup entity with
    | none => simp [hfield]
    | some known =>
        by_cases hname : known.name = field
        · simp [hfield, hname]
        · simp [hfield, hname, eq_comm (a := e)]

theorem configure_refused_iff : (∃ e, r.configure entity field = .error e) ↔
    field = "" ∨ ∃ known, r.lookup entity = some known ∧ known.name ≠ field := by
  simp only [configure_eq_error]
  constructor
  · rintro ⟨_, ⟨hempty, _⟩ | ⟨_, known, hknown, hname, _⟩⟩
    · exact Or.inl hempty
    · exact Or.inr ⟨known, hknown, hname⟩
  · rintro (hempty | ⟨known, hknown, hname⟩)
    · exact ⟨_, Or.inl ⟨hempty, rfl⟩⟩
    · by_cases hempty : field = ""
      · exact ⟨_, Or.inl ⟨hempty, rfl⟩⟩
      · exact ⟨_, Or.inr ⟨hempty, known, hknown, hname, rfl⟩⟩

theorem lookup_configure (h : r.configure entity field = .ok r') :
    r'.lookup other =
      (r.lookup other).or (if entity = other then some ⟨field⟩ else none) := by
  obtain ⟨_, ⟨hnone, rfl⟩ | ⟨hsome, rfl⟩⟩ := configure_eq_ok.mp h
  · by_cases hother : entity = other
    · subst hother
      rw [hnone]
      simp [lookup]
    · simp [lookup, hother]
  · by_cases hother : entity = other
    · subst hother
      simp [hsome]
    · simp [hother]

theorem lookup_eq_some {f : ProxyField} :
    r.lookup entity = some f ↔ (entity, f) ∈ r.fields.entries :=
  ⟨Entries.mem_of_get?, Dict.get?_of_mem⟩

theorem contains_iff : r.contains entity = true ↔ entity ∈ r.fields.keys := by
  have hmissing : r.lookup entity = none ↔ entity ∉ r.fields.keys := Dict.get?_eq_none
  rw [contains, Option.isSome_iff_ne_none, ne_eq, hmissing, not_not]

theorem fieldName?_eq_some {name : String} :
    r.fieldName? entity = some name ↔ (entity, ⟨name⟩) ∈ r.fields.entries := by
  rw [← lookup_eq_some, fieldName?, Option.map_eq_some_iff]
  constructor
  · rintro ⟨f, hf, rfl⟩
    exact hf
  · intro h
    exact ⟨_, h, rfl⟩

/-- The registry after some calls. -/
def after (calls : List RegistryCall) : ProxyRegistry := Calls.run RegistryCall.applyTo ∅ calls

/-- Those of some calls that succeed. -/
def granted (calls : List RegistryCall) : List RegistryCall :=
  Calls.accepted RegistryCall.applyTo ∅ calls

/-- In a registry every field has a name, and each entity has the field that it was given first. -/
theorem isNamed_and_lookup_after (calls : List RegistryCall) : (after calls).IsNamed ∧
    ∀ entity, (after calls).lookup entity = RegistryCall.firstField? (granted calls) entity := by
  refine Calls.run_induction (P := fun (r : ProxyRegistry) earlier => r.IsNamed ∧
    ∀ entity, r.lookup entity = RegistryCall.firstField? earlier entity) ?_ ?_ calls
  · exact ⟨isNamed_empty, fun entity => rfl⟩
  · intro r r' earlier call ⟨hnamed, hlookup⟩ hcall
    cases call with
    | configure entity field =>
        refine ⟨hnamed.configure hcall, ?_⟩
        intro other
        rw [lookup_configure hcall, hlookup, RegistryCall.firstField?_configure]
    | clear =>
        obtain rfl := Except.ok.inj hcall
        refine ⟨isNamed_empty, ?_⟩
        intro other
        rw [RegistryCall.firstField?_clear]
        rfl

/-- After any calls, some of which may be refused, an entity has the field that it was given by the
first successful call since the proxies were last forgotten, and none if there was no such call. A
further call is refused exactly if its field has no name or the entity has another field, and then
changes nothing. The three ways to ask for a proxy read the same entries, whose fields all have
names. -/
theorem proxies_after (calls : List RegistryCall) :
    (∀ entity, (after calls).lookup entity = RegistryCall.firstField? (granted calls) entity) ∧
    (∀ entity field, (∃ e, (after calls).configure entity field = .error e) ↔
      field = "" ∨ ∃ known, (after calls).lookup entity = some known ∧ known.name ≠ field) ∧
    (∀ entity field e, (after calls).configure entity field = .error e →
      after (calls ++ [.configure entity field]) = after calls) ∧
    (∀ entity, ((after calls).contains entity = true ↔ entity ∈ (after calls).fields.keys) ∧
      (∀ f, (after calls).lookup entity = some f ↔ (entity, f) ∈ (after calls).fields.entries) ∧
      ∀ name, (after calls).fieldName? entity = some name ↔
        (entity, ⟨name⟩) ∈ (after calls).fields.entries) ∧
    ∀ entry ∈ (after calls).fields.entries, entry.2.name ≠ "" := by
  obtain ⟨hnamed, hlookup⟩ := isNamed_and_lookup_after calls
  refine ⟨hlookup, fun entity field => configure_refused_iff, ?_, ?_, hnamed⟩
  · intro entity field e herror
    exact Calls.run_append_of_error herror
  · intro entity
    exact ⟨contains_iff, fun f => lookup_eq_some, fun name => fieldName?_eq_some⟩

/-- Activities are asked to be a proxy three times, in between with another field and in vain, and
so are versions, whose field has no name. Then all is forgotten, and activities get that other
field. -/
def trackedTwice : List RegistryCall :=
  [.configure "Activity" "trackable", .configure "Activity" "owner", .configure "Version" "",
    .configure "Activity" "trackable", .clear, .configure "Activity" "owner",
    .configure "Activity" "trackable"]

theorem trackedTwice_proxies :
    (after trackedTwice).lookup "Activity" = some ⟨"owner"⟩ ∧
    (after trackedTwice).lookup "Version" = none ∧
    after (trackedTwice ++ [.configure "Activity" "trackable"]) = after trackedTwice ∧
    (after trackedTwice).contains "Activity" = true := by
  obtain ⟨hlookup, hrefused, hkept, hagree, _⟩ := proxies_after trackedTwice
  have hactivity : (after trackedTwice).lookup "Activity" = some ⟨"owner"⟩ := hlookup "Activity"
  obtain ⟨e, he⟩ := (hrefused "Activity" "trackable").mpr (Or.inr ⟨_, hactivity, by decide⟩)
  refine ⟨hactivity, hlookup "Version", hkept _ _ e he, (hagree "Activity").1.mpr ?_⟩
  exact List.mem_map_of_mem (((hagree "Activity").2.1 _).mp hactivity)

end ProxyRegistry

end RowPolicy
