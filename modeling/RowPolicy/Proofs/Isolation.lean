import RowPolicy.Proofs.Leaves
import RowPolicy.Sample.Queries
import RowPolicy.Session

/-!
# Isolation of the shared state

An isolation is left by configuring the proxies again that were there before it, one by one. That
cannot fail and gives the same registry back, because no change of the shared state ever makes a
proxy of a field without a name. So whatever is done inside, in further isolations or until an
exception ends it, the state afterwards is the state before.
-/

namespace RowPolicy

/-! ## Changes of the shared state -/

/-- A change of the shared state. -/
inductive GlobalsChange where
  | configure (overrides : Settings)
  | resetConfig
  | setConfig (config : Config)
  | configureProxy (entity field : String)
  | clearProxies

/-- Why a change is refused. -/
inductive ChangeError where
  | config (e : ConfigError)
  | proxy (e : ProxyError)

namespace GlobalsChange

/-- The state after a change, unless it is refused. -/
def applyTo (g : Globals) : GlobalsChange → Except ChangeError Globals
  | configure overrides => (g.configure overrides).mapError .config
  | resetConfig => .ok g.resetConfig
  | setConfig config => .ok { g with config := config }
  | configureProxy entity field => (g.configureProxy entity field).mapError .proxy
  | clearProxies => .ok g.clearProxies

end GlobalsChange

/-- The states that some changes lead to from the first one on. -/
inductive Globals.Reachable : Globals → Prop
  | start : Reachable {}
  | change {g g' : Globals} (c : GlobalsChange) (hg : Reachable g) (h : c.applyTo g = .ok g') :
      Reachable g'

/-! ## What is done in an isolation -/

/-- What is done with the shared state, with exceptions from `ε`. After each part that may fail
what is done next depends on whether it has failed: an exception may be handled or raised again. -/
inductive Body (ε : Type) where
  | done
  | raise (e : ε)
  /-- What is done next depends on the state. -/
  | look (next : Globals → Body ε)
  | change (c : GlobalsChange) (next : Except ε Unit → Body ε)
  /-- Something is done in a further isolation. -/
  | isolate (config : Option Config) (inner : Body ε) (next : Except ε Unit → Body ε)

namespace Body

variable {ε : Type}

/-- The state after a body and how the body has ended. -/
def run (lift : ChangeError → ε) : Body ε → Globals → Globals × Except ε Unit
  | done, g => (g, .ok ())
  | raise e, g => (g, .error e)
  | look next, g => (next g).run lift g
  | change c next, g =>
      match c.applyTo g with
      | .ok g' => (next (.ok ())).run lift g'
      | .error e => (next (.error (lift e))).run lift g
  | isolate config inner next, g =>
      let (after, outcome) := Globals.isolated (lift ∘ .proxy) config (inner.run lift) g
      (next outcome).run lift after

/-- The same if every isolation just keeps the state from before it. -/
def runKept (lift : ChangeError → ε) : Body ε → Globals → Globals × Except ε Unit
  | done, g => (g, .ok ())
  | raise e, g => (g, .error e)
  | look next, g => (next g).runKept lift g
  | change c next, g =>
      match c.applyTo g with
      | .ok g' => (next (.ok ())).runKept lift g'
      | .error e => (next (.error (lift e))).runKept lift g
  | isolate config inner next, g => (next (inner.runKept lift (.inside config)).2).runKept lift g

end Body

/-! ## Restoring a registry -/

namespace ProxyRegistry

variable {r r' : ProxyRegistry} {entity field : String}

/-- Whether the field of every proxy has a name. -/
def IsNamed (r : ProxyRegistry) : Prop := ∀ entry ∈ r.fields.entries, entry.2.name ≠ ""

theorem isNamed_empty : (∅ : ProxyRegistry).IsNamed := by
  intro entry hentry
  cases hentry

/-- An entity is made a proxy unless the field has no name or the entity has another field. -/
theorem configure_eq_ok : r.configure entity field = .ok r' ↔ field ≠ "" ∧
    ((r.lookup entity = none ∧ r' = ⟨r.fields.insert entity ⟨field⟩⟩) ∨
      (r.lookup entity = some ⟨field⟩ ∧ r' = r)) := by
  unfold configure
  split
  next hempty => simp [hempty]
  next hfield =>
    cases hknown : r.lookup entity with
    | none => simp [hfield, eq_comm]
    | some known =>
        by_cases hname : known.name = field
        · subst hname
          simp [hfield, eq_comm]
        · have hother : known ≠ ⟨field⟩ := by
            rintro rfl
            exact hname rfl
          simp [hname, hother]

theorem IsNamed.configure (hr : r.IsNamed) (h : r.configure entity field = .ok r') :
    r'.IsNamed := by
  obtain ⟨hfield, ⟨hnew, rfl⟩ | ⟨_, rfl⟩⟩ := configure_eq_ok.mp h
  · intro entry hentry
    have hentries : (r.fields.insert entity ⟨field⟩).entries =
        r.fields.entries ++ [(entity, ⟨field⟩)] :=
      Entries.insert_of_not_mem _ (Dict.get?_eq_none.mp hnew)
    rw [hentries] at hentry
    rcases List.mem_append.mp hentry with hold | hlast
    · exact hr entry hold
    · obtain rfl := List.mem_singleton.mp hlast
      exact hfield
  · exact hr

/-- Further proxies whose fields have names are added in their order. -/
theorem configureAll_eq {entries : List (String × ProxyField)}
    (hnamed : ∀ entry ∈ entries, entry.2.name ≠ "")
    (hnodup : (r.fields.keys ++ entries.map Prod.fst).Nodup) :
    r.configureAll entries = .ok ⟨r.fields.insertAll entries⟩ := by
  induction entries generalizing r with
  | nil => rfl
  | cons first rest ih =>
      obtain ⟨hfirst, hrest⟩ := List.forall_mem_cons.mp hnamed
      have hfresh : first.1 ∉ r.fields.keys := fun hmem =>
        (List.nodup_append.mp hnodup).2.2 _ hmem _ List.mem_cons_self rfl
      have hconfigure : r.configure first.1 first.2.name =
          .ok ⟨r.fields.insert first.1 first.2⟩ :=
        configure_eq_ok.mpr ⟨hfirst, Or.inl ⟨Dict.get?_eq_none.mpr hfresh, rfl⟩⟩
      have hkeys : (r.fields.insert first.1 first.2).keys = r.fields.keys ++ [first.1] := by
        rw [Dict.keys_insert, if_neg hfresh]
      change (r.configure first.1 first.2.name).bind (fun acc => acc.configureAll rest) = _
      rw [hconfigure]
      exact ih (r := ⟨r.fields.insert first.1 first.2⟩) hrest (by simpa [hkeys] using hnodup)

/-- A registry is built again from its proxies. -/
theorem IsNamed.configureAll_entries (hr : r.IsNamed) :
    (∅ : ProxyRegistry).configureAll r.fields.entries = .ok r := by
  have hagain : (∅ : ProxyRegistry).fields.insertAll r.fields.entries = r.fields :=
    Dict.ext (Dict.entries_ofList r.fields.nodup_keys)
  rw [configureAll_eq (r := ∅) hr r.fields.nodup_keys, hagain]

end ProxyRegistry

/-! ## Restoring the shared state -/

namespace Globals

variable {ε α : Type} {g g' : Globals}

/-- No change makes a proxy of a field without a name. -/
theorem isNamed_applyTo {c : GlobalsChange} (hg : g.proxies.IsNamed) (h : c.applyTo g = .ok g') :
    g'.proxies.IsNamed := by
  cases c with
  | configure overrides =>
      obtain ⟨config, _, hg'⟩ := Outcome.bind_eq_ok.mp (Outcome.mapError_eq_ok.mp h)
      obtain rfl := Outcome.pure_eq_ok.mp hg'
      exact hg
  | resetConfig =>
      obtain rfl := Except.ok.inj h
      exact hg
  | setConfig config =>
      obtain rfl := Except.ok.inj h
      exact hg
  | configureProxy entity field =>
      obtain ⟨proxies, hproxies, hg'⟩ := Outcome.bind_eq_ok.mp (Outcome.mapError_eq_ok.mp h)
      obtain rfl := Outcome.pure_eq_ok.mp hg'
      exact hg.configure hproxies
  | clearProxies =>
      obtain rfl := Except.ok.inj h
      exact ProxyRegistry.isNamed_empty

theorem Reachable.isNamed (h : g.Reachable) : g.proxies.IsNamed := by
  induction h with
  | start => exact ProxyRegistry.isNamed_empty
  | change c _ hchange ih => exact isNamed_applyTo ih hchange

/-- A body starts from a state that changes could have led to as well. -/
theorem reachable_inside (config : Option Config) : (inside config).Reachable :=
  .change (.setConfig (config.getD .standard)) .start rfl

theorem Reachable.restored_eq (h : g.Reachable) : g.restored = .ok g := by
  rw [restored, h.isNamed.configureAll_entries]
  rfl

/-- Leaving an isolation keeps the outcome of any body. -/
theorem Reachable.isolated_eq (h : g.Reachable) (lift : ProxyError → ε) (config : Option Config)
    (body : Globals → Globals × Except ε α) :
    isolated lift config body g = (g, (body (inside config)).2) := by
  rw [isolated, h.restored_eq]

end Globals

/-- A session that has opened an isolation is left with the shared state from before it, whatever
has become of the session in between. -/
theorem Session.restore_eq {s s' : Session} (h : s.globals.Reachable) {config : Option Config}
    (hsaved : s'.saved = (s.isolate config).saved) :
    s'.restore = .ok { s' with globals := s.globals, saved := s.saved } := by
  rw [restore, hsaved]
  simp only [isolate, h.restored_eq]

/-! ## Running bodies -/

namespace Body

variable {ε : Type} {lift : ChangeError → ε} {body : Body ε} {g : Globals}

/-- Running a body keeps states reachable, so its isolations do just keep the state. -/
theorem run_eq_runKept (hg : g.Reachable) :
    body.run lift g = body.runKept lift g ∧ (body.run lift g).1.Reachable := by
  induction body generalizing g with
  | done => exact ⟨rfl, hg⟩
  | raise e => exact ⟨rfl, hg⟩
  | look next ih => exact ih g hg
  | change c next ih =>
      unfold run runKept
      cases hchange : c.applyTo g with
      | ok g' => exact ih _ (.change c hg hchange)
      | error e => exact ih _ hg
  | isolate config inner next ihInner ihNext =>
      obtain ⟨hinner, _⟩ := ihInner (Globals.reachable_inside config)
      unfold run runKept
      rw [hg.isolated_eq, hinner]
      exact ihNext _ hg

end Body

/-- An isolation is a bracket, in every state that changes of the shared state can lead to and for
every body. Configuring the proxies again gives the state before it, their order included. The body
starts from the given configuration, or else the standard one, and without proxies. Afterwards the
state is the one before, and the outcome is that of the body, an exception of its own included.
Inside, every further isolation just keeps its state, at any depth. -/
theorem Globals.isolated_is_bracket {ε : Type} {before : Globals} (h : before.Reachable)
    (lift : ChangeError → ε) (config : Option Config) (body : Body ε) :
    before.restored = .ok before ∧
    inside config = ⟨config.getD .standard, ∅⟩ ∧
    isolated (lift ∘ .proxy) config (body.run lift) before =
      (before, (body.run lift (inside config)).2) ∧
    body.run lift (inside config) = body.runKept lift (inside config) :=
  ⟨h.restored_eq, rfl, h.isolated_eq _ config _, (Body.run_eq_runKept (reachable_inside config)).1⟩

/-- Missing rules are a failure, and activities and versions are proxies. -/
def strictGlobals : Globals where
  config := ⟨.str "read", .fail, .bool true, .warn, rfl⟩
  proxies := ⟨.ofList [("Version", ⟨"item"⟩), ("Activity", ⟨"trackable"⟩)]⟩

/-- The registry is filled and an inner isolation is ended by an exception, which is handled; one
more proxy is refused. -/
def refusedBody : Body String :=
  .change (.configureProxy "Activity" "subject") fun _ =>
    .isolate none (.change .clearProxies fun _ => .raise "left early") fun _ =>
      .change (.configureProxy "Activity" "trackable") fun
        | .ok _ => .done
        | .error e => .raise e

theorem refusedBody_isolated : strictGlobals.Reachable ∧
    strictGlobals.restored = .ok strictGlobals ∧
    Globals.isolated (fun _ => "refused") none (refusedBody.run fun _ => "refused") strictGlobals =
      (strictGlobals, .error "refused") := by
  have hreachable : strictGlobals.Reachable :=
    .change (.configureProxy "Activity" "trackable")
      (.change (.configureProxy "Version" "item")
        (.change (.setConfig strictGlobals.config) .start rfl) rfl) rfl
  obtain ⟨hrestored, _, hisolated, _⟩ :=
    Globals.isolated_is_bracket hreachable (fun _ => "refused") none refusedBody
  exact ⟨hreachable, hrestored, hisolated⟩

end RowPolicy
