import RowPolicy.Globals
import RowPolicy.Proofs.Calls
import RowPolicy.Proofs.Outcome

/-!
# Layers of settings

The configuration of all queries is changed by calls, each of which gives values for some of its
fields. The values are checked together with those that stay, and as these are fit a call is refused
for its own values only. So each field has the last value that a call gave to it which was not
refused, or else its standard value.
-/

namespace RowPolicy

/-- Values for the fields of a configuration that are texts, and whether queries are logged; a field
may have none. -/
structure Layer where
  defaultAction : Option String := none
  onMissingRules : Option String := none
  logQueries : Option Bool := none
  onFallbackQuery : Option String := none

/-- The values of a configuration whose values are texts, and whether queries are logged. -/
structure PlainConfig where
  defaultAction : String := "index"
  onMissingRules : String := "deny"
  logQueries : Bool := false
  onFallbackQuery : String := "warn"

/-- Whether settings are refused for a value, and not because one cannot be looked up. -/
def ConfigError.IsOfValue : ConfigError → Prop
  | emptyAction | notAChoice _ _ _ => True
  | fault _ => False

/-! ## Checking texts -/

theorem Value.same_str (a b : String) : (Value.str a).same (.str b) = (a == b) := by
  rw [Bool.eq_iff_iff]
  simp [Value.same, Scalar.same, Scalar.number?]

namespace Settings

variable {α : Type} (field : String) (choices : List (String × α)) {text : String}

/-- A text that names a choice is that choice. -/
theorem exists_choose_of_mem (name : α → String)
    (hname : ∀ choice ∈ choices, choice.1 = name choice.2) (h : text ∈ choices.map Prod.fst) :
    ∃ a, choose field choices (.str text) = .ok a ∧ name a = text := by
  unfold choose
  simp only [Value.same_str]
  cases hfound : choices.find? fun choice => text == choice.1 with
  | some choice =>
      obtain rfl : text = choice.1 := by simpa using List.find?_some hfound
      exact ⟨choice.2, rfl, (hname choice (List.mem_of_find?_eq_some hfound)).symm⟩
  | none =>
      obtain ⟨choice, hchoice, rfl⟩ := List.mem_map.mp h
      simpa using List.find?_eq_none.mp hfound choice hchoice

/-- Any other text is refused. -/
theorem exists_choose_of_not_mem (h : text ∉ choices.map Prod.fst) :
    ∃ e : ConfigError, e.IsOfValue ∧ choose field choices (.str text) = .error e := by
  have hnone : choices.find? (fun choice => text == choice.1) = none := by
    rw [List.find?_eq_none]
    intro choice hchoice heq
    exact h (List.mem_map.mpr ⟨choice, hchoice, (beq_iff_eq.mp heq).symm⟩)
  refine ⟨.notAChoice field (choices.map Prod.fst) (.str text), trivial, ?_⟩
  simp [choose, Value.same_str, hnone, Value.isKey]

end Settings

/-! ## Configurations of texts -/

namespace PlainConfig

/-- These values as settings. -/
def settings (p : PlainConfig) : Settings where
  defaultAction := some (.str p.defaultAction)
  onMissingRules := some (.str p.onMissingRules)
  logQueries := some (.bool p.logQueries)
  onFallbackQuery := some (.str p.onFallbackQuery)

/-- Whether there is an action and the others are choices of their fields. -/
structure IsValid (p : PlainConfig) : Prop where
  defaultAction : p.defaultAction ≠ ""
  onMissingRules : p.onMissingRules ∈ ["deny", "raise"]
  onFallbackQuery : p.onFallbackQuery ∈ ["ignore", "raise", "warn"]

variable {p : PlainConfig}

theorem isPresent_defaultAction :
    (Value.str p.defaultAction).isPresent = true ↔ p.defaultAction ≠ "" := by
  simp [Value.isPresent]

/-- Fit values make a configuration that shows them. -/
theorem exists_config (h : p.IsValid) :
    ∃ c : Config, p.settings.check = .ok c ∧ c.settings = p.settings := by
  obtain ⟨haction, hmissing, hfallback⟩ := h
  have hpresent := isPresent_defaultAction.mpr haction
  obtain ⟨missing, hmissing, hmissingName⟩ := Settings.exists_choose_of_mem "on_missing_rules"
    MissingRules.names MissingRules.name (by decide) hmissing
  obtain ⟨fallback, hfallback, hfallbackName⟩ := Settings.exists_choose_of_mem "on_fallback_query"
    FallbackQuery.names FallbackQuery.name (by decide) hfallback
  refine ⟨⟨.str p.defaultAction, missing, .bool p.logQueries, fallback, hpresent⟩, ?_, ?_⟩
  · simp [Settings.check, settings, hpresent, hmissing, hfallback, bind, Except.bind, pure,
      Except.pure]
  · simp [Config.settings, settings, hmissingName, hfallbackName]

/-- One of other values is refused. -/
theorem exists_error (h : ¬ p.IsValid) :
    ∃ e : ConfigError, e.IsOfValue ∧ p.settings.check = .error e := by
  by_cases haction : p.defaultAction = ""
  · refine ⟨.emptyAction, trivial, ?_⟩
    simp [Settings.check, settings, haction, Value.isPresent]
  · have hpresent := isPresent_defaultAction.mpr haction
    by_cases hmissing : p.onMissingRules ∈ MissingRules.names.map Prod.fst
    · obtain ⟨missing, hchoose, _⟩ := Settings.exists_choose_of_mem "on_missing_rules"
        MissingRules.names MissingRules.name (by decide) hmissing
      have hfallback : p.onFallbackQuery ∉ FallbackQuery.names.map Prod.fst := by
        intro hmem
        exact h ⟨haction, hmissing, hmem⟩
      obtain ⟨e, he, hrefused⟩ := Settings.exists_choose_of_not_mem "on_fallback_query" _ hfallback
      refine ⟨e, he, ?_⟩
      simp [Settings.check, settings, hpresent, hchoose, hrefused, bind, Except.bind]
    · obtain ⟨e, he, hrefused⟩ := Settings.exists_choose_of_not_mem "on_missing_rules" _ hmissing
      refine ⟨e, he, ?_⟩
      simp [Settings.check, settings, hpresent, hrefused, bind, Except.bind]

end PlainConfig

/-! ## Layers -/

namespace Layer

/-- The values that a layer has as settings. -/
def settings (l : Layer) : Settings where
  defaultAction := l.defaultAction.map .str
  onMissingRules := l.onMissingRules.map .str
  logQueries := l.logQueries.map .bool
  onFallbackQuery := l.onFallbackQuery.map .str

/-- Whether each value that a layer has is fit for its field. -/
structure IsValid (l : Layer) : Prop where
  defaultAction : ∀ text ∈ l.defaultAction, text ≠ ""
  onMissingRules : ∀ text ∈ l.onMissingRules, text ∈ ["deny", "raise"]
  onFallbackQuery : ∀ text ∈ l.onFallbackQuery, text ∈ ["ignore", "raise", "warn"]

instance (l : Layer) : Decidable l.IsValid :=
  decidable_of_iff
    ((∀ text ∈ l.defaultAction, text ≠ "")
      ∧ (∀ text ∈ l.onMissingRules, text ∈ ["deny", "raise"])
      ∧ ∀ text ∈ l.onFallbackQuery, text ∈ ["ignore", "raise", "warn"])
    ⟨fun ⟨action, missing, fallback⟩ => ⟨action, missing, fallback⟩,
      fun h => ⟨h.defaultAction, h.onMissingRules, h.onFallbackQuery⟩⟩

end Layer

namespace PlainConfig

/-- The values that a layer has, and those of a configuration where it has none. -/
def overriddenBy (p : PlainConfig) (l : Layer) : PlainConfig where
  defaultAction := l.defaultAction.getD p.defaultAction
  onMissingRules := l.onMissingRules.getD p.onMissingRules
  logQueries := l.logQueries.getD p.logQueries
  onFallbackQuery := l.onFallbackQuery.getD p.onFallbackQuery

/-- The last value that some layers have for each field, or its standard one. -/
def latest (layers : List Layer) : PlainConfig where
  defaultAction := (layers.filterMap Layer.defaultAction).getLast?.getD "index"
  onMissingRules := (layers.filterMap Layer.onMissingRules).getLast?.getD "deny"
  logQueries := (layers.filterMap Layer.logQueries).getLast?.getD false
  onFallbackQuery := (layers.filterMap Layer.onFallbackQuery).getLast?.getD "warn"

variable {p : PlainConfig} {l : Layer} {layers : List Layer}

theorem settings_overriddenBy :
    (p.overriddenBy l).settings = p.settings.overriddenBy l.settings := by
  have hfield : ∀ {α : Type} (f : α → Value) (given : Option α) (old : α),
      some (f (given.getD old)) = (given.map f).or (some (f old)) := by
    intro α f given old
    cases given with
    | none => rfl
    | some a => rfl
  simp only [overriddenBy, settings, Settings.overriddenBy, Layer.settings, hfield]

/-- The values that stay are fit, so all are if those of the layer are. -/
theorem isValid_overriddenBy (h : p.IsValid) : (p.overriddenBy l).IsValid ↔ l.IsValid := by
  have hfield : ∀ (P : String → Prop) (given : Option String) {old : String}, P old →
      (P (given.getD old) ↔ ∀ text ∈ given, P text) := by
    intro P given old hold
    cases given with
    | none => simpa using hold
    | some text => simp
  have haction := hfield (· ≠ "") l.defaultAction h.defaultAction
  have hmissing := hfield (· ∈ ["deny", "raise"]) l.onMissingRules h.onMissingRules
  have hfallback := hfield (· ∈ ["ignore", "raise", "warn"]) l.onFallbackQuery h.onFallbackQuery
  constructor
  · intro hvalid
    exact ⟨haction.mp hvalid.defaultAction, hmissing.mp hvalid.onMissingRules,
      hfallback.mp hvalid.onFallbackQuery⟩
  · intro hvalid
    exact ⟨haction.mpr hvalid.defaultAction, hmissing.mpr hvalid.onMissingRules,
      hfallback.mpr hvalid.onFallbackQuery⟩

theorem latest_append_singleton : latest (layers ++ [l]) = (latest layers).overriddenBy l := by
  have hfield : ∀ {α : Type} (f : Layer → Option α) (standard : α),
      ((layers ++ [l]).filterMap f).getLast?.getD standard
        = (f l).getD ((layers.filterMap f).getLast?.getD standard) := by
    intro α f standard
    cases hl : f l with
    | none => simp [hl]
    | some a => simp [hl]
  simp only [latest, overriddenBy, hfield]

end PlainConfig

/-! ## Configuring step by step -/

namespace Globals

variable {g g' : Globals} {p : PlainConfig} {l : Layer}

/-- The state after some calls, those that are refused among them. -/
def configured (calls : List Layer) : Globals :=
  Calls.run (fun g l => g.configure l.settings) {} calls

/-- Those of some calls that are not refused. -/
def acceptedLayers (calls : List Layer) : List Layer :=
  Calls.accepted (fun (g : Globals) l => g.configure l.settings) {} calls

/-- Whether the configuration has just these values, and they are fit. -/
structure Shows (g : Globals) (p : PlainConfig) : Prop where
  settings : g.config.settings = p.settings
  isValid : p.IsValid

theorem Shows.configure_eq_map (h : g.Shows p) :
    g.configure l.settings
      = (fun c => { g with config := c }) <$> (p.overriddenBy l).settings.check := by
  rw [configure, Config.merge, h.settings, PlainConfig.settings_overriddenBy]
  rfl

/-- A layer of fit values is put over those that stay. -/
theorem Shows.exists_configure (h : g.Shows p) (hl : l.IsValid) :
    ∃ g', g.configure l.settings = .ok g' ∧ g'.Shows (p.overriddenBy l) := by
  have hvalid := (PlainConfig.isValid_overriddenBy h.isValid).mpr hl
  obtain ⟨c, hc, hsettings⟩ := PlainConfig.exists_config hvalid
  refine ⟨{ g with config := c }, ?_, hsettings, hvalid⟩
  rw [h.configure_eq_map, hc]
  rfl

/-- A layer with another value is refused. -/
theorem Shows.exists_refusal (h : g.Shows p) (hl : ¬ l.IsValid) :
    ∃ e : ConfigError, e.IsOfValue ∧ g.configure l.settings = .error e := by
  have hinvalid := mt (PlainConfig.isValid_overriddenBy h.isValid).mp hl
  obtain ⟨e, he, hcheck⟩ := PlainConfig.exists_error hinvalid
  refine ⟨e, he, ?_⟩
  rw [h.configure_eq_map, hcheck]
  rfl

theorem Shows.configure_eq_ok (h : g.Shows p) (hok : g.configure l.settings = .ok g') :
    l.IsValid ∧ g'.Shows (p.overriddenBy l) := by
  by_cases hl : l.IsValid
  · obtain ⟨g'', hok', hshows⟩ := h.exists_configure hl
    obtain rfl : g' = g'' := Except.ok.inj (hok.symm.trans hok')
    exact ⟨hl, hshows⟩
  · obtain ⟨e, _, herror⟩ := h.exists_refusal hl
    rw [hok] at herror
    cases herror

/-- Which calls are refused is settled by what each of them gives. -/
theorem Shows.accepted_eq_filter (h : g.Shows p) (calls : List Layer) :
    Calls.accepted (fun g l => g.configure l.settings) g calls
      = calls.filter fun l => decide l.IsValid := by
  induction calls generalizing g p with
  | nil => rfl
  | cons l rest ih =>
      rw [Calls.accepted]
      by_cases hl : l.IsValid
      · obtain ⟨g', hok, hshows⟩ := h.exists_configure hl
        simp only [hok, List.filter_cons, hl, decide_true, if_true, ih hshows]
      · obtain ⟨e, _, herror⟩ := h.exists_refusal hl
        simp only [herror, List.filter_cons, hl, decide_false, Bool.false_eq_true, if_false, ih h]

theorem shows_standard : Shows {} (PlainConfig.latest []) where
  settings := rfl
  isValid := ⟨by decide, by decide, by decide⟩

theorem shows_configured (calls : List Layer) :
    (configured calls).Shows (.latest (acceptedLayers calls)) := by
  -- each call that is not refused puts its layer over the earlier ones
  refine Calls.run_induction (P := fun (g : Globals) earlier => g.Shows (.latest earlier))
    shows_standard ?_ calls
  intro g g' earlier l h hok
  rw [PlainConfig.latest_append_singleton]
  exact (h.configure_eq_ok hok).2

/-- After any calls the configuration is fit, and it has the last value that a call which was not
refused gave to each field, or the standard one. Whatever the calls before it, a call is refused for
a value exactly if one of its own is not fit, and then nothing changes; no call fails otherwise. -/
theorem configured_after (calls : List Layer) :
    acceptedLayers calls = (calls.filter fun l => decide l.IsValid)
      ∧ (configured calls).config.settings = (PlainConfig.latest (acceptedLayers calls)).settings
      ∧ (PlainConfig.latest (acceptedLayers calls)).IsValid
      ∧ ∀ l : Layer,
        ((∃ e : ConfigError, e.IsOfValue ∧ (configured calls).configure l.settings = .error e)
            ↔ ¬ l.IsValid)
          ∧ ((∃ g, (configured calls).configure l.settings = .ok g) ↔ l.IsValid)
          ∧ (¬ l.IsValid → configured (calls ++ [l]) = configured calls) := by
  have h := shows_configured calls
  refine ⟨shows_standard.accepted_eq_filter calls, h.settings, h.isValid,
    fun l => ⟨⟨?_, h.exists_refusal⟩, ⟨?_, ?_⟩, ?_⟩⟩
  · rintro ⟨e, _, herror⟩ hl
    obtain ⟨g, hok, _⟩ := h.exists_configure hl
    rw [hok] at herror
    cases herror
  · rintro ⟨g, hok⟩
    exact (h.configure_eq_ok hok).1
  · intro hl
    obtain ⟨g, hok, _⟩ := h.exists_configure hl
    exact ⟨g, hok⟩
  · intro hl
    obtain ⟨e, _, herror⟩ := h.exists_refusal hl
    exact Calls.run_append_of_error herror

/-- Three calls of which the second is refused. -/
def refusedBetween : List Layer :=
  [{ defaultAction := some "read", onMissingRules := some "raise" },
    { defaultAction := some "edit", onFallbackQuery := some "log" },
    { onMissingRules := some "deny", logQueries := some true }]

/-- The second call gives an action too, which does not count. -/
theorem refusedBetween_configured :
    acceptedLayers refusedBetween = [refusedBetween[0], refusedBetween[2]]
      ∧ (configured refusedBetween).config.settings
        = { defaultAction := some (.str "read"), onMissingRules := some (.str "deny"),
            logQueries := some (.bool true), onFallbackQuery := some (.str "warn") }
      ∧ (¬ Layer.IsValid { defaultAction := some "" }
        ∧ configured (refusedBetween ++ [{ defaultAction := some "" }])
          = configured refusedBetween) := by
  obtain ⟨haccepted, hsettings, _, hcall⟩ := configured_after refusedBetween
  have haccepted : acceptedLayers refusedBetween = [refusedBetween[0], refusedBetween[2]] :=
    haccepted
  have hinvalid : ¬ Layer.IsValid { defaultAction := some "" } := by
    intro hvalid
    exact hvalid.defaultAction "" rfl rfl
  refine ⟨haccepted, ?_, hinvalid, (hcall _).2.2 hinvalid⟩
  rw [hsettings, haccepted]
  rfl

end Globals

end RowPolicy
