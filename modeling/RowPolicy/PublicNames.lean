/-!
# Public names

The library consists of parts, each of which offers some names. The library itself offers its
version and what is needed from its parts to declare rules and to ask for the accessible rows.
-/

namespace RowPolicy

/-- The library as a whole and its parts. -/
inductive Part where
  | whole
  | exceptions
  | compiler
  | config
  | explain
  | proxy
  | rules
  | testing
  deriving DecidableEq, Repr

namespace Part

/-- The library and all of its parts. -/
def all : List Part := [whole, exceptions, compiler, config, explain, proxy, rules, testing]

/-- The name under which a part is imported. -/
def path : Part → String
  | whole => "sqla_abilities"
  | exceptions => "sqla_abilities.exceptions"
  | compiler => "sqla_abilities.compiler"
  | config => "sqla_abilities.config"
  | explain => "sqla_abilities.explain"
  | proxy => "sqla_abilities.proxy"
  | rules => "sqla_abilities.rules"
  | testing => "sqla_abilities.testing"

/-- The part that is imported under a name. -/
def ofPath? (path : String) : Option Part := all.find? fun part => part.path == path

/-- The names that a part offers, in order. -/
def publicNames : Part → List String
  | whole =>
      ["ALL", "Ability", "AbilityConfig", "AbilityError", "AccessibleMixin", "Comparison",
        "ConfigurationError", "MANAGE", "NoRulesError", "ProxyRegistry", "QueryCompiler", "Rule",
        "UnmergeableConditionsError", "UnsupportedOperatorError", "__version__", "accessible_by",
        "configure", "explain_accessible"]
  | exceptions =>
      ["AbilityError", "ConfigurationError", "NoRulesError", "UnmergeableConditionsError",
        "UnsupportedOperatorError"]
  | compiler =>
      ["QueryCompiler", "SQLAlchemySchema", "SchemaReflector", "apply_joins", "clean_joins",
        "collect_joins", "get_default_schema", "joins_collection", "merge_conditions",
        "merge_joins", "merge_proxy_conditions", "tableize", "to_expression", "wrap_not_null"]
  | config => ["AbilityConfig", "configure", "get_global_config"]
  | explain => ["QueryExplanation", "RuleExplanation", "explain_accessible"]
  | proxy => ["PolymorphicProxyConfig", "ProxyRegistry", "get_default_proxy_registry"]
  | rules =>
      ["ALL", "Ability", "Comparison", "Condition", "MANAGE", "Opaque", "Rule", "Scope",
        "Structured", "associations_hash", "resolve_condition"]
  | testing =>
      ["ability", "assert_accessible", "assert_not_accessible", "assert_query_contains",
        "isolated_abilities", "isolated_ability_state", "proxy_registry"]

theorem ofPath?_path (part : Part) : ofPath? part.path = some part := by
  cases part <;> decide

/-- No part offers a name twice. -/
theorem pairwise_publicNames (part : Part) : part.publicNames.Pairwise (· < ·) := by
  cases part <;> decide +kernel

/-- What the library itself offers comes from its parts, but for its version and the queries of the
entities. -/
theorem publicNames_whole : ∀ name ∈ whole.publicNames,
    name ∈ ["__version__", "AccessibleMixin", "accessible_by"] ∨
      ∃ part ∈ all, part ≠ whole ∧ name ∈ part.publicNames := by
  decide +kernel

end Part

end RowPolicy
