import Mathlib.Algebra.BigOperators.Group.Finset.Basic
import Mathlib.Algebra.Order.BigOperators.Group.Finset
import Mathlib.Logic.Relation
import RowPolicy.Policy

/-!
# The actions that actions stand for

Aliases are the edges of a graph on actions, in which there may be cycles, and each further alias
adds edges to the graph. Expanding some actions keeps a list of pending ones, to which each new
action adds those it stands for. Whichever of them is taken next, the expansion ends, and it ends
with what can be reached from the first ones.
-/

namespace RowPolicy.Aliases

open Relation (ReflTransGen)

variable {aliases : Aliases} {actions : List String} {a b name : String}

/-- Whether an action stands for another one directly. -/
def StandsFor (aliases : Aliases) (a b : String) : Prop := b ∈ aliases.of a

/-- Whether an action is another one or stands for it, directly or through others. -/
def Reaches (aliases : Aliases) : String → String → Prop := ReflTransGen aliases.StandsFor

/-- The number of actions that some actions stand for directly, counted for each of them. -/
def countDirect (aliases : Aliases) (actions : List String) : Nat :=
  (actions.flatMap aliases.of).length

/-! ## Turns of an expansion -/

/-- Where an expansion has got to: the actions seen, and those still pending. -/
structure Worklist where
  seen : List String
  pending : List String

namespace Worklist

/-- An action that was seen or is going to be. -/
def Knows (w : Worklist) (b : String) : Prop := b ∈ w.seen ∨ b ∈ w.pending

/-- One turn of an expansion, which takes any of the pending actions. -/
inductive Step (aliases : Aliases) : Worklist → Worklist → Prop where
  /-- An action seen before is dropped. -/
  | skip {seen pending rest : List String} {action : String}
      (htaken : pending.Perm (action :: rest)) (hseen : action ∈ seen) :
      Step aliases ⟨seen, pending⟩ ⟨seen, rest⟩
  /-- A new action is seen, and what it stands for becomes pending. -/
  | visit {seen pending rest next : List String} {action : String}
      (htaken : pending.Perm (action :: rest)) (hnew : action ∉ seen)
      (hnext : next.Perm (aliases.of action ++ rest)) :
      Step aliases ⟨seen, pending⟩ ⟨action :: seen, next⟩

/-- So many turns, one after the other. -/
inductive Steps (aliases : Aliases) : Nat → Worklist → Worklist → Prop where
  | refl (w : Worklist) : Steps aliases 0 w w
  | head {n : Nat} {w w' w'' : Worklist} (hstep : Step aliases w w')
      (hsteps : Steps aliases n w' w'') : Steps aliases (n + 1) w w''

variable {w w' : Worklist} {n : Nat}

/-! ## What a turn does -/

/-- There is a further turn as long as an action is pending. -/
theorem exists_step_iff : (∃ w', Step aliases w w') ↔ w.pending ≠ [] := by
  obtain ⟨seen, pending⟩ := w
  constructor
  · rintro ⟨w', hstep⟩ hdone
    cases hstep with
    | skip htaken _ => simp_all
    | visit htaken _ _ => simp_all
  · intro hpending
    cases pending with
    | nil => exact absurd rfl hpending
    | cons action rest =>
        by_cases hseen : action ∈ seen
        · exact ⟨_, .skip (.refl _) hseen⟩
        · exact ⟨_, .visit (.refl _) hseen (.refl _)⟩

/-- A turn drops an action seen before, or sees a new one and learns what it stands for. -/
theorem Step.knows_iff (h : Step aliases w w') :
    (w'.seen = w.seen ∧ ∀ b, w'.Knows b ↔ w.Knows b)
      ∨ ∃ action ∈ w.pending, action ∉ w.seen ∧ w'.seen = action :: w.seen
        ∧ ∀ b, w'.Knows b ↔ w.Knows b ∨ aliases.StandsFor action b := by
  cases h with
  | @skip seen pending rest action htaken hseen =>
      refine Or.inl ⟨rfl, fun b => ?_⟩
      simp only [Knows, htaken.mem_iff, List.mem_cons]
      by_cases hb : b = action
      · simp [hb, hseen]
      · simp [hb]
  | @visit seen pending rest next action htaken hnew hnext =>
      refine Or.inr ⟨action, htaken.mem_iff.mpr List.mem_cons_self, hnew, rfl, fun b => ?_⟩
      simp only [Knows, htaken.mem_iff, hnext.mem_iff, List.mem_cons, List.mem_append, StandsFor]
      by_cases hb : b = action
      · simp [hb]
      · simp [hb, or_assoc, or_comm]

/-- A turn takes one pending action off, and adds what a new one stands for. -/
theorem Step.length_pending (h : Step aliases w w') :
    w'.pending.length + 1 + aliases.countDirect w.seen =
      w.pending.length + aliases.countDirect w'.seen := by
  cases h with
  | skip htaken hseen => simp [htaken.length_eq]
  | visit htaken hnew hnext =>
      simp only [htaken.length_eq, hnext.length_eq, countDirect, List.flatMap_cons,
        List.length_append, List.length_cons]
      omega

/-! ## What every run keeps -/

/-- What is true of an expansion of some actions wherever it has got to. -/
structure Expands (aliases : Aliases) (actions : List String) (w : Worklist) : Prop where
  nodup_seen : w.seen.Nodup
  knows : ∀ a ∈ actions, w.Knows a
  reached : ∀ b, w.Knows b → ∃ a ∈ actions, aliases.Reaches a b
  closed : ∀ a ∈ w.seen, ∀ b, aliases.StandsFor a b → w.Knows b

theorem expands_start : Expands aliases actions ⟨[], actions⟩ where
  nodup_seen := List.nodup_nil
  knows _ ha := Or.inr ha
  reached b hb := ⟨b, hb.resolve_left List.not_mem_nil, .refl⟩
  closed _ ha := absurd ha List.not_mem_nil

theorem Step.expands (h : Step aliases w w') (hw : Expands aliases actions w) :
    Expands aliases actions w' := by
  obtain ⟨hnodup, hknows, hreached, hclosed⟩ := hw
  rcases h.knows_iff with ⟨hseen, hknown⟩ | ⟨action, hpending, hnew, hseen, hknown⟩
  · refine ⟨?_, ?_, ?_, ?_⟩
    · rwa [hseen]
    · simpa only [hknown] using hknows
    · simpa only [hknown] using hreached
    · simpa only [hknown, hseen] using hclosed
  · refine ⟨?_, ?_, ?_, ?_⟩
    · rw [hseen]
      exact List.nodup_cons.mpr ⟨hnew, hnodup⟩
    · intro a ha
      exact (hknown a).mpr (Or.inl (hknows a ha))
    · intro b hb
      rcases (hknown b).mp hb with hb | hdirect
      · exact hreached b hb
      · obtain ⟨a, ha, hreaches⟩ := hreached action (Or.inr hpending)
        exact ⟨a, ha, hreaches.tail hdirect⟩
    · intro a ha b hb
      rw [hseen] at ha
      rcases List.mem_cons.mp ha with rfl | ha
      · exact (hknown b).mpr (Or.inr hb)
      · exact (hknown b).mpr (Or.inl (hclosed a ha b hb))

theorem Steps.expands (h : Steps aliases n w w') (hw : Expands aliases actions w) :
    Expands aliases actions w' := by
  induction h with
  | refl w => exact hw
  | head hstep _ ih => exact ih (hstep.expands hw)

theorem Steps.length_pending (h : Steps aliases n w w') :
    w'.pending.length + n + aliases.countDirect w.seen =
      w.pending.length + aliases.countDirect w'.seen := by
  induction h with
  | refl w => rfl
  | head hstep _ ih =>
      have hlength := hstep.length_pending
      omega

/-- Once nothing is pending, the actions seen are those that can be reached. -/
theorem Expands.mem_seen (h : Expands aliases actions w) (hdone : w.pending = []) :
    b ∈ w.seen ↔ ∃ a ∈ actions, aliases.Reaches a b := by
  have hknows : ∀ b, w.Knows b ↔ b ∈ w.seen := by simp [Knows, hdone]
  constructor
  · intro hb
    exact h.reached b ((hknows b).mpr hb)
  · rintro ⟨a, ha, hreaches⟩
    induction hreaches with
    | refl => exact (hknows a).mp (h.knows a ha)
    | tail _ hdirect ih => exact (hknows _).mp (h.closed _ ih _ hdirect)

/-- No action is seen twice, and only those with aliases make anything pending. -/
theorem Expands.countDirect_seen_le (h : Expands aliases actions w) :
    aliases.countDirect w.seen ≤ aliases.countDirect aliases.keys := by
  have hkeys : aliases.keys.Nodup := aliases.nodup_keys
  simp only [countDirect, List.length_flatMap]
  rw [← List.sum_toFinset _ h.nodup_seen, ← List.sum_toFinset _ hkeys]
  refine Finset.sum_le_sum_of_ne_zero fun action _ hlength => ?_
  rw [List.mem_toFinset]
  by_contra hkey
  exact hlength (by rw [aliases.of_eq_nil hkey, List.length_nil])

/-! ## The expansion of a policy -/

/-- Expansion takes such turns until nothing is pending. -/
theorem exists_steps_expandFrom (aliases : Aliases) (seen pending : List String) :
    ∃ n, Steps aliases n ⟨seen, pending⟩ ⟨aliases.expandFrom seen pending, []⟩ := by
  fun_induction expandFrom aliases seen pending with
  | case1 seen => exact ⟨0, .refl _⟩
  | case2 seen action rest hseen ih =>
      obtain ⟨n, hsteps⟩ := ih
      exact ⟨n + 1, .head (.skip (.refl _) hseen) hsteps⟩
  | case3 seen action rest hnew ih =>
      obtain ⟨n, hsteps⟩ := ih
      exact ⟨n + 1, .head (.visit (.refl _) hnew (.refl _)) hsteps⟩

end Worklist

open Worklist

theorem nodup_expand : (aliases.expand actions).Nodup := by
  obtain ⟨n, hsteps⟩ := exists_steps_expandFrom aliases [] actions
  exact (hsteps.expands expands_start).nodup_seen

/-- The actions that some actions stand for are those that can be reached from them. -/
theorem mem_expand : b ∈ aliases.expand actions ↔ ∃ a ∈ actions, aliases.Reaches a b := by
  obtain ⟨n, hsteps⟩ := exists_steps_expandFrom aliases [] actions
  exact (hsteps.expands expands_start).mem_seen rfl

/-! ## Further aliases -/

/-- A further alias adds edges to what was there. -/
theorem standsFor_add : (aliases.add actions name).StandsFor a b ↔
    aliases.StandsFor a b ∨ (a = name ∧ b ∈ actions) := by
  unfold StandsFor of add
  rw [Dict.get?_insert]
  split
  next hname =>
    subst hname
    simp [List.mem_eraseDups, of]
  next hname =>
    have hother : ¬ a = name := fun h => hname h.symm
    simp [hother]

/-! ## The outcome of an expansion -/

/-- Whichever pending action is taken at each turn, an expansion is over after so many turns, and it
goes on until nothing is pending. What it has seen then is each action that can be reached, once.
The expansion of a policy is such a run, and neither the order of the actions nor that of their
aliases matters for what is in it. -/
theorem expansion_reaches (aliases : Aliases) (actions : List String) :
    (∀ n w, Steps aliases n ⟨[], actions⟩ w →
      n ≤ actions.length + aliases.countDirect aliases.keys
        ∧ ((∃ w', Step aliases w w') ↔ w.pending ≠ [])
        ∧ (w.pending = [] →
          w.seen.Nodup ∧ ∀ b, b ∈ w.seen ↔ ∃ a ∈ actions, aliases.Reaches a b))
      ∧ (∃ n, Steps aliases n ⟨[], actions⟩ ⟨aliases.expand actions, []⟩)
      ∧ (aliases.expand actions).Nodup
      ∧ (∀ b, b ∈ aliases.expand actions ↔ ∃ a ∈ actions, aliases.Reaches a b)
      ∧ ∀ (other : Aliases) (others : List String),
        (∀ a b, other.StandsFor a b ↔ aliases.StandsFor a b) → (∀ a, a ∈ others ↔ a ∈ actions) →
        ∀ b, b ∈ other.expand others ↔ b ∈ aliases.expand actions := by
  refine ⟨?_, exists_steps_expandFrom aliases [] actions, nodup_expand, fun b => mem_expand, ?_⟩
  · intro n w hsteps
    have hw := hsteps.expands expands_start
    refine ⟨?_, exists_step_iff, fun hdone => ⟨hw.nodup_seen, fun b => hw.mem_seen hdone⟩⟩
    have hlength := hsteps.length_pending
    have hcount := hw.countDirect_seen_le
    simp only [countDirect, List.flatMap_nil, List.length_nil] at hlength hcount ⊢
    omega
  · intro other others hsame hmem b
    have hstands : other.StandsFor = aliases.StandsFor := by
      funext a b
      exact propext (hsame a b)
    simp only [mem_expand, Reaches, hstands, hmem]

/-- Aliases with a cycle, in which an action stands for itself too. -/
def cyclic : Aliases := standard.add ["update", "edit"] "edit"

/-- The last pending action is taken each time here. -/
theorem cyclic_expansion :
    Steps cyclic 4 ⟨[], ["edit"]⟩ ⟨["update", "edit"], []⟩
      ∧ 4 ≤ 1 + cyclic.countDirect cyclic.keys
      ∧ (∀ b, b ∈ ["update", "edit"] ↔ ∃ a ∈ ["edit"], cyclic.Reaches a b)
      ∧ ∀ b, b ∈ (standard.add ["edit", "update"] "edit").expand ["edit", "edit"]
        ↔ b ∈ cyclic.expand ["edit"] := by
  have hrun : Steps cyclic 4 ⟨[], ["edit"]⟩ ⟨["update", "edit"], []⟩ :=
    .head (.visit (.refl _) (by decide) (.refl ["update", "edit"])) <|
    .head (.skip (.swap "edit" "update" []) (by decide)) <|
    .head (.visit (.refl _) (by decide) (.refl ["edit"])) <|
    .head (.skip (.refl _) (by decide)) (.refl _)
  obtain ⟨hruns, _, _, _, horder⟩ := expansion_reaches cyclic ["edit"]
  obtain ⟨hbound, _, hdone⟩ := hruns _ _ hrun
  refine ⟨hrun, hbound, (hdone rfl).2, horder _ _ ?_ ?_⟩
  · intro a b
    simp only [cyclic, standsFor_add, List.mem_cons, List.not_mem_nil, or_false]
    rw [or_comm (a := b = "update")]
  · simp

end RowPolicy.Aliases
