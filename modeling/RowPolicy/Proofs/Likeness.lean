import Mathlib.Data.List.TakeWhile
import RowPolicy.Comparison
import RowPolicy.Comparison.Statement
import RowPolicy.Sql.Semantics

/-!
# Patterns in memory and in statements

A pattern is matched with a text in memory, where only `%` stands for other characters and all case
variants of a letter are alike, and by a database, where `_` stands for any character and only the
letters of the basic alphabet have case variants. A pattern without `_` that matches in a database
matches in memory. The converse needs letters that have no case variants beyond the basic alphabet,
and a text that does not end in a line break, since one at the end may be left over in memory.
-/

namespace RowPolicy

open Sql (Assignment Column Expr Truth Wildcard)

/-! ## Letters -/

namespace Text

theorem toLower_of_not_basic {c : Char} (hc : ¬c.toNat < 128) : c.toLower = c := by
  unfold Char.toLower
  apply dif_neg
  simp only [ge_iff_le, UInt32.le_iff_toNat_le, not_and]
  intro _
  change ¬c.toNat ≤ 90
  omega

/-- What holds of each of the first characters holds of the basic alphabet. -/
theorem forall_basic {P : Char → Prop} (h : ∀ n < 128, P (Char.ofNat n)) :
    ∀ c : Char, c.toNat < 128 → P c := by
  intro c hc
  have hn := h c.toNat hc
  rwa [Char.ofNat_toNat] at hn

/-- All runs but the first one lie beyond the basic alphabet. -/
theorem caseRuns_basic : ∃ rest, caseRuns.toList = ⟨97, 122, 1, 32⟩ :: rest ∧
    ∀ run ∈ rest, 128 ≤ run.first := by
  obtain ⟨rest, hruns⟩ : ∃ rest, caseRuns.toList = ⟨97, 122, 1, 32⟩ :: rest :=
    List.head?_eq_some_iff.mp rfl
  have hfirst : ∀ run ∈ caseRuns.toList.tail, 128 ≤ run.first := by decide +kernel
  rw [hruns, List.tail_cons] at hfirst
  exact ⟨rest, hruns, hfirst⟩

set_option maxRecDepth 2000 in
/-- In the basic alphabet the class of a letter is represented by the capital letter. -/
theorem leastVariant_basic {c : Char} (hc : c.toNat < 128) : leastVariant c = c.toUpper := by
  obtain ⟨rest, hruns, hfirst⟩ := caseRuns_basic
  have hupper : ∀ c : Char, c.toNat < 128 → c.toUpper =
      if 97 ≤ c.toNat ∧ c.toNat ≤ 122 then Char.ofNat (c.toNat - 32) else c :=
    forall_basic (by decide)
  unfold leastVariant
  rw [← Array.find?_toList, hruns, List.find?_cons, hupper c hc]
  by_cases hrun : 97 ≤ c.toNat ∧ c.toNat ≤ 122
  · simp [hrun, Nat.mod_one]
  · have hrest : rest.find? (fun run =>
        run.first ≤ c.toNat && c.toNat ≤ run.last && (c.toNat - run.first) % run.step == 0) =
          none := by
      rw [List.find?_eq_none]
      intro run hmem
      have hbeyond := hfirst run hmem
      simp only [Bool.and_eq_true, decide_eq_true_eq]
      omega
    have hnone : (decide (97 ≤ c.toNat) && decide (c.toNat ≤ 122)) = false := by
      simpa using hrun
    simp only [hnone, Bool.false_and, hrest, if_neg hrun]

set_option maxRecDepth 2000 in
/-- Taking the lower case stays in the basic alphabet and in the class. -/
theorem toLower_basic {c : Char} (hc : c.toNat < 128) : c.toLower.toNat < 128 ∧
    leastVariant c.toLower = leastVariant c ∧ (leastVariant c).toLower = c.toLower := by
  have hcase : ∀ c : Char, c.toNat < 128 → c.toLower.toNat < 128 ∧
      c.toLower.toUpper = c.toUpper ∧ c.toUpper.toLower = c.toLower :=
    forall_basic (by decide)
  rw [leastVariant_basic hc, leastVariant_basic (hcase c hc).1]
  exact hcase c hc

/-- Letters that a database takes for the same are the same letter. -/
theorem sameLetter_of_toLower {p c : Char} (h : p.toLower = c.toLower) : sameLetter p c = true := by
  by_cases hp : p.toNat < 128 <;> by_cases hc : c.toNat < 128
  · have hleast : leastVariant p = leastVariant c := by
      rw [← (toLower_basic hp).2.1, h, (toLower_basic hc).2.1]
    exact sameLetter_iff.mpr hleast
  · rw [toLower_of_not_basic hc] at h
    exact absurd (h ▸ (toLower_basic hp).1) hc
  · rw [toLower_of_not_basic hp] at h
    exact absurd (h ▸ (toLower_basic hc).1) hp
  · rw [toLower_of_not_basic hp, toLower_of_not_basic hc] at h
    rw [h, sameLetter_refl]

/-- In the basic alphabet it is the other way round, too. -/
theorem toLower_of_sameLetter {p c : Char} (hp : p.toNat < 128) (hc : c.toNat < 128)
    (h : sameLetter p c = true) : p.toLower = c.toLower := by
  rw [← (toLower_basic hp).2.2, sameLetter_iff.mp h, (toLower_basic hc).2.2]

end Text

/-! ## Patterns -/

/-- Something holds of a suffix if it does of what is left after some characters. -/
theorem Text.any_suffixes {f : List Char → Bool} {text : List Char} :
    (suffixes text).any f = true ↔ ∃ before after, text = before ++ after ∧ f after = true := by
  simp only [List.any_eq_true, mem_suffixes]
  constructor
  · rintro ⟨after, ⟨before, htext⟩, hafter⟩
    exact ⟨before, after, htext, hafter⟩
  · rintro ⟨before, after, htext, hafter⟩
    exact ⟨after, ⟨before, htext⟩, hafter⟩

namespace Sql.Wildcard

/-- What a character stands for in a pattern of a database without an escape character. -/
def ofChar (c : Char) : Wildcard :=
  if c = '%' then run else if c = '_' then one else letter c

theorem ofLike_none (cs : List Char) : ofLike none cs = cs.map ofChar := by
  induction cs with
  | nil => rfl
  | cons c cs ih =>
      cases cs with
      | nil => by_cases hrun : c = '%' <;> by_cases hone : c = '_' <;> simp [ofLike, ofChar, *]
      | cons d cs =>
          rw [List.map_cons, ← ih]
          by_cases hrun : c = '%' <;> by_cases hone : c = '_' <;> simp [ofLike, ofChar, *]

theorem covers_run {pattern : List Wildcard} {text : List Char} :
    covers true (run :: pattern) text = true ↔
      ∃ before after, text = before ++ after ∧ covers true pattern after = true :=
  Text.any_suffixes

end Sql.Wildcard

namespace Pattern

variable {p c : Char} {pattern text : List Char}

theorem covers_run : covers ('%' :: pattern) text = true ↔
    ∃ before after, text = before ++ after ∧ covers pattern after = true :=
  Text.any_suffixes

theorem covers_letter_nil (hp : p ≠ '%') : covers (p :: pattern) [] = false := by
  rw [covers]
  exact hp

theorem covers_letter_cons (hp : p ≠ '%') :
    covers (p :: pattern) (c :: text) = (Text.sameLetter p c && covers pattern text) := by
  rw [covers]
  exact hp

/-- Without a character that stands for any other one, what matches in a database matches in
memory. -/
theorem covers_of_wildcard (hone : '_' ∉ pattern)
    (h : Wildcard.covers true (pattern.map Wildcard.ofChar) text = true) :
    covers pattern text = true := by
  induction pattern generalizing text with
  | nil =>
      cases text with
      | nil => rfl
      | cons c text => cases h
  | cons p pattern ih =>
      obtain ⟨hp, hpattern⟩ := not_or.mp (mt List.mem_cons.mpr hone)
      by_cases hrun : p = '%'
      · subst hrun
        obtain ⟨before, after, htext, hafter⟩ := Wildcard.covers_run.mp h
        exact covers_run.mpr ⟨before, after, htext, ih hpattern hafter⟩
      · have hletter : Wildcard.ofChar p = .letter p := by
          rw [Wildcard.ofChar, if_neg hrun, if_neg (Ne.symm hp)]
        rw [List.map_cons, hletter] at h
        cases text with
        | nil => cases h
        | cons c text =>
            simp only [Wildcard.covers, Wildcard.accepts, Bool.and_eq_true, Bool.or_eq_true,
              beq_iff_eq, Bool.true_and] at h
            rw [covers_letter_cons hrun, Bool.and_eq_true]
            refine ⟨?_, ih hpattern h.2⟩
            exact Text.sameLetter_of_toLower (h.1.elim (congrArg Char.toLower) id)

/-- Whether a pattern and a text differ by case in letters of the basic alphabet at most. -/
def VariesBasically (pattern text : List Char) : Prop :=
  ∀ p ∈ pattern, ∀ c ∈ text, Text.sameLetter p c = true → p = c ∨ p.toNat < 128 ∧ c.toNat < 128

theorem variesBasically_of_basic (hpattern : pattern.all (·.toNat < 128) = true)
    (htext : text.all (·.toNat < 128) = true) : VariesBasically pattern text := by
  simp only [List.all_eq_true, decide_eq_true_eq] at hpattern htext
  exact fun p hp c hc _ => Or.inr ⟨hpattern p hp, htext c hc⟩

/-- What matches in memory matches in a database, if no line break is left over and only letters of
the basic alphabet are taken for one another. -/
theorem wildcard_of_covers (hletters : VariesBasically pattern text)
    (hend : text.getLast? ≠ some '\n') (h : covers pattern text = true) :
    Wildcard.covers true (pattern.map Wildcard.ofChar) text = true := by
  induction pattern generalizing text with
  | nil =>
      simp only [covers, Bool.or_eq_true, beq_iff_eq] at h
      rcases h with rfl | rfl
      · rfl
      · exact absurd rfl hend
  | cons p pattern ih =>
      -- what is left of the text has the same end and no other letters
      have hrest : ∀ {before after : List Char}, text = before ++ after →
          covers pattern after = true →
            Wildcard.covers true (pattern.map Wildcard.ofChar) after = true := by
        rintro before after rfl hafter
        refine ih (fun q hq c hc => ?_) (fun hlast => hend ?_) hafter
        · exact hletters q (List.mem_cons_of_mem _ hq) c (List.mem_append_right _ hc)
        · rw [List.getLast?_append, hlast]
          rfl
      by_cases hrun : p = '%'
      · subst hrun
        obtain ⟨before, after, htext, hafter⟩ := covers_run.mp h
        exact Wildcard.covers_run.mpr ⟨before, after, htext, hrest htext hafter⟩
      · cases text with
        | nil =>
            rw [covers_letter_nil hrun] at h
            cases h
        | cons c text =>
            rw [covers_letter_cons hrun, Bool.and_eq_true] at h
            have htail := @hrest [c] text rfl h.2
            rw [List.map_cons, Wildcard.ofChar, if_neg hrun]
            by_cases hone : p = '_'
            · simpa [hone, Wildcard.covers, Wildcard.accepts] using htail
            · have haccepts : p = c ∨ p.toLower = c.toLower := by
                rcases hletters p List.mem_cons_self c List.mem_cons_self h.1 with heq | ⟨hp, hc⟩
                · exact Or.inl heq
                · exact Or.inr (Text.toLower_of_sameLetter hp hc h.1)
              simpa [hone, Wildcard.covers, Wildcard.accepts, htail] using haccepts

end Pattern

/-! ## Tests with a pattern -/

namespace Sql

theorem patternChars_of_str {s : String} (h : '\x00' ∉ s.toList) :
    patternChars (.str s) = s.toList := by
  rw [patternChars, Scalar.cellText, List.takeWhile_eq_self_iff]
  intro c hc
  simp only [ne_eq, decide_not, Bool.not_eq_true', decide_eq_false_iff_not]
  intro hzero
  have hnull : c = '\x00' := by
    rw [← Char.ofNat_toNat c, hzero]
  exact h (hnull ▸ hc)

theorem likeTest_of_str {pattern text : String} (hpattern : '\x00' ∉ pattern.toList)
    (htext : '\x00' ∉ text.toList) : likeTest (.str text) (.str pattern) =
      .ofBool (Wildcard.covers true (pattern.toList.map Wildcard.ofChar) text.toList) := by
  rw [likeTest, if_neg (by simp), patternChars_of_str hpattern, patternChars_of_str htext,
    Wildcard.ofLike_none]

end Sql

/-- The answers to a pattern and to its opposite, for a text in memory and for a column that holds
it. -/
structure LikeAnswers (c : Column) (pattern text : String) (found matched : Bool) : Prop where
  passes : (Test.mk .like .plain).passes (.str pattern) (.str text) = .ok found
  opposite_passes : (Test.mk .notLike .plain).passes (.str pattern) (.str text) = .ok (!found)
  eval : ∃ e, (Test.mk .like .plain).expr c (.str pattern) = .ok e ∧
    ∀ σ : Assignment, σ c = .str text → e.eval σ = .ofBool matched
  opposite_eval : ∃ e, (Test.mk .notLike .plain).expr c (.str pattern) = .ok e ∧
    ∀ σ : Assignment, σ c = .str text → e.eval σ = .ofBool (!matched)

namespace LikeAnswers

variable {c : Column} {pattern text : String} {found matched : Bool}

theorem of_likeTest (hfound : Pattern.covers pattern.toList text.toList = found)
    (hmatched : Sql.likeTest (.str text) (.str pattern) = .ofBool matched) :
    LikeAnswers c pattern text found matched where
  passes := congrArg Except.ok hfound
  opposite_passes := congrArg (fun b => Except.ok !b) hfound
  eval := by
    refine ⟨.like false c (.str pattern), rfl, fun σ hcell => ?_⟩
    simp only [Expr.eval, hcell, Bool.false_eq_true, if_false]
    exact hmatched
  opposite_eval := by
    refine ⟨.like true c (.str pattern), rfl, fun σ hcell => ?_⟩
    simp only [Expr.eval, hcell, if_true]
    refine (congrArg Truth.not hmatched).trans ?_
    cases matched <;> rfl

/-- In texts without null characters, patterns without `_` that are matched by a database are found
in memory. Those found in memory are matched by a database if no line break was left over and no
letters beyond the basic alphabet were taken for one another. -/
theorem exists_of_texts (c : Column) (hpattern : '\x00' ∉ pattern.toList)
    (htext : '\x00' ∉ text.toList) : ∃ found matched, LikeAnswers c pattern text found matched ∧
      ('_' ∉ pattern.toList → matched = true → found = true) ∧
      (Pattern.VariesBasically pattern.toList text.toList → text.toList.getLast? ≠ some '\n' →
        found = true → matched = true) :=
  ⟨_, _, of_likeTest rfl (Sql.likeTest_of_str hpattern htext), Pattern.covers_of_wildcard,
    Pattern.wildcard_of_covers⟩

theorem exists_of_texts_intro : ∃ answer,
    LikeAnswers ⟨"posts", "title", .text⟩ "%TRO" "Intro" answer answer := by
  have hpattern : '\x00' ∉ "%TRO".toList := by decide
  have htext : '\x00' ∉ "Intro".toList := by decide
  obtain ⟨found, matched, hanswers, hfound, hmatched⟩ :=
    exists_of_texts ⟨"posts", "title", .text⟩ hpattern htext
  have hletters : Pattern.VariesBasically "%TRO".toList "Intro".toList :=
    Pattern.variesBasically_of_basic (by decide) (by decide)
  have hsame : found = matched := by
    rw [Bool.eq_iff_iff]
    exact ⟨hmatched hletters (by decide), hfound (by decide)⟩
  exact ⟨found, hsame ▸ hanswers⟩

/-- A character that stands for any other one only in a database, a letter with a case variant only
in memory, what follows a null character, and a line break at the end. -/
theorem patterns_differ :
    LikeAnswers ⟨"posts", "title", .text⟩ "_" "a" false true ∧
      LikeAnswers ⟨"posts", "title", .text⟩ "s" "ſ" true false ∧
      LikeAnswers ⟨"posts", "title", .text⟩ "a" "a\x00b" false true ∧
      LikeAnswers ⟨"posts", "title", .text⟩ "a" "a\n" true false := by
  have hother : Pattern.covers ['_'] ['a'] = false := by
    have hunderscore : Text.leastVariant '_' = '_' := Text.leastVariant_basic (by decide)
    have ha : Text.leastVariant 'a' = 'A' := Text.leastVariant_basic (by decide)
    rw [Pattern.covers_letter_cons (by decide), Text.sameLetter, hunderscore, ha]
    rfl
  refine ⟨of_likeTest hother ?_, of_likeTest ?_ ?_, of_likeTest ?_ ?_, of_likeTest ?_ ?_⟩
  all_goals decide +kernel

end LikeAnswers

end RowPolicy
