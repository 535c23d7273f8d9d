import Mathlib.Data.List.Forall2
import RowPolicy.Proofs.Likeness

/-!
# Texts divided like a pattern

The runs of a pattern divide it into segments. The pattern describes the texts that can be divided
in the same way, into parts that have the letters of the segments, with gaps of any kind between
them. The main statement is that the search for a way to match a text in memory finds one just if
there is such a division, of the text or of what is left of it without a line break at its end.
-/

namespace RowPolicy

/-! ## Signs -/

namespace Text

variable {p c : Char}

/-- A character of the basic alphabet that is no letter. -/
def IsSign (c : Char) : Prop := c.toNat < 128 ∧ c.isAlpha = false

theorem leastVariant_of_isSign (hp : IsSign p) : leastVariant p = p := by
  have hupper : ∀ c : Char, c.toNat < 128 → c.isAlpha = false → c.toUpper = c :=
    forall_basic (by decide)
  rw [leastVariant_basic hp.1, hupper p hp.1 hp.2]

/-- What represents a class of several characters is a capital letter, or it lies beyond the basic
alphabet. -/
theorem caseRuns_least : ∀ run ∈ caseRuns.toList,
    65 ≤ run.first - run.back ∧ run.last - run.back ≤ 90 ∨
      128 ≤ run.first - run.back ∧ run.last - run.back < 0xd800 ∨
      0xe000 ≤ run.first - run.back ∧ run.last - run.back < 0x110000 := by
  decide +kernel

theorem not_isSign_ofNat {n : Nat}
    (hn : 65 ≤ n ∧ n ≤ 90 ∨ 128 ≤ n ∧ n < 0xd800 ∨ 0xe000 ≤ n ∧ n < 0x110000) :
    ¬IsSign (Char.ofNat n) := by
  have hvalid : n.isValidChar := by
    unfold Nat.isValidChar
    omega
  have hcode : (Char.ofNat n).toNat = n := by
    rw [Char.ofNat, dif_pos hvalid]
    rfl
  rintro ⟨hbasic, halpha⟩
  have hcapital : ∀ c : Char, c.toNat < 128 → 65 ≤ c.toNat → c.toNat ≤ 90 → c.isAlpha = true :=
    forall_basic (by decide)
  rw [hcode] at hbasic
  rw [hcapital _ (by omega) (by omega) (by omega)] at halpha
  cases halpha

/-- A sign represents no class but its own. -/
theorem eq_of_isSign_leastVariant (hsign : IsSign (leastVariant c)) : leastVariant c = c := by
  unfold leastVariant at hsign ⊢
  split at hsign
  next run hrun =>
    have hin := Array.find?_some hrun
    have hmem := Array.mem_of_find?_eq_some hrun
    simp only [Bool.and_eq_true, decide_eq_true_eq] at hin
    have hleast := caseRuns_least run (Array.mem_toList_iff.mpr hmem)
    exact absurd hsign (not_isSign_ofNat (by omega))
  next => rfl

theorem eq_of_isSign_sameLetter (hp : IsSign p) (h : sameLetter p c = true) : p = c := by
  rw [sameLetter_iff, leastVariant_of_isSign hp] at h
  rw [h, eq_of_isSign_leastVariant (h ▸ hp)]

end Text

namespace Pattern

variable {p c : Char} {pattern text : List Char}

/-- What a character of a pattern stands for: a sign only for itself, any other character for its
case variants, too. -/
def StandsFor (p c : Char) : Prop := p = c ∨ ¬Text.IsSign p ∧ Text.sameLetter p c = true

theorem standsFor_iff : StandsFor p c ↔ Text.sameLetter p c = true := by
  constructor
  · rintro (rfl | ⟨-, hsame⟩)
    · exact Text.sameLetter_refl p
    · exact hsame
  · intro hsame
    by_cases hsign : Text.IsSign p
    · exact Or.inl (Text.eq_of_isSign_sameLetter hsign hsame)
    · exact Or.inr ⟨hsign, hsame⟩

/-! ## Divisions -/

/-- A text taken apart: its first part, and the gaps in it, each with the part behind it. -/
structure Division where
  first : List Char
  later : List (List Char × List Char)

namespace Division

variable {d : Division} {gap : List Char}

/-- The text that is taken apart. -/
def whole (d : Division) : List Char := d.first ++ d.later.flatMap fun piece => piece.1 ++ piece.2

/-- The parts, without the gaps between them. -/
def parts (d : Division) : List (List Char) := d.first :: d.later.map Prod.snd

/-- Whether the parts are what the segments of a pattern stand for, character by character. -/
def Follows (d : Division) (pattern : List Char) : Prop :=
  List.Forall₂ (List.Forall₂ StandsFor) (pattern.splitOn '%') d.parts

/-- Whether a text is the one that is taken apart, up to a line break at its end. -/
def Fits (d : Division) (text : List Char) : Prop := text = d.whole ∨ text = d.whole ++ ['\n']

/-- One more character in front of the first part. -/
def cons (c : Char) (d : Division) : Division := { d with first := c :: d.first }

/-- One more gap in front of the first part, with an empty part before it. -/
def behind (gap : List Char) (d : Division) : Division := ⟨[], (gap, d.first) :: d.later⟩

@[simp] theorem whole_cons : (d.cons c).whole = c :: d.whole := rfl

@[simp] theorem whole_behind : (d.behind gap).whole = gap ++ d.whole := by
  simp [whole, behind]

/-! ### Following a pattern -/

theorem follows_nil : d.Follows [] ↔ d = ⟨[], []⟩ := by
  obtain ⟨first, later⟩ := d
  simp [Follows, parts]

theorem follows_run : d.Follows ('%' :: pattern) ↔
    ∃ gap, ∃ rest : Division, rest.Follows pattern ∧ d = rest.behind gap := by
  obtain ⟨first, later⟩ := d
  have hsplit : ('%' :: pattern).splitOn '%' = [] :: pattern.splitOn '%' := by
    rw [List.splitOn_cons_eq_if_modifyHead, if_pos (by rfl)]
  simp only [Follows, hsplit, parts, List.forall₂_cons, List.forall₂_nil_left_iff]
  constructor
  · rintro ⟨rfl, hlater⟩
    cases later with
    | nil => exact absurd (List.forall₂_nil_right_iff.mp hlater) (List.splitOn_ne_nil _ _)
    | cons piece later => exact ⟨piece.1, ⟨piece.2, later⟩, hlater, rfl⟩
  · rintro ⟨gap, rest, hrest, hd⟩
    cases hd
    exact ⟨rfl, hrest⟩

theorem follows_letter (hp : p ≠ '%') : d.Follows (p :: pattern) ↔
    ∃ c, ∃ rest : Division, StandsFor p c ∧ rest.Follows pattern ∧ d = rest.cons c := by
  obtain ⟨first, later⟩ := d
  obtain ⟨segment, segments, hsplit⟩ :=
    List.exists_cons_of_ne_nil (List.splitOn_ne_nil '%' pattern)
  have hsplit' : (p :: pattern).splitOn '%' = (p :: segment) :: segments := by
    rw [List.splitOn_cons_eq_if_modifyHead, if_neg (by simpa using hp), hsplit,
      List.modifyHead_cons]
  simp only [Follows, hsplit, hsplit', parts, List.forall₂_cons]
  constructor
  · rintro ⟨hfirst, hlater⟩
    obtain ⟨c, rest, hc, hrest, rfl⟩ := List.forall₂_cons_left_iff.mp hfirst
    exact ⟨c, ⟨rest, later⟩, hc, ⟨hrest, hlater⟩, rfl⟩
  · rintro ⟨c, rest, hc, ⟨hrest, hlater⟩, hd⟩
    cases hd
    exact ⟨List.Forall₂.cons hc hrest, hlater⟩

/-! ### Fitting a text -/

theorem fits_behind : (d.behind gap).Fits text ↔ ∃ rest, text = gap ++ rest ∧ d.Fits rest := by
  simp only [Fits, whole_behind]
  constructor
  · rintro (rfl | rfl)
    · exact ⟨_, rfl, Or.inl rfl⟩
    · exact ⟨_, List.append_assoc _ _ _, Or.inr rfl⟩
  · rintro ⟨rest, rfl, rfl | rfl⟩
    · exact Or.inl rfl
    · exact Or.inr (List.append_assoc _ _ _).symm

theorem fits_cons : (d.cons c).Fits text ↔ ∃ rest, text = c :: rest ∧ d.Fits rest := by
  simp only [Fits, whole_cons]
  constructor
  · rintro (rfl | rfl)
    · exact ⟨_, rfl, Or.inl rfl⟩
    · exact ⟨_, rfl, Or.inr rfl⟩
  · rintro ⟨rest, rfl, rfl | rfl⟩
    · exact Or.inl rfl
    · exact Or.inr rfl

end Division

/-! ## Matching

A search and a division deal with a pattern in the same way: nothing is left of the text at the end
of the pattern but a line break, a run takes a gap, and another character takes one character.
-/

/-- Whether a text, up to a line break at its end, can be divided like a pattern. -/
def Divides (pattern text : List Char) : Prop :=
  ∃ d : Division, d.Follows pattern ∧ d.Fits text

theorem divides_nil : Divides [] text ↔ text = [] ∨ text = ['\n'] := by
  simp [Divides, Division.follows_nil, Division.Fits, Division.whole]

theorem divides_run : Divides ('%' :: pattern) text ↔
    ∃ gap rest, text = gap ++ rest ∧ Divides pattern rest := by
  simp only [Divides, Division.follows_run]
  constructor
  · rintro ⟨_, ⟨gap, d, hfollows, rfl⟩, hfits⟩
    obtain ⟨rest, htext, hrest⟩ := Division.fits_behind.mp hfits
    exact ⟨gap, rest, htext, d, hfollows, hrest⟩
  · rintro ⟨gap, rest, htext, d, hfollows, hrest⟩
    exact ⟨d.behind gap, ⟨gap, d, hfollows, rfl⟩, Division.fits_behind.mpr ⟨rest, htext, hrest⟩⟩

theorem divides_letter (hp : p ≠ '%') : Divides (p :: pattern) text ↔
    ∃ c rest, text = c :: rest ∧ StandsFor p c ∧ Divides pattern rest := by
  simp only [Divides, Division.follows_letter hp]
  constructor
  · rintro ⟨_, ⟨c, d, hc, hfollows, rfl⟩, hfits⟩
    obtain ⟨rest, htext, hrest⟩ := Division.fits_cons.mp hfits
    exact ⟨c, rest, htext, hc, d, hfollows, hrest⟩
  · rintro ⟨c, rest, htext, hc, d, hfollows, hrest⟩
    exact ⟨d.cons c, ⟨c, d, hc, hfollows, rfl⟩, Division.fits_cons.mpr ⟨rest, htext, hrest⟩⟩

theorem covers_nil : covers [] text = true ↔ text = [] ∨ text = ['\n'] := by
  simp [covers]

theorem covers_letter (hp : p ≠ '%') : covers (p :: pattern) text = true ↔
    ∃ c rest, text = c :: rest ∧ StandsFor p c ∧ covers pattern rest = true := by
  cases text with
  | nil => simp [covers_letter_nil hp]
  | cons c text => simp [covers_letter_cons hp, standsFor_iff]

/-- The search finds a way to match just if there is a division. -/
theorem covers_iff_divides : covers pattern text = true ↔ Divides pattern text := by
  induction pattern generalizing text with
  | nil => rw [covers_nil, divides_nil]
  | cons p pattern ih =>
      by_cases hrun : p = '%'
      · rw [hrun, covers_run, divides_run]
        simp only [ih]
      · rw [covers_letter hrun, divides_letter hrun]
        simp only [ih]

end Pattern

/-- A text matches a pattern in memory just if it can be divided like the pattern, or if it ends in
a line break and can be divided so without it. -/
theorem Value.isLike_iff_exists_division (text pattern : String) :
    (Value.str text).isLike (.str pattern) = true ↔
      ∃ d : Pattern.Division, d.Follows pattern.toList ∧
        (text.toList = d.whole ∨ text.toList = d.whole ++ ['\n']) :=
  Pattern.covers_iff_divides

end RowPolicy
