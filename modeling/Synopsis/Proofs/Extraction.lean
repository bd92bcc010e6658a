import Mathlib.Data.List.DropRight
import Mathlib.Data.List.Infix
import Mathlib.Data.Nat.Count
import Synopsis.Proofs.Folding
import Synopsis.Usage.Section

/-!
The usage section of a help text. It is what stands between the only marker and the first blank line
behind it, without the blanks at its ends, and nothing in front of the marker or behind the blank
line has any bearing on it. Markers are counted where they begin; no two of them share a character.
-/
namespace Synopsis

namespace Text

/-- Somewhere in the text stand a line feed, any blanks, and another line feed. -/
def HasBlankLine (cs : List Char) : Prop :=
  ∃ blanks, (∀ c ∈ blanks, isBlank c = true) ∧ '\n' :: (blanks ++ ['\n']) <:+: cs

/-- The text neither begins nor ends with a blank. -/
structure Trimmed (cs : List Char) : Prop where
  front : ∀ c ∈ cs.head?, isBlank c = false
  back : ∀ c ∈ cs.getLast?, isBlank c = false

section Blanks

variable {cs ds blanks : List Char} {c : Char}

theorem HasBlankLine.within (h : HasBlankLine cs) (hd : cs <:+: ds) : HasBlankLine ds := by
  obtain ⟨blanks, hblanks, hline⟩ := h
  exact ⟨blanks, hblanks, hline.trans hd⟩

/-- A blank line begins at a line feed that only blanks separate from another one. -/
theorem hasBlankLine_cons :
    HasBlankLine (c :: cs) ↔ (c = '\n' ∧ '\n' ∈ cs.takeWhile isBlank) ∨ HasBlankLine cs := by
  constructor
  · rintro ⟨blanks, hblanks, hline⟩
    rcases List.infix_cons_iff.mp hline with hp | hi
    · obtain ⟨rfl, rest, rfl⟩ := List.cons_prefix_cons.mp hp
      refine .inl ⟨rfl, ?_⟩
      have hend : isBlank '\n' = true := by decide
      rw [List.append_assoc, List.takeWhile_append_of_pos hblanks, List.singleton_append,
        List.takeWhile_cons_of_pos hend]
      simp
    · exact .inr ⟨blanks, hblanks, hi⟩
  · rintro (⟨rfl, hm⟩ | h)
    · obtain ⟨blanks, more, hsplit⟩ := List.append_of_mem hm
      have hall := List.all_takeWhile (p := isBlank) (l := cs)
      rw [List.all_eq_true, hsplit] at hall
      refine ⟨blanks, fun c hc => hall c (by simp [hc]), ?_⟩
      have hp : blanks ++ ['\n'] <+: cs := by
        apply List.IsPrefix.trans _ (List.takeWhile_prefix isBlank)
        exact ⟨more, by rw [hsplit]; simp⟩
      exact (List.cons_prefix_cons.mpr ⟨rfl, hp⟩).isInfix
    · exact h.within (List.suffix_cons c cs).isInfix

theorem mem_takeWhile_append {p : Char → Bool} (h : c ∈ cs.takeWhile p) (more : List Char) :
    c ∈ (cs ++ more).takeWhile p := by
  rw [List.takeWhile_append]
  split_ifs
  · exact List.mem_append_left _ (List.takeWhile_prefix p |>.subset h)
  · exact h

theorem not_hasBlankLine_nil : ¬ HasBlankLine [] := by
  rintro ⟨blanks, -, hline⟩
  simp at hline

instance decidableHasBlankLine : DecidablePred HasBlankLine
  | [] => isFalse not_hasBlankLine_nil
  | _ :: cs =>
    have := decidableHasBlankLine cs
    decidable_of_iff' _ hasBlankLine_cons

theorem trimBoth_infix (drops : Char → Bool) (cs : List Char) : trimBoth drops cs <:+: cs :=
  (List.rdropWhile_prefix drops _).isInfix.trans (List.dropWhile_suffix drops).isInfix

theorem not_blank_of_head?_dropWhile (cs : List Char)
    (h : (cs.dropWhile isBlank).head? = some c) : isBlank c = false := by
  have hnot := List.head?_dropWhile_not isBlank cs
  rw [h] at hnot
  exact hnot

theorem trimmed_trimBoth (cs : List Char) : Trimmed (trimBoth isBlank cs) := by
  have hprefix : trimBoth isBlank cs <+: cs.dropWhile isBlank := List.rdropWhile_prefix isBlank _
  constructor
  · intro c hc
    obtain ⟨rest, hrest⟩ := hprefix
    apply not_blank_of_head?_dropWhile cs
    rw [← hrest, List.head?_append, Option.mem_def.mp hc, Option.some_or]
  · intro c hc
    apply not_blank_of_head?_dropWhile (cs.dropWhile isBlank).reverse
    rw [← List.getLast?_reverse]
    exact hc

theorem trimBoth_append (h : ∀ c ∈ blanks, isBlank c = true) :
    trimBoth isBlank (cs ++ blanks) = trimBoth isBlank cs := by
  unfold trimBoth
  rw [List.dropWhile_append]
  split_ifs with he
  · rw [List.dropWhile_eq_nil_iff.mpr h, List.isEmpty_iff.mp he]
  · rw [List.reverse_append, List.dropWhile_append_of_pos (by simpa using h)]

end Blanks

end Text

namespace Usage

/-- The text is the marker in some mixture of cases. -/
def Marks (cs : List Char) : Prop := Text.Folds marker cs

def Marked (cs : List Char) : Prop := ∃ m, Marks m ∧ m <:+: cs

def MarkedAt (cs : List Char) (i : ℕ) : Prop := ∃ m, Marks m ∧ m <+: cs.drop i

theorem markedAt_iff_isSome {cs : List Char} {i : ℕ} :
    MarkedAt cs i ↔ (Text.dropFolded marker (cs.drop i)).isSome = true := by
  rw [Option.isSome_iff_exists]
  constructor
  · rintro ⟨m, hm, rest, hrest⟩
    exact ⟨rest, Text.dropFolded_eq_some_iff.mpr ⟨m, hrest.symm, hm⟩⟩
  · rintro ⟨rest, hrest⟩
    obtain ⟨m, hcs, hm⟩ := Text.dropFolded_eq_some_iff.mp hrest
    exact ⟨m, hm, rest, hcs.symm⟩

instance : DecidablePred Marks := fun cs =>
  inferInstanceAs (Decidable (Text.Folds marker cs))

instance (cs : List Char) : DecidablePred (MarkedAt cs) := fun _ =>
  decidable_of_iff' _ markedAt_iff_isSome

/-- The number of places at which a marker begins. -/
def occurrences (cs : List Char) : ℕ := Nat.count (MarkedAt cs) cs.length

section Markers

variable {cs pre m rest body post : List Char} {i j : ℕ}

theorem Marks.length_eq (h : Marks m) : m.length = 6 := (List.Forall₂.length_eq h).symm

/-- The sixth character of a marker is its colon, and the others are letters. -/
theorem MarkedAt.getElem? (h : MarkedAt cs i) (k : ℕ) (hk : k < 6) :
    ∃ c, cs[i + k]? = some c ∧ (c = ':' ↔ k = 5) := by
  obtain ⟨m, hm, rest, hrest⟩ := h
  have hlength := hm.length_eq
  have hkm : k < m.length := by omega
  refine ⟨m[k], ?_, ?_⟩
  · rw [← List.getElem?_drop, ← hrest, List.getElem?_append_left hkm, List.getElem?_eq_getElem hkm]
  · have hfolds := (List.forall₂_iff_get.mp hm).2 k hk hkm
    constructor
    · intro hcolon
      have hno : ∀ k : Fin 6, Text.foldsTo (marker.get k) ':' = true → k.val = 5 := by decide
      apply hno ⟨k, hk⟩
      rw [← hcolon]
      exact hfolds
    · rintro rfl
      exact Text.eq_of_foldsTo (by decide) hfolds

/-- No two markers share a character. -/
theorem MarkedAt.apart (h : MarkedAt cs i) (h' : MarkedAt cs j) (hij : i < j) : i + 6 ≤ j := by
  by_contra hlt
  obtain ⟨c, hc, hcolon⟩ := h.getElem? 5 (by omega)
  obtain ⟨c', hc', hletter⟩ := h'.getElem? (i + 5 - j) (by omega)
  rw [show j + (i + 5 - j) = i + 5 by omega, hc] at hc'
  cases hc'
  have hlast := hletter.mp (hcolon.mpr rfl)
  omega

theorem marked_iff_exists : Marked cs ↔ ∃ i, MarkedAt cs i := by
  constructor
  · rintro ⟨m, hm, front, back, rfl⟩
    exact ⟨front.length, m, hm, by simp⟩
  · rintro ⟨i, m, hm, hp⟩
    exact ⟨m, hm, hp.isInfix.trans (List.drop_suffix i cs).isInfix⟩

theorem markedAt_append (pre : List Char) (i : ℕ) :
    MarkedAt (pre ++ cs) (pre.length + i) ↔ MarkedAt cs i := by
  unfold MarkedAt
  rw [List.drop_append, List.drop_eq_nil_of_le (by omega)]
  simp

theorem MarkedAt.within (h : MarkedAt (pre ++ cs) i) (hi : i + 6 ≤ pre.length) :
    MarkedAt pre i := by
  obtain ⟨m, hm, hp⟩ := h
  refine ⟨m, hm, ?_⟩
  have hlength := hm.length_eq
  rw [List.drop_append_of_le_length (by omega)] at hp
  apply List.prefix_of_prefix_length_le hp (List.prefix_append _ _)
  rw [List.length_drop]
  omega

/-- The only marker between texts without one is the one that stands there. -/
theorem markedAt_iff_eq (hm : Marks m) (hpre : ¬ Marked pre) (hrest : ¬ Marked rest) :
    MarkedAt (pre ++ (m ++ rest)) i ↔ i = pre.length := by
  have hself : MarkedAt (pre ++ (m ++ rest)) pre.length := ⟨m, hm, by simp⟩
  have hlength := hm.length_eq
  constructor
  · intro h
    rcases Nat.lt_trichotomy i pre.length with hlt | heq | hgt
    · exact absurd (marked_iff_exists.mpr ⟨i, h.within (h.apart hself hlt)⟩) hpre
    · exact heq
    · have hbehind := hself.apart h hgt
      refine absurd (marked_iff_exists.mpr ⟨i - (pre ++ m).length, ?_⟩) hrest
      rw [← markedAt_append (pre ++ m), List.append_assoc, List.length_append, hlength]
      rwa [show pre.length + 6 + (i - (pre.length + 6)) = i by omega]
  · rintro rfl
    exact hself

theorem occurrences_cons (c : Char) (cs : List Char) :
    occurrences (c :: cs) = occurrences cs + if MarkedAt (c :: cs) 0 then 1 else 0 :=
  Nat.count_succ' (MarkedAt (c :: cs)) cs.length

/-- A text has as many markers as there are places at which one begins. -/
theorem markerCount_eq_occurrences (cs : List Char) : markerCount cs = occurrences cs := by
  induction cs with
  | nil => rfl
  | cons c cs ih =>
    have hfirst : MarkedAt (c :: cs) 0 ↔ (Text.dropFolded marker (c :: cs)).isSome = true :=
      markedAt_iff_isSome
    rw [markerCount, ih, occurrences_cons, Nat.add_comm]
    simp only [hfirst]

theorem MarkedAt.lt_length (h : MarkedAt cs i) : i < cs.length := by
  obtain ⟨c, hc, -⟩ := h.getElem? 0 (by omega)
  exact (List.getElem?_eq_some_iff.mp hc).1

theorem occurrences_eq_card (cs : List Char) :
    occurrences cs = ((Finset.range cs.length).filter (MarkedAt cs)).card :=
  Nat.count_eq_card_filter_range (MarkedAt cs) cs.length

theorem occurrences_eq_zero_iff : occurrences cs = 0 ↔ ¬ Marked cs := by
  rw [occurrences_eq_card, Finset.card_eq_zero, Finset.filter_eq_empty_iff, marked_iff_exists]
  constructor
  · rintro hnone ⟨i, hi⟩
    exact hnone (Finset.mem_range.mpr hi.lt_length) hi
  · intro hnone i _ hi
    exact hnone ⟨i, hi⟩

instance : DecidablePred Marked := fun _ =>
  decidable_of_iff' _ (not_iff_comm.mp occurrences_eq_zero_iff.symm).symm

section Sole

variable (hm : Marks m) (hpre : ¬ Marked pre) (hrest : ¬ Marked rest)
include hm hpre hrest

theorem occurrences_sole : occurrences (pre ++ (m ++ rest)) = 1 := by
  rw [occurrences_eq_card, Finset.card_eq_one]
  refine ⟨pre.length, Finset.ext fun i => ?_⟩
  rw [Finset.mem_filter, Finset.mem_range, Finset.mem_singleton]
  constructor
  · rintro ⟨-, hi⟩
    exact (markedAt_iff_eq hm hpre hrest).mp hi
  · intro hi
    have hat := (markedAt_iff_eq hm hpre hrest).mpr hi
    exact ⟨hat.lt_length, hat⟩

theorem afterMarker_sole : afterMarker (pre ++ (m ++ rest)) = rest := by
  induction pre with
  | nil =>
    obtain ⟨c, m', rfl⟩ := List.exists_cons_of_length_eq_add_one hm.length_eq
    have hdrop : Text.dropFolded marker (c :: m' ++ rest) = some rest :=
      Text.dropFolded_eq_some_iff.mpr ⟨c :: m', rfl, hm⟩
    rw [List.nil_append, List.cons_append, afterMarker]
    rw [List.cons_append] at hdrop
    rw [hdrop]
  | cons c pre ih =>
    have hnot : ¬ MarkedAt (c :: pre ++ (m ++ rest)) 0 := by
      rw [markedAt_iff_eq hm hpre hrest]
      simp
    rw [markedAt_iff_isSome, Bool.not_eq_true, Option.isSome_eq_false_iff,
      Option.isNone_iff_eq_none, List.cons_append, List.drop_zero] at hnot
    rw [List.cons_append, afterMarker, hnot]
    apply ih
    rintro ⟨m', hm', hi⟩
    exact hpre ⟨m', hm', hi.trans (List.suffix_cons c pre).isInfix⟩

end Sole

theorem untilBlankLine_prefix (cs : List Char) : untilBlankLine cs <+: cs := by
  induction cs with
  | nil => exact List.prefix_rfl
  | cons c cs ih =>
    rw [untilBlankLine]
    split_ifs
    · exact List.nil_prefix
    · exact List.cons_prefix_cons.mpr ⟨rfl, ih⟩

theorem not_hasBlankLine_untilBlankLine (cs : List Char) :
    ¬ Text.HasBlankLine (untilBlankLine cs) := by
  induction cs with
  | nil => exact Text.not_hasBlankLine_nil
  | cons c cs ih =>
    rw [untilBlankLine]
    split_ifs with hblank
    · exact Text.not_hasBlankLine_nil
    · rw [Text.hasBlankLine_cons]
      rintro (⟨hc, hm⟩ | hrest)
      · obtain ⟨more, hmore⟩ := untilBlankLine_prefix cs
        exact hblank ⟨hc, hmore ▸ Text.mem_takeWhile_append hm more⟩
      · exact ih hrest

/-- Where a text without a blank line is followed by one, all that is kept back of the text are
blanks at its end, which run into the blank line. -/
theorem exists_untilBlankLine_append (h : ¬ Text.HasBlankLine body) (post : List Char) :
    ∃ blanks, (∀ c ∈ blanks, Text.isBlank c = true) ∧
      untilBlankLine (body ++ '\n' :: '\n' :: post) ++ blanks = body := by
  induction body with
  | nil =>
    refine ⟨[], by simp, ?_⟩
    rw [List.nil_append, List.append_nil, untilBlankLine, if_pos]
    exact ⟨rfl, by rw [List.takeWhile_cons_of_pos (by decide)]; simp⟩
  | cons c body ih =>
    rw [Text.hasBlankLine_cons, not_or] at h
    rw [List.cons_append, untilBlankLine]
    split_ifs with hblank
    · obtain ⟨hc, hm⟩ := hblank
      rw [List.takeWhile_append] at hm
      split_ifs at hm with hall
      · refine ⟨c :: body, ?_, rfl⟩
        have hself := (List.takeWhile_prefix Text.isBlank).eq_of_length hall
        rw [List.forall_mem_cons, hc]
        exact ⟨by decide, List.takeWhile_eq_self_iff.mp hself⟩
      · exact absurd ⟨hc, hm⟩ h.1
    · obtain ⟨blanks, hblanks, heq⟩ := ih h.2
      exact ⟨blanks, hblanks, by rw [List.cons_append, heq]⟩

end Markers

theorem sectionOf_of_sole {doc : String} (h : occurrences doc.toList = 1) :
    sectionOf doc =
      .ok (Text.trim (String.ofList (untilBlankLine (afterMarker doc.toList)))) := by
  rw [sectionOf, markerCount_eq_occurrences, h]
  rfl

theorem sectionOf_eq_error_iff {doc : String} {f : Failure} : sectionOf doc = .error f ↔
    occurrences doc.toList = 0 ∧ f = .complaint .usageNotFound ∨
      2 ≤ occurrences doc.toList ∧
        f = .complaint (.duplicatedUsage (occurrences doc.toList)) := by
  rw [sectionOf, markerCount_eq_occurrences]
  generalize occurrences doc.toList = n
  rcases n with _ | _ | n
  · simp [eq_comm]
  · simp
  · simp [eq_comm]

/-- The section is the text between the only marker and the blank line, without the blanks at its
ends, whatever is around them. Without a marker there is none, and more than one marker are counted;
otherwise there is a section, which has no blanks at its ends and no blank line. -/
theorem sectionOf_extracts :
    (∀ pre m body post : String, Marks m.toList → ¬ Marked pre.toList →
      ¬ Marked (body ++ "\n\n" ++ post).toList → ¬ Text.HasBlankLine body.toList →
        sectionOf (pre ++ m ++ body ++ "\n\n" ++ post) = .ok (Text.trim body)) ∧
      ∀ doc : String,
        (sectionOf doc = .error (.complaint .usageNotFound) ↔ ¬ Marked doc.toList) ∧
        (∀ n, sectionOf doc = .error (.complaint (.duplicatedUsage n)) ↔
          2 ≤ occurrences doc.toList ∧ n = occurrences doc.toList) ∧
        (Marked doc.toList → occurrences doc.toList < 2 → ∃ usage, sectionOf doc = .ok usage ∧
          Text.Trimmed usage.toList ∧ ¬ Text.HasBlankLine usage.toList) := by
  constructor
  · intro pre m body post hm hpre hrest hbody
    have hlist : (pre ++ m ++ body ++ "\n\n" ++ post).toList =
        pre.toList ++ (m.toList ++ (body ++ "\n\n" ++ post).toList) := by simp
    have hbehind :
        (body ++ "\n\n" ++ post).toList = body.toList ++ '\n' :: '\n' :: post.toList := by
      simp
    obtain ⟨blanks, hblanks, hcut⟩ := exists_untilBlankLine_append hbody post.toList
    have hsole : occurrences (pre ++ m ++ body ++ "\n\n" ++ post).toList = 1 := by
      rw [hlist]
      exact occurrences_sole hm hpre hrest
    rw [sectionOf_of_sole hsole, hlist, afterMarker_sole hm hpre hrest, hbehind]
    rw [Text.trim, Text.trim, String.toList_ofList, ← Text.trimBoth_append hblanks, hcut]
  · intro doc
    refine ⟨?_, ?_, ?_⟩
    · rw [sectionOf_eq_error_iff, ← occurrences_eq_zero_iff]
      simp
    · intro n
      rw [sectionOf_eq_error_iff]
      simp
    · intro hmarked hfew
      have hsome : occurrences doc.toList ≠ 0 := fun h0 => occurrences_eq_zero_iff.mp h0 hmarked
      refine ⟨_, sectionOf_of_sole (by omega), ?_⟩
      rw [Text.trim, String.toList_ofList, String.toList_ofList]
      refine ⟨Text.trimmed_trimBoth _, fun hline => ?_⟩
      exact not_hasBlankLine_untilBlankLine _ (hline.within (Text.trimBoth_infix _ _))

/-- A marker with a long s between two paragraphs. -/
theorem sectionOf_extracts_long_s :
    let pre := "Naval Fate is no usage.\n\n"
    let m := "UſAGE:"
    let body := "\n  nf ship\n\t nf mine \n\t"
    let post := "Options:\n\n -h"
    Marks m.toList ∧ ¬ Marked pre.toList ∧ ¬ Marked (body ++ "\n\n" ++ post).toList ∧
      ¬ Text.HasBlankLine body.toList ∧
        sectionOf (pre ++ m ++ body ++ "\n\n" ++ post) = .ok "nf ship\n\t nf mine" := by
  intro pre m body post
  have hm : Marks m.toList := by decide +kernel
  have hpre : ¬ Marked pre.toList := by decide +kernel
  have hrest : ¬ Marked (body ++ "\n\n" ++ post).toList := by decide +kernel
  have hbody : ¬ Text.HasBlankLine body.toList := by decide +kernel
  have htrim : Text.trim body = "nf ship\n\t nf mine" := by decide +kernel
  refine ⟨hm, hpre, hrest, hbody, ?_⟩
  rw [sectionOf_extracts.1 pre m body post hm hpre hrest hbody, htrim]

end Usage

end Synopsis
