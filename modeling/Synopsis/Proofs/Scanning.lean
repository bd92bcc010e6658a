import Mathlib.Data.List.TakeWhile
import Synopsis.Token

/-!
What the scanner makes of a text. The pieces of a text are its delimiters and the clean words between
them, and a blank between two texts keeps their pieces apart.
-/
namespace Synopsis

namespace Text

/-- A separator keeps the fields on its two sides apart. -/
theorem fieldsOf_append_cons {separates : Char → Bool} {c : Char} (h : separates c = true)
    (before after : List Char) :
    fieldsOf separates (before ++ c :: after) =
      fieldsOf separates before ++ fieldsOf separates after := by
  fun_induction fieldsOf separates before with
  | case1 => simp [fieldsOf_cons_of_separates after h]
  | case2 b rest hb ih => simpa [fieldsOf_cons_of_separates _ hb] using ih
  | case3 b rest hb ih =>
    have hb' : separates b = false := by simpa using hb
    have htake : (rest ++ c :: after).takeWhile (!separates ·) = rest.takeWhile (!separates ·) := by
      simp only [List.takeWhile_append, List.takeWhile_cons, h, Bool.not_true, Bool.false_eq_true,
        if_false, List.append_nil]
      split_ifs with hl
      · exact ((List.takeWhile_prefix _).eq_of_length hl).symm
      · rfl
    have hdrop : (rest ++ c :: after).dropWhile (!separates ·) =
        rest.dropWhile (!separates ·) ++ c :: after := by
      rw [List.dropWhile_append]
      split_ifs with he
      · simp [List.isEmpty_iff.mp he, h]
      · rfl
    rw [List.cons_append, fieldsOf_cons_of_not_separates _ hb', htake, hdrop, ih, List.cons_append]

theorem mem_fieldsOf_of_dropWhile {separates : Char → Bool} {cs field : List Char}
    (h : field ∈ fieldsOf separates (cs.dropWhile (!separates ·))) :
    field ∈ fieldsOf separates cs := by
  cases cs with
  | nil => exact h
  | cons c rest =>
    cases hc : separates c with
    | true => simpa [List.dropWhile_cons, hc] using h
    | false =>
      rw [List.dropWhile_cons, hc] at h
      rw [fieldsOf_cons_of_not_separates _ hc]
      exact List.mem_cons_of_mem _ h

theorem exists_field_of_mem {separates : Char → Bool} {cs : List Char} {c : Char}
    (hc : c ∈ cs) (hs : separates c = false) : ∃ field ∈ fieldsOf separates cs, c ∈ field := by
  fun_induction fieldsOf separates cs with
  | case1 => simp at hc
  | case2 b rest hb ih =>
    rcases List.mem_cons.mp hc with rfl | hc
    · simp [hs] at hb
    · exact ih hc
  | case3 b rest hb ih =>
    have hsplit := List.takeWhile_append_dropWhile (p := (!separates ·)) (l := rest)
    rcases List.mem_cons.mp hc with rfl | hc
    · exact ⟨_, List.mem_cons_self, by simp⟩
    · rw [← hsplit] at hc
      rcases List.mem_append.mp hc with hc | hc
      · exact ⟨_, List.mem_cons_self, by simp [hc]⟩
      · obtain ⟨field, hf, hm⟩ := ih hc
        exact ⟨field, List.mem_cons_of_mem _ hf, hm⟩

theorem fieldsOf_eq_singleton {separates : Char → Bool} {cs : List Char} (hne : cs ≠ [])
    (h : ∀ c ∈ cs, separates c = false) : fieldsOf separates cs = [cs] := by
  obtain ⟨c, rest, rfl⟩ := List.exists_cons_of_ne_nil hne
  have hrest : ∀ d ∈ rest, (!separates d) = true := fun d hd => by simp [h d (by simp [hd])]
  rw [fieldsOf_cons_of_not_separates _ (h c (by simp)), List.takeWhile_eq_self_iff.mpr hrest,
    List.dropWhile_eq_nil_iff.mpr hrest, fieldsOf_nil]

end Text

namespace Token

def dots : List Char := ['.', '.', '.']

/-- Neither blanks nor delimiters. -/
structure Clean (cs : List Char) : Prop where
  blanks : ∀ c ∈ cs, Text.isBlank c = false
  brackets : ∀ c ∈ cs, isBracket c = false
  ellipsis : ¬ dots <:+: cs

theorem Clean.within {cs ds : List Char} (h : Clean cs) (hd : ds <:+: cs) : Clean ds :=
  ⟨fun c hc => h.blanks c (hd.subset hc), fun c hc => h.brackets c (hd.subset hc),
    fun he => h.ellipsis (he.trans hd)⟩

theorem Clean.nil : Clean [] := ⟨by simp, by simp, by simp [dots]⟩

theorem Clean.cons {c : Char} {cs : List Char} (h : Clean cs) (hb : Text.isBlank c = false)
    (hk : isBracket c = false) (hd : ¬ dots <+: c :: cs) : Clean (c :: cs) := by
  refine ⟨?_, ?_, fun he => ?_⟩
  · simpa [hb] using h.blanks
  · simpa [hk] using h.brackets
  · rcases List.infix_cons_iff.mp he with hp | hi
    · exact hd hp
    · exact h.ellipsis hi

theorem Clean.concat {c : Char} {cs : List Char} (h : Clean cs) (hb : Text.isBlank c = false)
    (hk : isBracket c = false) (hd : c ≠ '.') : Clean (cs ++ [c]) := by
  refine ⟨?_, ?_, fun he => ?_⟩
  · intro d hm
    rcases List.mem_append.mp hm with hm | hm
    · exact h.blanks d hm
    · rwa [List.mem_singleton.mp hm]
  · intro d hm
    rcases List.mem_append.mp hm with hm | hm
    · exact h.brackets d hm
    · rwa [List.mem_singleton.mp hm]
  · rcases List.infix_concat_iff.mp he with hs | hi
    · obtain ⟨t, ht⟩ := hs
      have hlast : (t ++ dots).getLast? = some '.' := by simp [dots]
      rw [ht] at hlast
      exact hd (by simpa using hlast)
    · exact h.ellipsis hi

theorem spaced_cons_bracket {c : Char} (cs : List Char) (h : isBracket c = true) :
    spaced (c :: cs) = ' ' :: c :: ' ' :: spaced cs := by
  rw [spaced]
  · simp [h]
  · rintro rest rfl -
    exact absurd h (by decide)

theorem spaced_cons {c : Char} {cs : List Char} (h : isBracket c = false)
    (hd : ¬ dots <+: c :: cs) : spaced (c :: cs) = c :: spaced cs := by
  rw [spaced]
  · simp [h]
  · rintro rest rfl rfl
    exact hd ⟨rest, rfl⟩

theorem spaced_dots (cs : List Char) :
    spaced (dots ++ cs) = ' ' :: (dots ++ ' ' :: spaced cs) := by
  simp [dots]

def pieces (source : String) : List String :=
  Text.words (String.ofList (spaced source.toList))

theorem scan_eq_number (source : String) :
    scan source = number TokenKind.of (pieces source) := rfl

theorem map_text_number (kindOf : String → TokenKind) (texts : List String) :
    (number kindOf texts).map Token.text = texts := by
  rw [number, List.map_map]
  exact List.zipIdx_map_fst 1 texts

/-- An induction along the scanner: nothing, an ellipsis, or one character of any other text. -/
theorem spaced_induction {motive : List Char → Prop} (nil : motive [])
    (ellipsis : ∀ rest, motive rest → motive (dots ++ rest))
    (cons : ∀ c rest, ¬ dots <+: c :: rest → motive rest → motive (c :: rest))
    (cs : List Char) : motive cs := by
  fun_induction spaced cs with
  | case1 => exact nil
  | case2 rest ih => exact ellipsis rest ih
  | case3 c rest hnot hb ih | case4 c rest hnot hb ih =>
    refine cons c rest (fun hd => ?_) ih
    obtain ⟨t, ht⟩ := hd
    simp only [dots, List.cons_append, List.nil_append, List.cons.injEq] at ht
    exact hnot t ht.1.symm ht.2.symm

/-- The scanner does not look across a character that is no dot. -/
theorem spaced_append {c : Char} (hc : c ≠ '.') (before after : List Char) :
    spaced (before ++ c :: after) = spaced before ++ spaced (c :: after) := by
  induction before using spaced_induction with
  | nil => simp
  | ellipsis rest ih => simp [List.append_assoc, spaced_dots, ih]
  | cons d rest hd ih =>
    cases hb : isBracket d with
    | true => simp [spaced_cons_bracket _ hb, ih]
    | false =>
      have hd' : ¬ dots <+: d :: (rest ++ c :: after) := by
        rcases rest with _ | ⟨e, _ | ⟨f, tail⟩⟩
        · simp [dots, hc.symm]
        · simp [dots, hc.symm]
        · simpa [dots] using hd
      rw [List.cons_append, spaced_cons hb hd', spaced_cons hb hd, ih, List.cons_append]

theorem spaced_append_space (before after : List Char) :
    spaced (before ++ ' ' :: after) = spaced before ++ ' ' :: spaced after := by
  rw [spaced_append (by decide), spaced_cons (by decide) (by simp [dots])]

theorem pieces_append_space (before after : String) :
    pieces (before ++ " " ++ after) = pieces before ++ pieces after := by
  simp [pieces, Text.words, String.toList_append, spaced_append_space,
    Text.fieldsOf_append_cons Text.isBlank_space]

theorem spaced_eq_self {cs : List Char} (h : Clean cs) : spaced cs = cs := by
  induction cs with
  | nil => simp
  | cons c rest ih =>
    have hd : ¬ dots <+: c :: rest := fun hp => h.ellipsis hp.isInfix
    rw [spaced_cons (h.brackets c (by simp)) hd, ih (h.within (List.suffix_cons c rest).isInfix)]

/-- The run of other characters in front of the next blank or delimiter is clean. -/
theorem clean_takeWhile_spaced (cs : List Char) :
    (spaced cs).takeWhile (!Text.isBlank ·) <+: cs ∧
      Clean ((spaced cs).takeWhile (!Text.isBlank ·)) := by
  induction cs using spaced_induction with
  | nil => simpa using Clean.nil
  | ellipsis rest ih => simpa [spaced_dots] using Clean.nil
  | cons c rest hd ih =>
    cases hk : isBracket c with
    | true => simpa [spaced_cons_bracket _ hk] using Clean.nil
    | false =>
      rw [spaced_cons hk hd, List.takeWhile_cons]
      cases hb : Text.isBlank c with
      | true => simpa using Clean.nil
      | false =>
        have hp := List.cons_prefix_cons.mpr ⟨rfl (a := c), ih.1⟩
        exact ⟨hp, ih.2.cons hb hk fun hdots => hd (hdots.trans hp)⟩

theorem field_spaced_cases {cs field : List Char}
    (h : field ∈ Text.fieldsOf Text.isBlank (spaced cs)) :
    field = dots ∨ (∃ c, field = [c] ∧ isBracket c = true) ∨ Clean field := by
  induction cs using spaced_induction with
  | nil => simp at h
  | ellipsis rest ih =>
    have hdot : Text.isBlank '.' = false := by decide
    have hone : Text.fieldsOf Text.isBlank dots = [dots] :=
      Text.fieldsOf_eq_singleton (by simp [dots]) (by simp [dots, hdot])
    rw [spaced_dots, Text.fieldsOf_cons_of_separates _ Text.isBlank_space,
      Text.fieldsOf_append_cons Text.isBlank_space, hone] at h
    rcases List.mem_append.mp h with h | h
    · exact .inl (List.mem_singleton.mp h)
    · exact ih h
  | cons c rest hd ih =>
    cases hk : isBracket c with
    | true =>
      have hb : Text.isBlank c = false := by
        simp only [isBracket, Bool.or_eq_true, beq_iff_eq] at hk
        rcases hk with (((rfl | rfl) | rfl) | rfl) | rfl <;> decide
      have hone : Text.fieldsOf Text.isBlank [c] = [[c]] :=
        Text.fieldsOf_eq_singleton (by simp) (by simpa using hb)
      rw [spaced_cons_bracket _ hk, Text.fieldsOf_cons_of_separates _ Text.isBlank_space,
        show c :: ' ' :: spaced rest = [c] ++ ' ' :: spaced rest from rfl,
        Text.fieldsOf_append_cons Text.isBlank_space, hone] at h
      rcases List.mem_append.mp h with h | h
      · exact .inr (.inl ⟨c, List.mem_singleton.mp h, hk⟩)
      · exact ih h
    | false =>
      rw [spaced_cons hk hd] at h
      cases hb : Text.isBlank c with
      | true =>
        rw [Text.fieldsOf_cons_of_separates _ hb] at h
        exact ih h
      | false =>
        rw [Text.fieldsOf_cons_of_not_separates _ hb] at h
        rcases List.mem_cons.mp h with rfl | h
        · obtain ⟨hp, hc⟩ := clean_takeWhile_spaced rest
          have hp' := List.cons_prefix_cons.mpr ⟨rfl (a := c), hp⟩
          exact .inr (.inr (hc.cons hb hk fun hdots => hd (hdots.trans hp')))
        · exact ih (Text.mem_fieldsOf_of_dropWhile h)

/-- The first piece of a text that begins with a word begins like the text. -/
theorem pieces_of_cons {s : String} {c : Char} {cs : List Char} (hs : s.toList = c :: cs)
    (hb : Text.isBlank c = false) (hk : isBracket c = false) (hd : c ≠ '.') :
    ∃ later, pieces s =
      String.ofList (c :: (spaced cs).takeWhile (!Text.isBlank ·)) :: later := by
  have hdots : ¬ dots <+: c :: cs := by
    intro h
    obtain ⟨t, ht⟩ := h
    simp only [dots, List.cons_append, List.cons.injEq] at ht
    exact hd ht.1.symm
  simp [pieces, Text.words, hs, spaced_cons hk hdots, Text.fieldsOf_cons_of_not_separates _ hb]

/-- Without blanks after spacing there was nothing to space. -/
theorem clean_of_spaced {cs : List Char} (h : ∀ c ∈ spaced cs, Text.isBlank c = false) :
    Clean cs := by
  induction cs using spaced_induction with
  | nil => exact .nil
  | ellipsis rest ih =>
    have hblank := h ' ' (by simp [spaced_dots])
    simp at hblank
  | cons c rest hd ih =>
    cases hk : isBracket c with
    | true =>
      have hblank := h ' ' (by simp [spaced_cons_bracket _ hk])
      simp at hblank
    | false =>
      rw [spaced_cons hk hd] at h
      exact (ih fun d hm => h d (by simp [hm])).cons (h c (by simp)) hk hd

def IsWord (s : String) : Prop := scan s = [⟨.word, s, 1⟩]

instance (s : String) : Decidable (IsWord s) := inferInstanceAs (Decidable (_ = _))

theorem kind_eq_word {s : String} (h : s ∉ ["(", "[", ")", "]", "|", "..."]) :
    TokenKind.of s = .word := by
  simp only [List.mem_cons, not_or] at h
  simp [TokenKind.of, h]

theorem kind_eq_word_of_clean {s : String} (h : Clean s.toList) : TokenKind.of s = .word := by
  apply kind_eq_word
  intro hm
  have hbracket : ∀ c, isBracket c = true → s ≠ String.ofList [c] := by
    rintro c hc rfl
    simpa [hc] using h.brackets c (by simp)
  have hdots : s ≠ "..." := by
    rintro rfl
    exact h.ellipsis (List.infix_refl dots)
  simp only [List.mem_cons, List.not_mem_nil, or_false] at hm
  rcases hm with hm | hm | hm | hm | hm | hm
  · exact hbracket '(' (by decide) hm
  · exact hbracket '[' (by decide) hm
  · exact hbracket ')' (by decide) hm
  · exact hbracket ']' (by decide) hm
  · exact hbracket '|' (by decide) hm
  · exact hdots hm

theorem kind_eq_word_of_head {c : Char} (cs : List Char) (hk : isBracket c = false)
    (hd : c ≠ '.') : TokenKind.of (String.ofList (c :: cs)) = .word := by
  apply kind_eq_word
  intro hm
  have hhead : ∀ s ∈ ["(", "[", ")", "]", "|", "..."], s.toList.head?.all
      (fun d => isBracket d || d == '.') = true := by decide
  have hc := hhead _ hm
  simp [hk, hd] at hc

theorem pieces_of_clean {s : String} (hne : s ≠ "") (h : Clean s.toList) : pieces s = [s] := by
  have hne' : s.toList ≠ [] := by simpa using hne
  simp [pieces, Text.words, spaced_eq_self h, Text.fieldsOf_eq_singleton hne' h.blanks]

theorem clean_of_mem_pieces {source s : String} (h : s ∈ pieces source)
    (hw : TokenKind.of s = .word) : s ≠ "" ∧ Clean s.toList := by
  simp only [pieces, Text.words, String.toList_ofList, List.mem_map] at h
  obtain ⟨field, hf, rfl⟩ := h
  refine ⟨by simpa using (Text.mem_fieldsOf hf).1, ?_⟩
  rcases field_spaced_cases hf with rfl | ⟨c, rfl, hc⟩ | hc
  · exact absurd hw (by decide)
  · simp only [isBracket, Bool.or_eq_true, beq_iff_eq] at hc
    rcases hc with (((rfl | rfl) | rfl) | rfl) | rfl <;> exact absurd hw (by decide)
  · simpa using hc

theorem isWord_iff {s : String} : IsWord s ↔ s ≠ "" ∧ Clean s.toList := by
  constructor
  · intro h
    have hm : (⟨.word, s, 1⟩ : Token) ∈ number TokenKind.of (pieces s) := by
      rw [← scan_eq_number, h]; simp
    simp only [number, List.mem_map] at hm
    obtain ⟨⟨text, i⟩, hi, he⟩ := hm
    simp only [Token.mk.injEq] at he
    obtain ⟨hk, rfl, -⟩ := he
    exact clean_of_mem_pieces (List.fst_mem_of_mem_zipIdx hi) hk
  · rintro ⟨hne, hc⟩
    simp [IsWord, scan_eq_number, pieces_of_clean hne hc, number, kind_eq_word_of_clean hc]

theorem pieces_of_isWord {s : String} (h : IsWord s) : pieces s = [s] := by
  obtain ⟨hne, hc⟩ := isWord_iff.mp h
  exact pieces_of_clean hne hc

theorem kind_of_isWord {s : String} (h : IsWord s) : TokenKind.of s = .word :=
  kind_eq_word_of_clean (isWord_iff.mp h).2

/-- What every token of a scanned text satisfies. -/
structure Scanned (t : Token) : Prop where
  kind_eq : t.kind = TokenKind.of t.text
  placed : 0 < t.index
  word : t.kind = .word → IsWord t.text

theorem scanned_of_mem_scan {source : String} {t : Token} (h : t ∈ scan source) : t.Scanned := by
  rw [scan_eq_number] at h
  simp only [number, List.mem_map] at h
  obtain ⟨⟨text, i⟩, hi, rfl⟩ := h
  have hword := clean_of_mem_pieces (List.fst_mem_of_mem_zipIdx hi)
  refine ⟨rfl, ?_, fun hk => isWord_iff.mpr (hword hk)⟩
  have := List.le_snd_of_mem_zipIdx hi
  simp only at this ⊢
  omega

end Token

end Synopsis
