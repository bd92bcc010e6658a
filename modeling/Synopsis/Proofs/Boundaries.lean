import Mathlib.Data.List.Induction
import Synopsis.Proofs.Written

/-!
Where the tokens of a usage pattern begin and end. They hold all of the text but its blanks, in
order. A token ends at a blank, and where a delimiter begins or ends that the scan from left to right
finds, and nowhere else.
-/
namespace Synopsis

namespace Text

def solid (cs : List Char) : List Char := cs.filter (!isBlank ·)

@[simp] theorem solid_append (cs ds : List Char) : solid (cs ++ ds) = solid cs ++ solid ds :=
  List.filter_append cs ds

theorem solid_cons_congr {cs ds : List Char} (c : Char) (h : solid cs = solid ds) :
    solid (c :: cs) = solid (c :: ds) := by
  rw [← List.singleton_append, ← List.singleton_append (l := ds), solid_append, solid_append, h]

@[simp] theorem solid_space_cons (cs : List Char) : solid (' ' :: cs) = solid cs := by
  simp [solid]

variable {separates : Char → Bool}

theorem flatten_fieldsOf (separates : Char → Bool) (cs : List Char) :
    (fieldsOf separates cs).flatten = cs.filter (!separates ·) := by
  fun_induction fieldsOf separates cs with
  | case1 => rfl
  | case2 c rest hc ih => simpa [hc] using ih
  | case3 c rest hc ih =>
    have hall := List.all_takeWhile (p := (!separates ·)) (l := rest)
    have hsplit := List.takeWhile_append_dropWhile (p := (!separates ·)) (l := rest)
    have hkeep : (c :: rest).filter (!separates ·) = c :: rest.filter (!separates ·) := by
      simp [hc]
    rw [List.flatten_cons, ih, hkeep]
    nth_rewrite 3 [← hsplit]
    rw [List.filter_append, List.filter_eq_self.mpr (List.all_eq_true.mp hall), List.cons_append]

theorem fieldsOf_append {cs : List Char} (hne : cs ≠ []) (h : ∀ c ∈ cs, separates c = false)
    (rest : List Char) :
    fieldsOf separates (cs ++ rest) = (cs ++ rest.takeWhile (!separates ·)) ::
      fieldsOf separates (rest.dropWhile (!separates ·)) := by
  obtain ⟨c, ds, rfl⟩ := List.exists_cons_of_ne_nil hne
  rw [List.forall_mem_cons] at h
  have hds : ∀ d ∈ ds, (!separates d) = true := fun d hd => by simp [h.2 d hd]
  rw [List.cons_append, fieldsOf_cons_of_not_separates _ h.1, List.takeWhile_append_of_pos hds,
    List.dropWhile_append_of_pos hds, List.cons_append]

theorem exists_fieldsOf_append {cs : List Char} (hne : cs ≠ [])
    (h : ∀ c ∈ cs, separates c = false) (front back : List Char) :
    ∃ fields x y later,
      fieldsOf separates (front ++ (cs ++ back)) = fields ++ (x ++ (cs ++ y)) :: later ∧
        fields.flatten ++ x = front.filter (!separates ·) := by
  induction front using List.reverseRecOn generalizing cs with
  | nil => exact ⟨[], [], _, _, fieldsOf_append hne h back, rfl⟩
  | append_singleton front c ih =>
    rw [List.append_assoc, List.singleton_append]
    cases hc : separates c with
    | true =>
      refine ⟨fieldsOf separates front, [], back.takeWhile (!separates ·),
        fieldsOf separates (back.dropWhile (!separates ·)), ?_, ?_⟩
      · rw [fieldsOf_append_cons hc, fieldsOf_append hne h back, List.nil_append]
      · simp [flatten_fieldsOf, hc]
    | false =>
      have hclean : ∀ d ∈ c :: cs, separates d = false := by simpa [hc] using h
      obtain ⟨fields, x, y, later, heq, hflat⟩ := ih (by simp) hclean
      refine ⟨fields, x ++ [c], y, later, ?_, ?_⟩
      · simpa using heq
      · simp [← List.append_assoc, hflat, hc]

/-- Behind the given characters two others stand side by side in one of the texts. -/
def SideBySide (texts : List (List Char)) (before : List Char) (a b : Char) : Prop :=
  ∃ front x y back, texts = front ++ (x ++ a :: b :: y) :: back ∧ front.flatten ++ x = before

theorem not_sideBySide {front back : List (List Char)} {before : List Char} {a b : Char}
    (h : front.flatten = before ++ [a]) : ¬ SideBySide (front ++ back) before a b := by
  rintro ⟨front', x, y, back', heq, hflat⟩
  have hlength := congrArg List.length h
  have hlength' := congrArg List.length hflat
  rw [List.length_append] at hlength hlength'
  rw [List.length_singleton] at hlength
  rcases List.append_eq_append_iff.mp heq with ⟨more, rfl, -⟩ | ⟨more, rfl, hmore⟩
  · rw [List.flatten_append, List.length_append] at hlength'
    omega
  · cases more with
    | nil =>
      rw [List.append_nil] at hlength
      omega
    | cons text more =>
      obtain ⟨rfl, -⟩ := List.cons.inj hmore
      simp only [List.flatten_append, List.flatten_cons, List.length_append, List.length_cons]
        at hlength
      omega

end Text

namespace Token

def IsDelimiter (cs : List Char) : Prop := cs = dots ∨ ∃ c, cs = [c] ∧ isBracket c = true

/-- The scan of a text from left to right, for delimiters that share no character, finds one between
a part in front of it and a part behind it. -/
inductive Finds : List Char → List Char → List Char → List Char → Prop where
  | here {d : List Char} (hd : IsDelimiter d) (rest : List Char) : Finds (d ++ rest) [] d rest
  | later {d e rest before behind : List Char} (he : IsDelimiter e)
      (h : Finds rest before d behind) : Finds (e ++ rest) (e ++ before) d behind
  | past {c : Char} {d rest before behind : List Char}
      (hc : ∀ e, IsDelimiter e → ¬ e <+: c :: rest) (h : Finds rest before d behind) :
      Finds (c :: rest) (c :: before) d behind

/-- A delimiter of the text begins or ends between its two parts. -/
def Cut (front back : List Char) : Prop :=
  ∃ before d behind, Finds (front ++ back) before d behind ∧
    (before = front ∨ before ++ d = front)

section Scan

variable {cs d front back before : List Char} {a b c : Char}

theorem no_delimiter_iff {rest : List Char} :
    (∀ e, IsDelimiter e → ¬ e <+: c :: rest) ↔ isBracket c = false ∧ ¬ dots <+: c :: rest := by
  constructor
  · intro h
    refine ⟨?_, h dots (.inl rfl)⟩
    by_contra hc
    exact h [c] (.inr ⟨c, rfl, by simpa using hc⟩) (by simp)
  · rintro ⟨hc, hd⟩ e (rfl | ⟨c', rfl, hc'⟩) hp
    · exact hd hp
    · obtain ⟨rfl, -⟩ := List.cons_prefix_cons.mp hp
      rw [hc] at hc'
      cases hc'

theorem spaced_delimiter (h : IsDelimiter d) (rest : List Char) :
    spaced (d ++ rest) = ' ' :: (d ++ ' ' :: spaced rest) := by
  obtain rfl | ⟨c, rfl, hc⟩ := h
  · exact spaced_dots rest
  · exact spaced_cons_bracket rest hc

theorem spaced_past {rest : List Char} (h : ∀ e, IsDelimiter e → ¬ e <+: c :: rest) :
    spaced (c :: rest) = c :: spaced rest := by
  obtain ⟨hc, hd⟩ := no_delimiter_iff.mp h
  exact spaced_cons hc hd

/-- An induction along the scan: nothing, a delimiter, or one character of any other text. -/
theorem scan_induction {motive : List Char → Prop} (nil : motive [])
    (delimiter : ∀ d rest, IsDelimiter d → motive rest → motive (d ++ rest))
    (past : ∀ c rest, (∀ e, IsDelimiter e → ¬ e <+: c :: rest) → motive rest → motive (c :: rest))
    (cs : List Char) : motive cs := by
  induction cs using spaced_induction with
  | nil => exact nil
  | ellipsis rest ih => exact delimiter dots rest (.inl rfl) ih
  | cons c rest hd ih =>
    cases hc : isBracket c with
    | true => exact delimiter [c] rest (.inr ⟨c, rfl, hc⟩) ih
    | false => exact past c rest (no_delimiter_iff.mpr ⟨hc, hd⟩) ih

theorem solid_spaced (cs : List Char) : Text.solid (spaced cs) = Text.solid cs := by
  induction cs using scan_induction with
  | nil => rfl
  | delimiter d rest hd ih => simp [spaced_delimiter hd, ih]
  | past c rest hc ih => rw [spaced_past hc, Text.solid_cons_congr c ih]

/-- In the spaced text, these characters come next behind the given part, its blanks not counted. -/
def Next (cs before ahead : List Char) : Prop :=
  ∃ u v, spaced cs = u ++ (ahead ++ v) ∧ Text.solid u = Text.solid before

section Next

variable {rest ahead : List Char}

theorem Next.delimiter (hd : IsDelimiter d) (h : Next rest before ahead) :
    Next (d ++ rest) (d ++ before) ahead := by
  obtain ⟨u, v, hu, hsolid⟩ := h
  refine ⟨' ' :: (d ++ ' ' :: u), v, ?_, ?_⟩
  · simp [spaced_delimiter hd, hu]
  · simp [hsolid]

theorem Next.past (hc : ∀ e, IsDelimiter e → ¬ e <+: c :: rest) (h : Next rest before ahead) :
    Next (c :: rest) (c :: before) ahead := by
  obtain ⟨u, v, hu, hsolid⟩ := h
  refine ⟨c :: u, v, ?_, Text.solid_cons_congr c hsolid⟩
  rw [spaced_past hc, hu, List.cons_append]

/-- There are blanks on both sides of a delimiter that is found. -/
theorem Finds.next (h : Finds cs before d back) : Next cs before (' ' :: (d ++ [' '])) := by
  induction h with
  | here hd rest => exact ⟨[], spaced rest, by simp [spaced_delimiter hd], rfl⟩
  | later he h ih => exact ih.delimiter he
  | past hc h ih => exact ih.past hc

theorem Cut.next (h : Cut front back) : Next (front ++ back) front [' '] := by
  obtain ⟨before, d, behind, hfinds, hends⟩ := h
  obtain ⟨u, v, hu, hsolid⟩ := hfinds.next
  rcases hends with rfl | rfl
  · exact ⟨u, d ++ ' ' :: v, hu.trans (by simp), hsolid⟩
  · exact ⟨u ++ ' ' :: d, v, hu.trans (by simp), by simp [hsolid]⟩

end Next

theorem Cut.later {e : List Char} (he : IsDelimiter e) (h : Cut front back) :
    Cut (e ++ front) back := by
  obtain ⟨before, d, behind, hfinds, hends⟩ := h
  refine ⟨e ++ before, d, behind, ?_, ?_⟩
  · rw [List.append_assoc]
    exact .later he hfinds
  · rcases hends with rfl | rfl
    · exact .inl rfl
    · exact .inr (List.append_assoc _ _ _)

theorem Cut.past (hc : ∀ e, IsDelimiter e → ¬ e <+: c :: (front ++ back)) (h : Cut front back) :
    Cut (c :: front) back := by
  obtain ⟨before, d, behind, hfinds, hends⟩ := h
  refine ⟨c :: before, d, behind, .past hc hfinds, ?_⟩
  rcases hends with rfl | rfl
  · exact .inl rfl
  · exact .inr rfl

/-- Where no delimiter begins or ends between two characters, no blank comes between them. -/
theorem next_of_not_cut {after : List Char} (h : ¬ Cut (before ++ [a]) (b :: after)) :
    Next (before ++ a :: b :: after) before [a, b] := by
  generalize hcs : before ++ a :: b :: after = cs
  induction cs using scan_induction generalizing before with
  | nil => simp at hcs
  | delimiter d rest hd ih =>
    have hbehind : ∀ more, before = d ++ more → more ++ a :: b :: after = rest →
        Next (d ++ rest) before [a, b] := by
      rintro more rfl hmore
      have hnot : ¬ Cut (more ++ [a]) (b :: after) := by
        intro hcut
        apply h
        rw [List.append_assoc]
        exact hcut.later hd
      exact (ih hnot hmore).delimiter hd
    rcases List.append_eq_append_iff.mp hcs with ⟨within, hd', hrest⟩ | ⟨more, hbefore, hmore⟩
    · rcases within with _ | ⟨a', _ | ⟨b', within⟩⟩
      · exact hbehind [] (by rw [hd', List.append_nil, List.append_nil]) hrest
      · rw [List.cons_append, List.cons.injEq] at hrest
        obtain ⟨rfl, rfl⟩ := hrest
        refine absurd ⟨[], d, b :: after, ?_, .inr ?_⟩ h
        · rw [← hd']
          exact .here hd _
        · rw [List.nil_append, hd']
      · simp only [List.cons_append, List.cons.injEq] at hrest
        obtain ⟨rfl, rfl, rfl⟩ := hrest
        refine ⟨' ' :: before, within ++ ' ' :: spaced rest, ?_, by simp⟩
        rw [spaced_delimiter hd, hd']
        simp
    · exact hbehind more hbefore hmore.symm
  | past c rest hc ih =>
    cases before with
    | nil =>
      obtain ⟨rfl, rfl⟩ := List.cons.inj hcs
      have hnext : ∀ e, IsDelimiter e → ¬ e <+: b :: after := by
        rintro e he ⟨behind, hbehind⟩
        apply h
        refine ⟨[a], e, behind, .past hc ?_, .inl rfl⟩
        rw [← hbehind]
        exact .here he behind
      refine ⟨[], spaced after, ?_, rfl⟩
      rw [spaced_past hc, spaced_past hnext]
      rfl
    | cons c' before =>
      rw [List.cons_append, List.cons.injEq] at hcs
      obtain ⟨rfl, hrest⟩ := hcs
      have hnot : ¬ Cut (before ++ [a]) (b :: after) := by
        intro hcut
        apply h
        apply hcut.past
        rwa [List.append_assoc, List.singleton_append, hrest]
      exact (ih hnot hrest).past hc

/-- Two neighbours of a text stand side by side in one piece exactly where neither of them is blank
and no delimiter begins or ends between them. -/
theorem sideBySide_iff_not_cut {after : List Char} :
    Text.SideBySide (Text.fieldsOf Text.isBlank (spaced (before ++ a :: b :: after)))
        (Text.solid before) a b ↔
      Text.isBlank a = false ∧ Text.isBlank b = false ∧ ¬ Cut (before ++ [a]) (b :: after) := by
  constructor
  · intro hside
    obtain ⟨front, x, y, back, htexts, hflat⟩ := id hside
    have hfield : x ++ a :: b :: y ∈
        Text.fieldsOf Text.isBlank (spaced (before ++ a :: b :: after)) := by
      rw [htexts]
      simp
    have hsolid := (Text.mem_fieldsOf hfield).2
    have ha := hsolid a (by simp)
    refine ⟨ha, hsolid b (by simp), fun hcut => ?_⟩
    obtain ⟨u, v, hu, hfront⟩ := hcut.next
    rw [List.append_assoc, List.singleton_append] at hu
    rw [hu, List.singleton_append, Text.fieldsOf_append_cons Text.isBlank_space] at hside
    apply Text.not_sideBySide _ hside
    calc (Text.fieldsOf Text.isBlank u).flatten
        = Text.solid u := Text.flatten_fieldsOf Text.isBlank u
      _ = Text.solid (before ++ [a]) := hfront
      _ = Text.solid before ++ [a] := by simp [Text.solid, ha]
  · rintro ⟨ha, hb, hcut⟩
    obtain ⟨u, v, hu, hsolid⟩ := next_of_not_cut hcut
    have hsolid' : ∀ c ∈ [a, b], Text.isBlank c = false := by simp [ha, hb]
    obtain ⟨front, x, y, back, htexts, hflat⟩ :=
      Text.exists_fieldsOf_append (by simp) hsolid' u v
    rw [hu]
    exact ⟨front, x, y, back, htexts, hflat.trans hsolid⟩

end Scan

theorem pieces_of_mem_pieces {source s : String} (h : s ∈ pieces source) : pieces s = [s] := by
  simp only [pieces, Text.words, String.toList_ofList, List.mem_map] at h
  obtain ⟨field, hf, rfl⟩ := h
  obtain ⟨hopen, hclose, hopen', hclose', hpipe, hdots⟩ := pieces_delimiters
  rcases field_spaced_cases hf with rfl | ⟨c, rfl, hc⟩ | hclean
  · exact hdots
  · simp only [isBracket, Bool.or_eq_true, beq_iff_eq] at hc
    rcases hc with (((rfl | rfl) | rfl) | rfl) | rfl
    · exact hopen'
    · exact hclose'
    · exact hopen
    · exact hclose
    · exact hpipe
  · have hne : String.ofList field ≠ "" := by simpa using (Text.mem_fieldsOf hf).1
    exact pieces_of_clean hne (by simpa using hclean)

theorem kind_eq_iff (s : String) : (TokenKind.of s = .opener ↔ s = "(" ∨ s = "[") ∧
    (TokenKind.of s = .closer ↔ s = ")" ∨ s = "]") ∧ (TokenKind.of s = .pipe ↔ s = "|") ∧
      (TokenKind.of s = .ellipsis ↔ s = "...") := by
  by_cases h : s ∈ ["(", "[", ")", "]", "|", "..."]
  · simp only [List.mem_cons, List.not_mem_nil, or_false] at h
    rcases h with rfl | rfl | rfl | rfl | rfl | rfl <;> decide
  · rw [kind_eq_word h]
    simp only [List.mem_cons, List.not_mem_nil, or_false, not_or] at h
    simp [h]

theorem map_toList_scan (source : String) : (scan source).map (·.text.toList) =
    Text.fieldsOf Text.isBlank (spaced source.toList) := by
  have htexts := map_text_number TokenKind.of (pieces source)
  rw [← scan_eq_number] at htexts
  have hlists := congrArg (List.map String.toList) htexts
  simpa [pieces, Text.words, Function.comp_def] using hlists

theorem index_of_number {kindOf : String → TokenKind} {texts : List String} {i : ℕ} {t : Token}
    (h : (number kindOf texts)[i]? = some t) : t.index = (i : ℤ) + 1 := by
  rw [number, List.getElem?_map, List.getElem?_zipIdx] at h
  simp only [Option.map_map, Option.map_eq_some_iff] at h
  obtain ⟨text, -, rfl⟩ := h
  simp [Int.add_comm]

theorem scan_join_texts (source : String) :
    scan (Text.join " " ((scan source).map Token.text)) = scan source := by
  have hself : (pieces source).flatMap pieces = pieces source := by
    have hmap : (pieces source).map pieces = (pieces source).map fun s => [s] :=
      List.map_congr_left fun s hs => pieces_of_mem_pieces hs
    rw [List.flatMap_def, hmap, ← List.flatMap_def, List.flatMap_singleton']
  rw [scan_eq_number source, map_text_number, scan_eq_number, pieces_join_space, hself]

/-- What a scan leaves of a text: all of it but its blanks, in tokens that are numbered from one. -/
structure Faithful (source : String) (tokens : List Token) : Prop where
  /-- The texts of the tokens are the source without its blanks. -/
  texts : tokens.flatMap (·.text.toList) = Text.solid source.toList
  indices : ∀ (i : ℕ) (t : Token), tokens[i]? = some t → t.index = i + 1
  solid : ∀ t ∈ tokens, t.text ≠ "" ∧ ∀ c ∈ t.text.toList, Text.isBlank c = false
  opener : ∀ t ∈ tokens, (t.kind = .opener ↔ t.text = "(" ∨ t.text = "[")
  closer : ∀ t ∈ tokens, (t.kind = .closer ↔ t.text = ")" ∨ t.text = "]")
  pipe : ∀ t ∈ tokens, (t.kind = .pipe ↔ t.text = "|")
  ellipsis : ∀ t ∈ tokens, (t.kind = .ellipsis ↔ t.text = "...")
  /-- No delimiter hides in a word. -/
  word : ∀ t ∈ tokens, t.kind = .word →
    (∀ c ∈ t.text.toList, isBracket c = false) ∧ ¬ dots <:+: t.text.toList
  /-- Neighbours in the source are kept together unless there is a blank or the beginning or the end
  of a delimiter. -/
  neighbours : ∀ before a b after, source.toList = before ++ a :: b :: after →
    (Text.SideBySide (tokens.map (·.text.toList)) (Text.solid before) a b ↔
      Text.isBlank a = false ∧ Text.isBlank b = false ∧ ¬ Cut (before ++ [a]) (b :: after))
  /-- Scanned again, the texts give the same tokens. -/
  again : scan (Text.join " " (tokens.map Token.text)) = tokens

/-- The scan loses nothing but blanks, keeps delimiters apart, and is stable. -/
theorem scan_faithful (source : String) : Faithful source (scan source) := by
  have hscanned : ∀ t ∈ scan source, t.Scanned := fun t ht => scanned_of_mem_scan ht
  have hfields := map_toList_scan source
  constructor
  · rw [List.flatMap_def, hfields, Text.flatten_fieldsOf]
    exact solid_spaced source.toList
  · intro i t ht
    exact index_of_number ht
  · intro t ht
    have hfield := List.mem_map_of_mem (f := fun t : Token => t.text.toList) ht
    rw [hfields] at hfield
    obtain ⟨hne, hsolid⟩ := Text.mem_fieldsOf hfield
    exact ⟨by simpa using hne, hsolid⟩
  · intro t ht
    rw [(hscanned t ht).kind_eq]
    exact (kind_eq_iff t.text).1
  · intro t ht
    rw [(hscanned t ht).kind_eq]
    exact (kind_eq_iff t.text).2.1
  · intro t ht
    rw [(hscanned t ht).kind_eq]
    exact (kind_eq_iff t.text).2.2.1
  · intro t ht
    rw [(hscanned t ht).kind_eq]
    exact (kind_eq_iff t.text).2.2.2
  · intro t ht hword
    obtain ⟨-, hclean⟩ := isWord_iff.mp ((hscanned t ht).word hword)
    exact ⟨hclean.brackets, hclean.ellipsis⟩
  · intro before a b after hsource
    rw [hfields, hsource]
    exact sideBySide_iff_not_cut
  · exact scan_join_texts source

/-- Of four dots the first three are an ellipsis. -/
example : (scan "[-v|x....]").map Token.text = ["[", "-v", "|", "x", "...", ".", "]"] := by
  decide +kernel

end Token

end Synopsis
