import Mathlib.Data.List.Forall2
import Synopsis.Pattern.Printer
import Synopsis.Proofs.Scanning

/-! The pieces of a written tree, which are the pieces of its parts and the delimiters around
them. -/
namespace Synopsis

namespace Token

theorem pieces_join_space (texts : List String) :
    pieces (Text.join " " texts) = texts.flatMap pieces := by
  induction texts with
  | nil => simp [Text.join, pieces, spaced, Text.words]
  | cons s rest ih =>
    cases rest with
    | nil => simp [Text.join]
    | cons s' rest =>
      have h : Text.join " " (s :: s' :: rest) = s ++ " " ++ Text.join " " (s' :: rest) := rfl
      rw [h, pieces_append_space, ih]
      rfl

theorem pieces_delimiters : pieces "(" = ["("] ∧ pieces ")" = [")"] ∧ pieces "[" = ["["] ∧
    pieces "]" = ["]"] ∧ pieces "|" = ["|"] ∧ pieces "..." = ["..."] := by
  decide +kernel

theorem pieces_parentheses (s : String) :
    pieces ("( " ++ s ++ " )") = "(" :: pieces s ++ [")"] := by
  obtain ⟨ho, hc, -⟩ := pieces_delimiters
  have h : "( " ++ s ++ " )" = "(" ++ " " ++ s ++ " " ++ ")" := by simp [String.append_assoc]
  rw [h, pieces_append_space, pieces_append_space, ho, hc]
  rfl

theorem pieces_brackets (s : String) :
    pieces ("[ " ++ s ++ " ]") = "[" :: pieces s ++ ["]"] := by
  obtain ⟨-, -, ho, hc, -⟩ := pieces_delimiters
  have h : "[ " ++ s ++ " ]" = "[" ++ " " ++ s ++ " " ++ "]" := by simp [String.append_assoc]
  rw [h, pieces_append_space, pieces_append_space, ho, hc]
  rfl

theorem pieces_ellipsis (s : String) : pieces (s ++ " ...") = pieces s ++ ["..."] := by
  obtain ⟨-, -, -, -, -, he⟩ := pieces_delimiters
  have h : s ++ " ..." = s ++ " " ++ "..." := by simp [String.append_assoc]
  rw [h, pieces_append_space, he]

theorem pieces_join_pipe (s : String) (rest : List String) :
    pieces (Text.join " | " (s :: rest)) =
      pieces s ++ rest.flatMap fun s' => "|" :: pieces s' := by
  obtain ⟨-, -, -, -, hp, -⟩ := pieces_delimiters
  induction rest generalizing s with
  | nil => simp [Text.join]
  | cons s' rest ih =>
    have hpad : " | " = " " ++ ("|" ++ " ") := by decide
    have h : Text.join " | " (s :: s' :: rest) =
        s ++ " " ++ ("|" ++ " " ++ Text.join " | " (s' :: rest)) := by
      rw [Text.join, hpad]
      · simp only [String.append_assoc]
      · simp
    rw [h, pieces_append_space, pieces_append_space, ih, hp]
    rfl

end Token

namespace Pattern

/-- Induction over trees, with a hypothesis for each child. -/
theorem children_induction {motive : Pattern → Prop} (leaf : ∀ l, motive (.leaf l))
    (branch : ∀ g cs, (∀ c ∈ cs, motive c) → motive (.branch g cs)) (p : Pattern) : motive p :=
  match p with
  | .leaf l => leaf l
  | .branch g cs => branch g cs fun c _ => children_induction leaf branch c

/-- The tree has a text, which holds of all trees without nameless arguments. -/
def HasText (p : Pattern) : Prop := ∃ s, p.inner = .ok (some s)

/-- The text of a tree inside another one. -/
def text (p : Pattern) : String := (p.inner.toOption.join).getD ""

def pieces (p : Pattern) : List String := Token.pieces p.text

theorem inner_of_hasText {p : Pattern} (h : p.HasText) : p.inner = .ok (some p.text) := by
  obtain ⟨s, hs⟩ := h
  simp [text, hs, Except.toOption]

theorem text_of_inner {p : Pattern} {s : String} (h : p.inner = .ok (some s)) :
    p.HasText ∧ p.text = s := ⟨⟨s, h⟩, by simp [text, h, Except.toOption]⟩

theorem innerEach_of_hasText {ps : List Pattern} (h : ∀ p ∈ ps, p.HasText) :
    innerEach ps = .ok (ps.map fun p => some p.text) := by
  induction ps with
  | nil => rfl
  | cons p ps ih =>
    have hp := inner_of_hasText (h p (by simp))
    have hps := ih fun q hq => h q (by simp [hq])
    simp [innerEach, hp, hps, bind, Except.bind]

theorem allTexts_some (index : Nat) (texts : List String) :
    allTexts index (texts.map some) = .ok texts := by
  induction texts generalizing index with
  | nil => rfl
  | cons s rest ih => simp [allTexts, ih, Except.map]

theorem joined_of_hasText {ps : List Pattern} (separator : String) :
    joined separator (ps.map fun p => some p.text) =
      .ok (Text.join separator (ps.map text)) := by
  have h : (ps.map fun p => some p.text) = (ps.map text).map some := by simp
  rw [joined, h, allTexts_some]
  rfl

section Groups

variable {cs : List Pattern} (h : ∀ c ∈ cs, c.HasText)
include h

theorem inner_required :
    (branch .required cs).inner = .ok (some ("( " ++ Text.join " " (cs.map text) ++ " )")) := by
  simp [inner, innerEach_of_hasText h, joined_of_hasText, bind, Except.bind]

theorem inner_optional :
    (branch .optional cs).inner = .ok (some ("[ " ++ Text.join " " (cs.map text) ++ " ]")) := by
  simp [inner, innerEach_of_hasText h, joined_of_hasText, bind, Except.bind]

theorem inner_either :
    (branch .either cs).inner = .ok (some ("( " ++ Text.join " | " (cs.map text) ++ " )")) := by
  simp [inner, innerEach_of_hasText h, joined_of_hasText, bind, Except.bind]

theorem render_required :
    (branch .required cs).render = .ok (some (Text.join " " (cs.map text))) := by
  simp [render, innerEach_of_hasText h, joined_of_hasText, bind, Except.bind]

theorem pieces_required :
    (branch .required cs).pieces = "(" :: cs.flatMap pieces ++ [")"] := by
  rw [pieces, (text_of_inner (inner_required h)).2, Token.pieces_parentheses,
    Token.pieces_join_space, List.flatMap_map]
  rfl

theorem pieces_optional :
    (branch .optional cs).pieces = "[" :: cs.flatMap pieces ++ ["]"] := by
  rw [pieces, (text_of_inner (inner_optional h)).2, Token.pieces_brackets,
    Token.pieces_join_space, List.flatMap_map]
  rfl

end Groups

theorem pieces_join_text (cs : List Pattern) :
    Token.pieces (Text.join " " (cs.map text)) = cs.flatMap pieces := by
  rw [Token.pieces_join_space, List.flatMap_map]
  rfl

theorem pieces_either {c : Pattern} {cs : List Pattern} (h : ∀ d ∈ c :: cs, d.HasText) :
    (branch .either (c :: cs)).pieces =
      "(" :: (c.pieces ++ cs.flatMap fun d => "|" :: d.pieces) ++ [")"] := by
  rw [pieces, (text_of_inner (inner_either h)).2, Token.pieces_parentheses, List.map_cons,
    Token.pieces_join_pipe, List.flatMap_map]
  rfl

theorem inner_repeated {c : Pattern} (h : c.HasText) :
    (branch .oneOrMore [c]).inner = .ok (some (c.text ++ " ...")) := by
  simp [inner, inner_of_hasText h, bind, Except.bind]

theorem pieces_repeated {c : Pattern} (h : c.HasText) :
    (branch .oneOrMore [c]).pieces = c.pieces ++ ["..."] := by
  rw [pieces, (text_of_inner (inner_repeated h)).2, Token.pieces_ellipsis]
  rfl

theorem inner_cluster {cs : List Pattern} {s : String} (hn : 2 ≤ cs.length)
    (h : clusterText? cs = some s) :
    (branch .oneOrMore cs).inner = .ok (some (s ++ " ...")) := by
  match cs, hn with
  | c :: d :: rest, _ => simp [inner, h]

def valuePieces (o : OptionDecl) : List String :=
  if o.takesValue then Token.pieces (placeholder o.name) else []

theorem pieces_option (o : OptionDecl) :
    (leaf (.option o)).pieces = Token.pieces o.name ++ valuePieces o := by
  have h := (text_of_inner (p := leaf (.option o)) rfl).2
  rw [pieces, h, optionText, valuePieces]
  split
  · rw [Token.pieces_append_space]
  · simp

theorem toList_placeholder (name : String) :
    (placeholder name).toList = '<' :: (name.toList.dropWhile (· == '-') ++ ['>']) := by
  simp [placeholder]

/-- A placeholder is one word if nothing in it ends a word. -/
theorem isWord_placeholder_of_clean {name : String}
    (h : Token.Clean (name.toList.dropWhile (· == '-'))) : Token.IsWord (placeholder name) := by
  have hc := h.concat (c := '>') (by decide) (by decide) (by decide)
  rw [Token.isWord_iff, toList_placeholder]
  refine ⟨by simp [placeholder], ?_⟩
  exact hc.cons (by decide) (by decide) (by simp [Token.dots])

theorem isWord_placeholder {name : String} (h : Token.Clean name.toList) :
    Token.IsWord (placeholder name) :=
  isWord_placeholder_of_clean (h.within (List.dropWhile_suffix _).isInfix)

theorem exists_blank_of_not_isWord {name : String} (h : ¬ Token.IsWord (placeholder name)) :
    ∃ b ∈ Token.spaced (name.toList.dropWhile (· == '-')), Text.isBlank b = true := by
  by_contra hn
  refine h (isWord_placeholder_of_clean (Token.clean_of_spaced fun c hc => ?_))
  rw [← Bool.not_eq_true]
  exact fun hb => hn ⟨c, hc, hb⟩

theorem pieces_placeholder {name : String} (h : ¬ Token.IsWord (placeholder name)) :
    ∃ first later word, Token.pieces (placeholder name) = String.ofList ('<' :: first) :: later ∧
      word ∈ later ∧ TokenKind.of word = .word := by
  obtain ⟨b, hb, hblank⟩ := exists_blank_of_not_isWord h
  obtain ⟨before, after, hsplit⟩ := List.append_of_mem hb
  have hspaced : Token.spaced (placeholder name).toList =
      ('<' :: before) ++ b :: (after ++ ['>']) := by
    rw [toList_placeholder, Token.spaced_cons (by decide) (by simp [Token.dots]),
      Token.spaced_append (by decide), hsplit]
    simp [Token.spaced, Token.isBracket]
  have hopen : Text.isBlank '<' = false := by decide
  have hfields : Text.fieldsOf Text.isBlank (Token.spaced (placeholder name).toList) = _ :=
    (congrArg (Text.fieldsOf Text.isBlank) hspaced).trans (Text.fieldsOf_append_cons hblank _ _)
  rw [Text.fieldsOf_cons_of_not_separates _ hopen, List.cons_append] at hfields
  have hpieces : Token.pieces (placeholder name) = (Text.fieldsOf Text.isBlank
      (Token.spaced (placeholder name).toList)).map String.ofList := by
    rw [Token.pieces, Text.words, String.toList_ofList]
  rw [hfields, List.map_cons] at hpieces
  have hmem : '>' ∈ after ++ ['>'] := by simp
  have hblank' : Text.isBlank '>' = false := by decide
  obtain ⟨field, hf, hclose⟩ := Text.exists_field_of_mem hmem hblank'
  refine ⟨_, _, String.ofList field, hpieces, ?_, ?_⟩
  · rw [List.map_append, List.mem_append]
    exact .inr (List.mem_map_of_mem hf)
  · have hmem : field ∈ Text.fieldsOf Text.isBlank (Token.spaced (placeholder name).toList) := by
      rw [hfields]
      simp [hf]
    rcases Token.field_spaced_cases hmem with rfl | ⟨c, rfl, hc⟩ | hc
    · simp [Token.dots] at hclose
    · rw [← List.mem_singleton.mp hclose] at hc
      exact absurd hc (by decide)
    · exact Token.kind_eq_word_of_clean (by simpa using hc)

theorem map_leaf_option (os : List OptionDecl) :
    (os.map Leaf.option).map leaf = os.map fun o => leaf (.option o) := by
  rw [List.map_map]
  rfl

theorem optionsOf?_map (os : List OptionDecl) :
    optionsOf? (os.map fun o => leaf (.option o)) = some os := by
  induction os with
  | nil => rfl
  | cons o os ih => simp [optionsOf?, ih]

/-- The option is named by a dash and the character. -/
def ShortNamed (o : OptionDecl) (c : Char) : Prop := o.short = some (OptionDecl.shortOf c)

theorem ne_dash_of_shortNamed {o : OptionDecl} {c : Char} (h : ShortNamed o c) :
    c ≠ '-' := by
  rintro rfl
  have hn := o.named
  rw [Named, h] at hn
  simp [OptionDecl.shortOf, isShortName] at hn

theorem clusterChar?_eq_some {o : OptionDecl} {c : Char} (h : ShortNamed o c) :
    clusterChar? o = some c := by
  rw [clusterChar?, h]
  simp [OptionDecl.shortOf]

theorem mapM_clusterChar? {os : List OptionDecl} {chars : List Char}
    (h : List.Forall₂ ShortNamed os chars) : os.mapM clusterChar? = some chars := by
  induction h with
  | nil => rfl
  | cons ho h ih => simp [clusterChar?_eq_some ho, ih]

/-- Flags and at last any option, all with short names, are written as one cluster. -/
theorem clusterText?_eq_some {os : List OptionDecl} {last : OptionDecl} {chars : List Char}
    (h : List.Forall₂ ShortNamed (os ++ [last]) chars)
    (hf : ∀ o ∈ os, o.takesValue = false) :
    clusterText? ((os ++ [last]).map fun o => leaf (.option o)) =
      some (if last.takesValue then String.ofList ('-' :: chars) ++ " " ++ placeholder last.name
        else String.ofList ('-' :: chars)) := by
  have hany : (os ++ [last]).dropLast.any OptionDecl.takesValue = false := by
    simpa using hf
  rw [clusterText?, optionsOf?_map]
  simp only [Option.bind_eq_bind, Option.bind_some, List.getLast?_concat, mapM_clusterChar? h,
    hany, Bool.false_eq_true, if_false]
  split <;> rfl

def clustered (os : List OptionDecl) : Pattern :=
  branch .oneOrMore (os.map fun o => leaf (.option o))

theorem hasText_clustered {os : List OptionDecl} {last : OptionDecl} {chars : List Char}
    (hne : os ≠ []) (h : List.Forall₂ ShortNamed (os ++ [last]) chars)
    (hf : ∀ o ∈ os, o.takesValue = false) :
    (clustered (os ++ [last])).HasText ∧ (clustered (os ++ [last])).pieces =
      Token.pieces (String.ofList ('-' :: chars)) ++ valuePieces last ++ ["..."] := by
  have hlen := List.length_pos_iff.mpr hne
  have hi := inner_cluster (by simp; omega) (clusterText?_eq_some h hf)
  refine ⟨⟨_, hi⟩, ?_⟩
  rw [pieces, clustered, (text_of_inner hi).2, Token.pieces_ellipsis, valuePieces]
  split
  · rw [Token.pieces_append_space]
  · simp

end Pattern

end Synopsis
