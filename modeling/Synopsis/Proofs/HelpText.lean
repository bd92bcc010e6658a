import Mathlib.Data.List.DropRight
import Synopsis.Description
import Synopsis.Proofs.Announcements
import Synopsis.Proofs.Equality
import Synopsis.Proofs.Scanning
import Synopsis.Proofs.Turns

/-!
Help texts that describe given options. Each option stands on a line of its own, with its names in a
first column and a description and its default in a second one, and the lines between them describe
nothing. Reading the text gives the options back, in order.
-/
namespace Synopsis

namespace Text

variable {cs : List Char}

theorem linesOf_of_single (h : '\n' ∉ cs) : linesOf cs = [cs] := by
  induction cs with
  | nil => rfl
  | cons c cs ih =>
    rw [List.mem_cons, not_or] at h
    rw [linesOf, if_neg (Ne.symm h.1), ih h.2]

theorem linesOf_append_cons (h : '\n' ∉ cs) (rest : List Char) :
    linesOf (cs ++ '\n' :: rest) = cs :: linesOf rest := by
  induction cs with
  | nil => simp [linesOf]
  | cons c cs ih =>
    rw [List.mem_cons, not_or] at h
    rw [List.cons_append, linesOf, if_neg (Ne.symm h.1), ih h.2]

theorem toList_join_cons (separator s t : String) (rest : List String) :
    (join separator (s :: t :: rest)).toList =
      s.toList ++ (separator.toList ++ (join separator (t :: rest)).toList) := by
  simp [join]

theorem linesOf_join {lines : List String} (h : ∀ line ∈ lines, '\n' ∉ line.toList)
    (hne : lines ≠ []) : linesOf (join "\n" lines).toList = lines.map String.toList := by
  induction lines with
  | nil => exact absurd rfl hne
  | cons s lines ih =>
    rw [List.forall_mem_cons] at h
    cases lines with
    | nil => exact linesOf_of_single h.1
    | cons t rest =>
      have hsep : "\n".toList ++ (join "\n" (t :: rest)).toList =
          '\n' :: (join "\n" (t :: rest)).toList := rfl
      rw [toList_join_cons, hsep, linesOf_append_cons h.1, ih h.2 (by simp)]
      rfl

end Text

namespace Description

section Columns

variable {cs ds word : List Char} {words : List (List Char)} {c : Char}

theorem firstColumn_cons (h : c ≠ ' ') (cs : List Char) :
    firstColumn (c :: cs) = c :: firstColumn cs := by
  rw [firstColumn]
  intro _ hc
  exact absurd hc h

theorem secondColumn_cons (h : c ≠ ' ') (cs : List Char) :
    secondColumn (c :: cs) = secondColumn cs := by
  rw [secondColumn]
  intro _ hc
  exact absurd hc h

/-- The characters belong to the first column, whatever is behind them. -/
structure InFirst (cs : List Char) : Prop where
  first : ∀ rest, firstColumn (cs ++ rest) = cs ++ firstColumn rest
  second : ∀ rest, secondColumn (cs ++ rest) = secondColumn rest

namespace InFirst

theorem cons (hc : c ≠ ' ') (h : InFirst cs) : InFirst (c :: cs) where
  first rest := by rw [List.cons_append, firstColumn_cons hc, h.first, List.cons_append]
  second rest := by rw [List.cons_append, secondColumn_cons hc, h.second]

theorem append (h : InFirst cs) (h' : InFirst ds) : InFirst (cs ++ ds) where
  first rest := by rw [List.append_assoc, h.first, h'.first, List.append_assoc]
  second rest := by rw [List.append_assoc, h.second, h'.second]

theorem of_not_mem (h : ' ' ∉ cs) : InFirst cs := by
  induction cs with
  | nil => exact ⟨fun _ => rfl, fun _ => rfl⟩
  | cons c cs ih =>
    rw [List.mem_cons, not_or] at h
    exact (ih h.2).cons (Ne.symm h.1)

theorem behind_space (hc : c ≠ ' ') (h : InFirst (c :: cs)) : InFirst (' ' :: c :: cs) where
  first rest := by
    have hnot : ∀ tail, c :: (cs ++ rest) ≠ ' ' :: tail := fun _ he => hc (List.cons.inj he).1
    have hrest := h.first rest
    rw [List.cons_append] at hrest
    rw [List.cons_append, List.cons_append, firstColumn, hrest]
    · rfl
    · exact fun tail _ => hnot tail
  second rest := by
    have hnot : ∀ tail, c :: (cs ++ rest) ≠ ' ' :: tail := fun _ he => hc (List.cons.inj he).1
    have hrest := h.second rest
    rw [List.cons_append] at hrest
    rw [List.cons_append, List.cons_append, secondColumn, hrest]
    exact fun tail _ => hnot tail

end InFirst

/-- A name as it stands in a column: a dash and at least one more character, none of which separates
names. -/
structure IsName (word : List Char) : Prop where
  dashed : ∃ c cs, word = '-' :: c :: cs
  whole : ∀ c ∈ word, separatesNames c = false

/-- A first column with its words: it begins with a dash and another character, it ends with a
character that is not blank, and only two spaces behind it end it. It stands on one line. -/
structure Column (cs : List Char) (words : List (List Char)) : Prop where
  opens : ∃ c rest, cs = '-' :: c :: rest ∧ Text.isBlank c = false
  closes : ∃ front c, cs = front ++ [c] ∧ Text.isBlank c = false
  inFirst : InFirst cs
  single : '\n' ∉ cs
  fields : Text.fieldsOf separatesNames cs = words

theorem not_blank_of_not_separates (h : separatesNames c = false) : Text.isBlank c = false := by
  simp only [separatesNames, Bool.or_eq_false_iff] at h
  exact h.1.1

theorem not_mem_of_separates (hc : separatesNames c = true)
    (h : ∀ d ∈ word, separatesNames d = false) : c ∉ word := by
  intro hm
  rw [h c hm] at hc
  cases hc

namespace Column

theorem opens_append (h : Column cs words) (ds : List Char) :
    ∃ c rest, cs ++ ds = '-' :: c :: rest ∧ Text.isBlank c = false := by
  obtain ⟨c, rest, hopens, hc⟩ := h.opens
  exact ⟨c, rest ++ ds, by rw [hopens, List.cons_append, List.cons_append], hc⟩

theorem one (h : IsName word) : Column word [word] := by
  obtain ⟨⟨c, cs, rfl⟩, hwhole⟩ := h
  have hne : '-' :: c :: cs ≠ [] := by simp
  constructor
  · exact ⟨c, cs, rfl, not_blank_of_not_separates (hwhole c (by simp))⟩
  · refine ⟨_, _, (List.dropLast_append_getLast hne).symm, ?_⟩
    exact not_blank_of_not_separates (hwhole _ (List.getLast_mem hne))
  · exact .of_not_mem (not_mem_of_separates (by decide) hwhole)
  · exact not_mem_of_separates (by decide) hwhole
  · exact Text.fieldsOf_eq_singleton hne hwhole

theorem listed (hw : IsName word) (h : Column cs words) :
    Column (word ++ (", ".toList ++ cs)) (word :: words) := by
  have hsep : ", ".toList ++ cs = ',' :: ' ' :: cs := rfl
  rw [hsep]
  obtain ⟨front, d, hcloses, hd⟩ := h.closes
  have hone := Column.one hw
  constructor
  · exact hone.opens_append _
  · exact ⟨word ++ ',' :: ' ' :: front, d, by simp [hcloses], hd⟩
  · obtain ⟨c, rest, hopens, -⟩ := h.opens
    apply hone.inFirst.append
    apply InFirst.cons (by decide)
    have hcs := h.inFirst
    rw [hopens] at hcs ⊢
    exact hcs.behind_space (by decide)
  · simp [hone.single, h.single]
  · rw [Text.fieldsOf_append_cons (by decide), Text.fieldsOf_cons_of_separates _ (by decide),
      hone.fields, h.fields, List.singleton_append]

theorem valued (h : Column cs words) :
    Column (cs ++ "=ARG".toList) (words ++ ["ARG".toList]) := by
  have hsep : "=ARG".toList = '=' :: "ARG".toList := rfl
  rw [hsep]
  constructor
  · exact h.opens_append _
  · exact ⟨cs ++ ['=', 'A', 'R'], 'G', by simp, by decide⟩
  · exact h.inFirst.append (.of_not_mem (by decide))
  · simp [h.single]
  · have hwhole : ∀ c ∈ "ARG".toList, separatesNames c = false := by
      simp [separatesNames, Text.isBlank]
    rw [Text.fieldsOf_append_cons (by decide), h.fields,
      Text.fieldsOf_eq_singleton (by decide) hwhole]

theorem join {names : List String} (hne : names ≠ []) (h : ∀ name ∈ names, IsName name.toList) :
    Column (Text.join ", " names).toList (names.map String.toList) := by
  induction names with
  | nil => exact absurd rfl hne
  | cons s names ih =>
    rw [List.forall_mem_cons] at h
    cases names with
    | nil => exact .one h.1
    | cons t rest =>
      rw [Text.toList_join_cons]
      exact (ih (by simp) h.2).listed h.1

/-- What is left of the second column when the blanks at the end of the line are dropped. -/
def behind (rest : List Char) : List Char :=
  if rest.rdropWhile Text.isBlank = [] then [] else ' ' :: ' ' :: rest.rdropWhile Text.isBlank

theorem trimBoth_eq (h : Column cs words) (rest : List Char) :
    Text.trimBoth Text.isBlank (cs ++ ' ' :: ' ' :: rest) = cs ++ behind rest := by
  obtain ⟨c, tail, hopens, -⟩ := h.opens_append (' ' :: ' ' :: rest)
  obtain ⟨front, d, hcloses, hd⟩ := h.closes
  have hdash : Text.isBlank '-' = false := by decide
  have hfront : (cs ++ ' ' :: ' ' :: rest).dropWhile Text.isBlank = cs ++ ' ' :: ' ' :: rest := by
    rw [hopens, List.dropWhile_cons_of_neg (by simp [hdash])]
  have hback : (' ' :: ' ' :: cs.reverse).dropWhile Text.isBlank = cs.reverse := by
    rw [List.dropWhile_cons_of_pos Text.isBlank_space,
      List.dropWhile_cons_of_pos Text.isBlank_space, hcloses,
      List.reverse_append, List.reverse_singleton, List.singleton_append,
      List.dropWhile_cons_of_neg (by simp [hd])]
  have hreverse : (cs ++ ' ' :: ' ' :: rest).reverse =
      rest.reverse ++ ' ' :: ' ' :: cs.reverse := by simp
  rw [Text.trimBoth, hfront, hreverse, List.dropWhile_append, hback]
  unfold behind List.rdropWhile
  by_cases hrest : rest.reverse.dropWhile Text.isBlank = []
  · simp [hrest]
  · rw [if_neg (by simpa using hrest), if_neg (by simpa using hrest)]
    simp

theorem read_eq (h : Column cs words) (rest : List Char) {short long : Option String}
    {valued : Bool} (hw : words.foldl Names.add ⟨none, none, false⟩ = ⟨short, long, valued⟩)
    (hn : Named short long) :
    read (String.ofList (cs ++ ' ' :: ' ' :: rest)) = .ok ⟨short, long, if valued
      then .valued .int (.text (Coercion.default (String.ofList (secondColumn (behind rest)))))
      else .flag .int false, hn⟩ := by
  have htrim := h.trimBoth_eq rest
  have hfirst : firstColumn (cs ++ behind rest) = cs := by
    rw [h.inFirst.first]
    unfold behind
    split_ifs <;> simp [firstColumn]
  have hsecond := h.inFirst.second (behind rest)
  have hnames : Names.of cs = ⟨short, long, valued⟩ := by rw [Names.of, h.fields, hw]
  have hsome : (short.isNone && long.isNone) = false := by
    cases short <;> cases long <;> first | rfl | simp [Named] at hn
  obtain ⟨c, tail, hcons, -⟩ := h.opens_append (behind rest)
  unfold read
  rw [String.toList_ofList, htrim, hcons]
  rw [hcons] at hfirst hsecond
  simp only [hfirst, hsecond, hnames, hsome, Bool.false_eq_true, if_false]
  rw [OptionDecl.ofNames, dif_pos hn]

theorem default_behind {description v : List Char} (hd : Coercion.Unannounced description)
    (hv : '\n' ∉ v) :
    Coercion.default (String.ofList (secondColumn (behind
      (description ++ ' ' :: (Coercion.announcement ++ (v ++ [']'])))))) = String.ofList v := by
  have hlast : description ++ ' ' :: (Coercion.announcement ++ (v ++ [']'])) =
      (description ++ ' ' :: (Coercion.announcement ++ v)) ++ [']'] := by simp
  have hkeep : (description ++ ' ' :: (Coercion.announcement ++ (v ++ [']']))).rdropWhile
      Text.isBlank = description ++ ' ' :: (Coercion.announcement ++ (v ++ [']'])) := by
    rw [hlast, List.rdropWhile_concat_neg _ _ _ (by decide)]
  have hne : description ++ ' ' :: (Coercion.announcement ++ (v ++ [']'])) ≠ [] := by simp
  rw [behind, hkeep, if_neg hne, secondColumn, Coercion.default, String.toList_ofList,
    Coercion.announced_described hd hv, Option.getD_some]

end Column

end Columns

namespace Names

theorem add_short {s : String} (h : isShortName s = true) (names : Names) :
    names.add s.toList = { names with short := some s } := by
  obtain ⟨cs, hs, hne⟩ := isShortName_iff.mp h
  have hword : String.ofList ('-' :: cs) = s := by rw [← hs, String.ofList_toList]
  rw [hs, add, hword]
  intro tail hcons
  rw [hcons] at hne
  exact hne rfl

theorem add_long {s : String} (h : isLongName s = true) (names : Names) :
    names.add s.toList = { names with long := some s } := by
  obtain ⟨c, cs, hs⟩ := isLongName_iff.mp h
  have hword : String.ofList ('-' :: '-' :: c :: cs) = s := by rw [← hs, String.ofList_toList]
  rw [hs, add, hword]

/-- The names of an option may stand in either order. -/
theorem foldl_add {short long : Option String} (hn : Named short long) {names : List String}
    (hp : names.Perm (short.toList ++ long.toList)) :
    (names.map String.toList).foldl add ⟨none, none, false⟩ = ⟨short, long, false⟩ := by
  simp only [Named, Bool.and_eq_true] at hn
  obtain ⟨⟨-, hs⟩, hl⟩ := hn
  rw [List.foldl_map]
  cases short with
  | none =>
    cases long with
    | none =>
      rw [List.perm_nil.mp hp]
      rfl
    | some l =>
      rw [List.perm_singleton.mp hp]
      exact add_long hl _
  | some s =>
    cases long with
    | none =>
      rw [List.perm_singleton.mp hp]
      exact add_short hs _
    | some l =>
      have hpair : [s, l].Perm names := hp.symm
      have hcomm : ∀ x ∈ [s, l], ∀ y ∈ [s, l], ∀ names : Names,
          (names.add x.toList).add y.toList = (names.add y.toList).add x.toList := by
        simp [add_short hs, add_long hl]
      rw [← hpair.foldl_eq' hcomm]
      simp [add_short hs, add_long hl]

end Names

/-- A flag that is off, or an option whose default is a text on one line. -/
inductive Describable : Slot → Prop where
  | flag (count : NoArgument) : Describable (.flag count false)
  | valued (count : OneArgument) {v : String} (hv : '\n' ∉ v.toList) :
      Describable (.valued count (.text v))

/-- An option as it stands on a line of its own. -/
structure Entry where
  option : OptionDecl
  indentation : String
  names : List String
  description : String

namespace Entry

def column (e : Entry) : String :=
  Text.join ", " e.names ++ if e.option.takesValue then "=ARG" else ""

def words (e : Entry) : List (List Char) :=
  e.names.map String.toList ++ if e.option.takesValue then ["ARG".toList] else []

def announcement (e : Entry) : String :=
  match e.option.slot with
  | .valued _ (.text v) => " [default: " ++ v ++ "]"
  | _ => ""

def line (e : Entry) : String :=
  e.indentation ++ (e.column ++ "  " ++ (e.description ++ e.announcement))

/-- What the line says can be read from it: no name is broken by a separator, and the description
announces nothing. -/
structure Legible (e : Entry) : Prop where
  indented : ∀ c ∈ e.indentation.toList, c = '\t' ∨ c = ' '
  named : e.names.Perm (e.option.short.toList ++ e.option.long.toList)
  whole : ∀ name ∈ e.names, ∀ c ∈ name.toList, separatesNames c = false
  short : e.option.short ≠ some "-"
  describable : Describable e.option.slot
  single : '\n' ∉ e.description.toList
  unannounced : Coercion.Unannounced e.description.toList

namespace Legible

variable {e : Entry}

theorem isName (h : e.Legible) {name : String} (hm : name ∈ e.names) : IsName name.toList := by
  have hnamed := e.option.named
  simp only [Named, Bool.and_eq_true] at hnamed
  refine ⟨?_, h.whole name hm⟩
  rcases List.mem_append.mp (h.named.subset hm) with hs | hl
  · rw [Option.mem_toList] at hs
    rw [hs] at hnamed
    obtain ⟨cs, htext, -⟩ := isShortName_iff.mp hnamed.1.2
    cases cs with
    | nil =>
      have hdash : name = "-" := String.toList_inj.mp htext
      exact absurd (hdash ▸ hs) h.short
    | cons c cs => exact ⟨c, cs, htext⟩
  · rw [Option.mem_toList] at hl
    rw [hl] at hnamed
    obtain ⟨c, cs, htext⟩ := isLongName_iff.mp hnamed.2
    exact ⟨'-', c :: cs, htext⟩

theorem names_ne_nil (h : e.Legible) : e.names ≠ [] := by
  intro hnil
  have hnamed := e.option.named
  have hp := h.named
  rw [hnil, List.nil_perm, List.append_eq_nil_iff, Option.toList_eq_nil_iff,
    Option.toList_eq_nil_iff] at hp
  simp [Named, hp.1, hp.2] at hnamed

theorem column (h : e.Legible) : Column e.column.toList e.words := by
  have hnames := Column.join h.names_ne_nil fun name hm => h.isName hm
  unfold Entry.column words
  rw [String.toList_append]
  split_ifs
  · exact hnames.valued
  · simpa using hnames

theorem foldl_words (h : e.Legible) : e.words.foldl Names.add ⟨none, none, false⟩ =
    ⟨e.option.short, e.option.long, e.option.takesValue⟩ := by
  rw [words, List.foldl_append, Names.foldl_add e.option.named h.named]
  cases e.option.takesValue <;> rfl

theorem described (h : e.Legible) : described? e.line.toList = some (String.ofList
    (e.column.toList ++ ' ' :: ' ' :: (e.description ++ e.announcement).toList)) := by
  obtain ⟨c, rest, hopens, hc⟩ := h.column.opens_append
    (' ' :: ' ' :: (e.description ++ e.announcement).toList)
  have hline : e.line.toList = e.indentation.toList ++
      (e.column.toList ++ ' ' :: ' ' :: (e.description ++ e.announcement).toList) := by
    simp [line]
  have hindent : ∀ d ∈ e.indentation.toList, (d == '\t' || d == ' ') = true := by
    intro d hd
    simpa using h.indented d hd
  unfold described?
  rw [hline, List.dropWhile_append_of_pos hindent, hopens,
    List.dropWhile_cons_of_neg (by decide)]
  simp [hc]

end Legible

end Entry

end Description

namespace Slot

/-- The slot with the number of arguments as an integer. -/
def counted : Slot → Slot
  | flag _ on => flag .int on
  | valued _ v => valued .int v

theorem value_counted (slot : Slot) : slot.counted.value = slot.value := by
  cases slot <;> rfl

theorem content?_count_counted (slot : Slot) :
    slot.counted.count.content? = slot.count.content? := by
  have hsame : Datum.same false slot.counted.count slot.count = true := by
    rcases slot with ⟨⟨⟩, on⟩ | ⟨⟨⟩, v⟩ <;> simp only [counted, count] <;> decide +kernel
  exact (Datum.same_iff_content (isScalar_count _) (isScalar_count _)).mp hsame

end Slot

namespace OptionDecl

def counted (o : OptionDecl) : OptionDecl := { o with slot := o.slot.counted }

/-- Counted as an integer or not, the option is the same. -/
theorem same_counted {o : OptionDecl} (h : o.slot.value.IsScalar) (shared : Bool) :
    (Leaf.option o.counted).same shared (.option o) = true := by
  have hplain : (Leaf.option o).Plain := by simpa [Leaf.Plain, Leaf.value?] using h
  have hcounted : (Leaf.option o.counted).Plain := by
    simpa [Leaf.Plain, Leaf.value?, counted, Slot.value_counted] using h
  rw [Leaf.same_iff hcounted hplain]
  constructor
  · rfl
  · simp [Leaf.fields, counted, Slot.value_counted, Slot.content?_count_counted]

end OptionDecl

namespace Description

namespace Entry.Legible

variable {e : Entry}

theorem read_eq (h : e.Legible) :
    (described? e.line.toList).bind read? = some e.option.counted := by
  rw [h.described, Option.bind_some, read?, h.column.read_eq _ h.foldl_words e.option.named]
  obtain ⟨⟨short, long, slot, named⟩, indentation, names, description⟩ := e
  obtain ⟨count⟩ | ⟨count, hv⟩ := h.describable
  · rfl
  · have hdefault := Column.default_behind h.unannounced hv
    rw [String.ofList_toList] at hdefault
    simpa [Except.toOption, OptionDecl.counted, Slot.counted, OptionDecl.takesValue,
      Slot.takesValue, announcement, Coercion.announcement] using hdefault

theorem single_line (h : e.Legible) : '\n' ∉ e.line.toList := by
  have hindent : '\n' ∉ e.indentation.toList := by
    intro hm
    exact absurd (h.indented _ hm) (by decide)
  have hannounced : '\n' ∉ e.announcement.toList := by
    have hslot := h.describable
    unfold announcement
    generalize e.option.slot = slot at hslot
    cases hslot with
    | flag count => simp
    | valued count hv => simp [hv]
  simp [line, hindent, h.column.single, h.single, hannounced]

end Entry.Legible

/-- A line of a help text: an option, or something that describes none. -/
inductive HelpLine where
  | entry (e : Entry)
  | other (text : String)

namespace HelpLine

def text : HelpLine → String
  | entry e => e.line
  | other text => text

def option? : HelpLine → Option OptionDecl
  | entry e => some e.option
  | other _ => none

/-- Other lines do not begin, behind tabs and spaces, with a dash. -/
def Legible : HelpLine → Prop
  | entry e => e.Legible
  | other text => '\n' ∉ text.toList ∧
      (text.toList.dropWhile fun c => c == '\t' || c == ' ').head? ≠ some '-'

variable {line : HelpLine}

theorem Legible.single_line (h : line.Legible) : '\n' ∉ line.text.toList := by
  cases line with
  | entry e => exact Entry.Legible.single_line h
  | other text => exact h.1

theorem Legible.read_eq (h : line.Legible) :
    (described? line.text.toList).bind read? = line.option?.map OptionDecl.counted := by
  cases line with
  | entry e => exact Entry.Legible.read_eq h
  | other text =>
    have hnone : described? text.toList = none := by
      unfold described?
      split
      next c rest hline => exact absurd (by rw [hline]; rfl) h.2
      next => rfl
    exact congrArg (Option.bind · read?) hnone

end HelpLine

def helpText (lines : List HelpLine) : String := Text.join "\n" (lines.map HelpLine.text)

def optionsOf (lines : List HelpLine) : Registry := lines.filterMap HelpLine.option?

theorem linesOf_helpText {lines : List HelpLine} (h : ∀ line ∈ lines, line.Legible)
    (hne : lines ≠ []) : Text.linesOf (helpText lines).toList = lines.map (·.text.toList) := by
  have hsingle : ∀ s ∈ lines.map HelpLine.text, '\n' ∉ s.toList := by
    intro s hs
    obtain ⟨line, hline, rfl⟩ := List.mem_map.mp hs
    exact (h line hline).single_line
  rw [helpText, Text.linesOf_join hsingle (by simpa using hne), List.map_map]
  rfl

theorem registryOf_eq_map_counted {lines : List HelpLine} (h : ∀ line ∈ lines, line.Legible) :
    registryOf (helpText lines) = (optionsOf lines).map OptionDecl.counted := by
  by_cases hne : lines = []
  · rw [hne]
    rfl
  · rw [registryOf, linesOf_helpText h hne, List.filterMap_map, optionsOf, List.map_filterMap]
    apply List.filterMap_congr
    intro line hline
    exact (h line hline).read_eq

theorem describable_of_mem {lines : List HelpLine} (h : ∀ line ∈ lines, line.Legible)
    {o : OptionDecl} (ho : o ∈ optionsOf lines) : Describable o.slot := by
  obtain ⟨line, hline, hoption⟩ := List.mem_filterMap.mp ho
  cases line with
  | entry e =>
    cases hoption
    exact (h _ hline).describable
  | other text => cases hoption

end Description

theorem Description.Describable.isScalar {slot : Slot} (h : Describable slot) :
    slot.value.IsScalar := by
  cases h <;> trivial

namespace Registry

theorem same_map_counted (shared : Bool) {registry : Registry}
    (h : ∀ o ∈ registry, Description.Describable o.slot) :
    Registry.same shared (registry.map OptionDecl.counted) registry = true := by
  unfold Registry.same
  induction registry with
  | nil => rfl
  | cons o registry ih =>
    rw [List.forall_mem_cons] at h
    rw [List.map_cons, List.map_cons, List.map_cons, Datum.sameEach, Bool.and_eq_true]
    exact ⟨OptionDecl.same_counted h.1.isScalar shared, ih h.2⟩

end Registry

namespace Description

/-- A help text is read as the options that its lines were written for, in order; the number of
arguments is an integer, however it was spelled. -/
theorem registryOf_helpText {lines : List HelpLine} (h : ∀ line ∈ lines, line.Legible)
    (shared : Bool) :
    registryOf (helpText lines) = (optionsOf lines).map OptionDecl.counted ∧
      (registryOf (helpText lines)).same shared (optionsOf lines) = true := by
  have hread := registryOf_eq_map_counted h
  refine ⟨hread, ?_⟩
  rw [hread]
  exact Registry.same_map_counted shared fun o ho => describable_of_mem h ho

theorem registryOf_helpText_brackets :
    let output : OptionDecl :=
      ⟨some "-o", some "--output", .valued .int (.text "[a]  [default: b]"), by decide⟩
    let verbose : OptionDecl := ⟨some "-vv", none, .flag .float false, by decide⟩
    let lines : List HelpLine := [.other "usage: nf [options]", .other "",
      .entry ⟨output, "  ", ["--output", "-o"], "  where [DEFAULT to]  "⟩, .other "\ta - b",
      .entry ⟨verbose, "\t", ["-vv"], " "⟩]
    (∀ line ∈ lines, line.Legible) ∧
      helpText lines = "usage: nf [options]\n\n  " ++
        "--output, -o=ARG    where [DEFAULT to]   [default: [a]  [default: b]]\n\ta - b\n\t-vv   " ∧
      (registryOf (helpText lines)).same true [output, verbose] = true := by
  intro output verbose lines
  have hlines : ∀ line ∈ lines, line.Legible := by
    simp only [lines, List.forall_mem_cons]
    refine ⟨?_, ?_, ?_, ?_, ?_, by simp⟩
    · exact ⟨by decide +kernel, by decide +kernel⟩
    · exact ⟨by decide +kernel, by decide +kernel⟩
    · exact ⟨by simp, by decide +kernel, by simp [separatesNames, Text.isBlank], by decide +kernel,
        .valued .int (by decide +kernel), by decide +kernel, by decide +kernel⟩
    · exact ⟨by decide +kernel, by decide +kernel⟩
    · exact ⟨by simp, by decide +kernel, by simp [separatesNames, Text.isBlank], by decide +kernel,
        .flag .float, by decide +kernel, by decide +kernel⟩
  exact ⟨hlines, by decide +kernel, (registryOf_helpText hlines true).2⟩

end Description

end Synopsis
