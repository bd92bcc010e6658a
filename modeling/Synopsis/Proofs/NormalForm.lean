import Synopsis.Proofs.Canonical

/-!
The trees that a reader builds. Whatever the usage pattern, they have no groups of one and no
alternations of one, their words are single words, and their options are entries of the registry,
which only grows and keeps its names apart.
-/
namespace Synopsis

namespace Registry

/-- No two entries have the same long name or the same short name. -/
structure Distinct (registry : Registry) : Prop where
  longs : (registry.filterMap (·.long)).Nodup
  shorts : (registry.filterMap (·.short)).Nodup

theorem filter_eq_singleton {key : OptionDecl → Option String} {registry : Registry}
    {o : OptionDecl} {s : String} (hn : (registry.filterMap key).Nodup) (ho : o ∈ registry)
    (hk : key o = some s) : registry.filter (key · == some s) = [o] := by
  induction registry with
  | nil => simp at ho
  | cons e rest ih =>
    have hrest : (rest.filterMap key).Nodup :=
      hn.sublist ((List.sublist_cons_self e rest).filterMap key)
    rcases List.mem_cons.mp ho with rfl | ho
    · rw [List.filterMap_cons_some hk, List.nodup_cons] at hn
      have hnone : rest.filter (key · == some s) = [] := by
        apply List.filter_eq_nil_iff.mpr
        intro d hd hsame
        exact hn.1 (List.mem_filterMap.mpr ⟨d, hd, by simpa using hsame⟩)
      simp [hk, hnone]
    · have hne : key e ≠ some s := by
        intro he
        rw [List.filterMap_cons_some he, List.nodup_cons] at hn
        exact hn.1 (List.mem_filterMap.mpr ⟨o, ho, hk⟩)
      simp [hne, ih hrest ho]

theorem Distinct.withLong {registry : Registry} {o : OptionDecl} {name : String}
    (h : registry.Distinct) (ho : o ∈ registry) (hl : o.long = some name) :
    registry.withLong name = [o] := filter_eq_singleton h.longs ho hl

theorem Distinct.withShort {registry : Registry} {o : OptionDecl} {name : String}
    (h : registry.Distinct) (ho : o ∈ registry) (hs : o.short = some name) :
    registry.withShort name = [o] := filter_eq_singleton h.shorts ho hs

/-- What reading does to a registry: entries are added at its end, under new names. -/
structure Extends (before after : Registry) : Prop where
  starts : before <+: after
  distinct : before.Distinct → after.Distinct

theorem Extends.refl (registry : Registry) : Extends registry registry :=
  ⟨List.prefix_refl registry, id⟩

theorem Extends.trans {a b c : Registry} (h : Extends a b) (h' : Extends b c) : Extends a c :=
  ⟨h.starts.trans h'.starts, h'.distinct ∘ h.distinct⟩

theorem Extends.add {registry : Registry} {o : OptionDecl}
    (hl : ∀ name, o.long = some name → registry.withLong name = [])
    (hs : ∀ name, o.short = some name → registry.withShort name = []) :
    Extends registry (registry ++ [o]) := by
  have hkey : ∀ key : OptionDecl → Option String,
      (∀ name, key o = some name → registry.filter (key · == some name) = []) →
        (registry.filterMap key).Nodup → ((registry ++ [o]).filterMap key).Nodup := by
    intro key hnew hn
    rw [List.filterMap_append]
    cases hk : key o with
    | none => simpa [hk] using hn
    | some name =>
      have hfresh : name ∉ registry.filterMap key := by
        intro hm
        obtain ⟨d, hd, hdk⟩ := List.mem_filterMap.mp hm
        exact List.filter_eq_nil_iff.mp (hnew name hk) d hd (by simp [hdk])
      rw [List.filterMap_cons_some hk, List.filterMap_nil]
      apply List.nodup_append.mpr
      refine ⟨hn, by simp, fun s hs s' hs' he => hfresh ?_⟩
      rwa [← List.mem_singleton.mp hs', ← he]
  exact ⟨List.prefix_append registry [o], fun h => ⟨hkey _ hl h.longs, hkey _ hs h.shorts⟩⟩

/-- A long option leaves an entry of the registry that has a long name. -/
theorem ReadsLong.extends {token : Token} {rest : List Token} {registry : Registry}
    {r : Reading OptionDecl} (h : ReadsLong .usage token rest registry r) :
    Extends registry r.registry ∧
      ∃ o name, r.found = [o] ∧ o ∈ r.registry ∧ o.long = some name := by
  cases h with
  | @added a o ha hc ho =>
    obtain ⟨hl, hs, -⟩ := fields_of_declareLong ho
    refine ⟨.add ?_ (by simp [hs]), o, a.name, by simp, by simp, hl⟩
    intro name hn
    rw [hl, Option.some.injEq] at hn
    rw [← hn, ← candidates_usage, hc]
  | flag ha hc ht hv => exact ⟨.refl _, _, _, rfl, mem_of_candidates hc⟩
  | assigned ha hc ht hv => exact ⟨.refl _, _, _, rfl, mem_of_candidates hc⟩
  | followed ha hc ht hv hr hw => exact ⟨.refl _, _, _, rfl, mem_of_candidates hc⟩

def Holds (registry : Registry) (o : OptionDecl) (c : Char) : Prop :=
  o ∈ registry ∧ Pattern.ShortNamed o c

theorem Holds.extend {before after : Registry} {o : OptionDecl} {c : Char}
    (h : before.Holds o c) (he : Extends before after) : after.Holds o c :=
  ⟨he.starts.subset h.1, h.2⟩

theorem flags_cons {o : OptionDecl} {os : List OptionDecl} (ho : o.takesValue = false)
    (h : ∀ d ∈ os.dropLast, d.takesValue = false) :
    ∀ d ∈ (o :: os).dropLast, d.takesValue = false := by
  cases os with
  | nil => simp
  | cons e es => simpa [ho] using h

/-- A cluster leaves one entry for each of its first characters, all flags but the last. -/
theorem ReadsChars.extends {rest : List Token} {registry : Registry} {cs : List Char}
    {r : Reading OptionDecl} (h : ReadsChars .usage rest registry cs r) :
    Extends registry r.registry ∧ ∃ chars, chars <+: cs ∧
      List.Forall₂ r.registry.Holds r.found chars ∧ (cs ≠ [] → r.found ≠ []) ∧
        ∀ o ∈ r.found.dropLast, o.takesValue = false := by
  induction h with
  | nil => exact ⟨.refl _, [], by simp⟩
  | @fresh registry c cs r hc hs hr ih =>
    obtain ⟨hext, chars, hp, hall, -, hflags⟩ := ih
    have hadd : Extends registry (registry ++ [OptionDecl.ofChar c hc]) := by
      refine .add (by simp [OptionDecl.ofChar]) fun name hn => ?_
      rw [show name = OptionDecl.shortOf c from (Option.some.inj hn).symm, hs]
    have hheld : r.registry.Holds (OptionDecl.ofChar c hc) c :=
      ⟨hext.starts.subset (by simp), rfl⟩
    exact ⟨hadd.trans hext, c :: chars, List.cons_prefix_cons.mpr ⟨rfl, hp⟩, .cons hheld hall,
      by simp [Reading.after], flags_cons rfl hflags⟩
  | @flag registry c cs o r hc hs ht hr ih =>
    obtain ⟨hext, chars, hp, hall, -, hflags⟩ := ih
    have hheld : r.registry.Holds o c := Holds.extend (mem_of_withShort hs) hext
    exact ⟨hext, c :: chars, List.cons_prefix_cons.mpr ⟨rfl, hp⟩, .cons hheld hall,
      by simp [Reading.after], flags_cons ht hflags⟩
  | @attached registry c cs o hc hs ht hne =>
    exact ⟨.refl _, [c], by simp, .cons (mem_of_withShort hs) .nil, by simp⟩
  | @followed registry c o next after hc hs ht hr hw =>
    exact ⟨.refl _, [c], by simp, .cons (mem_of_withShort hs) .nil, by simp⟩

end Registry

namespace Usage

/-- An entry of the registry; without a long name it is known by a character. -/
def OptionNormal (registry : Registry) (o : OptionDecl) : Prop :=
  o ∈ registry ∧
    (o.long = none → ∃ c, Pattern.ShortNamed o c ∧ Token.IsWord (OptionDecl.shortOf c))

inductive LeafNormal (registry : Registry) : Leaf → Prop where
  | word {l : Leaf} (h : WordLeaf l) : LeafNormal registry l
  | option {o : OptionDecl} (h : OptionNormal registry o) : LeafNormal registry (.option o)

def ClusterNormal (registry : Registry) (os : List OptionDecl) (last : OptionDecl) : Prop :=
  ∃ chars, List.Forall₂ registry.Holds (os ++ [last]) chars ∧
    (∀ o ∈ os, o.takesValue = false) ∧ Token.IsWord (String.ofList ('-' :: chars))

/-- A tree that a reader can have built over the registry. -/
def Normal (registry : Registry) : Pattern → Prop :=
  Pattern.Shaped (LeafNormal registry) (fun _ => True) (ClusterNormal registry)

theorem Normal.extend {before after : Registry} {p : Pattern} (h : Normal before p)
    (he : Registry.Extends before after) : Normal after p := by
  induction h with
  | leaf hl =>
    cases hl with
    | word h => exact .leaf (.word h)
    | option h => exact .leaf (.option ⟨he.starts.subset h.1, h.2⟩)
  | required hn h ih => exact .required hn ih
  | optional h ih => exact .optional ih
  | either hn h ih => exact .either hn ih
  | repeated h hc ih => exact .repeated ih trivial
  | cluster hne h =>
    obtain ⟨chars, hall, hf, hw⟩ := h
    exact .cluster hne ⟨chars, hall.imp fun _ _ ho => ho.extend he, hf, hw⟩

theorem hasText_of_normal {registry : Registry} {p : Pattern} (h : Normal registry p) :
    p.HasText := by
  induction h with
  | leaf hl =>
    cases hl with
    | word h => cases h <;> exact ⟨_, rfl⟩
    | option h => exact ⟨_, rfl⟩
  | required hn h ih => exact ⟨_, Pattern.inner_required ih⟩
  | optional h ih => exact ⟨_, Pattern.inner_optional ih⟩
  | either hn h ih => exact ⟨_, Pattern.inner_either ih⟩
  | repeated h hc ih => exact ⟨_, Pattern.inner_repeated ih⟩
  | cluster hne h =>
    obtain ⟨chars, hall, hf, -⟩ := h
    exact (Pattern.hasText_clustered hne (hall.imp fun _ _ ho => ho.2) hf).1

theorem ellipsis_of_repetition {registry : Registry} {p : Pattern} (h : Normal registry p)
    (hr : p.IsRepetition) : ∃ front, p.pieces = front ++ ["..."] := by
  obtain ⟨cs, rfl⟩ := hr
  cases h with
  | repeated h hc => exact ⟨_, Pattern.pieces_repeated (hasText_of_normal h)⟩
  | cluster hne h =>
    obtain ⟨chars, hall, hf, -⟩ := h
    exact ⟨_, (Pattern.hasText_clustered hne (hall.imp fun _ _ ho => ho.2) hf).2⟩

section Groups

variable {registry : Registry} {ps : List Pattern} (h : ∀ p ∈ ps, Normal registry p)
include h

theorem normal_grouped : Normal registry (grouped ps) := by
  match ps with
  | [p] => exact h p (by simp)
  | [] => exact .required (by simp) h
  | _ :: _ :: _ => exact .required (by simp) h

theorem normal_enclosed (opener : String) : Normal registry (enclosed opener ps) := by
  unfold enclosed
  split
  · exact normal_grouped h
  · exact .optional h

theorem normal_branchOf : ∀ p ∈ branchOf ps, Normal registry p := by
  unfold branchOf
  split
  · simp
  · simpa using normal_grouped h

theorem normal_alternation : ∀ p ∈ alternation ps, Normal registry p := by
  match ps with
  | [] | [p] => exact h
  | p :: q :: rest => simpa [alternation] using .either (by simp) h

end Groups

/-- The words that are neither options nor the placeholder are arguments and commands. -/
theorem wordLeaf_of_shape {s : String} (hw : Token.IsWord s) :
    (WordShape.of s = .argument → WordLeaf (.argument (some s) .null)) ∧
      (WordShape.of s = .command → WordLeaf (.command s (.bool false))) := by
  rcases WordShape.text_cases s with rfl | hl | ⟨c, cs, hs, hc⟩ | rfl | ⟨ho, hn⟩
  · have hs : WordShape.of "options" = .anyOptions := by decide
    simp [hs]
  · simp [WordShape.of_long hl]
  · simp [WordShape.of_cluster hs hc]
  · have hs : WordShape.of "--" = .command := by decide
    exact ⟨by simp [hs], fun _ => .command hw (by decide) (by decide) (by decide)⟩
  · have hdash : Text.startsWith s "-" = true → s = "-" := by
      intro hd
      obtain ⟨t, ht⟩ := List.isPrefixOf_iff_prefix.mp hd
      cases t with
      | nil => exact String.toList_inj.mp ht.symm
      | cons c cs => exact absurd ht.symm (hn c cs)
    rw [WordShape.of_other ho hn]
    cases ha : isArgumentName s with
    | false => exact ⟨by simp, fun _ => .command hw ho ha fun hd => .inl (hdash hd)⟩
    | true =>
      refine ⟨fun _ => .argument hw ?_ ha, by simp⟩
      rw [← Bool.not_eq_true]
      intro hd
      rw [hdash hd] at ha
      exact absurd ha (by decide)

theorem isWord_shortOf {c : Char} {cs : List Char} (h : Token.Clean cs) (hc : c ∈ cs) :
    Token.IsWord (OptionDecl.shortOf c) := by
  obtain ⟨before, after, rfl⟩ := List.append_of_mem hc
  have hone : Token.Clean [c] := h.within ⟨before, after, by simp⟩
  rw [Token.isWord_iff]
  refine ⟨by simp [OptionDecl.shortOf], ?_⟩
  simpa [OptionDecl.shortOf] using
    hone.cons (c := '-') (by decide) (by decide) (by simp [Token.dots])

/-- What a part finds; what an atom finds can also be repeated. -/
def Regular : Part → Registry → List Pattern → Prop
  | .atom, registry, found =>
    (∀ p ∈ found, Normal registry p) ∧ Normal registry (.branch .oneOrMore found)
  | _, registry, found => ∀ p ∈ found, Normal registry p

theorem regular_singleton {registry : Registry} {p : Pattern} (h : Normal registry p) :
    Regular .atom registry [p] := ⟨by simpa using h, .repeated h trivial⟩

theorem exists_char {registry : Registry} {os : List OptionDecl} {chars : List Char}
    (h : List.Forall₂ registry.Holds os chars) : ∀ o ∈ os, ∃ c ∈ chars, registry.Holds o c := by
  induction h with
  | nil => simp
  | @cons o c os cs hc h ih =>
    intro d hd
    rcases List.mem_cons.mp hd with rfl | hd
    · exact ⟨c, by simp, hc⟩
    · obtain ⟨e, he, hheld⟩ := ih d hd
      exact ⟨e, by simp [he], hheld⟩

/-- The options of a cluster are leaves one by one, and a cluster again when they are repeated. -/
theorem regular_cluster {registry : Registry} {os : List OptionDecl} {chars : List Char}
    (hne : os ≠ []) (hall : List.Forall₂ registry.Holds os chars)
    (hf : ∀ o ∈ os.dropLast, o.takesValue = false) (hc : Token.Clean ('-' :: chars)) :
    Regular .atom registry (os.map fun o => .leaf (.option o)) := by
  have hchars : Token.Clean chars := hc.within (List.suffix_cons '-' chars).isInfix
  have hleaf : ∀ o ∈ os, Normal registry (.leaf (.option o)) := by
    intro o ho
    obtain ⟨c, hm, hheld⟩ := exists_char hall o ho
    exact .leaf (.option ⟨hheld.1, fun _ => ⟨c, hheld.2, isWord_shortOf hchars hm⟩⟩)
  refine ⟨by simpa using hleaf, ?_⟩
  obtain ⟨front, last, rfl⟩ : ∃ front last, os = front ++ [last] :=
    ⟨_, _, (List.dropLast_append_getLast hne).symm⟩
  cases front with
  | nil => exact .repeated (hleaf last (by simp)) trivial
  | cons o os =>
    have hw : Token.IsWord (String.ofList ('-' :: chars)) := by
      rw [Token.isWord_iff]
      exact ⟨by simp, by simpa using hc⟩
    rw [List.dropLast_concat] at hf
    exact .cluster (by simp) ⟨chars, hall, hf, hw⟩

theorem regular_of_word {token : Token} {rest : List Token} {registry : Registry}
    {r : Reading Leaf} (hw : Token.IsWord token.text) (h : ReadsWord token rest registry r) :
    Registry.Extends registry r.registry ∧
      Regular .atom r.registry (r.found.map Pattern.leaf) := by
  cases h with
  | anyOptions hs => exact ⟨.refl _, regular_singleton (.leaf (.word .anyOptions))⟩
  | argument hs =>
    exact ⟨.refl _, regular_singleton (.leaf (.word ((wordLeaf_of_shape hw).1 hs)))⟩
  | command hs hne =>
    exact ⟨.refl _, regular_singleton (.leaf (.word ((wordLeaf_of_shape hw).2 hs)))⟩
  | @long r hs hr =>
    obtain ⟨hext, o, name, hf, ho, hl⟩ := hr.extends
    refine ⟨hext, ?_⟩
    have hnormal : OptionNormal r.registry o := ⟨ho, by simp [hl]⟩
    simpa [Reading.map, hf] using regular_singleton (.leaf (.option hnormal))
  | @cluster c cs r hs hc hr =>
    obtain ⟨hext, chars, hp, hall, hne, hf⟩ := hr.extends
    have hclean : Token.Clean ('-' :: chars) := by
      have hword := (Token.isWord_iff.mp hw).2
      rw [hs] at hword
      exact hword.within (List.cons_prefix_cons.mpr ⟨rfl, hp⟩).isInfix
    refine ⟨hext, ?_⟩
    have hreg := regular_cluster (hne (by simp)) hall hf hclean
    rwa [← Pattern.map_leaf_option] at hreg

/-- Each part extends the registry and builds normal trees over it. -/
theorem regular_of_reads {part : Part} {tokens : List Token} {registry : Registry}
    {r : Reading Pattern} (h : Reads part tokens registry r) (hs : ∀ t ∈ tokens, t.Scanned) :
    Registry.Extends registry r.registry ∧ Regular part r.registry r.found := by
  induction h with
  | @word token rest registry r hk hr =>
    exact regular_of_word ((hs token (by simp)).word hk) (readWord_eq_ok_iff.mp hr)
  | group hk hc he hn ih =>
    obtain ⟨hext, hin⟩ := ih fun t ht => hs t (by simp [ht])
    exact ⟨hext, regular_singleton (normal_enclosed hin _)⟩
  | stop hb => exact ⟨.refl _, by simp [Regular]⟩
  | @more tokens registry a s ha hseq iha ihs =>
    obtain ⟨hexta, hall, hrep⟩ := iha hs
    have hsub := (repeated_suffix a).trans (suffix_of_reads ha)
    obtain ⟨hexts, hin⟩ := ihs fun t ht => hs t (hsub.subset ht)
    have hstep : ∀ p ∈ (repeated a).found, Normal a.registry p := by
      unfold repeated
      split
      · simpa using hrep
      · exact hall
    rw [registry_repeated] at hexts
    refine ⟨hexta.trans hexts, fun p hp => ?_⟩
    rcases List.mem_append.mp hp with hp | hp
    · exact (hstep p hp).extend hexts
    · exact hin p hp
  | last hp => exact ⟨.refl _, by simp [Regular]⟩
  | branch hp hseq hb ihs ihb =>
    obtain ⟨t, rfl, -⟩ := suffix_of_behind? hp
    obtain ⟨hexts, hin⟩ := ihs fun t ht => hs t (by simp [ht])
    have hsub := suffix_of_reads hseq
    obtain ⟨hextb, hins⟩ := ihb fun t ht => hs t (List.mem_cons_of_mem _ (hsub.subset ht))
    refine ⟨hexts.trans hextb, fun p hp => ?_⟩
    rcases List.mem_append.mp hp with hp | hp
    · exact (normal_branchOf hin p hp).extend hextb
    · exact hins p hp
  | single hseq hp ihs => exact ihs hs
  | several hseq hp hb ihs ihb =>
    obtain ⟨hexts, hin⟩ := ihs hs
    obtain ⟨hextb, hins⟩ := ihb fun t ht => hs t ((suffix_of_reads hseq).subset ht)
    refine ⟨hexts.trans hextb, normal_alternation fun p hp => ?_⟩
    rcases List.mem_append.mp hp with hp | hp
    · exact (normal_branchOf hin p hp).extend hextb
    · exact hins p hp

end Usage

end Synopsis
