import Synopsis.Proofs.Growth

/-!
The stretches of a command line. A command line that is read falls into stretches of one or two
words, and its leaves into blocks, one for each stretch and in the same order: no word is lost, read
twice or moved. From the word that ends the options on, each word is a positional of its own.
-/
namespace Synopsis

/-- A long option is typed as its name alone, as the name and an equals sign with nothing behind it,
or as the name with a value. -/
theorem Assignment.text_of_read? {s : String} {a : Assignment}
    (h : Assignment.read? s = some a) :
    (a.value = none ∧ (s = a.name ∨ s = a.name ++ "=")) ∨
      ∃ v, a.value = some v ∧ v ≠ "" ∧ s = a.name ++ "=" ++ v := by
  have hsplit := List.takeWhile_append_dropWhile (p := (· != '=')) (l := s.toList)
  unfold Assignment.read? at h
  split at h
  next hd =>
    cases h
    rw [hd, List.append_nil] at hsplit
    refine .inl ⟨rfl, .inl ?_⟩
    rw [hsplit, String.ofList_toList]
  next c value hd =>
    have hc : c = '=' := by
      have hhead := List.head_dropWhile_not (p := (· != '=')) (l := s.toList) (by simp [hd])
      simpa [hd] using hhead
    rw [hd, hc] at hsplit
    have hs : s = String.ofList (s.toList.takeWhile (· != '=')) ++ "=" ++ String.ofList value := by
      apply String.toList_inj.mp
      simpa using hsplit.symm
    split at h
    next => cases h
    next =>
      cases h
      cases value with
      | nil => exact .inl ⟨rfl, .inr (by simpa using hs)⟩
      | cons d ds => exact .inr ⟨_, rfl, by simp, hs⟩

theorem Assignment.dashes_of_read? {s : String} {a : Assignment}
    (h : Assignment.read? s = some a) (hl : isLongName s = true) : ∃ p, a.name = "--" ++ p := by
  obtain ⟨c, cs, hs⟩ := isLongName_iff.mp hl
  refine ⟨String.ofList ((c :: cs).takeWhile (· != '=')), ?_⟩
  apply String.toList_inj.mp
  simp [Assignment.name_of_read? h, hs]

namespace OptionDecl

/-- The entry with another value and nothing else changed. -/
structure Binds (entry leaf : OptionDecl) (value : Datum) : Prop where
  short : leaf.short = entry.short
  long : leaf.long = entry.long
  count : leaf.slot.count = entry.slot.count
  value : leaf.slot.value = value

def LongFrom (start : String) (o : OptionDecl) : Prop :=
  ∃ name, o.long = some name ∧ Text.startsWith name start = true

theorem binds_switchedOn {o : OptionDecl} (h : o.takesValue = false) :
    o.Binds o.switchedOn (.bool true) := by
  obtain ⟨short, long, slot, named⟩ := o
  cases slot with
  | flag count on => exact ⟨rfl, rfl, by cases count <;> rfl, rfl⟩
  | valued count v => cases h

theorem binds_holding {o : OptionDecl} (h : o.takesValue = true) (v : String) :
    o.Binds (o.holding v) (.text v) := by
  obtain ⟨short, long, slot, named⟩ := o
  cases slot with
  | flag count on => cases h
  | valued count w => exact ⟨rfl, rfl, by cases count <;> rfl, rfl⟩

end OptionDecl

namespace Registry

/-- The leaf is an entry of the registry with a value. -/
def Bound (registry : Registry) (called : OptionDecl → Prop) (takesValue : Bool) (value : Datum)
    (leaf : OptionDecl) : Prop :=
  ∃ o ∈ registry, called o ∧ o.takesValue = takesValue ∧ o.Binds leaf value

/-- The leaf is a flag of the registry that was switched on. -/
def Flags (registry : Registry) (called : OptionDecl → Prop) (leaf : OptionDecl) : Prop :=
  registry.Bound called false (.bool true) leaf

/-- The leaf is an option of the registry that was given a value. -/
def Gives (registry : Registry) (called : OptionDecl → Prop) (v : String) (leaf : OptionDecl) :
    Prop :=
  registry.Bound called true (.text v) leaf

theorem Bound.extend {before after : Registry} {called : OptionDecl → Prop} {takesValue : Bool}
    {value : Datum} {leaf : OptionDecl} (h : before.Bound called takesValue value leaf)
    (he : before ⊆ after) : after.Bound called takesValue value leaf := by
  obtain ⟨o, ho, hrest⟩ := h
  exact ⟨o, he ho, hrest⟩

theorem Grows.subset {mode : Mode} {before after : Registry} (h : Grows mode before after) :
    before ⊆ after := h.extends.starts.subset

end Registry

namespace CommandLine

open Registry

/-- The ways in which one or two words are read as a block of leaves over a registry. -/
inductive Stretch (registry : Registry) : List String → List Leaf → Prop where
  | positional (word : String) : Stretch registry [word] [positionalOf word]
  | longFlag {p word : String} {leaf : OptionDecl}
      (hw : word = "--" ++ p ∨ word = "--" ++ p ++ "=")
      (hl : registry.Flags (OptionDecl.LongFrom ("--" ++ p)) leaf) :
      Stretch registry [word] [.option leaf]
  | longValue {p v : String} {words : List String} {leaf : OptionDecl}
      (hw : (v ≠ "" ∧ words = ["--" ++ p ++ "=" ++ v]) ∨ words = ["--" ++ p, v] ∨
        words = ["--" ++ p ++ "=", v])
      (hl : registry.Gives (OptionDecl.LongFrom ("--" ++ p)) v leaf) :
      Stretch registry words [.option leaf]
  | flags {cs : List Char} {leaves : List OptionDecl} (hne : cs ≠ [])
      (hf : List.Forall₂ (fun c => registry.Flags (Pattern.ShortNamed · c)) cs leaves) :
      Stretch registry [String.ofList ('-' :: cs)] (leaves.map .option)
  | flagsValue {cs : List Char} {c : Char} {v : String} {words : List String}
      {leaves : List OptionDecl} {leaf : OptionDecl}
      (hw : (v ≠ "" ∧ words = [String.ofList ('-' :: (cs ++ [c])) ++ v]) ∨
        words = [String.ofList ('-' :: (cs ++ [c])), v])
      (hf : List.Forall₂ (fun c => registry.Flags (Pattern.ShortNamed · c)) cs leaves)
      (hl : registry.Gives (Pattern.ShortNamed · c) v leaf) :
      Stretch registry words ((leaves ++ [leaf]).map .option)

theorem Stretch.extend {before after : Registry} {words : List String} {leaves : List Leaf}
    (h : Stretch before words leaves) (he : before ⊆ after) : Stretch after words leaves := by
  cases h with
  | positional word => exact .positional word
  | longFlag hw hl => exact .longFlag hw (hl.extend he)
  | longValue hw hl => exact .longValue hw (hl.extend he)
  | flags hne hf => exact .flags hne (hf.imp fun _ _ h => h.extend he)
  | flagsValue hw hf hl =>
    exact .flagsValue hw (hf.imp fun _ _ h => h.extend he) (hl.extend he)

theorem long_of_declareLong {name : String} {value : Option String} {o : OptionDecl}
    (h : declareLong name value = .ok o) :
    o.LongFrom name ∧ o.takesValue = value.isSome := by
  obtain ⟨hl, -, ht⟩ := fields_of_declareLong h
  exact ⟨⟨name, hl, List.isPrefixOf_iff_prefix.mpr (List.prefix_refl _)⟩, ht⟩

theorem mem_of_commandLine_candidates {registry : Registry} {name : String} {o : OptionDecl}
    (h : registry.candidates .commandLine name = [o]) : o ∈ registry ∧ o.LongFrom name := by
  have ho : o ∈ registry.candidates .commandLine name := by
    rw [h]
    exact List.mem_singleton_self o
  unfold candidates at ho
  split at ho
  next =>
    obtain ⟨hmem, hstarts⟩ := List.mem_filter.mp ho
    cases hl : o.long with
    | none => simp [hl] at hstarts
    | some long => exact ⟨hmem, long, hl, by simpa [hl] using hstarts⟩
  next =>
    obtain ⟨hmem, hl⟩ := List.mem_filter.mp ho
    exact ⟨hmem, name, by simpa using hl, List.isPrefixOf_iff_prefix.mpr (List.prefix_refl _)⟩

section Typed

variable {registry : Registry} {a : Assignment} {o : OptionDecl} {text : String}
  (ha : Assignment.read? text = some a) (hs : isLongName text = true) (ho : o ∈ registry)
  (hl : o.LongFrom a.name)
include ha hs ho hl

theorem stretch_switchedOn (ht : o.takesValue = false) (hv : a.value = none) :
    Stretch registry [text] [.option o.switchedOn] := by
  obtain ⟨p, hp⟩ := a.dashes_of_read? ha hs
  rw [hp] at hl
  rcases a.text_of_read? ha with ⟨-, hw⟩ | ⟨v, hv', -⟩
  · rw [hp] at hw
    exact .longFlag hw ⟨o, ho, hl, ht, OptionDecl.binds_switchedOn ht⟩
  · rw [hv] at hv'
    cases hv'

theorem stretch_assigned {v : String} (ht : o.takesValue = true) (hv : a.value = some v) :
    Stretch registry [text] [.option (o.holding v)] := by
  obtain ⟨p, hp⟩ := a.dashes_of_read? ha hs
  rw [hp] at hl
  rcases a.text_of_read? ha with ⟨hv', -⟩ | ⟨w, hv', hne, hw⟩
  · rw [hv] at hv'
    cases hv'
  · rw [hv] at hv'
    cases hv'
    rw [hp] at hw
    rw [hw]
    exact .longValue (.inl ⟨hne, rfl⟩) ⟨o, ho, hl, ht, OptionDecl.binds_holding ht v⟩

theorem stretch_followed (v : String) (ht : o.takesValue = true) (hv : a.value = none) :
    Stretch registry [text, v] [.option (o.holding v)] := by
  obtain ⟨p, hp⟩ := a.dashes_of_read? ha hs
  rw [hp] at hl
  refine .longValue ?_ ⟨o, ho, hl, ht, OptionDecl.binds_holding ht v⟩
  rcases a.text_of_read? ha with ⟨-, hw | hw⟩ | ⟨w, hv', -⟩
  · exact .inr (.inl (by rw [hw, hp]))
  · exact .inr (.inr (by rw [hw, hp]))
  · rw [hv] at hv'
    cases hv'

end Typed

/-- A long option is a stretch of its own word and, where its value is the next word, of that. -/
theorem stretch_of_readsLong {token : Token} {rest : List Token} {registry : Registry}
    {r : Reading OptionDecl} (h : ReadsLong .commandLine token rest registry r)
    (hs : isLongName token.text = true) :
    ∃ used, rest = used ++ r.rest ∧
      Stretch r.registry (token.text :: used.map (·.text)) (r.found.map .option) := by
  cases h with
  | @added a o ha hc ho =>
    obtain ⟨hl, ht⟩ := long_of_declareLong ho
    refine ⟨[], rfl, ?_⟩
    cases hv : a.value with
    | none =>
      rw [hv] at ht
      exact stretch_switchedOn ha hs (by simp) hl ht hv
    | some v =>
      rw [hv] at ht
      exact stretch_assigned ha hs (by simp) hl ht hv
  | flag ha hc ht hv =>
    obtain ⟨ho, hl⟩ := mem_of_commandLine_candidates hc
    exact ⟨[], rfl, stretch_switchedOn ha hs ho hl ht hv⟩
  | assigned ha hc ht hv =>
    obtain ⟨ho, hl⟩ := mem_of_commandLine_candidates hc
    exact ⟨[], rfl, stretch_assigned ha hs ho hl ht hv⟩
  | @followed a o next after ha hc ht hv hr hk =>
    obtain ⟨ho, hl⟩ := mem_of_commandLine_candidates hc
    exact ⟨[next], hr, stretch_followed ha hs ho hl next.text ht hv⟩

/-- The characters of a cluster with the words behind it and the leaves they are read as: flags, of
which the last character may be an option whose value is the rest of the cluster or the next word. -/
inductive Clustered (registry : Registry) : List Char → List String → List OptionDecl → Prop where
  | nil : Clustered registry [] [] []
  | flag {c : Char} {cs : List Char} {words : List String} {leaf : OptionDecl}
      {leaves : List OptionDecl} (hl : registry.Flags (Pattern.ShortNamed · c) leaf)
      (h : Clustered registry cs words leaves) :
      Clustered registry (c :: cs) words (leaf :: leaves)
  | attached {c : Char} {cs : List Char} {leaf : OptionDecl} (hne : cs ≠ [])
      (hl : registry.Gives (Pattern.ShortNamed · c) (String.ofList cs) leaf) :
      Clustered registry (c :: cs) [] [leaf]
  | followed {c : Char} {v : String} {leaf : OptionDecl}
      (hl : registry.Gives (Pattern.ShortNamed · c) v leaf) : Clustered registry [c] [v] [leaf]

theorem clustered_of_readsChars {rest : List Token} {registry : Registry} {cs : List Char}
    {r : Reading OptionDecl} (h : ReadsChars .commandLine rest registry cs r) :
    ∃ used, rest = used ++ r.rest ∧
      Clustered r.registry cs (used.map (·.text)) r.found := by
  induction h with
  | nil => exact ⟨[], rfl, .nil⟩
  | @fresh registry c cs r hc hs hr ih =>
    obtain ⟨used, he, hin⟩ := ih
    have hmem : OptionDecl.ofChar c hc ∈ r.registry := hr.grows.subset (by simp)
    exact ⟨used, he, .flag ⟨_, hmem, rfl, rfl, OptionDecl.binds_switchedOn rfl⟩ hin⟩
  | @flag registry c cs o r hc hs ht hr ih =>
    obtain ⟨used, he, hin⟩ := ih
    obtain ⟨ho, hshort⟩ := mem_of_withShort hs
    have hmem : o ∈ r.registry := hr.grows.subset ho
    exact ⟨used, he, .flag ⟨o, hmem, hshort, ht, OptionDecl.binds_switchedOn ht⟩ hin⟩
  | @attached registry c cs o hc hs ht hne =>
    obtain ⟨ho, hshort⟩ := mem_of_withShort hs
    exact ⟨[], rfl, .attached hne ⟨o, ho, hshort, ht, OptionDecl.binds_holding ht _⟩⟩
  | @followed registry c o next after hc hs ht hr hw =>
    obtain ⟨ho, hshort⟩ := mem_of_withShort hs
    exact ⟨[next], hr, .followed ⟨o, ho, hshort, ht, OptionDecl.binds_holding ht _⟩⟩

/-- A cluster of characters is all flags, or flags in front of one option with a value. -/
theorem Clustered.cases {registry : Registry} {cs : List Char} {words : List String}
    {leaves : List OptionDecl} (h : Clustered registry cs words leaves) :
    (words = [] ∧ List.Forall₂ (fun c => registry.Flags (Pattern.ShortNamed · c)) cs leaves) ∨
      ∃ front c v flags leaf, leaves = flags ++ [leaf] ∧
        List.Forall₂ (fun c => registry.Flags (Pattern.ShortNamed · c)) front flags ∧
        registry.Gives (Pattern.ShortNamed · c) v leaf ∧
        ((v ≠ "" ∧ words = [] ∧ cs = front ++ c :: v.toList) ∨
          (words = [v] ∧ cs = front ++ [c])) := by
  induction h with
  | nil => exact .inl ⟨rfl, .nil⟩
  | @flag c cs words leaf leaves hl h ih =>
    rcases ih with ⟨hw, hf⟩ | ⟨front, d, v, flags, last, rfl, hf, hlast, hw⟩
    · exact .inl ⟨hw, .cons hl hf⟩
    · refine .inr ⟨c :: front, d, v, leaf :: flags, last, rfl, .cons hl hf, hlast, ?_⟩
      rcases hw with ⟨hne, hw, rfl⟩ | ⟨hw, rfl⟩
      · exact .inl ⟨hne, hw, rfl⟩
      · exact .inr ⟨hw, rfl⟩
  | @attached c cs leaf hne hl =>
    refine .inr ⟨[], c, String.ofList cs, [], leaf, rfl, .nil, hl, .inl ⟨?_, rfl, by simp⟩⟩
    simpa using hne
  | @followed c v leaf hl =>
    exact .inr ⟨[], c, v, [], leaf, rfl, .nil, hl, .inr ⟨rfl, rfl⟩⟩

theorem stretch_of_clustered {registry : Registry} {text : String} {cs : List Char}
    {words : List String} {leaves : List OptionDecl} (hs : text.toList = '-' :: cs)
    (hne : cs ≠ []) (h : Clustered registry cs words leaves) :
    Stretch registry (text :: words) (leaves.map .option) := by
  have htext : text = String.ofList ('-' :: cs) := by rw [← hs, String.ofList_toList]
  rcases h.cases with ⟨rfl, hf⟩ | ⟨front, c, v, flags, leaf, rfl, hf, hl, hw⟩
  · rw [htext]
    exact .flags hne hf
  · refine .flagsValue ?_ hf hl
    rcases hw with ⟨hv, rfl, rfl⟩ | ⟨rfl, rfl⟩
    · refine .inl ⟨hv, ?_⟩
      rw [htext, List.cons.injEq]
      refine ⟨?_, rfl⟩
      apply String.toList_inj.mp
      simp
    · exact .inr (by rw [htext])

/-- The words that a turn consumes are a stretch. Only a word that looks like one is read as a
positional. -/
theorem Turn.stretch {token : Token} {rest : List Token} {registry : Registry}
    {r : Reading Leaf} (h : Turn token rest registry r) :
    ∃ used, rest = used ++ r.rest ∧
      Stretch r.registry (token.text :: used.map (·.text)) r.found ∧
        ∀ word, r.found = [positionalOf word] → WordShape.of token.text = .positional := by
  have hoption : ∀ {leaves : List OptionDecl} {word : String},
      leaves.map Leaf.option ≠ [positionalOf word] := by
    intro leaves word he
    cases leaves with
    | nil => cases he
    | cons leaf leaves => cases he
  cases h with
  | long hs hr =>
    obtain ⟨used, he, hst⟩ := stretch_of_readsLong hr hs
    exact ⟨used, he, hst, fun word hw => (hoption hw).elim⟩
  | cluster hs hc hr =>
    obtain ⟨used, he, hin⟩ := clustered_of_readsChars hr
    exact ⟨used, he, stretch_of_clustered hs (by simp) hin, fun word hw => (hoption hw).elim⟩
  | positional hs => exact ⟨[], rfl, .positional token.text, fun _ _ => hs⟩

/-- Stretches up to the word that ends the options, with their blocks of leaves. -/
theorem Run.stretches {optionsFirst : Bool} {tokens : List Token} {registry : Registry}
    {p : Parsed} (h : Run optionsFirst tokens registry p) :
    ∃ (stretches : List (List String × List Leaf)) (tail : List String),
      tokens.map (·.text) = (stretches.map (·.1)).flatten ++ tail ∧
      p.leaves = (stretches.map (·.2)).flatten ++ tail.map positionalOf ∧
      (∀ s ∈ stretches, Stretch p.registry s.1 s.2) ∧
      (∀ word, ([word], [positionalOf word]) ∈ stretches →
        optionsFirst = false ∧ WordShape.of word = .positional) ∧
      ∀ word ∈ tail.head?, Ends optionsFirst word := by
  induction h with
  | done => exact ⟨[], [], rfl, rfl, by simp, by simp, by simp⟩
  | @ended token rest registry he =>
    exact ⟨[], (token :: rest).map (·.text), rfl, map_positional _, by simp, by simp,
      by simpa using he⟩
  | @turned token rest registry r p hn ht hr ih =>
    obtain ⟨stretches, tail, hwords, hleaves, hall, hpos, hends⟩ := ih
    obtain ⟨used, hu, hst, hshape⟩ := ht.stretch
    refine ⟨(token.text :: used.map (·.text), r.found) :: stretches, tail, ?_, ?_, ?_, ?_,
      hends⟩
    · rw [hu, List.map_cons, List.map_append, hwords]
      simp
    · simp only [Parsed.behind, hleaves, List.map_cons, List.flatten_cons, List.append_assoc]
    · intro s hs
      rcases List.mem_cons.mp hs with rfl | hs
      · exact hst.extend hr.grows.subset
      · exact hall s hs
    · intro word hw
      rcases List.mem_cons.mp hw with he | hw
      · obtain ⟨hword, hfound⟩ := Prod.mk.inj he
        obtain ⟨rfl, -⟩ := List.cons.inj hword
        have hs := hshape _ hfound.symm
        refine ⟨?_, hs⟩
        rw [← Bool.not_eq_true]
        exact fun ho => hn (.inr ⟨ho, hs⟩)
      · exact hpos word hw

/-- A command line that is read falls into stretches, and its leaves into their blocks in the same
order. In front of the word that ends the options only a word that looks like a positional is read as
one; from there on every word is. -/
theorem parse_stretches {optionsFirst : Bool} {argv : List String} {registry : Registry}
    {p : Parsed} (h : parse optionsFirst argv registry = .ok p) :
    ∃ (stretches : List (List String × List Leaf)) (tail : List String),
      argv = (stretches.map (·.1)).flatten ++ tail ∧
      p.leaves = (stretches.map (·.2)).flatten ++ tail.map positionalOf ∧
      (∀ s ∈ stretches, Stretch p.registry s.1 s.2) ∧
      (∀ word, ([word], [positionalOf word]) ∈ stretches →
        optionsFirst = false ∧ WordShape.of word = .positional) ∧
      ∀ word ∈ tail.head?, Ends optionsFirst word := by
  have hr := (ofTokens_eq_ok_iff.mp h).stretches
  rwa [Token.map_text_ofWords] at hr

theorem parse_stretches_mixed :
    let verbose : OptionDecl := ⟨some "-v", some "--verbose", .flag .int false, by decide⟩
    let out : OptionDecl := ⟨some "-o", some "--out", .valued .int .null, by decide⟩
    let registry : Registry := [verbose, out]
    let argv := ["x", "--verb", "-vqoFILE", "--out=", "--", "--new=1", "--", "-vo", "a b"]
    ∃ p, parse false argv registry = .ok p ∧ p.leaves.length = 10 ∧ p.registry.length = 4 ∧
      ∃ (stretches : List (List String × List Leaf)) (tail : List String),
        argv = (stretches.map (·.1)).flatten ++ tail ∧
        p.leaves = (stretches.map (·.2)).flatten ++ tail.map positionalOf ∧
        (∀ s ∈ stretches, Stretch p.registry s.1 s.2) ∧
        (∀ word, ([word], [positionalOf word]) ∈ stretches →
          WordShape.of word = .positional) ∧
        ∀ word ∈ tail.head?, Ends false word := by
  intro verbose out registry argv
  obtain ⟨p, hp, hlen⟩ := Usage.exists_ok_of_any (show
    (parse false argv registry).toOption.any
      (fun p => p.leaves.length == 10 && p.registry.length == 4) = true by decide +kernel)
  rw [Bool.and_eq_true, beq_iff_eq, beq_iff_eq] at hlen
  obtain ⟨stretches, tail, hargv, hleaves, hall, hpos, hends⟩ := parse_stretches hp
  exact ⟨p, hp, hlen.1, hlen.2, stretches, tail, hargv, hleaves, hall,
    fun word hw => (hpos word hw).2, hends⟩

end CommandLine

end Synopsis
