import Synopsis.Proofs.Canonical
import Synopsis.Proofs.Placement

/-!
Spellings of a command line. A value behind an equals sign or at the end of a cluster may stand in the
next word instead, and the first flag of a cluster in a word of its own: the leaves and the registry
are the same, and a refusal is of the same kind.
-/
namespace Synopsis

/-- An empty value behind an equals sign is none. -/
theorem Assignment.read?_equals {name v : String} (hn : '=' ∉ name.toList)
    (hv : '=' ∉ v.toList) :
    Assignment.read? (name ++ "=" ++ v) = some ⟨name, if v = "" then none else some v⟩ := by
  have hname := Usage.bne_equals_of_mem hn
  have htext : (name ++ "=" ++ v).toList = name.toList ++ '=' :: v.toList := by simp
  have htake : (name.toList ++ '=' :: v.toList).takeWhile (· != '=') = name.toList := by
    rw [List.takeWhile_append_of_pos hname]
    simp
  have hdrop : (name.toList ++ '=' :: v.toList).dropWhile (· != '=') = '=' :: v.toList := by
    rw [List.dropWhile_append_of_pos hname]
    simp
  simp only [Assignment.read?, htext, htake, hdrop]
  simp [hv]

theorem Assignment.read?_assign {name v : String} (hn : '=' ∉ name.toList)
    (hv : '=' ∉ v.toList) (hne : v ≠ "") :
    Assignment.read? (name ++ "=" ++ v) = some ⟨name, some v⟩ := by
  rw [Assignment.read?_equals hn hv, if_neg hne]

namespace Registry

variable {mode : Mode} {registry after : Registry} {cs : List Char} {found : List OptionDecl}

theorem withShort_ofChar {d : Char} (hd : d ≠ '-') (e : Char) :
    (registry ++ [OptionDecl.ofChar d hd]).withShort (OptionDecl.shortOf e) =
      registry.withShort (OptionDecl.shortOf e) ++
        if d = e then [OptionDecl.ofChar d hd] else [] := by
  unfold withShort
  rw [List.filter_append]
  by_cases he : d = e
  · simp [he, OptionDecl.ofChar]
  · simp [he, OptionDecl.ofChar, OptionDecl.shortOf]

/-- Characters in front of a cluster that are flags, new or known. -/
inductive ReadsFlags (mode : Mode) :
    Registry → List Char → Registry → List OptionDecl → Prop where
  | nil {registry : Registry} : ReadsFlags mode registry [] registry []
  | fresh {registry after : Registry} {c : Char} {cs : List Char} {found : List OptionDecl}
      (hc : c ≠ '-') (hs : registry.withShort (OptionDecl.shortOf c) = [])
      (h : ReadsFlags mode (registry ++ [OptionDecl.ofChar c hc]) cs after found) :
      ReadsFlags mode registry (c :: cs) after (mode.flag (OptionDecl.ofChar c hc) :: found)
  | flag {registry after : Registry} {c : Char} {cs : List Char} {o : OptionDecl}
      {found : List OptionDecl} (hc : c ≠ '-')
      (hs : registry.withShort (OptionDecl.shortOf c) = [o]) (ht : o.takesValue = false)
      (h : ReadsFlags mode registry cs after found) :
      ReadsFlags mode registry (c :: cs) after (mode.flag o :: found)

/-- Behind flags a cluster is read on over the registry that they leave. -/
theorem ReadsFlags.reads (h : ReadsFlags mode registry cs after found) {rest : List Token}
    {ds : List Char} {r : Reading OptionDecl} (hr : ReadsChars mode rest after ds r) :
    ReadsChars mode rest registry (cs ++ ds) { r with found := found ++ r.found } := by
  induction h with
  | nil => exact hr
  | fresh hc hs h ih => exact .fresh hc hs (ih hr)
  | flag hc hs ht h ih => exact .flag hc hs ht (ih hr)

theorem ReadsFlags.alone (h : ReadsFlags mode registry cs after found) (rest : List Token) :
    ReadsChars mode rest registry cs ⟨rest, after, found⟩ := by
  have hnil : ReadsChars mode rest after [] ⟨rest, after, []⟩ := .nil
  simpa only [List.append_nil] using h.reads hnil

theorem ReadsFlags.refuses (h : ReadsFlags mode registry cs after found) {token : Token}
    {rest : List Token} {ds : List Char} {x : Complaint}
    (hx : RefusesChars mode token rest after ds x) :
    RefusesChars mode token rest registry (cs ++ ds) x := by
  induction h with
  | nil => exact hx
  | fresh hc hs h ih => exact .fresh hc hs (ih hx)
  | flag hc hs ht h ih => exact .flag hc hs ht (ih hx)

/-- Flags do not change what a known short name means. -/
theorem ReadsFlags.withShort (h : ReadsFlags mode registry cs after found) {c : Char}
    (hk : registry.withShort (OptionDecl.shortOf c) ≠ []) :
    after.withShort (OptionDecl.shortOf c) = registry.withShort (OptionDecl.shortOf c) := by
  induction h with
  | nil => rfl
  | @fresh registry after d cs found hd hs h ih =>
    have hne : d ≠ c := by
      rintro rfl
      exact hk hs
    have hadd : (registry ++ [OptionDecl.ofChar d hd]).withShort (OptionDecl.shortOf c) =
        registry.withShort (OptionDecl.shortOf c) := by
      rw [withShort_ofChar, if_neg hne, List.append_nil]
    rw [← hadd] at hk ⊢
    exact ih hk
  | flag hc hs ht h ih => exact ih hk

/-- Characters of which none takes a value are flags, or one of them names several options. -/
theorem readsFlags_or_repeated (mode : Mode)
    (h : ∀ d ∈ cs, d ≠ '-' ∧
      ∀ o, registry.withShort (OptionDecl.shortOf d) = [o] → o.takesValue = false) :
    (∃ after found, ReadsFlags mode registry cs after found) ∨
      ∃ short count, ∀ token rest ds,
        RefusesChars mode token rest registry (cs ++ ds) (.repeatedShort token short count) := by
  induction cs generalizing registry with
  | nil => exact .inl ⟨registry, [], .nil⟩
  | cons d cs ih =>
    obtain ⟨hd, hflag⟩ := h d List.mem_cons_self
    have htail := fun e he => h e (List.mem_cons_of_mem d he)
    rcases hs : registry.withShort (OptionDecl.shortOf d) with - | ⟨o, - | ⟨o', os⟩⟩
    · have hgrown : ∀ e ∈ cs, e ≠ '-' ∧ ∀ o,
          (registry ++ [OptionDecl.ofChar d hd]).withShort (OptionDecl.shortOf e) = [o] →
            o.takesValue = false := by
        intro e he
        refine ⟨(htail e he).1, fun o ho => ?_⟩
        rw [withShort_ofChar] at ho
        by_cases hde : d = e
        · rw [← hde, hs, if_pos rfl, List.nil_append, List.singleton_inj] at ho
          rw [← ho]
          rfl
        · rw [if_neg hde, List.append_nil] at ho
          exact (htail e he).2 o ho
      rcases ih hgrown with ⟨after, found, hf⟩ | ⟨short, count, hx⟩
      · exact .inl ⟨after, _, .fresh hd hs hf⟩
      · exact .inr ⟨short, count, fun token rest ds => .fresh hd hs (hx token rest ds)⟩
    · have ht := hflag o hs
      rcases ih htail with ⟨after, found, hf⟩ | ⟨short, count, hx⟩
      · exact .inl ⟨after, _, .flag hd hs ht hf⟩
      · exact .inr ⟨short, count, fun token rest ds => .flag hd hs ht (hx token rest ds)⟩
    · exact .inr ⟨_, _, fun token rest ds => .repeated hd hs⟩

theorem readsFlags_one {c : Char} (hc : c ≠ '-')
    (h : registry.withShort (OptionDecl.shortOf c) = [] ∨
      ∃ o, registry.withShort (OptionDecl.shortOf c) = [o] ∧ o.takesValue = false) :
    ∃ after found, ReadsFlags mode registry [c] after found := by
  rcases h with hs | ⟨o, hs, ht⟩
  · exact ⟨_, _, .fresh hc hs .nil⟩
  · exact ⟨_, _, .flag hc hs ht .nil⟩

end Registry

theorem Failure.SameFault.sameKind {f g : Failure} (h : f.SameFault g) : f.SameKind g := by
  obtain ⟨left, right, hl, hr, hkind, -⟩ := h
  exact ⟨left, right, hl, hr, hkind⟩

theorem sameKind_onToken {token left right : Token} {x : Complaint}
    (h : Registry.Blames token x) (hl : 0 < left.index) (hr : 0 < right.index) :
    Failure.SameKind (.complaint (x.onToken fun _ => left))
      (.complaint (x.onToken fun _ => right)) := by
  obtain ⟨f, g, hf, hg, hkind, -⟩ := reports_onToken (g := fun _ => left)
    (k := fun _ => right) h hl hr
  exact ⟨f, g, hf, hg, hkind⟩

namespace CommandLine

open Registry

variable {optionsFirst : Bool} {registry : Registry}

theorem Agree.sameKind {x y : Except Failure Parsed} (h : Agree Failure.SameFault x y) :
    Agree Failure.SameKind x y := by
  cases x <;> cases y
  · exact Failure.SameFault.sameKind h
  · exact h
  · exact h
  · exact h

theorem not_ends_of_long {s : String} (h : isLongName s = true) : ¬ Ends optionsFirst s := by
  have hs := WordShape.of_eq_long_iff.mpr h
  rintro (rfl | ⟨-, hp⟩)
  · cases hs
  · rw [hs] at hp
    cases hp

/-- The word is a cluster of these characters. -/
structure Clusters (word : String) (cs : List Char) : Prop where
  text : word.toList = '-' :: cs
  opens : ∃ c ds, cs = c :: ds ∧ c ≠ '-'

namespace Clusters

variable {token : Token} {rest : List Token} {cs : List Char}

theorem not_ends (h : Clusters token.text cs) : ¬ Ends optionsFirst token.text := by
  obtain ⟨htext, c, ds, rfl, hc⟩ := h
  have hs := WordShape.of_eq_cluster_iff.mpr ⟨c, ds, htext, hc⟩
  rintro (hstop | ⟨-, hp⟩)
  · rw [WordShape.of_eq_stop_iff.mpr hstop] at hs
    cases hs
  · rw [hs] at hp
    cases hp

theorem turn (h : Clusters token.text cs) {r : Reading OptionDecl}
    (hr : ReadsChars .commandLine rest registry cs r) :
    Turn token rest registry (r.map Leaf.option) := by
  obtain ⟨htext, c, ds, rfl, hc⟩ := h
  exact .cluster htext hc hr

theorem balks (h : Clusters token.text cs) {x : Complaint}
    (hx : RefusesChars .commandLine token rest registry cs x) : Balks token rest registry x := by
  obtain ⟨htext, c, ds, rfl, hc⟩ := h
  exact .cluster htext hc hx

end Clusters

/-- Lines that open with options to the same effect and go on with the same words are read alike. -/
theorem agree_of_turns {left right : Token} {restl restr tokens : List Token} {after : Registry}
    {found : List OptionDecl} {m n : Nat} (hnl : ¬ Ends optionsFirst left.text)
    (hnr : ¬ Ends optionsFirst right.text)
    (hl : Turn left restl registry
      (Reading.map Leaf.option ⟨tokens.map (Token.moved m), after, found⟩))
    (hr : Turn right restr registry
      (Reading.map Leaf.option ⟨tokens.map (Token.moved n), after, found⟩))
    (hp : ∀ t ∈ tokens, 0 < t.index) :
    Agree Failure.SameKind (ofTokens optionsFirst (left :: restl) registry)
      (ofTokens optionsFirst (right :: restr) registry) := by
  rw [ofTokens_of_turn hnl hl, ofTokens_of_turn hnr hr]
  exact ((agree_moved hp m n).behind (found.map Leaf.option)).sameKind

section Pairs

variable {tokens : List Token} {m n : Nat} (hp : ∀ t ∈ tokens, 0 < t.index)
include hp

/-- A value may stand behind an equals sign or in the next word. -/
theorem agree_assigned {left right next : Token} {name : String} {o : OptionDecl}
    (hl : isLongName left.text = true) (hr : isLongName right.text = true)
    (hal : Assignment.read? left.text = some ⟨name, some next.text⟩)
    (har : Assignment.read? right.text = some ⟨name, none⟩)
    (hc : registry.candidates .commandLine name = [o]) (ht : o.takesValue = true)
    (hw : next.kind = .word) :
    Agree Failure.SameKind
      (ofTokens optionsFirst (left :: tokens.map (Token.moved m)) registry)
      (ofTokens optionsFirst (right :: next :: tokens.map (Token.moved n)) registry) := by
  have hleft : ReadsLong .commandLine left (tokens.map (Token.moved m)) registry
      ⟨tokens.map (Token.moved m), registry, [o.holding next.text]⟩ :=
    .assigned hal hc ht rfl
  have hright : ReadsLong .commandLine right (next :: tokens.map (Token.moved n)) registry
      ⟨tokens.map (Token.moved n), registry, [o.holding next.text]⟩ :=
    .followed har hc ht rfl rfl hw
  exact agree_of_turns (not_ends_of_long hl) (not_ends_of_long hr) (.long hl hleft)
    (.long hr hright) hp

/-- A value may stand at the end of a cluster or in the next word. -/
theorem agree_attached {left right next : Token} {cs : List Char} {c : Char} {o : OptionDecl}
    (hl : Clusters left.text (cs ++ c :: next.text.toList))
    (hr : Clusters right.text (cs ++ [c])) (hlp : 0 < left.index) (hrp : 0 < right.index)
    (hcs : ∀ d ∈ cs, d ≠ '-' ∧
      ∀ e, registry.withShort (OptionDecl.shortOf d) = [e] → e.takesValue = false)
    (hc : registry.withShort (OptionDecl.shortOf c) = [o]) (ht : o.takesValue = true)
    (hne : next.text ≠ "") (hw : next.kind = .word) :
    Agree Failure.SameKind
      (ofTokens optionsFirst (left :: tokens.map (Token.moved m)) registry)
      (ofTokens optionsFirst (right :: next :: tokens.map (Token.moved n)) registry) := by
  have hdash : c ≠ '-' := Pattern.ne_dash_of_shortNamed (mem_of_withShort hc).2
  rcases readsFlags_or_repeated .commandLine hcs with ⟨after, found, hf⟩ | ⟨short, count, hx⟩
  · have ho : after.withShort (OptionDecl.shortOf c) = [o] :=
      (hf.withShort (by rw [hc]; exact List.cons_ne_nil o [])).trans hc
    have hleft : ReadsChars .commandLine (tokens.map (Token.moved m)) after
        (c :: next.text.toList)
        ⟨tokens.map (Token.moved m), after, [o.holding (String.ofList next.text.toList)]⟩ :=
      .attached hdash ho ht (by simpa using hne)
    have hright : ReadsChars .commandLine (next :: tokens.map (Token.moved n)) after [c]
        ⟨tokens.map (Token.moved n), after, [o.holding next.text]⟩ :=
      .followed hdash ho ht rfl hw
    rw [String.ofList_toList] at hleft
    exact agree_of_turns hl.not_ends hr.not_ends (hl.turn (hf.reads hleft))
      (hr.turn (hf.reads hright)) hp
  · rw [ofTokens_of_balks (hl.balks (hx _ _ _)), ofTokens_of_balks (hr.balks (hx _ _ _))]
    have hb : Blames left (.repeatedShort left short count) := .repeatedShort short count
    exact sameKind_onToken hb hlp hrp

/-- A flag in front of a cluster may stand in a word of its own. -/
theorem agree_parted {whole first second : Token} {c : Char} {cs : List Char}
    {after : Registry} {found : List OptionDecl} (hwhole : Clusters whole.text (c :: cs))
    (hfirst : Clusters first.text [c]) (hsecond : Clusters second.text cs)
    (hwp : 0 < whole.index) (hsp : 0 < second.index)
    (hf : ReadsFlags .commandLine registry [c] after found) :
    Agree Failure.SameKind
      (ofTokens optionsFirst (whole :: tokens.map (Token.moved m)) registry)
      (ofTokens optionsFirst (first :: second :: tokens.map (Token.moved n)) registry) := by
  rw [ofTokens_of_turn hfirst.not_ends (hfirst.turn (hf.alone _))]
  cases hr : readChars .commandLine whole tokens after cs with
  | ok r =>
    have hreads := readChars_eq_ok_iff.mp hr
    have hplaced : ∀ t ∈ r.rest, 0 < t.index := by
      obtain ⟨used, hu, -⟩ := hreads.locally
      intro t ht
      apply hp
      rw [hu]
      exact List.mem_append_right used ht
    rw [ofTokens_of_turn hwhole.not_ends (hwhole.turn (hf.reads (hreads.moved m)))]
    dsimp only [Reading.map]
    rw [ofTokens_of_turn hsecond.not_ends (hsecond.turn (hreads.moved n)), map_behind_behind]
    dsimp only [Reading.map, Reading.moved]
    rw [← List.map_append]
    exact ((agree_moved hplaced m n).behind _).sameKind
  | error f =>
    obtain ⟨x, -, hx⟩ := readChars_eq_error_iff.mp hr
    rw [ofTokens_of_balks (hwhole.balks (hf.refuses (hx.moved m fun _ => whole)))]
    dsimp only [Reading.map]
    rw [ofTokens_of_balks (hsecond.balks (hx.moved n fun _ => second))]
    exact sameKind_onToken hx.blames hwp hsp

end Pairs

theorem opens_append {cs : List Char} {c : Char} (hcs : ∀ d ∈ cs, d ≠ '-') (hc : c ≠ '-')
    (tail : List Char) : ∃ d ds, cs ++ c :: tail = d :: ds ∧ d ≠ '-' := by
  cases cs with
  | nil => exact ⟨c, tail, rfl, hc⟩
  | cons d cs => exact ⟨d, cs ++ c :: tail, rfl, hcs d List.mem_cons_self⟩

/-- Three ways to spell an option that make no difference: a value behind an equals sign or in the
next word, a value at the end of a cluster or in the next word, and a flag in front of a cluster or
in a word of its own. -/
theorem parse_respelled (optionsFirst : Bool) (registry : Registry) (post : List String) :
    (∀ (p v : String) (o : OptionDecl), isLongName p = true → '=' ∉ p.toList →
      (registry.withLong p = [o] ∨
        (registry.withLong p = [] ∧ registry.withLongFrom p = [o])) →
      o.takesValue = true → v ≠ "" → '=' ∉ v.toList →
        Agree Failure.SameKind (parse optionsFirst ((p ++ "=" ++ v) :: post) registry)
          (parse optionsFirst (p :: v :: post) registry)) ∧
    (∀ (cs : List Char) (c : Char) (v : String) (o : OptionDecl),
      (∀ d ∈ cs, d ≠ '-' ∧
        ∀ e, registry.withShort (OptionDecl.shortOf d) = [e] → e.takesValue = false) →
      registry.withShort (OptionDecl.shortOf c) = [o] → o.takesValue = true → v ≠ "" →
        Agree Failure.SameKind
          (parse optionsFirst ((String.ofList ('-' :: (cs ++ [c])) ++ v) :: post) registry)
          (parse optionsFirst (String.ofList ('-' :: (cs ++ [c])) :: v :: post) registry)) ∧
    ∀ (c : Char) (cs : List Char), c ≠ '-' →
      (registry.withShort (OptionDecl.shortOf c) = [] ∨
        ∃ o, registry.withShort (OptionDecl.shortOf c) = [o] ∧ o.takesValue = false) →
      cs ≠ [] → cs.head? ≠ some '-' →
        Agree Failure.SameKind
          (parse optionsFirst (String.ofList ('-' :: c :: cs) :: post) registry)
          (parse optionsFirst (String.ofList ['-', c] :: String.ofList ('-' :: cs) :: post)
            registry) := by
  have hplaced : ∀ t ∈ Token.ofWords post, 0 < t.index :=
    fun _ ht => Token.placed_of_mem_ofWords ht
  refine ⟨?_, ?_, ?_⟩
  · intro p v o hl hp hwith ht hne hv
    have hc : registry.candidates .commandLine p = [o] := by
      rcases hwith with h | ⟨hnone, hfrom⟩
      · simp [candidates, h]
      · simp [candidates, hnone, hfrom]
    have hl' : isLongName (p ++ "=" ++ v) = true := by
      obtain ⟨d, ds, hs⟩ := isLongName_iff.mp hl
      exact isLongName_iff.mpr ⟨d, ds ++ '=' :: v.toList, by simp [hs]⟩
    unfold parse
    rw [Token.ofWords_cons, Token.ofWords_cons_cons]
    refine agree_assigned hplaced ?_ ?_ ?_ ?_ hc ht rfl
    · exact hl'
    · exact hl
    · exact Assignment.read?_assign hp hv hne
    · exact Usage.read?_of_no_equals hp
  · intro cs c v o hcs hc ht hne
    have hdash : c ≠ '-' := Pattern.ne_dash_of_shortNamed (mem_of_withShort hc).2
    have hflags : ∀ d ∈ cs, d ≠ '-' := fun d hd => (hcs d hd).1
    have hleft : Clusters (String.ofList ('-' :: (cs ++ [c])) ++ v) (cs ++ c :: v.toList) :=
      ⟨by simp, opens_append hflags hdash v.toList⟩
    have hright : Clusters (String.ofList ('-' :: (cs ++ [c]))) (cs ++ [c]) :=
      ⟨by simp, opens_append hflags hdash []⟩
    unfold parse
    rw [Token.ofWords_cons, Token.ofWords_cons_cons]
    exact agree_attached hplaced hleft hright Int.one_pos Int.one_pos hcs hc ht hne rfl
  · intro c cs hc hflag hne hhead
    obtain ⟨after, found, hf⟩ := readsFlags_one hc hflag
    obtain ⟨d, ds, rfl⟩ := List.exists_cons_of_ne_nil hne
    have hd : d ≠ '-' := by simpa using hhead
    have hwhole : Clusters (String.ofList ('-' :: c :: d :: ds)) (c :: d :: ds) :=
      ⟨by simp, c, d :: ds, rfl, hc⟩
    have hfirst : Clusters (String.ofList ['-', c]) [c] := ⟨by simp, c, [], rfl, hc⟩
    have hsecond : Clusters (String.ofList ('-' :: d :: ds)) (d :: ds) :=
      ⟨by simp, d, ds, rfl, hd⟩
    have htwo : (0 : Int) < 2 := by decide
    unfold parse
    rw [Token.ofWords_cons, Token.ofWords_cons_cons]
    exact agree_parted hplaced hwhole hfirst hsecond Int.one_pos htwo hf

theorem parse_respelled_values :
    let verbose : OptionDecl := ⟨some "-v", some "--verbose", .flag .int false, by decide⟩
    let out : OptionDecl := ⟨some "-o", some "--out", .valued .int .null, by decide⟩
    let registry : Registry := [verbose, out]
    (registry.withLong "--ou" = [] ∧ registry.withLongFrom "--ou" = [out] ∧
      Agree Failure.SameKind (parse false ["--ou" ++ "=" ++ "--", "-q", "-o"] registry)
        (parse false ["--ou", "--", "-q", "-o"] registry)) ∧
    (registry.withShort (OptionDecl.shortOf 'v') = [verbose] ∧
      registry.withShort (OptionDecl.shortOf 'o') = [out] ∧
      Agree Failure.SameKind
        (parse true [String.ofList ['-', 'v', 'q', 'o'] ++ "-q", "-q", "x"] registry)
        (parse true [String.ofList ['-', 'v', 'q', 'o'], "-q", "-q", "x"] registry)) ∧
    registry.withShort (OptionDecl.shortOf 'q') = [] ∧
    Agree Failure.SameKind (parse false [String.ofList ['-', 'q', 'q', 'o'], "--"] registry)
      (parse false [String.ofList ['-', 'q'], String.ofList ['-', 'q', 'o'], "--"] registry) := by
  intro verbose out registry
  have hlong : registry.withLong "--ou" = [] := rfl
  have hfrom : registry.withLongFrom "--ou" = [out] := rfl
  have hv : registry.withShort (OptionDecl.shortOf 'v') = [verbose] := rfl
  have ho : registry.withShort (OptionDecl.shortOf 'o') = [out] := rfl
  have hq : registry.withShort (OptionDecl.shortOf 'q') = [] := rfl
  refine ⟨⟨hlong, hfrom, ?_⟩, ⟨hv, ho, ?_⟩, hq, ?_⟩
  · exact (parse_respelled false registry ["-q", "-o"]).1 "--ou" "--" out (by decide)
      (by decide) (.inr ⟨hlong, hfrom⟩) rfl (by decide) (by decide)
  · refine (parse_respelled true registry ["-q", "x"]).2.1 ['v', 'q'] 'o' "-q" out ?_ ho rfl
      (by decide)
    intro d hd
    simp only [List.mem_cons, List.not_mem_nil, or_false] at hd
    rcases hd with rfl | rfl
    · refine ⟨by decide, fun e he => ?_⟩
      rw [hv, List.singleton_inj] at he
      rw [← he]
      rfl
    · refine ⟨by decide, fun e he => ?_⟩
      rw [hq] at he
      cases he
  · exact (parse_respelled false registry ["--"]).2.2 'q' ['q', 'o'] (by decide) (.inl hq)
      (by decide) (by decide)

end CommandLine

end Synopsis
