import Synopsis.Proofs.NormalForm
import Synopsis.Proofs.Placement

/-!
How reading extends a registry. Usage patterns and command lines alike leave the entries that they
find and put new ones behind them, each under one name that is new; on a command line that name is
not even the beginning of another long name. A registry whose names are distinct therefore stays so,
and no reading over it meets a name with two meanings other than an abbreviation.
-/
namespace Synopsis

/-- The failure is that a name has several meanings. -/
def Failure.NamesSeveral : Failure → Prop
  | .complaint (.ambiguous ..) | .complaint (.repeatedShort ..) => True
  | _ => False

namespace OptionDecl

/-- The entry has one name, and it is a flag that is off or, under a long name, an option whose value
is empty. -/
structure Discovered (o : OptionDecl) : Prop where
  oneName : o.short.isSome ≠ o.long.isSome
  slot : o.slot = .flag .int false ∨ (o.long.isSome ∧ o.slot = .valued .int (.text ""))

def SharesName (o e : OptionDecl) : Prop :=
  (∃ name, o.short = some name ∧ e.short = some name) ∨
    ∃ name, o.long = some name ∧ e.long = some name

def Abbreviates (o e : OptionDecl) : Prop :=
  ∃ start name, o.long = some start ∧ e.long = some name ∧ Text.startsWith name start = true

end OptionDecl

namespace Registry

/-- The entry is new to the registry, on a command line also as an abbreviation. -/
structure Admits (mode : Mode) (registry : Registry) (o : OptionDecl) : Prop where
  discovered : o.Discovered
  apart : ∀ e ∈ registry, ¬ o.SharesName e
  unabbreviated : mode = .commandLine → ∀ e ∈ registry, ¬ o.Abbreviates e

/-- One new entry after another behind those of the registry. -/
inductive Grows (mode : Mode) (before : Registry) : Registry → Prop where
  | refl : Grows mode before before
  | add {after : Registry} {o : OptionDecl} (h : Grows mode before after)
      (ho : Admits mode after o) : Grows mode before (after ++ [o])

theorem Grows.trans {mode : Mode} {a b c : Registry} (h : Grows mode a b) (h' : Grows mode b c) :
    Grows mode a c := by
  induction h' with
  | refl => exact h
  | add h' ho ih => exact .add ih ho

/-- The entries added to a registry. -/
structure Added (mode : Mode) (before added : Registry) : Prop where
  discovered : ∀ o ∈ added, o.Discovered
  new : ∀ o ∈ added, ∀ e ∈ before, ¬ o.SharesName e
  distinct : added.Pairwise fun e o => ¬ o.SharesName e
  unabbreviated : mode = .commandLine →
    (∀ o ∈ added, ∀ e ∈ before, ¬ o.Abbreviates e) ∧
      added.Pairwise fun e o => ¬ o.Abbreviates e

theorem Grows.exists_added {mode : Mode} {before after : Registry} (h : Grows mode before after) :
    ∃ added, after = before ++ added ∧ Added mode before added := by
  induction h with
  | refl => exact ⟨[], by simp, ⟨by simp, by simp, .nil, fun _ => ⟨by simp, .nil⟩⟩⟩
  | @add after o h ho ih =>
    obtain ⟨added, rfl, ha⟩ := ih
    have hnew : ∀ {P : OptionDecl → OptionDecl → Prop}, (∀ e ∈ before ++ added, P o e) →
        (∀ x ∈ added, ∀ e ∈ before, P x e) → (added.Pairwise fun e o => P o e) →
          (∀ x ∈ added ++ [o], ∀ e ∈ before, P x e) ∧
            (added ++ [o]).Pairwise fun e o => P o e := by
      intro P hall hb hp
      constructor
      · intro x hx e he
        rcases List.mem_append.mp hx with hx | hx
        · exact hb x hx e he
        · rw [List.mem_singleton.mp hx]
          exact hall e (List.mem_append_left added he)
      · apply List.pairwise_append.mpr
        refine ⟨hp, List.pairwise_singleton _ o, ?_⟩
        intro e he x hx
        rw [List.mem_singleton.mp hx]
        exact hall e (List.mem_append_right before he)
    obtain ⟨hb, hp⟩ := hnew ho.apart ha.new ha.distinct
    refine ⟨added ++ [o], List.append_assoc .., ⟨?_, hb, hp, ?_⟩⟩
    · intro x hx
      rcases List.mem_append.mp hx with hx | hx
      · exact ha.discovered x hx
      · rw [List.mem_singleton.mp hx]
        exact ho.discovered
    · intro hm
      obtain ⟨hb, hp⟩ := ha.unabbreviated hm
      exact hnew (ho.unabbreviated hm) hb hp

theorem Grows.extends {mode : Mode} {before after : Registry} (h : Grows mode before after) :
    Extends before after := by
  induction h with
  | refl => exact .refl _
  | @add after o h ho ih =>
    apply ih.trans
    apply Extends.add
    · intro name hn
      apply List.filter_eq_nil_iff.mpr
      intro e he hl
      exact ho.apart e he (.inr ⟨name, hn, by simpa using hl⟩)
    · intro name hn
      apply List.filter_eq_nil_iff.mpr
      intro e he hs
      exact ho.apart e he (.inl ⟨name, hn, by simpa using hs⟩)

theorem Grows.distinct {mode : Mode} {before after : Registry} (h : Grows mode before after)
    (hd : before.Distinct) : after.Distinct := h.extends.distinct hd

/-- A name without candidates belongs to no entry, and on a command line begins no long name. -/
theorem no_candidates {registry : Registry} {mode : Mode} {name : String}
    (h : registry.candidates mode name = []) :
    registry.withLong name = [] ∧ (mode = .commandLine → registry.withLongFrom name = []) := by
  unfold candidates at h
  split at h
  next hm => exact ⟨hm.2, fun _ => h⟩
  next hm => exact ⟨h, fun hc => (hm ⟨hc, h⟩).elim⟩

theorem admits_ofChar (mode : Mode) {registry : Registry} {c : Char} (hc : c ≠ '-')
    (hs : registry.withShort (OptionDecl.shortOf c) = []) :
    Admits mode registry (OptionDecl.ofChar c hc) := by
  refine ⟨⟨by simp [OptionDecl.ofChar], .inl rfl⟩, ?_, ?_⟩
  · rintro e he (⟨name, hn, hsame⟩ | ⟨name, hn, -⟩)
    · apply List.filter_eq_nil_iff.mp hs e he
      rw [hsame, ← hn]
      exact beq_self_eq_true _
    · cases hn
  · rintro - e he ⟨start, name, hn, -⟩
    cases hn

theorem admits_declareLong {mode : Mode} {registry : Registry} {name : String}
    {value : Option String} {o : OptionDecl} (hc : registry.candidates mode name = [])
    (ho : declareLong name value = .ok o) : Admits mode registry o := by
  obtain ⟨hwith, hfrom⟩ := no_candidates hc
  obtain ⟨hl, rfl⟩ := eq_ofLong_of_declareLong ho
  refine ⟨⟨by simp [OptionDecl.ofLong], ?_⟩, ?_, ?_⟩
  · cases value with
    | none => exact .inl rfl
    | some v => exact .inr ⟨rfl, rfl⟩
  · rintro e he (⟨short, hn, -⟩ | ⟨long, hn, hsame⟩)
    · cases hn
    · apply List.filter_eq_nil_iff.mp hwith e he
      rw [hsame, ← hn]
      exact beq_self_eq_true _
  · rintro hm e he ⟨start, long, hn, hlong, hstarts⟩
    apply List.filter_eq_nil_iff.mp (hfrom hm) e he
    rw [hlong, Option.any_some, Option.some.inj hn]
    exact hstarts

theorem ReadsLong.grows {mode : Mode} {token : Token} {rest : List Token} {registry : Registry}
    {r : Reading OptionDecl} (h : ReadsLong mode token rest registry r) :
    Grows mode registry r.registry := by
  cases h with
  | added ha hc ho => exact .add .refl (admits_declareLong hc ho)
  | flag | assigned | followed => exact .refl

theorem ReadsChars.grows {mode : Mode} {rest : List Token} {registry : Registry}
    {cs : List Char} {r : Reading OptionDecl} (h : ReadsChars mode rest registry cs r) :
    Grows mode registry r.registry := by
  induction h with
  | nil | attached | followed => exact .refl
  | fresh hc hs hr ih => exact (Grows.add .refl (admits_ofChar mode hc hs)).trans ih
  | flag hc hs ht hr ih => exact ih

/-- Over distinct names a long option has several meanings only as an abbreviation. -/
theorem RefusesLong.abbreviated {mode : Mode} {token : Token} {rest : List Token}
    {registry : Registry} {x : Complaint} (h : RefusesLong mode token rest registry x)
    (hd : registry.Distinct) (hx : (Failure.complaint x).NamesSeveral) :
    mode = .commandLine ∧
      ∃ name candidates, x = .ambiguous token name candidates ∧ registry.withLong name = [] := by
  cases h with
  | unsplittable | undeclarable | unexpected | missing => exact hx.elim
  | @ambiguous a o o' os ha hc =>
    unfold Registry.candidates at hc
    split at hc
    next hm => exact ⟨hm.1, a.name, _, rfl, hm.2⟩
    next =>
      have ho : o ∈ registry.withLong a.name := by
        rw [hc]
        exact List.mem_cons_self
      obtain ⟨hmem, hl⟩ : o ∈ registry ∧ o.long = some a.name := by
        simpa [withLong] using ho
      rw [hd.withLong hmem hl] at hc
      cases hc

theorem RefusesChars.not_namesSeveral {mode : Mode} {token : Token} {rest : List Token}
    {registry : Registry} {cs : List Char} {x : Complaint}
    (h : RefusesChars mode token rest registry cs x) (hd : registry.Distinct) :
    ¬ (Failure.complaint x).NamesSeveral := by
  induction h with
  | dash | missing => exact id
  | fresh hc hs hx ih =>
    exact ih ((Grows.add .refl (admits_ofChar mode hc hs)).distinct hd)
  | flag hc hs ht hx ih => exact ih hd
  | @repeated registry c cs o o' os hc hs =>
    have ho : o ∈ registry.withShort (OptionDecl.shortOf c) := by
      rw [hs]
      exact List.mem_cons_self
    obtain ⟨hmem, hshort⟩ : o ∈ registry ∧ o.short = some (OptionDecl.shortOf c) := by
      simpa [withShort] using ho
    rw [hd.withShort hmem hshort] at hs
    cases hs

end Registry

namespace Usage

theorem ReadsWord.grows {token : Token} {rest : List Token} {registry : Registry}
    {r : Reading Leaf} (h : ReadsWord token rest registry r) :
    Registry.Grows .usage registry r.registry := by
  cases h with
  | anyOptions | argument | command => exact .refl
  | long hs hr => exact hr.grows
  | cluster hs hc hr => exact hr.grows

theorem grows_of_reads {part : Part} {tokens : List Token} {registry : Registry}
    {r : Reading Pattern} (h : Reads part tokens registry r) :
    Registry.Grows .usage registry r.registry := by
  induction h with
  | word hk hr => exact (readWord_eq_ok_iff.mp hr).grows
  | group hk hc he hn ih => exact ih
  | stop | last => exact .refl
  | more ha hs iha ihs =>
    rw [registry_repeated] at ihs
    exact iha.trans ihs
  | branch hp hs hb ihs ihb => exact ihs.trans ihb
  | single hs hp ihs => exact ihs
  | several hs hp hb ihs ihb => exact ihs.trans ihb

/-- No part of the grammar meets a name of several meanings over distinct names. -/
theorem not_namesSeveral_of_fails {part : Part} {tokens : List Token} {registry : Registry}
    {f : Failure} (h : Fails part tokens registry f) (hd : registry.Distinct) :
    ¬ f.NamesSeveral := by
  induction h with
  | empty | unknown | misplaced | unclosed => exact id
  | word hk hr =>
    cases readWord_eq_error_iff.mp hr with
    | empty => exact id
    | long hs hx =>
      intro hseveral
      cases (hx.abbreviated hd hseveral).1
    | cluster hs hc hx => exact hx.not_namesSeveral hd
  | inside hk hc he ih => exact ih hd
  | first hb ha ih => exact ih hd
  | more ha hs ih =>
    apply ih
    rw [registry_repeated]
    exact (grows_of_reads ha).distinct hd
  | branch hp hs ih => exact ih hd
  | later hp hs hb ih => exact ih ((grows_of_reads hs).distinct hd)
  | single hs ih => exact ih hd
  | several hs hp hb ih => exact ih ((grows_of_reads hs).distinct hd)

theorem grows_of_parse {usage : String} {registry : Registry} {p : Parsed}
    (h : parse usage registry = .ok p) : Registry.Grows .usage registry p.registry := by
  obtain ⟨found, hr, -⟩ := reads_of_ofTokens h
  exact grows_of_reads hr

theorem not_namesSeveral_of_parse {usage : String} {registry : Registry} {f : Failure}
    (h : parse usage registry = .error f) (hd : registry.Distinct) : ¬ f.NamesSeveral := by
  rcases fails_of_ofTokens h with hf | ⟨first, rest, registry', found, -, rfl⟩
  · exact not_namesSeveral_of_fails hf hd
  · exact id

end Usage

namespace CommandLine

theorem Turn.grows {token : Token} {rest : List Token} {registry : Registry} {r : Reading Leaf}
    (h : Turn token rest registry r) : Registry.Grows .commandLine registry r.registry := by
  cases h with
  | long hs hr => exact hr.grows
  | cluster hs hc hr => exact hr.grows
  | positional => exact .refl

theorem Run.grows {optionsFirst : Bool} {tokens : List Token} {registry : Registry} {p : Parsed}
    (h : Run optionsFirst tokens registry p) :
    Registry.Grows .commandLine registry p.registry := by
  induction h with
  | done | ended => exact .refl
  | turned hn ht hr ih => exact ht.grows.trans ih

/-- Over distinct names a command line breaks off for a name of several meanings only at a word whose
name is that of no entry so far. -/
theorem Stuck.abbreviated {optionsFirst : Bool} {tokens : List Token} {registry : Registry}
    {x : Complaint} (h : Stuck optionsFirst tokens registry x) (hd : registry.Distinct)
    (hx : (Failure.complaint x).NamesSeveral) :
    ∃ front token rest p name candidates, tokens = front ++ token :: rest ∧
      Run optionsFirst front registry p ∧ x = .ambiguous token name candidates ∧
        p.registry.withLong name = [] := by
  obtain ⟨front, token, rest, p, rfl, hrun, hb⟩ := h.exists_run
  have hd' := hrun.grows.distinct hd
  cases hb with
  | long hs hr =>
    obtain ⟨-, name, candidates, hamb, hl⟩ := hr.abbreviated hd' hx
    exact ⟨front, token, rest, p, name, candidates, rfl, hrun, hamb, hl⟩
  | cluster hs hc hr => exact (hr.not_namesSeveral hd' hx).elim

end CommandLine

/-- Reading puts new entries behind those of a registry, under names of their own. Where the names of
the registry are distinct they stay so, no short name is met twice, and only an abbreviation on a
command line can have several meanings. -/
theorem registry_of_parse (registry : Registry) (usage : String) (argv : List String)
    (optionsFirst : Bool) :
    (∀ p, Usage.parse usage registry = .ok p →
      ∃ added, p.registry = registry ++ added ∧ Registry.Added .usage registry added) ∧
    (∀ p, CommandLine.parse optionsFirst argv registry = .ok p →
      ∃ added, p.registry = registry ++ added ∧ Registry.Added .commandLine registry added) ∧
    (registry.Distinct →
      (∀ p, Usage.parse usage registry = .ok p → p.registry.Distinct) ∧
      (∀ p, CommandLine.parse optionsFirst argv registry = .ok p → p.registry.Distinct) ∧
      (∀ token name candidates, Usage.parse usage registry ≠
        .error (.complaint (.ambiguous token name candidates))) ∧
      (∀ token short count,
        Usage.parse usage registry ≠ .error (.complaint (.repeatedShort token short count)) ∧
        CommandLine.parse optionsFirst argv registry ≠
          .error (.complaint (.repeatedShort token short count))) ∧
      ∀ token name candidates, CommandLine.parse optionsFirst argv registry =
          .error (.complaint (.ambiguous token name candidates)) →
        ∃ front back p, argv = front ++ token.text :: back ∧
          CommandLine.parse optionsFirst front registry = .ok p ∧
            ∀ o ∈ p.registry, o.long ≠ some name) := by
  have hrun : ∀ {p}, CommandLine.parse optionsFirst argv registry = .ok p →
      Registry.Grows .commandLine registry p.registry := by
    intro p h
    exact (CommandLine.ofTokens_eq_ok_iff.mp h).grows
  refine ⟨fun p h => (Usage.grows_of_parse h).exists_added,
    fun p h => (hrun h).exists_added, fun hd => ?_⟩
  have hstuck : ∀ {x}, CommandLine.parse optionsFirst argv registry = .error (.complaint x) →
      (Failure.complaint x).NamesSeveral → ∃ token name candidates front back p,
        x = .ambiguous token name candidates ∧ argv = front ++ token.text :: back ∧
          CommandLine.parse optionsFirst front registry = .ok p ∧
            p.registry.withLong name = [] := by
    intro x h hx
    obtain ⟨x', he, hs⟩ := CommandLine.ofTokens_eq_error_iff.mp h
    cases he
    obtain ⟨front, token, rest, p, name, candidates, htokens, hr, rfl, hl⟩ :=
      hs.abbreviated hd hx
    obtain ⟨before, after, hargv, rfl⟩ := Token.ofWords_eq_append_cons htokens
    exact ⟨token, name, candidates, before, after, p, rfl, hargv,
      CommandLine.ofTokens_of_run hr, hl⟩
  refine ⟨fun p h => (Usage.grows_of_parse h).distinct hd, fun p h => (hrun h).distinct hd,
    ?_, ?_, ?_⟩
  · intro token name candidates h
    exact Usage.not_namesSeveral_of_parse h hd trivial
  · intro token short count
    constructor
    · intro h
      exact Usage.not_namesSeveral_of_parse h hd trivial
    · intro h
      obtain ⟨_, _, _, _, _, _, hx, -⟩ := hstuck h trivial
      cases hx
  · intro token name candidates h
    obtain ⟨_, _, _, front, back, p, hx, hargv, hp, hl⟩ := hstuck h trivial
    cases hx
    refine ⟨front, back, p, hargv, hp, ?_⟩
    intro o ho hlong
    exact List.filter_eq_nil_iff.mp hl o ho (by simp [hlong])

theorem registry_of_parse_distinct :
    let verbose : OptionDecl := ⟨some "-v", some "--verbose", .flag .int false, by decide⟩
    let version : OptionDecl := ⟨none, some "--version", .valued .int .null, by decide⟩
    let registry : Registry := [verbose, version]
    registry.Distinct ∧
      (∃ p added, Usage.parse "[ -vq ] ( --new=<y> | -q )" registry = .ok p ∧
        p.registry = registry ++ added ∧ added.length = 2 ∧
          Registry.Added .usage registry added ∧ p.registry.Distinct) ∧
      (∃ p added, CommandLine.parse false ["--verb", "-xq", "--deep=1", "--vers", "-x"] registry =
          .ok p ∧ p.registry = registry ++ added ∧ added.length = 3 ∧
        Registry.Added .commandLine registry added ∧ p.registry.Distinct) ∧
      CommandLine.parse false ["-q", "--ver"] registry = .error (.complaint
          (.ambiguous ⟨.word, "--ver", 2⟩ "--ver" ["--verbose", "--version"])) ∧
      ∃ front back p, ["-q", "--ver"] = front ++ "--ver" :: back ∧
          CommandLine.parse false front registry = .ok p ∧
            ∀ o ∈ p.registry, o.long ≠ some "--ver" := by
  intro verbose version registry
  have hd : registry.Distinct :=
    ⟨by simp [registry, verbose, version], by simp [registry, verbose, version]⟩
  have hflag : CommandLine.Turn ⟨.word, "-q", 1⟩ [⟨.word, "--ver", 2⟩] registry
      (Reading.map Leaf.option ⟨[⟨.word, "--ver", 2⟩],
        registry ++ [OptionDecl.ofChar 'q' (by decide)],
        [Mode.commandLine.flag (OptionDecl.ofChar 'q' (by decide))]⟩) :=
    .cluster rfl (by decide) (.fresh (by decide) rfl .nil)
  have hambiguous : CommandLine.Balks ⟨.word, "--ver", 2⟩ []
      (registry ++ [OptionDecl.ofChar 'q' (by decide)])
      (.ambiguous ⟨.word, "--ver", 2⟩ "--ver" ["--verbose", "--version"]) :=
    .long rfl
      (@Registry.RefusesLong.ambiguous _ _ _ _ ⟨"--ver", none⟩ verbose version [] rfl rfl)
  have hf : CommandLine.parse false ["-q", "--ver"] registry = .error (.complaint
      (.ambiguous ⟨.word, "--ver", 2⟩ "--ver" ["--verbose", "--version"])) :=
    CommandLine.ofTokens_of_stuck
      (.turned (by simp [CommandLine.Ends]) hflag (.here (by simp [CommandLine.Ends]) hambiguous))
  obtain ⟨p, hp, hlen⟩ := Usage.exists_ok_of_any (show
    (Usage.parse "[ -vq ] ( --new=<y> | -q )" registry).toOption.any
      (·.registry.length == 4) = true by decide +kernel)
  obtain ⟨q, hq, hqlen⟩ := Usage.exists_ok_of_any (show
    (CommandLine.parse false ["--verb", "-xq", "--deep=1", "--vers", "-x"] registry).toOption.any
      (·.registry.length == 5) = true by decide +kernel)
  obtain ⟨hu, hc, hrest⟩ := registry_of_parse registry "[ -vq ] ( --new=<y> | -q )"
    ["--verb", "-xq", "--deep=1", "--vers", "-x"] false
  obtain ⟨added, hadded, hnew⟩ := hu p hp
  obtain ⟨more, hmore, hnew'⟩ := hc q hq
  rw [beq_iff_eq, hadded, List.length_append] at hlen
  rw [beq_iff_eq, hmore, List.length_append] at hqlen
  have hlast := ((registry_of_parse registry "" ["-q", "--ver"] false).2.2 hd).2.2.2.2
  exact ⟨hd, ⟨p, added, hp, hadded, Nat.add_left_cancel hlen, hnew, (hrest hd).1 p hp⟩,
    ⟨q, more, hq, hmore, Nat.add_left_cancel hqlen, hnew', (hrest hd).2.1 q hq⟩, hf,
    hlast _ "--ver" _ hf⟩

end Synopsis
