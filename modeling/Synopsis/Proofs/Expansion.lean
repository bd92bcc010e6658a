import Synopsis.Proofs.Recall
import Synopsis.Proofs.Spelling
import Synopsis.Proofs.Stretches

/-!
Command lines in full. The leaves of a command line can be written out again: a positional as it is, an
option under its name, its value in a word of its own. Over the registry that the first reading leaves,
the command line in full is read as the same leaves, and it adds nothing.
-/
namespace Synopsis

/-- The words that write a leaf of a command line out. The positionals and values that a command line
holds are texts. -/
def Leaf.inFull : Leaf → List String
  | .argument _ (.text word) => [word]
  | .option o =>
    match o.slot with
    | .valued _ (.text v) => [o.name, v]
    | _ => [o.name]
  | _ => []

theorem inFull_positional (t : Token) : (CommandLine.positional t).inFull = [t.text] := rfl

theorem inFull_switchedOn {o : OptionDecl} (h : o.takesValue = false) :
    (Leaf.option o.switchedOn).inFull = [o.name] := by
  obtain ⟨short, long, slot, named⟩ := o
  cases slot with
  | flag count on => rfl
  | valued count v => cases h

theorem inFull_holding {o : OptionDecl} (h : o.takesValue = true) (v : String) :
    (Leaf.option (o.holding v)).inFull = [o.name, v] := by
  obtain ⟨short, long, slot, named⟩ := o
  cases slot with
  | flag count on => cases h
  | valued count w => rfl

namespace Registry

variable {token : Token} {rest : List Token} {registry before after : Registry}

/-- A long name means one entry, and is no name with a value. -/
def Plain (registry : Registry) : Prop :=
  ∀ o ∈ registry, ∀ name, o.long = some name →
    '=' ∉ name.toList ∧ registry.withLong name = [o]

/-- The name of the entry means it alone. -/
inductive Names (registry : Registry) (o : OptionDecl) : Prop where
  | long {name : String} (hl : o.long = some name) (he : '=' ∉ name.toList)
      (hw : registry.withLong name = [o]) : Names registry o
  | short {c : Char} (hl : o.long = none) (hs : Pattern.ShortNamed o c)
      (hw : registry.withShort (OptionDecl.shortOf c) = [o]) : Names registry o

theorem Names.grow {o : OptionDecl} (h : before.Names o) (hg : Grows .commandLine before after) :
    after.Names o := by
  cases h with
  | long hl he hw => exact .long hl he (hg.withLong hw)
  | short hl hs hw => exact .short hl hs (hg.withShort hw)

/-- An entry that is found by one of its names is meant by its full name. -/
theorem Plain.names_of_long (h : registry.Plain) {o : OptionDecl} {name : String}
    (hc : registry.candidates .commandLine name = [o]) : registry.Names o := by
  obtain ⟨ho, long, hl, -⟩ := CommandLine.mem_of_commandLine_candidates hc
  obtain ⟨he, hw⟩ := h o ho long hl
  exact .long hl he hw

theorem Plain.names_of_short (h : registry.Plain) {o : OptionDecl} {c : Char}
    (hs : registry.withShort (OptionDecl.shortOf c) = [o]) : registry.Names o := by
  obtain ⟨ho, hshort⟩ := mem_of_withShort hs
  cases hl : o.long with
  | none => exact .short hl hshort hs
  | some long =>
    obtain ⟨he, hw⟩ := h o ho long hl
    exact .long hl he hw

theorem Plain.add (h : registry.Plain) {o : OptionDecl} (ho : Admits .commandLine registry o)
    (he : ∀ name, o.long = some name → '=' ∉ name.toList) : Plain (registry ++ [o]) := by
  intro e hmem name hl
  rcases List.mem_append.mp hmem with hold | hnew
  · obtain ⟨hplain, hw⟩ := h e hold name hl
    exact ⟨hplain, (Grows.add .refl ho).withLong hw⟩
  · rw [List.mem_singleton.mp hnew] at hl ⊢
    exact ⟨he name hl, ho.withLong hl⟩

/-- The leaf is an entry that its name means, as it is met without or with a value. -/
inductive Met (registry : Registry) : OptionDecl → Prop where
  | flag {o : OptionDecl} (hn : registry.Names o) (ht : o.takesValue = false) :
      Met registry o.switchedOn
  | valued {o : OptionDecl} (hn : registry.Names o) (ht : o.takesValue = true) (v : String) :
      Met registry (o.holding v)

theorem Met.grow {leaf : OptionDecl} (h : before.Met leaf)
    (hg : Grows .commandLine before after) : after.Met leaf := by
  cases h with
  | flag hn ht => exact .flag (hn.grow hg) ht
  | valued hn ht v => exact .valued (hn.grow hg) ht v

theorem ReadsLong.met {r : Reading OptionDecl} (h : ReadsLong .commandLine token rest registry r)
    (hp : registry.Plain) : r.registry.Plain ∧ ∀ leaf ∈ r.found, r.registry.Met leaf := by
  cases h with
  | @added a o ha hc ho =>
    have hnew := admits_declareLong hc ho
    obtain ⟨hl, -, ht⟩ := fields_of_declareLong ho
    have he := Assignment.plain_of_read? ha
    have hnames : Names (registry ++ [o]) o := .long hl he (hnew.withLong hl)
    refine ⟨hp.add hnew ?_, ?_⟩
    · intro name hn
      rw [hl, Option.some.injEq] at hn
      exact hn ▸ he
    · rw [List.forall_mem_singleton]
      cases hv : a.value with
      | none => exact .flag hnames (by rw [ht, hv]; rfl)
      | some v => exact .valued hnames (by rw [ht, hv]; rfl) v
  | flag ha hc ht hv => exact ⟨hp, by simpa using .flag (hp.names_of_long hc) ht⟩
  | assigned ha hc ht hv => exact ⟨hp, by simpa using .valued (hp.names_of_long hc) ht _⟩
  | followed ha hc ht hv hr hw => exact ⟨hp, by simpa using .valued (hp.names_of_long hc) ht _⟩

theorem ReadsChars.met {cs : List Char} {r : Reading OptionDecl}
    (h : ReadsChars .commandLine rest registry cs r) (hp : registry.Plain) :
    r.registry.Plain ∧ ∀ leaf ∈ r.found, r.registry.Met leaf := by
  induction h with
  | nil => exact ⟨hp, by simp⟩
  | @fresh registry c cs r hc hs hr ih =>
    have hnew := admits_ofChar .commandLine hc hs
    obtain ⟨hplain, hmet⟩ := ih (hp.add hnew (by simp [OptionDecl.ofChar]))
    have hnames : r.registry.Names (OptionDecl.ofChar c hc) :=
      .short rfl rfl (hr.grows.withShort (hnew.withShort rfl))
    exact ⟨hplain, List.forall_mem_cons.mpr ⟨.flag hnames rfl, hmet⟩⟩
  | flag hc hs ht hr ih =>
    obtain ⟨hplain, hmet⟩ := ih hp
    have hnames := (hp.names_of_short hs).grow hr.grows
    exact ⟨hplain, List.forall_mem_cons.mpr ⟨.flag hnames ht, hmet⟩⟩
  | attached hc hs ht hne => exact ⟨hp, by simpa using .valued (hp.names_of_short hs) ht _⟩
  | followed hc hs ht hr hw => exact ⟨hp, by simpa using .valued (hp.names_of_short hs) ht _⟩

/-- The word is one of the names of the entry, and as such means it alone. -/
inductive Calls (registry : Registry) (o : OptionDecl) (word : String) : Prop where
  | long (hl : o.long = some word) (he : '=' ∉ word.toList) (hw : registry.withLong word = [o]) :
      Calls registry o word
  | short {c : Char} (hc : word = OptionDecl.shortOf c) (hs : Pattern.ShortNamed o c)
      (hw : registry.withShort (OptionDecl.shortOf c) = [o]) : Calls registry o word

theorem Names.calls {o : OptionDecl} (h : registry.Names o) : registry.Calls o o.name := by
  cases h with
  | @long name hl he hw =>
    have hname : o.name = name := by simp [OptionDecl.name, hl]
    rw [hname]
    exact .long hl he hw
  | @short c hl hs hw =>
    exact .short (by simp [OptionDecl.name, hl, show o.short = _ from hs]) hs hw

theorem Calls.turn {o : OptionDecl} (token : Token) (h : registry.Calls o token.text)
    (rest : List Token) (optionsFirst : Bool) :
    ¬ CommandLine.Ends optionsFirst token.text ∧
      (o.takesValue = false → CommandLine.Turn token rest registry
        ⟨rest, registry, [.option o.switchedOn]⟩) ∧
      ∀ next : Token, o.takesValue = true → next.kind = .word →
        CommandLine.Turn token (next :: rest) registry
          ⟨rest, registry, [.option (o.holding next.text)]⟩ := by
  cases h with
  | long hl he hw =>
    have hlong : isLongName token.text = true := OptionDecl.isLongName_of_long hl
    have ha : Assignment.read? token.text = some ⟨token.text, none⟩ :=
      Usage.read?_of_no_equals he
    have hc : registry.candidates .commandLine token.text = [o] := by simp [candidates, hw]
    exact ⟨CommandLine.not_ends_of_long hlong, fun hv => .long hlong (.flag ha hc hv rfl),
      fun next hv hk => .long hlong (.followed ha hc hv rfl rfl hk)⟩
  | @short c hc hs hw =>
    have hd := Pattern.ne_dash_of_shortNamed hs
    have hcluster : CommandLine.Clusters token.text [c] :=
      ⟨by simp [hc, OptionDecl.shortOf], c, [], rfl, hd⟩
    exact ⟨hcluster.not_ends, fun hv => hcluster.turn (.flag hd hw hv .nil),
      fun next hv hk => hcluster.turn (.followed hd hw hv rfl hk)⟩

end Registry

namespace CommandLine

open Registry

variable {optionsFirst : Bool} {tokens : List Token} {registry : Registry} {p : Parsed}

theorem run_flag {o : OptionDecl} {word : String} {words : List String}
    (h : registry.Calls o word) (ht : o.takesValue = false)
    (hr : Run optionsFirst (Token.ofWords words) registry p) :
    Run optionsFirst (Token.ofWords (word :: words)) registry
      (p.behind [.option o.switchedOn]) := by
  rw [Token.ofWords_cons]
  obtain ⟨hends, hturn, -⟩ := Calls.turn ⟨.word, word, 1⟩ h
    ((Token.ofWords words).map (Token.moved 1)) optionsFirst
  exact .turned hends (hturn ht) (hr.moved 1)

theorem run_valued {o : OptionDecl} {word : String} {words : List String}
    (h : registry.Calls o word) (ht : o.takesValue = true) (v : String)
    (hr : Run optionsFirst (Token.ofWords words) registry p) :
    Run optionsFirst (Token.ofWords (word :: v :: words)) registry
      (p.behind [.option (o.holding v)]) := by
  rw [Token.ofWords_cons_cons]
  obtain ⟨hends, -, hturn⟩ := Calls.turn ⟨.word, word, 1⟩ h
    ((Token.ofWords words).map (Token.moved 2)) optionsFirst
  exact .turned hends (hturn ⟨.word, v, 2⟩ ht rfl) (hr.moved 2)

/-- In front of a line that is read, the words of an option are read as that option. -/
theorem run_met {words : List String} {leaf : OptionDecl} (h : registry.Met leaf)
    (hr : Run optionsFirst (Token.ofWords words) registry p) :
    Run optionsFirst (Token.ofWords ((Leaf.option leaf).inFull ++ words)) registry
      (p.behind [.option leaf]) := by
  cases h with
  | flag hn ht =>
    rw [inFull_switchedOn ht]
    exact run_flag hn.calls ht hr
  | valued hn ht v =>
    rw [inFull_holding ht]
    exact run_valued hn.calls ht v hr

theorem run_met_each {words : List String} {found : List OptionDecl}
    (h : ∀ leaf ∈ found, registry.Met leaf)
    (hr : Run optionsFirst (Token.ofWords words) registry p) :
    Run optionsFirst (Token.ofWords ((found.map Leaf.option).flatMap Leaf.inFull ++ words)) registry
      (p.behind (found.map .option)) := by
  induction found with
  | nil => exact hr
  | cons leaf found ih =>
    rw [List.map_cons, List.flatMap_cons, List.append_assoc]
    exact run_met (h leaf (by simp)) (ih fun l hl => h l (by simp [hl]))

/-- A line in full is read over the registry that the line leaves as the same leaves. -/
theorem Run.inFull (h : Run optionsFirst tokens registry p) (hp : registry.Plain) :
    Run optionsFirst (Token.ofWords (p.leaves.flatMap Leaf.inFull)) p.registry p := by
  induction h with
  | done => exact .done
  | @ended token rest registry he =>
    have hwords : ((token :: rest).map positional).flatMap Leaf.inFull =
        token.text :: rest.map (·.text) := by
      rw [List.flatMap_map]
      exact List.map_eq_flatMap.symm
    have hleaves : (token :: rest).map positional =
        (Token.ofWords (token.text :: rest.map (·.text))).map positional := by
      rw [map_positional, map_positional, Token.map_text_ofWords]
      rfl
    dsimp only
    rw [hwords, hleaves, Token.ofWords_cons]
    exact .ended he
  | @turned token rest registry r p hn ht hr ih =>
    dsimp only [Parsed.behind]
    rw [List.flatMap_append]
    cases ht with
    | long hs hl =>
      obtain ⟨hplain, hmet⟩ := hl.met hp
      exact run_met_each (fun leaf hm => (hmet leaf hm).grow hr.grows) (ih hplain)
    | cluster hs hc hcs =>
      obtain ⟨hplain, hmet⟩ := hcs.met hp
      exact run_met_each (fun leaf hm => (hmet leaf hm).grow hr.grows) (ih hplain)
    | positional hs =>
      rw [List.flatMap_singleton, inFull_positional, List.singleton_append, Token.ofWords_cons]
      exact Run.turned (r := ⟨_, p.registry, [positional token]⟩) hn (.positional hs)
        ((ih hp).moved 1)

/-- A command line in full, over the registry that the first reading leaves, is read as the same leaves
and adds nothing. -/
theorem parse_inFull {optionsFirst : Bool} {argv : List String} {registry : Registry} {p : Parsed}
    (hd : (registry.filterMap (·.long)).Nodup)
    (he : ∀ name ∈ registry.filterMap (·.long), '=' ∉ name.toList)
    (h : parse optionsFirst argv registry = .ok p) :
    parse optionsFirst (p.leaves.flatMap Leaf.inFull) p.registry = .ok p := by
  have hplain : registry.Plain := by
    intro o ho name hl
    exact ⟨he name (List.mem_filterMap.mpr ⟨o, ho, hl⟩), filter_eq_singleton hd ho hl⟩
  exact ofTokens_of_run ((ofTokens_eq_ok_iff.mp h).inFull hplain)

theorem parse_inFull_abbreviated :
    let verbose : OptionDecl := ⟨some "-v", some "--verbose", .flag .int false, by decide⟩
    let out : OptionDecl := ⟨some "-o", some "--out", .valued .int .null, by decide⟩
    let registry : Registry := [verbose, out]
    let argv := ["-", "--verb", "-qvo--", "--new=", "--deep=1", "--o", "", "-q", "--", "-vo", "--out"]
    (registry.filterMap (·.long)).Nodup ∧
      (∀ name ∈ registry.filterMap (·.long), '=' ∉ name.toList) ∧
      ∃ p, parse false argv registry = .ok p ∧ p.registry.length = 5 ∧
        p.leaves.flatMap Leaf.inFull = ["-", "--verbose", "-q", "--verbose", "--out", "--", "--new",
          "--deep", "1", "--out", "", "-q", "--", "-vo", "--out"] ∧
        parse false (p.leaves.flatMap Leaf.inFull) p.registry = .ok p := by
  intro verbose out registry argv
  have hd : (registry.filterMap (·.long)).Nodup := by decide
  have he : ∀ name ∈ registry.filterMap (·.long), '=' ∉ name.toList := by decide
  obtain ⟨p, hp, hlen⟩ := Usage.exists_ok_of_any (show
    (parse false argv registry).toOption.any (fun p => p.registry.length == 5 &&
      p.leaves.flatMap Leaf.inFull == ["-", "--verbose", "-q", "--verbose", "--out", "--", "--new",
        "--deep", "1", "--out", "", "-q", "--", "-vo", "--out"]) = true by decide +kernel)
  rw [Bool.and_eq_true, beq_iff_eq, beq_iff_eq] at hlen
  exact ⟨hd, he, p, hp, hlen.1, hlen.2, parse_inFull hd he hp⟩

end CommandLine

end Synopsis
