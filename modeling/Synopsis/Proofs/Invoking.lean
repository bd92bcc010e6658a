import Synopsis.Description
import Synopsis.Proofs.Expansion

/-!
The options that a help text describes, and the names by which a command line calls them. A long name
calls its option; a short name does so exactly where one character stands behind the dash, since a
longer one is read as a cluster and a dash alone as a positional.
-/
namespace Synopsis

namespace Description

def Names.Unassigned (names : Names) : Prop := ∀ name, names.long = some name → '=' ∉ name.toList

theorem Names.Unassigned.add {names : Names} (h : names.Unassigned) {word : List Char}
    (hw : '=' ∉ word) : (names.add word).Unassigned := by
  unfold Names.add
  split
  · intro name hl
    simp only [Option.some.injEq] at hl
    rwa [← hl, String.toList_ofList]
  · exact h
  · exact h

theorem Names.unassigned_of (column : List Char) : (Names.of column).Unassigned := by
  have hwords : ∀ word ∈ Text.fieldsOf separatesNames column, '=' ∉ word := by
    intro word hw he
    exact absurd ((Text.mem_fieldsOf hw).2 '=' he) (by decide)
  unfold Names.of
  generalize Text.fieldsOf separatesNames column = words at hwords
  have hfold : ∀ names : Names, names.Unassigned → (words.foldl Names.add names).Unassigned := by
    induction words with
    | nil => exact fun names h => h
    | cons word words ih =>
      intro names h
      rw [List.forall_mem_cons] at hwords
      exact ih hwords.2 _ (h.add hwords.1)
  exact hfold _ (by simp [Names.Unassigned])

end Description

theorem OptionDecl.long_of_ofNames {short long : Option String} {slot : Slot} {o : OptionDecl}
    (h : OptionDecl.ofNames short long slot = .ok o) : o.long = long := by
  unfold OptionDecl.ofNames at h
  split at h
  · cases h; rfl
  · split at h
    · cases h
    · split at h <;> cases h
    · cases h

namespace Description

theorem unassigned_of_read {line : String} {o : OptionDecl} (h : read line = .ok o) :
    ∀ name, o.long = some name → '=' ∉ name.toList := by
  unfold read at h
  split at h
  · cases h
  next c cs _ =>
    dsimp only at h
    split at h
    · cases h
    · split at h
      next o' ho =>
        cases h
        rw [OptionDecl.long_of_ofNames ho]
        exact Names.unassigned_of _
      · cases h

theorem exists_read_of_mem {doc : String} {o : OptionDecl} (h : o ∈ registryOf doc) :
    ∃ line, read line = .ok o := by
  obtain ⟨cs, -, h⟩ := List.mem_filterMap.mp h
  obtain ⟨line, -, h⟩ := Option.bind_eq_some_iff.mp h
  refine ⟨line, ?_⟩
  unfold read? at h
  cases hr : read line with
  | error f => simp [hr, Except.toOption] at h
  | ok o' =>
    simp [hr, Except.toOption] at h
    rw [h]

end Description

namespace Registry

/-- What is read first in a cluster has the short name of the first character. -/
theorem ReadsChars.exists_head {rest : List Token} {registry : Registry} {c : Char}
    {cs : List Char} {r : Reading OptionDecl}
    (h : ReadsChars .commandLine rest registry (c :: cs) r) :
    ∃ leaf more, r.found = leaf :: more ∧ leaf.short = some (OptionDecl.shortOf c) := by
  cases h with
  | fresh hc hs hr => exact ⟨_, _, rfl, rfl⟩
  | flag hc hs ht hr => exact ⟨_, _, rfl, (mem_of_withShort hs).2⟩
  | attached hc hs ht hne => exact ⟨_, _, rfl, (mem_of_withShort hs).2⟩
  | followed hc hs ht hr hw => exact ⟨_, _, rfl, (mem_of_withShort hs).2⟩

end Registry

namespace CommandLine

variable {optionsFirst : Bool} {registry : Registry} {o : OptionDecl} {word : String}

/-- The word switches the flag on, or gives the option the word behind it, and adds nothing to the
registry. -/
structure Invokes (optionsFirst : Bool) (registry : Registry) (o : OptionDecl) (word : String) :
    Prop where
  flag : o.takesValue = false →
    parse optionsFirst [word] registry = .ok ⟨[.option o.switchedOn], registry⟩
  valued : o.takesValue = true → ∀ v,
    parse optionsFirst [word, v] registry = .ok ⟨[.option (o.holding v)], registry⟩

theorem invokes_of_calls (h : registry.Calls o word) : Invokes optionsFirst registry o word := by
  have hdone : Run optionsFirst (Token.ofWords []) registry ⟨[], registry⟩ := .done
  constructor
  · exact fun ht => ofTokens_of_run (run_flag h ht hdone)
  · exact fun ht v => ofTokens_of_run (run_valued h ht v hdone)

theorem Run.short_of_head {token : Token} {rest : List Token} {p : Parsed} {leaf : OptionDecl}
    {more : List Leaf} (h : Run optionsFirst (token :: rest) registry p)
    (hs : isShortName token.text = true) (hp : p.leaves = .option leaf :: more) :
    ∃ c, leaf.short = some (OptionDecl.shortOf c) := by
  cases h with
  | ended he => cases hp
  | turned hn ht hr =>
    cases ht with
    | long hl _ =>
      obtain ⟨c, cs, htext⟩ := isLongName_iff.mp hl
      simp [isShortName, htext] at hs
    | positional _ => cases hp
    | @cluster c cs r htext hc hcs =>
      obtain ⟨first, found, hfound, hshort⟩ := hcs.exists_head
      refine ⟨c, ?_⟩
      simp only [Parsed.behind, Reading.map, hfound, List.map_cons, List.cons_append,
        List.cons.injEq, Leaf.option.injEq] at hp
      rw [← hp.1, hshort]

/-- An option that one of its short names invokes has one character behind the dash. -/
theorem Invokes.exists_char (h : Invokes optionsFirst registry o word) (hs : o.short = some word) :
    ∃ c, word = OptionDecl.shortOf c := by
  have hshort : isShortName word = true := by
    have hn := o.named
    simp only [Named, hs, Option.all_some, Bool.and_eq_true] at hn
    exact hn.1.2
  have hhead : ∃ rest leaf, leaf.short = o.short ∧
      parse optionsFirst (word :: rest) registry = .ok ⟨[.option leaf], registry⟩ := by
    cases ht : o.takesValue with
    | false => exact ⟨[], o.switchedOn, rfl, h.flag ht⟩
    | true => exact ⟨[""], o.holding "", rfl, h.valued ht ""⟩
  obtain ⟨rest, leaf, hleaf, hparse⟩ := hhead
  rw [parse, Token.ofWords_cons] at hparse
  obtain ⟨c, hc⟩ := (ofTokens_eq_ok_iff.mp hparse).short_of_head hshort rfl
  rw [hleaf, hs] at hc
  exact ⟨c, Option.some.inj hc⟩

/-- An option that a help text describes is invoked by its long name, and by its short name exactly
where that is a dash and one character. -/
theorem invokes_of_described {doc : String} (hd : (Description.registryOf doc).Distinct)
    (optionsFirst : Bool) : ∀ o ∈ Description.registryOf doc,
      (∀ name, o.long = some name →
        Invokes optionsFirst (Description.registryOf doc) o name) ∧
      ∀ name, o.short = some name →
        (Invokes optionsFirst (Description.registryOf doc) o name ↔
          ∃ c, name = OptionDecl.shortOf c) := by
  intro o ho
  constructor
  · intro name hl
    obtain ⟨line, hline⟩ := Description.exists_read_of_mem ho
    have he := Description.unassigned_of_read hline name hl
    exact invokes_of_calls (.long hl he (hd.withLong ho hl))
  · intro name hs
    constructor
    · exact fun h => h.exists_char hs
    · rintro ⟨c, rfl⟩
      exact invokes_of_calls (.short rfl hs (hd.withShort ho hs))

theorem invokes_of_described_valued :
    let doc := "usage: nf\n\n-o FILE, --output=FILE  where to [default: -]\n --out\n-v  more"
    (Description.registryOf doc).Distinct ∧
      ∃ o ∈ Description.registryOf doc, o.short = some "-o" ∧ o.long = some "--output" ∧
        o.takesValue = true ∧
        (∀ v, parse true ["--output", v] (Description.registryOf doc) =
          .ok ⟨[.option (o.holding v)], Description.registryOf doc⟩) ∧
        ∀ v, parse true ["-o", v] (Description.registryOf doc) =
          .ok ⟨[.option (o.holding v)], Description.registryOf doc⟩ := by
  intro doc
  have hd : (Description.registryOf doc).Distinct := ⟨by decide +kernel, by decide +kernel⟩
  obtain ⟨o, ho, hcheck⟩ := List.any_eq_true.mp (show
    (Description.registryOf doc).any (fun o =>
      o.short == some "-o" && o.long == some "--output" && o.takesValue) = true by decide +kernel)
  simp only [Bool.and_eq_true, beq_iff_eq] at hcheck
  obtain ⟨⟨hs, hl⟩, ht⟩ := hcheck
  obtain ⟨hlong, hshort⟩ := invokes_of_described hd true o ho
  exact ⟨hd, o, ho, hs, hl, ht, (hlong "--output" hl).valued ht,
    ((hshort "-o" hs).mpr ⟨'o', rfl⟩).valued ht⟩

/-- A short name of two characters is declared, and read as two other options. -/
theorem not_invokes_long_short :
    let registry := Description.registryOf "usage: nf\n\n-ab  both"
    registry.Distinct ∧ ∃ o ∈ registry, o.short = some "-ab" ∧ o.takesValue = false ∧
      (∃ p, parse false ["-ab"] registry = .ok p ∧ p.leaves.length = 2 ∧ p.registry.length = 3) ∧
        parse false ["-ab"] registry ≠ .ok ⟨[.option o.switchedOn], registry⟩ := by
  intro registry
  have hd : registry.Distinct := ⟨by decide +kernel, by decide +kernel⟩
  obtain ⟨o, ho, hcheck⟩ := List.any_eq_true.mp (show
    registry.any (fun o => o.short == some "-ab" && !o.takesValue) = true by decide +kernel)
  simp only [Bool.and_eq_true, beq_iff_eq, Bool.not_eq_true'] at hcheck
  obtain ⟨p, hp, hlen⟩ := Usage.exists_ok_of_any (show
    (parse false ["-ab"] registry).toOption.any
      (fun p => p.leaves.length == 2 && p.registry.length == 3) = true by decide +kernel)
  rw [Bool.and_eq_true, beq_iff_eq, beq_iff_eq] at hlen
  refine ⟨hd, o, ho, hcheck.1, hcheck.2, ⟨p, hp, hlen⟩, fun h => ?_⟩
  rw [hp, Except.ok.injEq] at h
  rw [h] at hlen
  exact absurd hlen.1 (by simp)

end CommandLine

end Synopsis
