import Synopsis.Usage.Grammar

/-!
What reading an option can do. `ReadsLong` and `ReadsChars` have one rule for each way of reading a
long option and the characters of a cluster, and hold of exactly what the readers answer.
-/
namespace Synopsis

theorem nextWord?_eq_some {tokens rest : List Token} {s : String}
    (h : nextWord? tokens = some (s, rest)) :
    ∃ next, tokens = next :: rest ∧ next.kind = .word ∧ next.text = s := by
  cases tokens with
  | nil => simp [nextWord?] at h
  | cons next after =>
    simp only [nextWord?, Token.isWord, beq_iff_eq] at h
    split at h
    next hw =>
      simp only [Option.some.injEq, Prod.mk.injEq] at h
      exact ⟨next, by rw [h.2], hw, h.1⟩
    next => simp at h

theorem nextWord?_cons {next : Token} (rest : List Token) (h : next.kind = .word) :
    nextWord? (next :: rest) = some (next.text, rest) := by
  simp [nextWord?, Token.isWord, h]

theorem Assignment.name_of_read? {s : String} {a : Assignment}
    (h : Assignment.read? s = some a) :
    a.name = String.ofList (s.toList.takeWhile (· != '=')) := by
  unfold Assignment.read? at h
  split at h
  next => cases h; rfl
  next =>
    split at h
    next => cases h
    next => cases h; rfl

theorem Assignment.plain_of_read? {s : String} {a : Assignment}
    (h : Assignment.read? s = some a) : '=' ∉ a.name.toList := by
  rw [Assignment.name_of_read? h, String.toList_ofList]
  intro hm
  have hall := List.all_eq_true.mp (List.all_takeWhile (p := (· != '=')) (l := s.toList)) '=' hm
  simp at hall

theorem OptionDecl.isLongName_of_long {o : OptionDecl} {name : String} (h : o.long = some name) :
    isLongName name = true := by
  have hn := o.named
  simp only [Named, h, Option.all_some, Bool.and_eq_true] at hn
  exact hn.2

namespace Mode

def met (mode : Mode) (o : OptionDecl) (value : Option String) : OptionDecl :=
  value.elim (mode.flag o) (mode.valued o)

@[simp] theorem met_usage (o : OptionDecl) (value : Option String) :
    Mode.usage.met o value = o := by cases value <;> rfl

end Mode

namespace Registry

theorem candidates_usage (registry : Registry) (name : String) :
    registry.candidates .usage name = registry.withLong name := by
  simp [candidates]

theorem mem_of_candidates {registry : Registry} {o : OptionDecl} {name : String}
    (h : registry.candidates .usage name = [o]) : o ∈ registry ∧ o.long = some name := by
  have ho : o ∈ registry.withLong name := by
    rw [← candidates_usage, h]
    exact List.mem_singleton_self o
  simpa [withLong] using ho

theorem mem_of_withShort {registry : Registry} {o : OptionDecl} {name : String}
    (h : registry.withShort name = [o]) : o ∈ registry ∧ o.short = some name := by
  have ho : o ∈ registry.withShort name := by
    rw [h]
    exact List.mem_singleton_self o
  simpa [withShort] using ho

/-- A new long option has its long name only, and takes a value where one was typed. -/
theorem eq_ofLong_of_declareLong {name : String} {value : Option String} {o : OptionDecl}
    (h : declareLong name value = .ok o) :
    ∃ hl, o = OptionDecl.ofLong name
      (if value.isSome then .valued .int (.text "") else .flag .int false) hl := by
  unfold declareLong at h
  split at h
  next hl => exact ⟨hl, (Except.ok.inj h).symm⟩
  next => split at h <;> cases h

theorem fields_of_declareLong {name : String} {value : Option String} {o : OptionDecl}
    (h : declareLong name value = .ok o) :
    o.long = some name ∧ o.short = none ∧ o.takesValue = value.isSome := by
  obtain ⟨-, rfl⟩ := eq_ofLong_of_declareLong h
  cases value <;> exact ⟨rfl, rfl, rfl⟩

/-- A long option was new, a flag, or had its value behind an equals sign or in the next word. -/
inductive ReadsLong (mode : Mode) (token : Token) (rest : List Token) (registry : Registry) :
    Reading OptionDecl → Prop where
  | added {a : Assignment} {o : OptionDecl} (ha : Assignment.read? token.text = some a)
      (hc : registry.candidates mode a.name = []) (ho : declareLong a.name a.value = .ok o) :
      ReadsLong mode token rest registry ⟨rest, registry ++ [o], [mode.met o a.value]⟩
  | flag {a : Assignment} {o : OptionDecl} (ha : Assignment.read? token.text = some a)
      (hc : registry.candidates mode a.name = [o]) (ht : o.takesValue = false)
      (hv : a.value = none) : ReadsLong mode token rest registry ⟨rest, registry, [mode.flag o]⟩
  | assigned {a : Assignment} {o : OptionDecl} {v : String}
      (ha : Assignment.read? token.text = some a) (hc : registry.candidates mode a.name = [o])
      (ht : o.takesValue = true) (hv : a.value = some v) :
      ReadsLong mode token rest registry ⟨rest, registry, [mode.valued o v]⟩
  | followed {a : Assignment} {o : OptionDecl} {next : Token} {after : List Token}
      (ha : Assignment.read? token.text = some a) (hc : registry.candidates mode a.name = [o])
      (ht : o.takesValue = true) (hv : a.value = none) (hr : rest = next :: after)
      (hw : next.kind = .word) :
      ReadsLong mode token rest registry ⟨after, registry, [mode.valued o next.text]⟩

theorem addLong_eq (mode : Mode) (a : Assignment) (rest : List Token) (registry : Registry) :
    addLong mode a rest registry =
      (declareLong a.name a.value).map fun o => ⟨rest, registry ++ [o], [mode.met o a.value]⟩ := by
  unfold addLong
  cases declareLong a.name a.value with
  | error e => rfl
  | ok o => cases hv : a.value <;> rfl

theorem readLong_eq_ok_iff {mode : Mode} {token : Token} {rest : List Token}
    {registry : Registry} {r : Reading OptionDecl} :
    registry.readLong mode token rest = .ok r ↔ ReadsLong mode token rest registry r := by
  constructor
  · intro h
    unfold readLong at h
    cases ha : Assignment.read? token.text with
    | none => simp [ha] at h
    | some a =>
      simp only [ha] at h
      split at h
      next hc =>
        rw [addLong_eq] at h
        cases ho : declareLong a.name a.value with
        | error e => simp [ho, Except.map] at h
        | ok o =>
          simp only [ho, Except.map, Except.ok.injEq] at h
          exact h ▸ .added ha hc ho
      next o hc =>
        unfold useLong at h
        cases ht : o.takesValue with
        | false =>
          cases hv : a.value with
          | none =>
            simp only [ht, hv, Bool.false_eq_true, if_false, Except.ok.injEq] at h
            exact h ▸ .flag ha hc ht hv
          | some v => simp [ht, hv] at h
        | true =>
          cases hv : a.value with
          | some v =>
            simp only [ht, hv, if_true, Except.ok.injEq] at h
            exact h ▸ .assigned ha hc ht hv
          | none =>
            simp only [ht, hv, if_true] at h
            cases hw : nextWord? rest with
            | none => simp [hw] at h
            | some p =>
              obtain ⟨s, after⟩ := p
              obtain ⟨next, hr, hk, rfl⟩ := nextWord?_eq_some hw
              simp only [hw, Except.ok.injEq] at h
              exact h ▸ .followed ha hc ht hv hr hk
      next => simp at h
  · intro h
    cases h with
    | added ha hc ho => simp [readLong, addLong_eq, ha, hc, ho, Except.map]
    | flag ha hc ht hv => simp [readLong, useLong, ha, hc, ht, hv]
    | assigned ha hc ht hv => simp [readLong, useLong, ha, hc, ht, hv]
    | followed ha hc ht hv hr hw =>
      simp [readLong, useLong, ha, hc, ht, hv, hr, nextWord?_cons _ hw]

/-- A character of a cluster is a new flag, a known one, or takes what is left of the cluster or the
next word as its value. -/
inductive ReadsChars (mode : Mode) (rest : List Token) :
    Registry → List Char → Reading OptionDecl → Prop where
  | nil {registry : Registry} : ReadsChars mode rest registry [] ⟨rest, registry, []⟩
  | fresh {registry : Registry} {c : Char} {cs : List Char} {r : Reading OptionDecl}
      (hc : c ≠ '-') (hs : registry.withShort (OptionDecl.shortOf c) = [])
      (hr : ReadsChars mode rest (registry ++ [OptionDecl.ofChar c hc]) cs r) :
      ReadsChars mode rest registry (c :: cs) (r.after (mode.flag (OptionDecl.ofChar c hc)))
  | flag {registry : Registry} {c : Char} {cs : List Char} {o : OptionDecl}
      {r : Reading OptionDecl} (hc : c ≠ '-')
      (hs : registry.withShort (OptionDecl.shortOf c) = [o]) (ht : o.takesValue = false)
      (hr : ReadsChars mode rest registry cs r) :
      ReadsChars mode rest registry (c :: cs) (r.after (mode.flag o))
  | attached {registry : Registry} {c : Char} {cs : List Char} {o : OptionDecl} (hc : c ≠ '-')
      (hs : registry.withShort (OptionDecl.shortOf c) = [o]) (ht : o.takesValue = true)
      (hne : cs ≠ []) :
      ReadsChars mode rest registry (c :: cs)
        ⟨rest, registry, [mode.valued o (String.ofList cs)]⟩
  | followed {registry : Registry} {c : Char} {o : OptionDecl} {next : Token}
      {after : List Token} (hc : c ≠ '-')
      (hs : registry.withShort (OptionDecl.shortOf c) = [o]) (ht : o.takesValue = true)
      (hr : rest = next :: after) (hw : next.kind = .word) :
      ReadsChars mode rest registry [c] ⟨after, registry, [mode.valued o next.text]⟩

theorem readsChars_of_readChars {mode : Mode} {token : Token} {rest : List Token}
    {registry : Registry} {cs : List Char} {r : Reading OptionDecl}
    (h : readChars mode token rest registry cs = .ok r) :
    ReadsChars mode rest registry cs r := by
  induction cs generalizing registry r with
  | nil => cases h; exact .nil
  | cons c cs ih =>
    unfold readChars at h
    by_cases hc : c = '-'
    · simp [hc] at h
    · simp only [hc, dif_neg, not_false_eq_true] at h
      split at h
      next hs =>
        cases hr : readChars mode token rest (registry ++ [OptionDecl.ofChar c hc]) cs with
        | error e => simp [hr, Except.map] at h
        | ok s =>
          simp only [hr, Except.map, Except.ok.injEq] at h
          exact h ▸ .fresh hc hs (ih hr)
      next o hs =>
        cases ht : o.takesValue with
        | false =>
          cases hr : readChars mode token rest registry cs with
          | error e => simp [ht, hr, Except.map] at h
          | ok s =>
            simp only [ht, hr, Except.map, Bool.false_eq_true, if_false, Except.ok.injEq] at h
            exact h ▸ .flag hc hs ht (ih hr)
        | true =>
          cases cs with
          | nil =>
            cases hw : nextWord? rest with
            | none => simp [ht, hw] at h
            | some p =>
              obtain ⟨s, after⟩ := p
              obtain ⟨next, hr, hk, rfl⟩ := nextWord?_eq_some hw
              simp only [ht, hw, if_true, Except.ok.injEq] at h
              exact h ▸ .followed hc hs ht hr hk
          | cons d ds =>
            simp only [ht, if_true, Except.ok.injEq] at h
            exact h ▸ .attached hc hs ht (by simp)
      next => simp at h

theorem readChars_eq_ok_iff {mode : Mode} {token : Token} {rest : List Token}
    {registry : Registry} {cs : List Char} {r : Reading OptionDecl} :
    readChars mode token rest registry cs = .ok r ↔ ReadsChars mode rest registry cs r := by
  refine ⟨readsChars_of_readChars, fun h => ?_⟩
  induction h with
  | nil => rfl
  | fresh hc hs hr ih => simp [readChars, hc, hs, ih, Except.map]
  | flag hc hs ht hr ih => simp [readChars, hc, hs, ht, ih, Except.map]
  | attached hc hs ht hne =>
    obtain ⟨d, ds, rfl⟩ := List.exists_cons_of_ne_nil hne
    simp [readChars, hc, hs, ht]
  | followed hc hs ht hr hw => simp [readChars, hc, hs, ht, hr, nextWord?_cons _ hw]

/-- A reader of options leaves what stood behind the option, or one word less. -/
theorem ReadsLong.rest_cases {mode : Mode} {token : Token} {rest : List Token}
    {registry : Registry} {r : Reading OptionDecl} (h : ReadsLong mode token rest registry r) :
    r.rest = rest ∨ ∃ next, rest = next :: r.rest ∧ next.kind = .word := by
  cases h with
  | added | flag | assigned => exact .inl rfl
  | followed ha hc ht hv hr hw => exact .inr ⟨_, hr, hw⟩

theorem ReadsChars.rest_cases {mode : Mode} {rest : List Token} {registry : Registry}
    {cs : List Char} {r : Reading OptionDecl} (h : ReadsChars mode rest registry cs r) :
    r.rest = rest ∨ ∃ next, rest = next :: r.rest ∧ next.kind = .word := by
  induction h with
  | nil | attached => exact .inl rfl
  | fresh hc hs hr ih | flag hc hs ht hr ih => exact ih
  | followed hc hs ht hr hw => exact .inr ⟨_, hr, hw⟩

end Registry

namespace Usage

namespace WordShape

/-- Every text is the placeholder, a long option, a cluster, two dashes, or no dash with something
behind it. -/
theorem text_cases (s : String) :
    s = "options" ∨ isLongName s = true ∨ (∃ c cs, s.toList = '-' :: c :: cs ∧ c ≠ '-') ∨
      s = "--" ∨ (s ≠ "options" ∧ ∀ c cs, s.toList ≠ '-' :: c :: cs) := by
  by_cases ho : s = "options"
  · exact .inl ho
  by_cases hd : ∃ c cs, s.toList = '-' :: c :: cs
  · obtain ⟨c, cs, hs⟩ := hd
    by_cases hc : c = '-'
    · subst hc
      cases cs with
      | nil => exact .inr (.inr (.inr (.inl (String.toList_inj.mp hs))))
      | cons d ds => exact .inr (.inl (by simp [isLongName, hs]))
    · exact .inr (.inr (.inl ⟨c, cs, hs, hc⟩))
  · exact .inr (.inr (.inr (.inr ⟨ho, fun c cs hs => hd ⟨c, cs, hs⟩⟩)))

theorem of_long {s : String} (h : isLongName s = true) : of s = .long := by
  have ho : s ≠ "options" := by rintro rfl; exact absurd h (by decide)
  simp [of, ho, h]

theorem of_cluster {s : String} {c : Char} {cs : List Char} (h : s.toList = '-' :: c :: cs)
    (hc : c ≠ '-') : of s = .cluster := by
  have ho : s ≠ "options" := by rintro rfl; exact absurd h (by simp)
  have hl : ¬ isLongName s = true := by
    rw [isLongName, h]
    split <;> simp_all
  unfold of
  rw [if_neg ho, if_neg hl, h]
  simp [hc]

theorem of_other {s : String} (ho : s ≠ "options") (h : ∀ c cs, s.toList ≠ '-' :: c :: cs) :
    of s = if isArgumentName s then .argument else .command := by
  have hl : ¬ isLongName s = true := by
    rw [isLongName]
    split
    next c cs hs => exact absurd hs (h _ _)
    next => simp
  unfold of
  rw [if_neg ho, if_neg hl]
  split
  next hs => exact absurd hs (h _ _)
  next => rfl

end WordShape

/-- A word is the placeholder, a long option, a cluster, an argument or a command. -/
inductive ReadsWord (token : Token) (rest : List Token) (registry : Registry) :
    Reading Leaf → Prop where
  | anyOptions (hs : token.text = "options") :
      ReadsWord token rest registry ⟨rest, registry, [.anyOptions]⟩
  | long {r : Reading OptionDecl} (hs : isLongName token.text = true)
      (hr : Registry.ReadsLong .usage token rest registry r) :
      ReadsWord token rest registry (r.map Leaf.option)
  | cluster {c : Char} {cs : List Char} {r : Reading OptionDecl}
      (hs : token.text.toList = '-' :: c :: cs) (hc : c ≠ '-')
      (hr : Registry.ReadsChars .usage rest registry (c :: cs) r) :
      ReadsWord token rest registry (r.map Leaf.option)
  | argument (hs : WordShape.of token.text = .argument) :
      ReadsWord token rest registry ⟨rest, registry, [.argument (some token.text) .null]⟩
  | command (hs : WordShape.of token.text = .command) (hne : token.text ≠ "") :
      ReadsWord token rest registry ⟨rest, registry, [.command token.text (.bool false)]⟩

theorem readWord_eq_ok_iff {token : Token} {rest : List Token} {registry : Registry}
    {r : Reading Leaf} :
    readWord token rest registry = .ok r ↔ ReadsWord token rest registry r := by
  constructor
  · intro h
    rcases WordShape.text_cases token.text with ho | hl | ⟨c, cs, hs, hc⟩ | hd | ⟨ho, hn⟩
    · rw [readWord, ho] at h
      cases h
      exact .anyOptions ho
    · rw [readWord, WordShape.of_long hl] at h
      cases hr : registry.readLong .usage token rest with
      | error e => simp [hr, Except.map] at h
      | ok s =>
        simp only [hr, Except.map, Except.ok.injEq] at h
        exact h ▸ .long hl (Registry.readLong_eq_ok_iff.mp hr)
    · rw [readWord, WordShape.of_cluster hs hc] at h
      cases hr : registry.readCluster .usage token rest with
      | error e => simp [hr, Except.map] at h
      | ok s =>
        simp only [hr, Except.map, Except.ok.injEq] at h
        simp only [Registry.readCluster, hs, hc, if_false] at hr
        exact h ▸ .cluster hs hc (Registry.readChars_eq_ok_iff.mp hr)
    · have hs : WordShape.of token.text = .command := by rw [hd]; decide
      have hne : token.text ≠ "" := by rw [hd]; decide
      simp only [readWord, hs, hne, if_false, Except.ok.injEq] at h
      exact h ▸ .command hs hne
    · have hs := WordShape.of_other ho hn
      by_cases ha : isArgumentName token.text = true
      · rw [if_pos ha] at hs
        simp only [readWord, hs, Except.ok.injEq] at h
        exact h ▸ .argument hs
      · rw [if_neg ha] at hs
        by_cases hne : token.text = ""
        · rw [readWord, hs] at h
          simp [hne] at h
        · simp only [readWord, hs, hne, if_false, Except.ok.injEq] at h
          exact h ▸ .command hs hne
  · intro h
    cases h with
    | anyOptions hs => rw [readWord, hs]; rfl
    | long hs hr =>
      rw [readWord, WordShape.of_long hs]
      simp [Registry.readLong_eq_ok_iff.mpr hr, Except.map]
    | cluster hs hc hr =>
      rw [readWord, WordShape.of_cluster hs hc]
      simp [Registry.readCluster, hs, hc, Registry.readChars_eq_ok_iff.mpr hr, Except.map]
    | argument hs => simp [readWord, hs]
    | command hs hne => simp [readWord, hs, hne]

theorem ReadsWord.rest_cases {token : Token} {rest : List Token} {registry : Registry}
    {r : Reading Leaf} (h : ReadsWord token rest registry r) :
    r.rest = rest ∨ ∃ next, rest = next :: r.rest ∧ next.kind = .word := by
  cases h with
  | anyOptions | argument | command => exact .inl rfl
  | long hs hr => exact hr.rest_cases
  | cluster hs hc hr => exact hr.rest_cases

end Usage

end Synopsis
