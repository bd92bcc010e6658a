import Synopsis.Proofs.Lookup

/-!
How the readers of options refuse, and how far they look. `RefusesLong` and `RefusesChars` have one
rule for each complaint and hold of exactly what is refused. A reader looks at nothing behind the
words it consumes, and a refusal other than that of a missing value stands whatever follows.
-/
namespace Synopsis

namespace Registry

/-- The complaints about an option, all of which name its token, and about its declaration. -/
inductive Blames (token : Token) : Complaint → Prop where
  | malformed (why : Malformation) : Blames token (.malformed why)
  | unsplittable : Blames token (.unsplittable token)
  | dashInCluster : Blames token (.dashInCluster token)
  | repeatedShort (short : String) (count : Nat) :
      Blames token (.repeatedShort token short count)
  | unexpectedValue (long : String) : Blames token (.unexpectedValue token long)
  | missingLongValue (long : String) : Blames token (.missingLongValue token long)
  | missingShortValue (short : String) : Blames token (.missingShortValue token short)
  | ambiguous (name : String) (candidates : List String) :
      Blames token (.ambiguous token name candidates)

theorem malformed_of_declareLong {name : String} {value : Option String} {f : Failure}
    (h : declareLong name value = .error f) : ∃ why, f = .complaint (.malformed why) := by
  unfold declareLong at h
  split at h
  · cases h
  · split at h
    · cases h; exact ⟨_, rfl⟩
    · cases h; exact ⟨_, rfl⟩

/-- A long option does not split into a name and a value, cannot be declared, is a flag with a value,
lacks its value, or has several meanings. -/
inductive RefusesLong (mode : Mode) (token : Token) (rest : List Token) (registry : Registry) :
    Complaint → Prop where
  | unsplittable (ha : Assignment.read? token.text = none) :
      RefusesLong mode token rest registry (.unsplittable token)
  | undeclarable {a : Assignment} {why : Malformation}
      (ha : Assignment.read? token.text = some a) (hc : registry.candidates mode a.name = [])
      (ho : declareLong a.name a.value = .error (.complaint (.malformed why))) :
      RefusesLong mode token rest registry (.malformed why)
  | unexpected {a : Assignment} {o : OptionDecl} {v : String}
      (ha : Assignment.read? token.text = some a) (hc : registry.candidates mode a.name = [o])
      (ht : o.takesValue = false) (hv : a.value = some v) :
      RefusesLong mode token rest registry (.unexpectedValue token (o.long.getD ""))
  | missing {a : Assignment} {o : OptionDecl} (ha : Assignment.read? token.text = some a)
      (hc : registry.candidates mode a.name = [o]) (ht : o.takesValue = true)
      (hv : a.value = none) (hr : nextWord? rest = none) :
      RefusesLong mode token rest registry (.missingLongValue token (o.long.getD ""))
  | ambiguous {a : Assignment} {o o' : OptionDecl} {os : List OptionDecl}
      (ha : Assignment.read? token.text = some a)
      (hc : registry.candidates mode a.name = o :: o' :: os) :
      RefusesLong mode token rest registry
        (.ambiguous token a.name ((o :: o' :: os).map fun o => o.long.getD ""))

theorem readLong_eq_error_iff {mode : Mode} {token : Token} {rest : List Token}
    {registry : Registry} {f : Failure} :
    registry.readLong mode token rest = .error f ↔
      ∃ c, f = .complaint c ∧ RefusesLong mode token rest registry c := by
  constructor
  · intro h
    unfold readLong at h
    cases ha : Assignment.read? token.text with
    | none =>
      simp only [ha, Except.error.injEq] at h
      exact ⟨_, h.symm, .unsplittable ha⟩
    | some a =>
      simp only [ha] at h
      split at h
      next hc =>
        rw [addLong_eq] at h
        cases ho : declareLong a.name a.value with
        | ok o => simp [ho, Except.map] at h
        | error e =>
          simp only [ho, Except.map, Except.error.injEq] at h
          obtain ⟨why, rfl⟩ := malformed_of_declareLong ho
          exact ⟨_, h.symm, .undeclarable ha hc ho⟩
      next o hc =>
        unfold useLong at h
        cases ht : o.takesValue with
        | false =>
          cases hv : a.value with
          | none => simp [ht, hv] at h
          | some v =>
            simp only [ht, hv, Bool.false_eq_true, if_false, Except.error.injEq] at h
            exact ⟨_, h.symm, .unexpected ha hc ht hv⟩
        | true =>
          cases hv : a.value with
          | some v => simp [ht, hv] at h
          | none =>
            simp only [ht, hv, if_true] at h
            cases hw : nextWord? rest with
            | some p => simp [hw] at h
            | none =>
              simp only [hw, Except.error.injEq] at h
              exact ⟨_, h.symm, .missing ha hc ht hv hw⟩
      next hnone hone =>
        rcases hc : registry.candidates mode a.name with - | ⟨o, - | ⟨o', os⟩⟩
        · exact (hnone hc).elim
        · exact (hone o hc).elim
        · rw [hc, Except.error.injEq] at h
          exact ⟨_, h.symm, .ambiguous ha hc⟩
  · rintro ⟨c, rfl, h⟩
    cases h with
    | unsplittable ha => simp [readLong, ha]
    | undeclarable ha hc ho => simp [readLong, addLong_eq, ha, hc, ho, Except.map]
    | unexpected ha hc ht hv => simp [readLong, useLong, ha, hc, ht, hv]
    | missing ha hc ht hv hr => simp [readLong, useLong, ha, hc, ht, hv, hr]
    | ambiguous ha hc => simp [readLong, ha, hc]

/-- A character of a cluster is a dash, lacks its value or names several options, or one behind it
does. -/
inductive RefusesChars (mode : Mode) (token : Token) (rest : List Token) :
    Registry → List Char → Complaint → Prop where
  | dash {registry : Registry} {cs : List Char} :
      RefusesChars mode token rest registry ('-' :: cs) (.dashInCluster token)
  | fresh {registry : Registry} {c : Char} {cs : List Char} {x : Complaint} (hc : c ≠ '-')
      (hs : registry.withShort (OptionDecl.shortOf c) = [])
      (hx : RefusesChars mode token rest (registry ++ [OptionDecl.ofChar c hc]) cs x) :
      RefusesChars mode token rest registry (c :: cs) x
  | flag {registry : Registry} {c : Char} {cs : List Char} {o : OptionDecl} {x : Complaint}
      (hc : c ≠ '-') (hs : registry.withShort (OptionDecl.shortOf c) = [o])
      (ht : o.takesValue = false) (hx : RefusesChars mode token rest registry cs x) :
      RefusesChars mode token rest registry (c :: cs) x
  | missing {registry : Registry} {c : Char} {o : OptionDecl} (hc : c ≠ '-')
      (hs : registry.withShort (OptionDecl.shortOf c) = [o]) (ht : o.takesValue = true)
      (hr : nextWord? rest = none) :
      RefusesChars mode token rest registry [c]
        (.missingShortValue token (OptionDecl.shortOf c))
  | repeated {registry : Registry} {c : Char} {cs : List Char} {o o' : OptionDecl}
      {os : List OptionDecl} (hc : c ≠ '-')
      (hs : registry.withShort (OptionDecl.shortOf c) = o :: o' :: os) :
      RefusesChars mode token rest registry (c :: cs)
        (.repeatedShort token (OptionDecl.shortOf c) (o :: o' :: os).length)

theorem refusesChars_of_readChars {mode : Mode} {token : Token} {rest : List Token}
    {registry : Registry} {cs : List Char} {f : Failure}
    (h : readChars mode token rest registry cs = .error f) :
    ∃ x, f = .complaint x ∧ RefusesChars mode token rest registry cs x := by
  induction cs generalizing registry with
  | nil => cases h
  | cons c cs ih =>
    unfold readChars at h
    by_cases hc : c = '-'
    · simp only [hc, dif_pos, Except.error.injEq] at h
      subst hc
      exact ⟨_, h.symm, .dash⟩
    · simp only [hc, dif_neg, not_false_eq_true] at h
      split at h
      next hs =>
        cases hr : readChars mode token rest (registry ++ [OptionDecl.ofChar c hc]) cs with
        | ok s => simp [hr, Except.map] at h
        | error e =>
          simp only [hr, Except.map, Except.error.injEq] at h
          obtain ⟨x, hf, hx⟩ := ih (h ▸ hr)
          exact ⟨x, hf, .fresh hc hs hx⟩
      next o hs =>
        cases ht : o.takesValue with
        | false =>
          cases hr : readChars mode token rest registry cs with
          | ok s => simp [ht, hr, Except.map] at h
          | error e =>
            simp only [ht, hr, Except.map, Bool.false_eq_true, if_false,
              Except.error.injEq] at h
            obtain ⟨x, hf, hx⟩ := ih (h ▸ hr)
            exact ⟨x, hf, .flag hc hs ht hx⟩
        | true =>
          cases cs with
          | cons d ds => simp [ht] at h
          | nil =>
            cases hw : nextWord? rest with
            | some p => simp [ht, hw] at h
            | none =>
              simp only [ht, hw, if_true, Except.error.injEq] at h
              exact ⟨_, h.symm, .missing hc hs ht hw⟩
      next hnone hone =>
        rcases hs : registry.withShort (OptionDecl.shortOf c) with - | ⟨o, - | ⟨o', os⟩⟩
        · exact (hnone hs).elim
        · exact (hone o hs).elim
        · rw [hs, Except.error.injEq] at h
          exact ⟨_, h.symm, .repeated hc hs⟩

theorem readChars_eq_error_iff {mode : Mode} {token : Token} {rest : List Token}
    {registry : Registry} {cs : List Char} {f : Failure} :
    readChars mode token rest registry cs = .error f ↔
      ∃ x, f = .complaint x ∧ RefusesChars mode token rest registry cs x := by
  constructor
  · exact refusesChars_of_readChars
  · rintro ⟨x, rfl, h⟩
    induction h with
    | dash => simp [readChars]
    | fresh hc hs hx ih => simp [readChars, hc, hs, ih, Except.map]
    | flag hc hs ht hx ih => simp [readChars, hc, hs, ht, ih, Except.map]
    | missing hc hs ht hr => simp [readChars, hc, hs, ht, hr]
    | repeated hc hs => simp [readChars, hc, hs]

theorem RefusesLong.blames {mode : Mode} {token : Token} {rest : List Token}
    {registry : Registry} {x : Complaint} (h : RefusesLong mode token rest registry x) :
    Blames token x := by
  cases h with
  | unsplittable => exact .unsplittable
  | undeclarable => exact .malformed _
  | unexpected => exact .unexpectedValue _
  | missing => exact .missingLongValue _
  | ambiguous => exact .ambiguous _ _

theorem RefusesChars.blames {mode : Mode} {token : Token} {rest : List Token}
    {registry : Registry} {cs : List Char} {x : Complaint}
    (h : RefusesChars mode token rest registry cs x) : Blames token x := by
  induction h with
  | dash => exact .dashInCluster
  | fresh hc hs hx ih => exact ih
  | flag hc hs ht hx ih => exact ih
  | missing => exact .missingShortValue _
  | repeated => exact .repeatedShort _ _

/-- A reader consumes at most one word behind the option, and nothing else matters to it. -/
theorem ReadsLong.locally {mode : Mode} {token : Token} {rest : List Token}
    {registry : Registry} {r : Reading OptionDecl} (h : ReadsLong mode token rest registry r) :
    ∃ used, rest = used ++ r.rest ∧
      ∀ rest', ReadsLong mode token (used ++ rest') registry { r with rest := rest' } := by
  cases h with
  | added ha hc ho => exact ⟨[], rfl, fun _ => .added ha hc ho⟩
  | flag ha hc ht hv => exact ⟨[], rfl, fun _ => .flag ha hc ht hv⟩
  | assigned ha hc ht hv => exact ⟨[], rfl, fun _ => .assigned ha hc ht hv⟩
  | @followed a o next after ha hc ht hv hr hw =>
    exact ⟨[next], hr, fun _ => .followed ha hc ht hv rfl hw⟩

theorem ReadsChars.locally {mode : Mode} {rest : List Token} {registry : Registry}
    {cs : List Char} {r : Reading OptionDecl} (h : ReadsChars mode rest registry cs r) :
    ∃ used, rest = used ++ r.rest ∧
      ∀ rest', ReadsChars mode (used ++ rest') registry cs { r with rest := rest' } := by
  induction h with
  | nil => exact ⟨[], rfl, fun _ => .nil⟩
  | fresh hc hs hr ih =>
    obtain ⟨used, he, hl⟩ := ih
    exact ⟨used, he, fun rest' => .fresh hc hs (hl rest')⟩
  | flag hc hs ht hr ih =>
    obtain ⟨used, he, hl⟩ := ih
    exact ⟨used, he, fun rest' => .flag hc hs ht (hl rest')⟩
  | attached hc hs ht hne => exact ⟨[], rfl, fun _ => .attached hc hs ht hne⟩
  | @followed registry c o next after hc hs ht hr hw =>
    exact ⟨[next], hr, fun _ => .followed hc hs ht rfl hw⟩

end Registry

def Complaint.LacksValue : Complaint → Prop
  | .missingLongValue .. | .missingShortValue .. => True
  | _ => False

namespace Registry

theorem RefusesLong.anywhere {mode : Mode} {token : Token} {rest : List Token}
    {registry : Registry} {c : Complaint} (h : RefusesLong mode token rest registry c)
    (hn : ¬ c.LacksValue) (rest' : List Token) : RefusesLong mode token rest' registry c := by
  cases h with
  | unsplittable ha => exact .unsplittable ha
  | undeclarable ha hc ho => exact .undeclarable ha hc ho
  | unexpected ha hc ht hv => exact .unexpected ha hc ht hv
  | missing => exact (hn trivial).elim
  | ambiguous ha hc => exact .ambiguous ha hc

theorem RefusesChars.anywhere {mode : Mode} {token : Token} {rest : List Token}
    {registry : Registry} {cs : List Char} {x : Complaint}
    (h : RefusesChars mode token rest registry cs x) (hn : ¬ x.LacksValue)
    (rest' : List Token) : RefusesChars mode token rest' registry cs x := by
  induction h with
  | dash => exact .dash
  | fresh hc hs hx ih => exact .fresh hc hs (ih hn)
  | flag hc hs ht hx ih => exact .flag hc hs ht (ih hn)
  | missing => exact (hn trivial).elim
  | repeated hc hs => exact .repeated hc hs

end Registry

namespace Usage

/-- A word is refused as a long option or as a cluster, unless it is empty. -/
inductive RefusesWord (token : Token) (rest : List Token) (registry : Registry) :
    Failure → Prop where
  | empty (hs : token.text = "") : RefusesWord token rest registry (.misuse .commandName)
  | long {x : Complaint} (hs : isLongName token.text = true)
      (hx : Registry.RefusesLong .usage token rest registry x) :
      RefusesWord token rest registry (.complaint x)
  | cluster {c : Char} {cs : List Char} {x : Complaint}
      (hs : token.text.toList = '-' :: c :: cs) (hc : c ≠ '-')
      (hx : Registry.RefusesChars .usage token rest registry (c :: cs) x) :
      RefusesWord token rest registry (.complaint x)

theorem readWord_eq_error_iff {token : Token} {rest : List Token} {registry : Registry}
    {f : Failure} :
    readWord token rest registry = .error f ↔ RefusesWord token rest registry f := by
  constructor
  · intro h
    rcases WordShape.text_cases token.text with ho | hl | ⟨c, cs, hs, hc⟩ | hd | ⟨ho, hn⟩
    · rw [readWord, ho] at h
      cases h
    · rw [readWord, WordShape.of_long hl] at h
      cases hr : registry.readLong .usage token rest with
      | ok r => simp [hr, Except.map] at h
      | error e =>
        simp only [hr, Except.map, Except.error.injEq] at h
        obtain ⟨x, rfl, hx⟩ := Registry.readLong_eq_error_iff.mp (h ▸ hr)
        exact .long hl hx
    · rw [readWord, WordShape.of_cluster hs hc] at h
      cases hr : registry.readCluster .usage token rest with
      | ok r => simp [hr, Except.map] at h
      | error e =>
        simp only [hr, Except.map, Except.error.injEq] at h
        simp only [Registry.readCluster, hs, hc, if_false] at hr
        obtain ⟨x, rfl, hx⟩ := Registry.readChars_eq_error_iff.mp (h ▸ hr)
        exact .cluster hs hc hx
    · rw [readWord, hd] at h
      cases h
    · rw [readWord, WordShape.of_other ho hn] at h
      by_cases ha : isArgumentName token.text = true
      · simp [ha] at h
      · rw [if_neg ha] at h
        dsimp only at h
        split at h
        next hempty =>
          cases h
          exact .empty hempty
        next => cases h
  · intro h
    cases h with
    | empty hs =>
      rw [readWord, hs]
      rfl
    | @long x hs hx =>
      rw [readWord, WordShape.of_long hs]
      simp [Registry.readLong_eq_error_iff.mpr ⟨x, rfl, hx⟩, Except.map]
    | @cluster c cs x hs hc hx =>
      rw [readWord, WordShape.of_cluster hs hc]
      simp [Registry.readCluster, hs, hc, Registry.readChars_eq_error_iff.mpr ⟨x, rfl, hx⟩,
        Except.map]

/-- A word that is not empty is refused only for the option that it is. -/
theorem blames_of_readWord {token : Token} {rest : List Token} {registry : Registry}
    {f : Failure} (hne : token.text ≠ "") (h : readWord token rest registry = .error f) :
    ∃ x, f = .complaint x ∧ Registry.Blames token x := by
  cases readWord_eq_error_iff.mp h with
  | empty hs => exact (hne hs).elim
  | long hs hx => exact ⟨_, rfl, hx.blames⟩
  | cluster hs hc hx => exact ⟨_, rfl, hx.blames⟩

end Usage

end Synopsis
