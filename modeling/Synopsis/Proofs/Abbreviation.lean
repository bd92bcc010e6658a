import Synopsis.Proofs.Spelling
import Synopsis.Proofs.Stretches

/-!
Abbreviated long names. If the beginning of a long name is read as its option, then so is every
longer beginning, with the same value, over any registry: the other entries that a longer text could
mean are among those that the shorter one could mean.
-/
namespace Synopsis

/-- What may stand behind a long name: nothing, or an equals sign and a text without another one. -/
def Assigns (suffix : String) : Prop :=
  suffix = "" ∨ ∃ v : String, '=' ∉ v.toList ∧ suffix = "=" ++ v

/-- What stands behind a long name is the same value behind any other one. -/
theorem Assigns.exists_value {suffix : String} (h : Assigns suffix) :
    ∃ value, ∀ name : String, '=' ∉ name.toList →
      Assignment.read? (name ++ suffix) = some ⟨name, value⟩ := by
  rcases h with rfl | ⟨v, hv, rfl⟩
  · refine ⟨none, fun name hn => ?_⟩
    rw [String.append_empty]
    exact Usage.read?_of_no_equals hn
  · refine ⟨if v = "" then none else some v, fun name hn => ?_⟩
    rw [← String.append_assoc]
    exact Assignment.read?_equals hn hv

theorem startsWith_iff {s start : String} :
    Text.startsWith s start = true ↔ start.toList <+: s.toList := List.isPrefixOf_iff_prefix

namespace Registry

variable {registry : Registry} {o : OptionDecl} {name p p' : String}

/-- What a longer text could abbreviate is among what a shorter one could. -/
theorem withLongFrom_longer (h : Text.startsWith p' p = true) :
    registry.withLongFrom p' =
      (registry.withLongFrom p).filter fun o => o.long.any (Text.startsWith · p') := by
  unfold withLongFrom
  rw [List.filter_filter]
  apply List.filter_congr
  intro o _
  cases o.long with
  | none => rfl
  | some long =>
    have hstarts : Text.startsWith long p' = true → Text.startsWith long p = true := by
      rw [startsWith_iff] at h
      rw [startsWith_iff, startsWith_iff]
      exact h.trans
    cases hl : Text.startsWith long p' with
    | true => simp [hl, hstarts hl]
    | false => simp [hl]

theorem withLong_eq_filter (registry : Registry) (name : String) :
    registry.withLong name = (registry.withLongFrom name).filter (·.long == some name) := by
  unfold withLong withLongFrom
  rw [List.filter_filter]
  apply List.filter_congr
  intro o _
  cases hl : o.long == some name with
  | true =>
    have hself : Text.startsWith name name = true := startsWith_iff.mpr (List.prefix_refl _)
    simp [beq_iff_eq.mp hl, hself]
  | false => rfl

/-- A longer beginning of a long name means the same option. -/
theorem candidates_longer (hc : registry.candidates .commandLine p = [o])
    (hl : o.long = some name) (hp : Text.startsWith p' p = true)
    (hp' : Text.startsWith name p' = true) : registry.candidates .commandLine p' = [o] := by
  unfold candidates at hc
  split at hc
  next hnone =>
    have hfrom : registry.withLongFrom p' = [o] := by
      rw [withLongFrom_longer hp, hc]
      simp [hl, hp']
    unfold candidates
    split_ifs with h
    · exact hfrom
    · rw [withLong_eq_filter, hfrom] at h ⊢
      by_cases ho : (o.long == some p') = true
      · exact List.filter_cons_of_pos ho
      · exact absurd ⟨rfl, List.filter_cons_of_neg ho⟩ h
  next hsome =>
    have ho : o.long = some p := (mem_of_candidates ((candidates_usage registry p).trans hc)).2
    have hname : name = p := by rwa [hl, Option.some.injEq] at ho
    subst hname
    have hsame : p' = name := by
      rw [startsWith_iff] at hp hp'
      exact String.toList_inj.mp (hp'.eq_of_length_le hp.length_le)
    rw [hsame]
    unfold candidates
    rw [if_neg hsome, hc]

/-- The reading is one of an entry: nothing was added, and the entry was found with a value. -/
structure ReadsAs (registry : Registry) (o : OptionDecl) (r : Reading OptionDecl) : Prop where
  entry : o ∈ registry
  kept : r.registry = registry
  found : ∃ leaf value, r.found = [leaf] ∧ o.Binds leaf value

section Longer

variable {suffix : String} {token token' : Token} {rest : List Token} {r : Reading OptionDecl}
  (hl : o.long = some name) (hname : '=' ∉ name.toList) (hs : Assigns suffix)
  (hp : Text.startsWith p' p = true) (hp' : Text.startsWith name p' = true)
  (ht : token.text = p ++ suffix) (ht' : token'.text = p' ++ suffix)
include hl hname hs hp hp' ht ht'

theorem lookup_longer {entry : OptionDecl} {a : Assignment} (he : entry.long = o.long)
    (ha : Assignment.read? token.text = some a)
    (hc : registry.candidates .commandLine a.name = [entry]) :
    Assignment.read? token'.text = some ⟨p', a.value⟩ ∧
      registry.candidates .commandLine p' = [entry] := by
  have hlonger : p'.toList <+: name.toList := startsWith_iff.mp hp'
  have hshorter : p.toList <+: name.toList := (startsWith_iff.mp hp).trans hlonger
  obtain ⟨value, hread⟩ := hs.exists_value
  have hvalue : a = ⟨p, value⟩ := by
    rw [ht, hread p fun hmem => hname (hshorter.subset hmem)] at ha
    exact (Option.some.inj ha).symm
  subst hvalue
  constructor
  · rw [ht']
    exact hread p' fun hmem => hname (hlonger.subset hmem)
  · exact candidates_longer hc (he.trans hl) hp hp'

theorem ReadsLong.longer (h : ReadsLong .commandLine token rest registry r)
    (hr : ReadsAs registry o r) : ReadsLong .commandLine token' rest registry r := by
  obtain ⟨-, hkept, leaf, value, hfound, hbinds⟩ := hr
  have hlong : ∀ found ∈ r.found, found.long = o.long := by
    rw [hfound]
    simpa using hbinds.long
  have hlookup := @lookup_longer registry o name p p' suffix token token' hl hname hs hp hp' ht ht'
  cases h with
  | added ha hc ho => simp at hkept
  | @flag a entry ha hc htakes hv =>
    have hentry : entry.long = o.long :=
      hlong (Mode.commandLine.flag entry) List.mem_cons_self
    obtain ⟨ha', hc'⟩ := hlookup hentry ha hc
    exact .flag ha' hc' htakes hv
  | @assigned a entry v ha hc htakes hv =>
    have hentry : entry.long = o.long :=
      hlong (Mode.commandLine.valued entry v) List.mem_cons_self
    obtain ⟨ha', hc'⟩ := hlookup hentry ha hc
    exact .assigned ha' hc' htakes hv
  | @followed a entry next after ha hc htakes hv hrest hw =>
    have hentry : entry.long = o.long :=
      hlong (Mode.commandLine.valued entry next.text) List.mem_cons_self
    obtain ⟨ha', hc'⟩ := hlookup hentry ha hc
    exact .followed ha' hc' htakes hv hrest hw

/-- Typing more of a long name does not change what it means. -/
theorem readLong_longer (h : registry.readLong .commandLine token rest = .ok r)
    (hr : ReadsAs registry o r) : registry.readLong .commandLine token' rest = .ok r := by
  rw [readLong_eq_ok_iff] at h ⊢
  exact h.longer hl hname hs hp hp' ht ht' hr

end Longer

theorem readLong_longer_output :
    let o : OptionDecl := ⟨some "-o", some "--output", .valued .int (.text "a"), by decide⟩
    let registry : Registry := [⟨none, some "--quiet", .flag .int false, by decide⟩, o]
    let rest : List Token := [⟨.word, "--quiet", 2⟩]
    let r : Reading OptionDecl := ⟨rest, registry, [o.holding "x"]⟩
    registry.readLong .commandLine ⟨.word, "--o=x", 1⟩ rest = .ok r ∧ ReadsAs registry o r ∧
      registry.readLong .commandLine ⟨.word, "--outp=x", 1⟩ rest = .ok r := by
  intro o registry rest r
  have hshort : registry.readLong .commandLine ⟨.word, "--o=x", 1⟩ rest = .ok r := by
    have hread : Assignment.read? "--o=x" = some ⟨"--o", some "x"⟩ := by decide +kernel
    have hone : registry.candidates .commandLine "--o" = [o] := by rfl
    exact readLong_eq_ok_iff.mpr (.assigned hread hone rfl rfl)
  have hreads : ReadsAs registry o r := by
    refine ⟨by simp [registry], rfl, o.holding "x", .text "x", rfl, ?_⟩
    exact OptionDecl.binds_holding rfl "x"
  have hsuffix : Assigns "=x" := .inr ⟨"x", by decide, by decide +kernel⟩
  exact ⟨hshort, hreads, readLong_longer rfl (by decide) hsuffix (show
    Text.startsWith "--outp" "--o" = true by decide +kernel) (by decide +kernel)
    (by decide +kernel) (by decide +kernel) hshort hreads⟩

end Registry

end Synopsis
