import Synopsis.Proofs.Stretches
import Synopsis.Request

/-!
One switch in a usage pattern and on a command line. Both leave the same tokens and the same registry,
or refuse the switch for the same reason, so that they never disagree about how many words it takes;
the pattern finds the declaration and the command line the declaration with a value. For long names
this holds of all that abbreviate no other one, since only a command line knows abbreviations.
-/
namespace Synopsis

namespace OptionDecl

/-- The leaf is the declaration with a value from a command line: a flag is on, and any other option
holds a text. -/
def Bears (o leaf : OptionDecl) : Prop :=
  if o.takesValue = true then ∃ v, o.Binds leaf (.text v) else o.Binds leaf (.bool true)

variable {o : OptionDecl}

theorem bears_flag (h : o.takesValue = false) : o.Bears (Mode.commandLine.flag o) := by
  rw [Bears, if_neg (by simp [h])]
  exact binds_switchedOn h

theorem bears_valued (h : o.takesValue = true) (v : String) :
    o.Bears (Mode.commandLine.valued o v) := by
  rw [Bears, if_pos h]
  exact ⟨v, binds_holding h v⟩

theorem bears_met {value : Option String} (h : o.takesValue = value.isSome) :
    o.Bears (Mode.commandLine.met o value) := by
  cases value with
  | none => exact bears_flag h
  | some v => exact bears_valued h v

end OptionDecl

namespace Registry

variable {mode : Mode} {token : Token} {rest : List Token} {registry : Registry}

/-- The name is the long name of an entry, or no long name begins with it. -/
def Settles (registry : Registry) (name : String) : Prop :=
  (∃ o ∈ registry, o.long = some name) ∨
    ∀ o ∈ registry, ∀ long, o.long = some long → Text.startsWith long name = false

theorem Settles.candidates {name : String} (h : registry.Settles name) :
    registry.candidates .commandLine name = registry.candidates .usage name := by
  rw [candidates_usage]
  unfold Registry.candidates
  split_ifs with hnone
  · rw [hnone.2]
    rcases h with ⟨o, ho, hl⟩ | hfrom
    · have hmem : o ∈ registry.withLong name := List.mem_filter.mpr ⟨ho, by simp [hl]⟩
      rw [hnone.2] at hmem
      cases hmem
    · apply List.filter_eq_nil_iff.mpr
      intro o ho hstarts
      obtain ⟨long, hl, hstart⟩ := (Option.any_eq_true _ _).mp hstarts
      rw [hfrom o ho long hl] at hstart
      cases hstart
  · rfl

section Long

variable (hc : ∀ a, Assignment.read? token.text = some a →
    registry.candidates .commandLine a.name = registry.candidates .usage a.name)
include hc

/-- A long option that a usage pattern reads is read on a command line too, in as many words. -/
theorem ReadsLong.onCommandLine {r : Reading OptionDecl}
    (h : ReadsLong .usage token rest registry r) :
    ∃ leaves, ReadsLong .commandLine token rest registry { r with found := leaves } ∧
      List.Forall₂ OptionDecl.Bears r.found leaves := by
  cases h with
  | added ha hnone ho =>
    have hmet := OptionDecl.bears_met (fields_of_declareLong ho).2.2
    exact ⟨_, .added ha ((hc _ ha).trans hnone) ho, .cons (by rwa [Mode.met_usage]) .nil⟩
  | flag ha hone ht hv =>
    exact ⟨_, .flag ha ((hc _ ha).trans hone) ht hv, .cons (OptionDecl.bears_flag ht) .nil⟩
  | assigned ha hone ht hv =>
    exact ⟨_, .assigned ha ((hc _ ha).trans hone) ht hv,
      .cons (OptionDecl.bears_valued ht _) .nil⟩
  | followed ha hone ht hv hr hw =>
    exact ⟨_, .followed ha ((hc _ ha).trans hone) ht hv hr hw,
      .cons (OptionDecl.bears_valued ht _) .nil⟩

theorem RefusesLong.onCommandLine {x : Complaint}
    (h : RefusesLong .usage token rest registry x) :
    RefusesLong .commandLine token rest registry x := by
  cases h with
  | unsplittable ha => exact .unsplittable ha
  | undeclarable ha hnone ho => exact .undeclarable ha ((hc _ ha).trans hnone) ho
  | unexpected ha hone ht hv => exact .unexpected ha ((hc _ ha).trans hone) ht hv
  | missing ha hone ht hv hr => exact .missing ha ((hc _ ha).trans hone) ht hv hr
  | ambiguous ha hmany => exact .ambiguous ha ((hc _ ha).trans hmany)

end Long

/-- The characters of a cluster are the same options in either place: what one of them adds to the
registry is there for those behind it. -/
theorem ReadsChars.onCommandLine {cs : List Char} {r : Reading OptionDecl}
    (h : ReadsChars .usage rest registry cs r) :
    ∃ leaves, ReadsChars .commandLine rest registry cs { r with found := leaves } ∧
      List.Forall₂ OptionDecl.Bears r.found leaves := by
  induction h with
  | nil => exact ⟨[], .nil, .nil⟩
  | @fresh registry c cs r hc hs hr ih =>
    obtain ⟨leaves, hread, hbears⟩ := ih
    have hnew : (OptionDecl.ofChar c hc).Bears (Mode.commandLine.flag _) :=
      OptionDecl.bears_flag rfl
    exact ⟨_ :: leaves, .fresh hc hs hread, .cons hnew hbears⟩
  | flag hc hs ht hr ih =>
    obtain ⟨leaves, hread, hbears⟩ := ih
    exact ⟨_ :: leaves, .flag hc hs ht hread, .cons (OptionDecl.bears_flag ht) hbears⟩
  | attached hc hs ht hne =>
    exact ⟨_, .attached hc hs ht hne, .cons (OptionDecl.bears_valued ht _) .nil⟩
  | followed hc hs ht hr hw =>
    exact ⟨_, .followed hc hs ht hr hw, .cons (OptionDecl.bears_valued ht _) .nil⟩

theorem RefusesChars.onCommandLine {cs : List Char} {x : Complaint}
    (h : RefusesChars .usage token rest registry cs x) :
    RefusesChars .commandLine token rest registry cs x := by
  induction h with
  | dash => exact .dash
  | fresh hc hs hx ih => exact .fresh hc hs ih
  | flag hc hs ht hx ih => exact .flag hc hs ht ih
  | missing hc hs ht hr => exact .missing hc hs ht hr
  | repeated hc hs => exact .repeated hc hs

theorem ReadsLong.declared {r : Reading OptionDecl} (h : ReadsLong .usage token rest registry r) :
    ∀ o ∈ r.found, o ∈ r.registry := by
  obtain ⟨-, o, name, hfound, ho, -⟩ := h.extends
  rw [hfound]
  simpa using ho

theorem ReadsChars.declared {cs : List Char} {r : Reading OptionDecl}
    (h : ReadsChars .usage rest registry cs r) : ∀ o ∈ r.found, o ∈ r.registry := by
  obtain ⟨-, chars, -, hheld, -⟩ := h.extends
  exact ((List.forall₂_and_left _ _).mp hheld).1

/-- What a usage pattern and a command line make of one switch goes on alike. -/
def Alike : Except Failure (Reading OptionDecl) → Except Failure (Reading OptionDecl) → Prop
  | .ok r, .ok s =>
    s.rest = r.rest ∧ s.registry = r.registry ∧ List.Forall₂ OptionDecl.Bears r.found s.found
  | .error f, .error g => f = g
  | _, _ => False

theorem readChars_alike (token : Token) (rest : List Token) (registry : Registry)
    (cs : List Char) :
    Alike (readChars .usage token rest registry cs)
      (readChars .commandLine token rest registry cs) := by
  cases h : readChars .usage token rest registry cs with
  | ok r =>
    obtain ⟨leaves, hread, hbears⟩ := (readChars_eq_ok_iff.mp h).onCommandLine
    rw [readChars_eq_ok_iff.mpr hread]
    exact ⟨rfl, rfl, hbears⟩
  | error f =>
    obtain ⟨x, rfl, hx⟩ := readChars_eq_error_iff.mp h
    rw [readChars_eq_error_iff.mpr ⟨x, rfl, hx.onCommandLine⟩]
    rfl

theorem readCluster_cases (token : Token) (rest : List Token) (registry : Registry) :
    (∃ cs, ∀ mode, registry.readCluster mode token rest = readChars mode token rest registry cs) ∨
      ∀ mode, registry.readCluster mode token rest =
        .error (.misuse (.notCluster token.text)) := by
  unfold readCluster
  split
  next c cs hs =>
    by_cases hc : c = '-'
    · exact .inr fun mode => by rw [if_pos hc]
    · exact .inl ⟨c :: cs, fun mode => by rw [if_neg hc]⟩
  next => exact .inr fun mode => rfl

theorem readCluster_alike (token : Token) (rest : List Token) (registry : Registry) :
    Alike (registry.readCluster .usage token rest)
      (registry.readCluster .commandLine token rest) := by
  rcases readCluster_cases token rest registry with ⟨cs, h⟩ | h
  · rw [h, h]
    exact readChars_alike token rest registry cs
  · rw [h, h]
    rfl

theorem declared_of_readCluster {r : Reading OptionDecl}
    (h : registry.readCluster .usage token rest = .ok r) : ∀ o ∈ r.found, o ∈ r.registry := by
  rcases readCluster_cases token rest registry with ⟨cs, hcs⟩ | hnot
  · rw [hcs] at h
    exact (readChars_eq_ok_iff.mp h).declared
  · rw [hnot] at h
    cases h

theorem readLong_alike (rest : List Token)
    (hs : ∀ a, Assignment.read? token.text = some a → registry.Settles a.name) :
    Alike (registry.readLong .usage token rest) (registry.readLong .commandLine token rest) := by
  have hc := fun a ha => (hs a ha).candidates
  cases h : registry.readLong .usage token rest with
  | ok r =>
    obtain ⟨leaves, hread, hbears⟩ := (readLong_eq_ok_iff.mp h).onCommandLine hc
    rw [readLong_eq_ok_iff.mpr hread]
    exact ⟨rfl, rfl, hbears⟩
  | error f =>
    obtain ⟨x, rfl, hx⟩ := readLong_eq_error_iff.mp h
    rw [readLong_eq_error_iff.mpr ⟨x, rfl, hx.onCommandLine hc⟩]
    rfl

end Registry

namespace Request

open Registry

/-- Whatever stream a switch stands in front of, a cluster is read alike in a usage pattern and on a
command line, and so is a long name that abbreviates no other; the pattern finds entries of the
registry that is left. -/
theorem switch_alike (stream : List Token) (registry : Registry) :
    Alike (cluster .usage stream registry) (cluster .commandLine stream registry) ∧
      ((∀ token ∈ stream.head?, ∀ a, Assignment.read? token.text = some a →
          registry.Settles a.name) →
        Alike (long .usage stream registry) (long .commandLine stream registry)) ∧
      ∀ r, cluster .usage stream registry = .ok r ∨ long .usage stream registry = .ok r →
        ∀ o ∈ r.found, o ∈ r.registry := by
  cases stream with
  | nil =>
    refine ⟨rfl, fun _ => rfl, ?_⟩
    rintro r (hr | hr) <;> cases hr
  | cons token rest =>
    refine ⟨readCluster_alike token rest registry, ?_, ?_⟩
    · intro hs
      exact readLong_alike rest (hs token rfl)
    · rintro r (hr | hr)
      · exact declared_of_readCluster hr
      · exact (readLong_eq_ok_iff.mp hr).declared

theorem switch_alike_longer_name :
    let registry : Registry := [⟨some "-o", some "--out", .valued .int .null, by decide⟩,
      ⟨none, some "--output", .flag .int false, by decide⟩]
    let stream : List Token := [⟨.word, "--out", 1⟩, ⟨.word, "-o", 2⟩, ⟨.closer, "]", 3⟩]
    (∀ token ∈ stream.head?, ∀ a, Assignment.read? token.text = some a →
        registry.Settles a.name) ∧
      ∃ r s, long .usage stream registry = .ok r ∧ long .commandLine stream registry = .ok s ∧
        r.rest.length = 1 ∧ s.rest = r.rest ∧ s.registry = r.registry ∧
          List.Forall₂ OptionDecl.Bears r.found s.found ∧ ∀ o ∈ r.found, o ∈ r.registry := by
  intro registry stream
  have hs : ∀ token ∈ stream.head?, ∀ a, Assignment.read? token.text = some a →
      registry.Settles a.name := by
    rintro token ⟨⟩ a ha
    have hread : Assignment.read? "--out" = some ⟨"--out", none⟩ := by decide +kernel
    cases hread.symm.trans ha
    exact .inl ⟨_, List.mem_cons_self, rfl⟩
  obtain ⟨r, hr, hlen⟩ := Usage.exists_ok_of_any (show
    (long .usage stream registry).toOption.any (·.rest.length == 1) = true by decide +kernel)
  obtain ⟨s, hread, -⟩ := Usage.exists_ok_of_any (show
    (long .commandLine stream registry).toOption.any (fun _ => true) = true by decide +kernel)
  obtain ⟨-, halike, hdeclared⟩ := switch_alike stream registry
  have hboth := halike hs
  rw [hr, hread] at hboth
  exact ⟨hs, r, s, hr, hread, beq_iff_eq.mp hlen, hboth.1, hboth.2.1, hboth.2.2,
    hdeclared r (.inr hr)⟩

end Request

end Synopsis
