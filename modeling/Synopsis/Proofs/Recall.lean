import Synopsis.Proofs.Growth

/-!
What a growing registry recalls. A name that means one entry goes on meaning it, and a new entry is
what its own name means from then on. A usage pattern is therefore read again in the same way over the
registry that its first reading leaves, where the options that it was the first to mention are known
from the beginning.
-/
namespace Synopsis

namespace Registry

section Keys

variable {mode : Mode} {before after registry : Registry} {o : OptionDecl} {name : String}

/-- Entries with the same key, short or long, have a name in common. -/
def SharedKey (key : OptionDecl → Option String) : Prop :=
  ∀ {o e : OptionDecl} {name : String}, key o = some name → key e = some name → o.SharesName e

theorem sharedKey_long : SharedKey (·.long) := fun ho he => .inr ⟨_, ho, he⟩

theorem sharedKey_short : SharedKey (·.short) := fun ho he => .inl ⟨_, ho, he⟩

theorem Grows.filter {key : OptionDecl → Option String} (hkey : SharedKey key)
    (h : Grows mode before after) (ho : before.filter (key · == some name) = [o]) :
    after.filter (key · == some name) = [o] := by
  induction h with
  | refl => exact ho
  | @add after e h he ih =>
    obtain ⟨hmem, hname⟩ : o ∈ after ∧ key o = some name := by
      have hin : o ∈ after.filter (key · == some name) := by
        rw [ih]
        exact List.mem_singleton_self o
      simpa using hin
    have hne : key e ≠ some name := fun hn => he.apart o hmem (hkey hn hname)
    simp [ih, hne]

theorem Admits.filter {key : OptionDecl → Option String} (hkey : SharedKey key)
    (h : Admits mode registry o) (ho : key o = some name) :
    (registry ++ [o]).filter (key · == some name) = [o] := by
  have hnone : registry.filter (key · == some name) = [] := by
    apply List.filter_eq_nil_iff.mpr
    intro e he hn
    exact h.apart e he (hkey ho (by simpa using hn))
  simp [hnone, ho]

theorem Grows.withLong (h : Grows mode before after) (ho : before.withLong name = [o]) :
    after.withLong name = [o] := h.filter sharedKey_long ho

theorem Grows.withShort (h : Grows mode before after) (ho : before.withShort name = [o]) :
    after.withShort name = [o] := h.filter sharedKey_short ho

theorem Admits.withLong (h : Admits mode registry o) (ho : o.long = some name) :
    (registry ++ [o]).withLong name = [o] := h.filter sharedKey_long ho

theorem Admits.withShort (h : Admits mode registry o) (ho : o.short = some name) :
    (registry ++ [o]).withShort name = [o] := h.filter sharedKey_short ho

end Keys

variable {mode : Mode} {token : Token} {rest : List Token} {registry later : Registry}

/-- A long option of a usage pattern is read in the same way once it is known. -/
theorem ReadsLong.again {r : Reading OptionDecl} (h : ReadsLong .usage token rest registry r)
    (hg : Grows mode r.registry later) :
    ReadsLong .usage token rest later { r with registry := later } := by
  have hlater : ∀ {a : Assignment} {o : OptionDecl}, r.registry.withLong a.name = [o] →
      later.candidates .usage a.name = [o] := by
    intro a o ho
    rw [candidates_usage]
    exact hg.withLong ho
  cases h with
  | @added a o ha hc ho =>
    obtain ⟨hl, -, ht⟩ := fields_of_declareLong ho
    have hfound := hlater ((admits_declareLong hc ho).withLong hl)
    rw [Mode.met_usage]
    cases hv : a.value with
    | none => exact .flag ha hfound (by rw [ht, hv]; rfl) hv
    | some v => exact .assigned ha hfound (by rw [ht, hv]; rfl) hv
  | flag ha hc ht hv => exact .flag ha (hlater (by rwa [candidates_usage] at hc)) ht hv
  | assigned ha hc ht hv => exact .assigned ha (hlater (by rwa [candidates_usage] at hc)) ht hv
  | followed ha hc ht hv hr hw =>
    exact .followed ha (hlater (by rwa [candidates_usage] at hc)) ht hv hr hw

theorem ReadsChars.again {cs : List Char} {r : Reading OptionDecl}
    (h : ReadsChars .usage rest registry cs r) (hg : Grows mode r.registry later) :
    ReadsChars .usage rest later cs { r with registry := later } := by
  induction h with
  | nil => exact .nil
  | @fresh registry c cs r hc hs hr ih =>
    have hnew : r.registry.withShort (OptionDecl.shortOf c) = [OptionDecl.ofChar c hc] :=
      hr.grows.withShort ((admits_ofChar .usage hc hs).withShort rfl)
    exact .flag hc (hg.withShort hnew) rfl (ih hg)
  | flag hc hs ht hr ih => exact .flag hc (hg.withShort (hr.grows.withShort hs)) ht (ih hg)
  | attached hc hs ht hne => exact .attached hc (hg.withShort hs) ht hne
  | followed hc hs ht hr hw => exact .followed hc (hg.withShort hs) ht hr hw

end Registry

namespace Usage

variable {mode : Mode} {registry later : Registry}

theorem ReadsWord.again {token : Token} {rest : List Token} {r : Reading Leaf}
    (h : ReadsWord token rest registry r) (hg : Registry.Grows mode r.registry later) :
    ReadsWord token rest later { r with registry := later } := by
  cases h with
  | anyOptions hs => exact .anyOptions hs
  | long hs hr => exact .long hs (hr.again hg)
  | cluster hs hc hr => exact .cluster hs hc (hr.again hg)
  | argument hs => exact .argument hs
  | command hs hne => exact .command hs hne

/-- Whatever is read over a registry is read in the same way over any later one, which stays as it
is. -/
theorem Reads.again {part : Part} {tokens : List Token} {r : Reading Pattern}
    (h : Reads part tokens registry r) (hg : Registry.Grows .usage r.registry later) :
    Reads part tokens later { r with registry := later } := by
  induction h with
  | word hk hr =>
    have hword := (readWord_eq_ok_iff.mp hr).again hg
    exact .word hk (readWord_eq_ok_iff.mpr hword)
  | group hk hc he hn ih => exact .group hk hc (ih hg) hn
  | stop hb => exact .stop hb
  | @more tokens registry a s ha hs iha ihs =>
    have hatom : Registry.Grows .usage a.registry later := by
      rw [← registry_repeated a]
      exact (grows_of_reads hs).trans hg
    have hmore := Reads.more (iha hatom) (by rw [repeated_over]; exact ihs hg)
    rw [repeated_over] at hmore
    exact hmore
  | last hp => exact .last hp
  | branch hp hs hb ihs ihb => exact .branch hp (ihs ((grows_of_reads hb).trans hg)) (ihb hg)
  | single hs hp ihs => exact .single (ihs hg) hp
  | several hs hp hb ihs ihb =>
    exact .several (ihs ((grows_of_reads hb).trans hg)) hp (ihb hg)

/-- A usage pattern parsed over the registry that it leaves gives the same tree and adds nothing. -/
theorem parse_again {usage : String} {registry : Registry} {p : Parsed}
    (h : parse usage registry = .ok p) : parse usage p.registry = .ok p := by
  obtain ⟨found, hr, hp⟩ := reads_of_ofTokens h
  have hagain := ofTokens_of_reads (hr.again .refl)
  rw [← hp] at hagain
  exact hagain

theorem parse_again_discovered :
    let out : OptionDecl := ⟨some "-o", some "--out", .valued .int .null, by decide⟩
    let usage := "[ -vqo FILE ] ( --new=<y> -- | -q --new <z> )... --out -v"
    ∃ p, parse usage [out] = .ok p ∧ p.registry.length = 4 ∧ parse usage p.registry = .ok p := by
  intro out usage
  obtain ⟨p, hp, hlen⟩ := exists_ok_of_any (show
    (parse usage [out]).toOption.any (·.registry.length == 4) = true by decide +kernel)
  exact ⟨p, hp, beq_iff_eq.mp hlen, parse_again hp⟩

end Usage

end Synopsis
