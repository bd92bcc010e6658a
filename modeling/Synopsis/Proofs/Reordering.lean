import Synopsis.Proofs.Placement

/-!
The order of a registry. Over registries with the same entries in another order, usage patterns and
command lines are read alike and add the same entries, and they are refused alike; only the list of what
an ambiguous name could mean is in the order of the registry.
-/
namespace Synopsis

/-- The failures are the same, up to the order of what an ambiguous name could mean. -/
inductive Failure.Reordered : Failure → Failure → Prop where
  | same (f : Failure) : Reordered f f
  | ambiguous {token : Token} {name : String} {candidates candidates' : List String}
      (h : candidates.Perm candidates') :
      Reordered (.complaint (.ambiguous token name candidates))
        (.complaint (.ambiguous token name candidates'))

theorem Failure.Reordered.sameFault {f g : Failure} {fault : Fault} (h : f.Reordered g)
    (hf : f.report = .ok fault) : f.SameFault g := by
  cases h with
  | same => exact ⟨fault, fault, hf, hf, rfl, rfl⟩
  | @ambiguous token name candidates candidates' =>
    cases hw : token.whereabouts with
    | error m =>
      simp only [Failure.report, Complaint.report, hw] at hf
      cases hf
    | ok place =>
      unfold Failure.SameFault
      simp only [Failure.report, Complaint.report, hw]
      refine ⟨_, _, rfl, rfl, ?_, ?_⟩
      · simp only [Fault.titled_kind]
      · simp only [Fault.titled_token_candidates]

theorem eq_of_perm_of_length_lt {α : Type} {l l' : List α} (h : l.Perm l') (hs : l.length < 2) :
    l' = l := by
  match l, hs with
  | [], _ => exact h.nil_eq.symm
  | [a], _ => exact h.singleton_eq.symm

theorem exists_several_of_perm {α : Type} {a b : α} {rest l : List α}
    (h : (a :: b :: rest).Perm l) : ∃ c d rest', l = c :: d :: rest' := by
  have hlen := h.length_eq
  rcases l with - | ⟨c, - | ⟨d, rest'⟩⟩
  · simp at hlen
  · simp at hlen
  · exact ⟨c, d, rest', rfl⟩

namespace Registry

variable {mode : Mode} {token : Token} {rest : List Token} {left right : Registry}

theorem candidates_perm (h : left.Perm right) (mode : Mode) (name : String) :
    (left.candidates mode name).Perm (right.candidates mode name) := by
  have hlong : (left.withLong name).Perm (right.withLong name) := h.filter _
  have hnone : left.withLong name = [] ↔ right.withLong name = [] :=
    ⟨fun hl => (hl ▸ hlong).nil_eq.symm, fun hr => (hr ▸ hlong).eq_nil⟩
  unfold candidates
  simp only [hnone]
  split
  · exact h.filter _
  · exact hlong

theorem candidates_of_perm (h : left.Perm right) {name : String} {os : List OptionDecl}
    (hs : os.length < 2) (hc : left.candidates mode name = os) :
    right.candidates mode name = os := by
  subst hc
  exact eq_of_perm_of_length_lt (candidates_perm h mode name) hs

theorem withShort_of_perm (h : left.Perm right) {name : String} {os : List OptionDecl}
    (hs : os.length < 2) (hc : left.withShort name = os) : right.withShort name = os := by
  subst hc
  exact eq_of_perm_of_length_lt (h.filter _) hs

/-- What makes `after` of one registry adds the same entries to the other, where it is read with that
outcome. -/
def AddsAlike (left right after : Registry) (reads : Registry → Prop) : Prop :=
  ∃ added, after = left ++ added ∧ reads (right ++ added)

namespace AddsAlike

variable {after : Registry} {reads reads' : Registry → Prop}

theorem entries (left : Registry) {added : Registry} (h : reads (right ++ added)) :
    AddsAlike left right (left ++ added) reads := ⟨added, rfl, h⟩

theorem nothing (left : Registry) (h : reads right) : AddsAlike left right left reads := by
  refine ⟨[], (List.append_nil left).symm, ?_⟩
  rwa [List.append_nil]

theorem imp (h : AddsAlike left right after reads)
    (himp : ∀ registry, reads registry → reads' registry) :
    AddsAlike left right after reads' := by
  obtain ⟨added, hadded, hr⟩ := h
  exact ⟨added, hadded, himp _ hr⟩

/-- What is added behind entries that were added alike is added alike. -/
theorem further {first : Registry}
    (h : AddsAlike (left ++ first) (right ++ first) after reads) :
    AddsAlike left right after reads := by
  obtain ⟨second, hsecond, hr⟩ := h
  rw [List.append_assoc] at hsecond hr
  exact ⟨first ++ second, hsecond, hr⟩

end AddsAlike

theorem ReadsLong.reordered {r : Reading OptionDecl} (h : ReadsLong mode token rest left r)
    (hp : left.Perm right) :
    AddsAlike left right r.registry fun registry =>
      ReadsLong mode token rest right { r with registry := registry } := by
  cases h with
  | added ha hc ho => exact .entries left (.added ha (candidates_of_perm hp (by simp) hc) ho)
  | flag ha hc ht hv => exact .nothing left (.flag ha (candidates_of_perm hp (by simp) hc) ht hv)
  | assigned ha hc ht hv =>
    exact .nothing left (.assigned ha (candidates_of_perm hp (by simp) hc) ht hv)
  | followed ha hc ht hv hr hw =>
    exact .nothing left (.followed ha (candidates_of_perm hp (by simp) hc) ht hv hr hw)

theorem ReadsChars.reordered {cs : List Char} {r : Reading OptionDecl}
    (h : ReadsChars mode rest left cs r) (hp : left.Perm right) :
    AddsAlike left right r.registry fun registry =>
      ReadsChars mode rest right cs { r with registry := registry } := by
  induction h generalizing right with
  | nil => exact .nothing _ .nil
  | @fresh left c cs r hc hs hr ih =>
    have hlater := ih (hp.append_right [OptionDecl.ofChar c hc])
    refine AddsAlike.further (hlater.imp fun registry hread => ?_)
    exact .fresh hc (withShort_of_perm hp (by simp) hs) hread
  | flag hc hs ht hr ih =>
    exact (ih hp).imp fun registry => .flag hc (withShort_of_perm hp (by simp) hs) ht
  | attached hc hs ht hne =>
    exact .nothing _ (.attached hc (withShort_of_perm hp (by simp) hs) ht hne)
  | followed hc hs ht hr hw =>
    exact .nothing _ (.followed hc (withShort_of_perm hp (by simp) hs) ht hr hw)

theorem RefusesLong.reordered {x : Complaint} (h : RefusesLong mode token rest left x)
    (hp : left.Perm right) :
    ∃ y, (Failure.complaint x).Reordered (.complaint y) ∧
      RefusesLong mode token rest right y := by
  cases h with
  | unsplittable ha => exact ⟨_, .same _, .unsplittable ha⟩
  | undeclarable ha hc ho =>
    exact ⟨_, .same _, .undeclarable ha (candidates_of_perm hp (by simp) hc) ho⟩
  | unexpected ha hc ht hv =>
    exact ⟨_, .same _, .unexpected ha (candidates_of_perm hp (by simp) hc) ht hv⟩
  | missing ha hc ht hv hr =>
    exact ⟨_, .same _, .missing ha (candidates_of_perm hp (by simp) hc) ht hv hr⟩
  | @ambiguous a o o' os ha hc =>
    have hperm := candidates_perm hp mode a.name
    rw [hc] at hperm
    obtain ⟨e, e', es, he⟩ := exists_several_of_perm hperm
    rw [he] at hperm
    exact ⟨_, .ambiguous (hperm.map _), .ambiguous ha he⟩

/-- The characters of a cluster are refused for the same thing: a short name that is declared several
times is declared as often in any order. -/
theorem RefusesChars.reordered {cs : List Char} {x : Complaint}
    (h : RefusesChars mode token rest left cs x) (hp : left.Perm right) :
    RefusesChars mode token rest right cs x := by
  induction h generalizing right with
  | dash => exact .dash
  | fresh hc hs hx ih =>
    exact .fresh hc (withShort_of_perm hp (by simp) hs) (ih (hp.append_right _))
  | flag hc hs ht hx ih => exact .flag hc (withShort_of_perm hp (by simp) hs) ht (ih hp)
  | missing hc hs ht hr => exact .missing hc (withShort_of_perm hp (by simp) hs) ht hr
  | @repeated left c cs o o' os hc hs =>
    have hperm : (left.withShort (OptionDecl.shortOf c)).Perm
        (right.withShort (OptionDecl.shortOf c)) := hp.filter _
    rw [hs] at hperm
    obtain ⟨e, e', es, he⟩ := exists_several_of_perm hperm
    rw [he] at hperm
    rw [hperm.length_eq]
    exact .repeated hc he

end Registry

namespace Usage

variable {token : Token} {tokens rest : List Token} {left right : Registry}

theorem ReadsWord.reordered {r : Reading Leaf} (h : ReadsWord token rest left r)
    (hp : left.Perm right) :
    Registry.AddsAlike left right r.registry fun registry =>
      ReadsWord token rest right { r with registry := registry } := by
  cases h with
  | anyOptions hs => exact .nothing left (.anyOptions hs)
  | long hs hr => exact (hr.reordered hp).imp fun registry hread => .long hs hread
  | cluster hs hc hr => exact (hr.reordered hp).imp fun registry hread => .cluster hs hc hread
  | argument hs => exact .nothing left (.argument hs)
  | command hs hne => exact .nothing left (.command hs hne)

theorem RefusesWord.reordered {f : Failure} (h : RefusesWord token rest left f)
    (hp : left.Perm right) : ∃ g, f.Reordered g ∧ RefusesWord token rest right g := by
  cases h with
  | empty hs => exact ⟨_, .same _, .empty hs⟩
  | long hs hx =>
    obtain ⟨y, hy, hx⟩ := hx.reordered hp
    exact ⟨_, hy, .long hs hx⟩
  | cluster hs hc hx => exact ⟨_, .same _, .cluster hs hc (hx.reordered hp)⟩

/-- Each part of the grammar adds the same entries to either registry. -/
theorem Reads.reordered {part : Part} {r : Reading Pattern} (h : Reads part tokens left r)
    (hp : left.Perm right) :
    Registry.AddsAlike left right r.registry fun registry =>
      Reads part tokens right { r with registry := registry } := by
  induction h generalizing right with
  | word hk hr =>
    have hword := (readWord_eq_ok_iff.mp hr).reordered hp
    exact hword.imp fun registry hread => .word hk (readWord_eq_ok_iff.mpr hread)
  | group hk hc he hn ih => exact (ih hp).imp fun registry hread => .group hk hc hread hn
  | stop hb => exact .nothing _ (.stop hb)
  | @more tokens left a s ha hs iha ihs =>
    obtain ⟨first, hfirst, hatom⟩ := iha hp
    rw [registry_repeated, hfirst] at ihs
    refine Registry.AddsAlike.further ((ihs (hp.append_right first)).imp fun registry hseq => ?_)
    have hmore := Reads.more hatom (by rw [repeated_over]; exact hseq)
    rw [repeated_over] at hmore
    exact hmore
  | last hl => exact .nothing _ (.last hl)
  | @branch tokens rest left s b hl hs hb ihs ihb =>
    obtain ⟨first, hfirst, hseq⟩ := ihs hp
    rw [hfirst] at ihb
    refine Registry.AddsAlike.further ((ihb (hp.append_right first)).imp fun registry hrest => ?_)
    exact .branch hl hseq hrest
  | single hs hl ihs => exact (ihs hp).imp fun registry hseq => .single hseq hl
  | @several tokens left s b hs hl hb ihs ihb =>
    obtain ⟨first, hfirst, hseq⟩ := ihs hp
    rw [hfirst] at ihb
    refine Registry.AddsAlike.further ((ihb (hp.append_right first)).imp fun registry hrest => ?_)
    exact .several hseq hl hrest

/-- What breaks off over one registry breaks off over the other in the same way. -/
theorem Fails.reordered {part : Part} {f : Failure} (h : Fails part tokens left f)
    (hp : left.Perm right) : ∃ g, f.Reordered g ∧ Fails part tokens right g := by
  induction h generalizing right with
  | empty => exact ⟨_, .same _, .empty⟩
  | unknown hk hc => exact ⟨_, .same _, .unknown hk hc⟩
  | misplaced hb => exact ⟨_, .same _, .misplaced hb⟩
  | word hk hr =>
    obtain ⟨g, hg, hword⟩ := (readWord_eq_error_iff.mp hr).reordered hp
    exact ⟨g, hg, .word hk (readWord_eq_error_iff.mpr hword)⟩
  | inside hk hc he ih =>
    obtain ⟨g, hg, hinside⟩ := ih hp
    exact ⟨g, hg, .inside hk hc hinside⟩
  | unclosed hk hc he hn =>
    obtain ⟨added, -, hread⟩ := he.reordered hp
    exact ⟨_, .same _, .unclosed hk hc hread hn⟩
  | first hb ha ih =>
    obtain ⟨g, hg, hatom⟩ := ih hp
    exact ⟨g, hg, .first hb hatom⟩
  | more ha hs ih =>
    obtain ⟨added, hadded, hatom⟩ := ha.reordered hp
    rw [registry_repeated, hadded] at ih
    obtain ⟨g, hg, hseq⟩ := ih (hp.append_right added)
    exact ⟨g, hg, .more hatom (by rw [repeated_over]; exact hseq)⟩
  | branch hl hs ih =>
    obtain ⟨g, hg, hseq⟩ := ih hp
    exact ⟨g, hg, .branch hl hseq⟩
  | later hl hs hb ih =>
    obtain ⟨added, hadded, hseq⟩ := hs.reordered hp
    rw [hadded] at ih
    obtain ⟨g, hg, hbranches⟩ := ih (hp.append_right added)
    exact ⟨g, hg, .later hl hseq hbranches⟩
  | single hs ih =>
    obtain ⟨g, hg, hseq⟩ := ih hp
    exact ⟨g, hg, .single hseq⟩
  | several hs hl hb ih =>
    obtain ⟨added, hadded, hseq⟩ := hs.reordered hp
    rw [hadded] at ih
    obtain ⟨g, hg, hbranches⟩ := ih (hp.append_right added)
    exact ⟨g, hg, .several hseq hl hbranches⟩

theorem exists_report_of_parse {usage : String} {registry : Registry} {f : Failure}
    (h : parse usage registry = .error f) : ∃ fault, f.report = .ok fault := by
  have hs : ∀ t ∈ Token.scan usage, t.Scanned := fun t ht => Token.scanned_of_mem_scan ht
  rcases fails_of_ofTokens h with hf | ⟨first, rest, registry', found, hr, rfl⟩
  · rcases excused_of_fails hf hs (by simp) with
      ⟨token, ht, c, rfl, hc⟩ | ⟨opener, ho, closer, -, rfl, -⟩
    · obtain ⟨fault, -, hfault, -⟩ := isOptionFault_of_blames (hs token ht).placed hc
      exact ⟨fault, hfault⟩
    · obtain ⟨fault, hfault, -⟩ := report_missingEnclosure closer (hs opener ho).placed
      exact ⟨fault, hfault⟩
  · have hfirst : first ∈ Token.scan usage := (suffix_of_reads hr).subset (by simp)
    obtain ⟨fault, hfault, -⟩ := report_unconsumed rest (hs first hfirst).placed
    exact ⟨fault, hfault⟩

theorem ofTokens_reordered {f : Failure} (h : ofTokens tokens left = .error f)
    (hp : left.Perm right) : ∃ g, f.Reordered g ∧ ofTokens tokens right = .error g := by
  rcases fails_of_ofTokens h with hf | ⟨first, rest, registry', found, hr, rfl⟩
  · obtain ⟨g, hg, hf⟩ := hf.reordered hp
    exact ⟨g, hg, ofTokens_of_fails hf⟩
  · obtain ⟨added, -, hr⟩ := hr.reordered hp
    exact ⟨_, .same _, ofTokens_of_leftover hr⟩

end Usage

namespace CommandLine

variable {optionsFirst : Bool} {token : Token} {tokens rest : List Token} {left right : Registry}

theorem Turn.reordered {r : Reading Leaf} (h : Turn token rest left r) (hp : left.Perm right) :
    Registry.AddsAlike left right r.registry fun registry =>
      Turn token rest right { r with registry := registry } := by
  cases h with
  | long hs hr => exact (hr.reordered hp).imp fun registry hread => .long hs hread
  | cluster hs hc hr => exact (hr.reordered hp).imp fun registry hread => .cluster hs hc hread
  | positional hs => exact .nothing left (.positional hs)

theorem Balks.reordered {x : Complaint} (h : Balks token rest left x) (hp : left.Perm right) :
    ∃ y, (Failure.complaint x).Reordered (.complaint y) ∧ Balks token rest right y := by
  cases h with
  | long hs hx =>
    obtain ⟨y, hy, hx⟩ := hx.reordered hp
    exact ⟨y, hy, .long hs hx⟩
  | cluster hs hc hx => exact ⟨_, .same _, .cluster hs hc (hx.reordered hp)⟩

theorem Run.reordered {p : Parsed} (h : Run optionsFirst tokens left p)
    (hp : left.Perm right) :
    Registry.AddsAlike left right p.registry fun registry =>
      Run optionsFirst tokens right { p with registry := registry } := by
  induction h generalizing right with
  | done => exact .nothing _ .done
  | ended he => exact .nothing _ (.ended he)
  | turned hn ht hr ih =>
    obtain ⟨first, hfirst, hturn⟩ := ht.reordered hp
    rw [hfirst] at ih
    refine Registry.AddsAlike.further ((ih (hp.append_right first)).imp fun registry hrun => ?_)
    exact .turned hn hturn hrun

theorem Stuck.reordered {x : Complaint} (h : Stuck optionsFirst tokens left x)
    (hp : left.Perm right) :
    ∃ y, (Failure.complaint x).Reordered (.complaint y) ∧ Stuck optionsFirst tokens right y := by
  induction h generalizing right with
  | here hn hb =>
    obtain ⟨y, hy, hb⟩ := hb.reordered hp
    exact ⟨y, hy, .here hn hb⟩
  | turned hn ht hs ih =>
    obtain ⟨added, hadded, hturn⟩ := ht.reordered hp
    rw [hadded] at ih
    obtain ⟨y, hy, hstuck⟩ := ih (hp.append_right added)
    exact ⟨y, hy, .turned hn hturn hstuck⟩

end CommandLine

/-- The answers are the same with the same entries added to either registry, or failures that are the
same up to the order of the registries and reported as faults of one kind about one word. -/
inductive AnswersAlike {α β : Type} (answer : α → Registry → β) (left right : Registry) :
    Except Failure β → Except Failure β → Prop where
  | ok (a : α) (added : Registry) :
      AnswersAlike answer left right (.ok (answer a (left ++ added)))
        (.ok (answer a (right ++ added)))
  | error {f g : Failure} (hr : f.Reordered g) (hs : f.SameFault g) :
      AnswersAlike answer left right (.error f) (.error g)

/-- The order of the options that are declared makes no difference to the tree of a usage pattern, to
the leaves of a command line, to the options that either discovers, or to what it is refused for. -/
theorem parse_reordered {left right : Registry} (h : left.Perm right) (usage : String)
    (argv : List String) (optionsFirst : Bool) :
    AnswersAlike Usage.Parsed.mk left right (Usage.parse usage left) (Usage.parse usage right) ∧
      AnswersAlike CommandLine.Parsed.mk left right (CommandLine.parse optionsFirst argv left)
        (CommandLine.parse optionsFirst argv right) := by
  constructor
  · cases hl : Usage.parse usage left with
    | ok p =>
      obtain ⟨tree, registry⟩ := p
      obtain ⟨found, hr, rfl⟩ := Usage.reads_of_ofTokens hl
      obtain ⟨added, rfl, hr⟩ := hr.reordered h
      rw [show Usage.parse usage right = _ from Usage.ofTokens_of_reads hr]
      exact .ok _ added
    | error f =>
      obtain ⟨g, hg, hr⟩ := Usage.ofTokens_reordered hl h
      obtain ⟨fault, hfault⟩ := Usage.exists_report_of_parse hl
      rw [show Usage.parse usage right = _ from hr]
      exact .error hg (hg.sameFault hfault)
  · rcases CommandLine.run_or_stuck optionsFirst (Token.ofWords argv) left with
      ⟨⟨leaves, registry⟩, hrun⟩ | ⟨x, hstuck⟩
    · obtain ⟨added, rfl, hright⟩ := hrun.reordered h
      rw [show CommandLine.parse optionsFirst argv left = _ from CommandLine.ofTokens_of_run hrun,
        show CommandLine.parse optionsFirst argv right = _ from
          CommandLine.ofTokens_of_run hright]
      exact .ok leaves added
    · obtain ⟨y, hy, hright⟩ := hstuck.reordered h
      obtain ⟨token, ht, hb⟩ := hstuck.blames
      obtain ⟨fault, -, hfault, -⟩ :=
        isOptionFault_of_blames (Token.placed_of_mem_ofWords ht) hb
      rw [show CommandLine.parse optionsFirst argv left = _ from
          CommandLine.ofTokens_of_stuck hstuck,
        show CommandLine.parse optionsFirst argv right = _ from
          CommandLine.ofTokens_of_stuck hright]
      exact .error hy (hy.sameFault hfault)

theorem parse_reordered_reversed :
    let verbose : OptionDecl := ⟨some "-v", some "--verbose", .flag .int false, by decide⟩
    let version : OptionDecl := ⟨none, some "--version", .valued .int .null, by decide⟩
    let out : OptionDecl := ⟨some "-o", some "--out", .valued .int .null, by decide⟩
    let registry : Registry := [verbose, version, out]
    let usage := "( -vq | --ou ) [ --out FILE ]..."
    registry.Perm registry.reverse ∧
      (∃ p, Usage.parse usage registry = .ok p ∧ p.registry.length = 5) ∧
      AnswersAlike Usage.Parsed.mk registry registry.reverse (Usage.parse usage registry)
        (Usage.parse usage registry.reverse) ∧
      (∃ f, CommandLine.parse false ["-q", "--ver"] registry = .error f ∧
        f.report.toOption.any (·.kind == some .ambiguousOption) = true) ∧
      AnswersAlike CommandLine.Parsed.mk registry registry.reverse
        (CommandLine.parse false ["-q", "--ver"] registry)
        (CommandLine.parse false ["-q", "--ver"] registry.reverse) := by
  intro verbose version out registry usage
  have hp : registry.Perm registry.reverse := (List.reverse_perm registry).symm
  obtain ⟨p, hparse, hlen⟩ := Usage.exists_ok_of_any (show
    (Usage.parse usage registry).toOption.any (·.registry.length == 5) = true by decide +kernel)
  obtain ⟨f, hf, hkind⟩ := Usage.exists_error_of_failsAs (show
    Usage.failsAs (fun f => f.report.toOption.any (·.kind == some .ambiguousOption))
      (CommandLine.parse false ["-q", "--ver"] registry) = true by decide +kernel)
  obtain ⟨hu, hc⟩ := parse_reordered hp usage ["-q", "--ver"] false
  exact ⟨hp, ⟨p, hparse, beq_iff_eq.mp hlen⟩, hu, ⟨f, hf, hkind⟩, hc⟩

end Synopsis
