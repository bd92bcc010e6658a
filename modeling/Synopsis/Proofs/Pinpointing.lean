import Synopsis.Proofs.Composition

/-!
The word for which a command line is refused. The words in front of it are read, the line up to it is
refused in the same way, and the fault names the word and its place. There is one exception: an option
whose name is nothing but its two dashes is refused as a declaration where no long name begins with
them, and that fault names neither.
-/
namespace Synopsis

/-- A long option with a value but without a name. -/
def Nameless (word : String) : Prop :=
  ∃ value, word.toList = '-' :: '-' :: '=' :: value ∧ '=' ∉ value

theorem isLongName_of_nameless {word : String} (h : Nameless word) : isLongName word = true := by
  obtain ⟨value, hs, -⟩ := h
  exact isLongName_iff.mpr ⟨_, _, hs⟩

theorem read?_of_nameless {word : String} (h : Nameless word) :
    ∃ value, Assignment.read? word = some ⟨"--", value⟩ := by
  obtain ⟨value, hs, hv⟩ := h
  refine ⟨if value.isEmpty then none else some (String.ofList value), ?_⟩
  simp [Assignment.read?, hs, hv]

/-- The name of a long option is a long name, unless there is none. -/
theorem nameless_of_read? {word : String} {a : Assignment} (hl : isLongName word = true)
    (ha : Assignment.read? word = some a) (hn : ¬ isLongName a.name = true) :
    Nameless word ∧ a.name = "--" := by
  obtain ⟨c, cs, hs⟩ := isLongName_iff.mp hl
  have hname := Assignment.name_of_read? ha
  by_cases hc : c = '='
  · subst hc
    refine ⟨⟨cs, hs, fun hm => ?_⟩, by simp [hname, hs]⟩
    simp [Assignment.read?, hs, hm] at ha
  · refine absurd ?_ hn
    rw [isLongName_iff]
    exact ⟨c, cs.takeWhile (· != '='), by simp [hname, hs, hc]⟩

namespace Registry

def Longless (registry : Registry) : Prop := ∀ o ∈ registry, o.long = none

theorem candidates_dashes {registry : Registry} :
    registry.candidates .commandLine "--" = [] ↔ registry.Longless := by
  constructor
  · intro h o ho
    cases hl : o.long with
    | none => rfl
    | some long =>
      obtain ⟨c, cs, hs⟩ := isLongName_iff.mp (OptionDecl.isLongName_of_long hl)
      unfold candidates at h
      split at h
      · refine absurd hl ?_
        have hnot := List.filter_eq_nil_iff.mp h o ho
        intro hlong
        exact hnot (by simp [hlong, Text.startsWith, hs])
      next hn => exact absurd ⟨rfl, h⟩ hn
  · intro h
    have hwith : registry.withLong "--" = [] :=
      List.filter_eq_nil_iff.mpr fun o ho => by simp [h o ho]
    have hfrom : registry.withLongFrom "--" = [] :=
      List.filter_eq_nil_iff.mpr fun o ho => by simp [h o ho]
    simp [candidates, hwith, hfrom]

theorem RefusesChars.not_malformed {mode : Mode} {token : Token} {rest : List Token}
    {registry : Registry} {cs : List Char} {x : Complaint}
    (h : RefusesChars mode token rest registry cs x) (why : Malformation) : x ≠ .malformed why := by
  induction h with
  | dash | missing | repeated => simp
  | fresh hc hs hx ih | flag hc hs ht hx ih => exact ih

theorem RefusesLong.nextWord?_eq_none {mode : Mode} {token : Token} {rest : List Token}
    {registry : Registry} {x : Complaint} (h : RefusesLong mode token rest registry x)
    (hx : x.LacksValue) : nextWord? rest = none := by
  cases h with
  | missing ha hc ht hv hr => exact hr
  | unsplittable | undeclarable | unexpected | ambiguous => exact hx.elim

theorem RefusesChars.nextWord?_eq_none {mode : Mode} {token : Token} {rest : List Token}
    {registry : Registry} {cs : List Char} {x : Complaint}
    (h : RefusesChars mode token rest registry cs x) (hx : x.LacksValue) :
    nextWord? rest = none := by
  induction h with
  | dash | repeated => exact hx.elim
  | fresh hc hs hr ih | flag hc hs ht hr ih => exact ih hx
  | missing hc hs ht hr => exact hr

end Registry

def meetingCodes : List Fault.Code :=
  [.unparsableOption, .unexpectedArgument, .missingArgument, .ambiguousOption]

def Text.Mentions (s part : String) : Prop := ∃ front back, s = front ++ part ++ back

theorem Text.mentions_last (front part : String) : Text.Mentions (front ++ part) part :=
  ⟨front, "", by simp⟩

theorem Text.Mentions.append {s part : String} (h : Text.Mentions s part) (more : String) :
    Text.Mentions (s ++ more) part := by
  obtain ⟨front, back, rfl⟩ := h
  exact ⟨front, back ++ more, by simp only [String.append_assoc]⟩

/-- The fault is one of an option that is met, holds the word and names its place. -/
structure Fault.Pinpoints (fault : Fault) (word : String) (place : Int) : Prop where
  kind : ∃ code ∈ meetingCodes, fault.kind = some code
  token : fault.detail? "token" = some (.text word)
  message : ∃ ordinal message, Text.ordinal? place = some ordinal ∧
    fault.message = some message ∧ Text.Mentions message (" at " ++ ordinal ++ " position")

/-- Complaints about an option, but not those about its declaration, pinpoint the token. -/
theorem pinpoints_of_blames {token : Token} {c : Complaint} (hp : 0 < token.index)
    (h : Registry.Blames token c) (hn : ∀ why, c ≠ .malformed why) :
    ∃ fault, (Failure.complaint c).report = .ok fault ∧
      fault.Pinpoints token.text token.index := by
  obtain ⟨ordinal, ho, hw⟩ := Token.whereabouts_of_placed hp
  cases h with
  | malformed why => exact (hn why rfl).elim
  | unsplittable | dashInCluster | unexpectedValue | missingLongValue | missingShortValue =>
    simp only [Failure.report, Complaint.report, hw]
    refine ⟨_, rfl, ⟨_, ?_, rfl⟩, Fault.titled_token .., ordinal, _, ho, rfl, ?_⟩
    · decide
    · exact (Text.mentions_last _ _).append _
  | repeatedShort =>
    simp only [Failure.report, Complaint.report, hw]
    refine ⟨_, rfl, ⟨_, ?_, rfl⟩, Fault.titled_token .., ordinal, _, ho, rfl, ?_⟩
    · decide
    · exact (((Text.mentions_last _ _).append _).append _).append _
  | ambiguous =>
    simp only [Failure.report, Complaint.report, hw]
    refine ⟨_, rfl, ⟨_, ?_, rfl⟩, Fault.titled_token_candidates .., ordinal, _, ho, rfl, ?_⟩
    · decide
    · exact ((Text.mentions_last _ _).append _).append _

namespace CommandLine

open Registry

variable {optionsFirst : Bool} {token : Token} {rest : List Token} {registry : Registry}

/-- What a nameless option is refused for where no long name begins with two dashes. -/
def bareDashes : Complaint := .malformed (.badLong (.text "--"))

theorem balks_of_nameless (hn : Nameless token.text) (hr : registry.Longless)
    (rest : List Token) : Balks token rest registry bareDashes := by
  obtain ⟨value, ha⟩ := read?_of_nameless hn
  exact .long (isLongName_of_nameless hn)
    (.undeclarable ha (candidates_dashes.mpr hr) (by simp [declareLong, isLongName]))

theorem not_pinpoints_bareDashes {fault : Fault}
    (h : (Failure.complaint bareDashes).report = .ok fault) (word : String) (place : Int) :
    ¬ fault.Pinpoints word place := by
  intro hp
  obtain ⟨code, hcode, hkind⟩ := hp.kind
  cases h
  cases hkind
  exact absurd hcode (by decide)

theorem Balks.nameless {why : Malformation} (h : Balks token rest registry (.malformed why)) :
    Nameless token.text ∧ registry.Longless := by
  cases h with
  | cluster hs hc hx => exact (hx.not_malformed why rfl).elim
  | long hs hx =>
    cases hx with
    | @undeclarable a why ha hc ho =>
      have hname : ¬ isLongName a.name = true := by
        intro hl
        simp [declareLong, hl] at ho
      obtain ⟨hn, hdashes⟩ := nameless_of_read? hs ha hname
      rw [hdashes] at hc
      exact ⟨hn, candidates_dashes.mp hc⟩

theorem Balks.unique {x y : Complaint} (h : Balks token rest registry x)
    (h' : Balks token rest registry y) : x = y := by
  have hx : ofTokens false (token :: rest) registry = .error (.complaint x) := ofTokens_of_balks h
  rw [ofTokens_of_balks h', Except.error.injEq, Failure.complaint.injEq] at hx
  exact hx.symm

theorem Balks.nextWord?_eq_none {x : Complaint} (h : Balks token rest registry x)
    (hx : x.LacksValue) : nextWord? rest = none := by
  cases h with
  | long hs hr => exact hr.nextWord?_eq_none hx
  | cluster hs hc hr => exact hr.nextWord?_eq_none hx

theorem Balks.alone {x : Complaint} (h : Balks token rest registry x)
    (hw : ∀ t ∈ rest, t.kind = .word) : Balks token [] registry x := by
  by_cases hx : x.LacksValue
  · have hnext : nextWord? rest = none := h.nextWord?_eq_none hx
    cases rest with
    | nil => exact h
    | cons next rest => simp [nextWord?_cons rest (hw next (by simp))] at hnext
  · exact h.anywhere hx []

/-- What is read in front of a refused word has not ended the options. -/
theorem Run.not_ended {optionsFirst : Bool} {front more : List Token} {p : Parsed} {x : Complaint}
    (h : Run optionsFirst front registry p) (hs : Stuck optionsFirst (front ++ more) registry x) :
    ¬ Ended optionsFirst p.leaves := by
  intro he
  have hok := ofTokens_of_run (h.append_ended he more)
  rw [ofTokens_of_stuck hs] at hok
  cases hok

/-- A refused line breaks off at a word: the words in front of it are read, and the line up to it is
refused for the same reason. -/
theorem Stuck.parts {optionsFirst : Bool} {argv : List String} {x : Complaint}
    (h : Stuck optionsFirst (Token.ofWords argv) registry x) :
    ∃ before word after p, argv = before ++ word :: after ∧
      parse optionsFirst before registry = .ok p ∧
      parse optionsFirst (before ++ [word]) registry = .error (.complaint x) ∧
      Balks ⟨.word, word, before.length + 1⟩ [] p.registry x := by
  obtain ⟨front, token, rest, p, htokens, hrun, hb⟩ := h.exists_run
  have hopen : ¬ Ended optionsFirst p.leaves := hrun.not_ended (htokens ▸ h)
  obtain ⟨before, word, after, rfl, rfl, rfl, rfl⟩ := Token.parts_of_ofWords htokens
  have halone : Balks ⟨.word, word, before.length + 1⟩ [] p.registry x := by
    refine hb.alone fun t ht => ?_
    obtain ⟨t', ht', rfl⟩ := List.mem_map.mp ht
    rw [Token.moved_kind]
    exact Token.kind_of_mem_ofWords ht'
  refine ⟨before, word, after, p, rfl, ofTokens_of_run hrun, ?_, halone⟩
  rw [parse, Token.ofWords_append_cons, ofTokens_append hrun hopen]
  exact congrArg (Except.map _) (ofTokens_of_balks halone)

/-- A command line that is refused is refused for one of its words: those in front of it are read, and
the line up to it is refused with the same fault. The fault pinpoints the word, unless the word has no
name and no entry has a long one; then it is the fault of a declaration. -/
theorem parse_refused {optionsFirst : Bool} {argv : List String} {registry : Registry} {f : Failure}
    (h : parse optionsFirst argv registry = .error f) :
    ∃ i word fault p, argv[i]? = some word ∧ f.report = .ok fault ∧
      parse optionsFirst (argv.take i) registry = .ok p ∧
      parse optionsFirst (argv.take (i + 1)) registry = .error f ∧
      (fault.Pinpoints word (i + 1) ↔ ¬ (Nameless word ∧ p.registry.Longless)) ∧
      (Nameless word ∧ p.registry.Longless → f = .complaint bareDashes) := by
  obtain ⟨x, rfl, hs⟩ := ofTokens_eq_error_iff.mp h
  obtain ⟨before, word, after, p, rfl, hfront, hupTo, hb⟩ := hs.parts
  have htake : (before ++ word :: after).take (before.length + 1) = before ++ [word] := by
    rw [List.append_cons, List.take_left' (by simp)]
  have hbare : Nameless word ∧ p.registry.Longless → x = bareDashes :=
    fun hn => hb.unique (balks_of_nameless hn.1 hn.2 [])
  have hfault : ∃ fault, (Failure.complaint x).report = .ok fault ∧
      (fault.Pinpoints word (before.length + 1) ↔ ¬ (Nameless word ∧ p.registry.Longless)) := by
    by_cases hn : Nameless word ∧ p.registry.Longless
    · rw [hbare hn]
      exact ⟨_, rfl, fun hp => (not_pinpoints_bareDashes rfl _ _ hp).elim, fun hnot => (hnot hn).elim⟩
    · have hmet : ∀ why, x ≠ .malformed why := by
        rintro why rfl
        exact hn hb.nameless
      obtain ⟨fault, hreport, hp⟩ := pinpoints_of_blames (by simp) hb.blames hmet
      exact ⟨fault, hreport, fun _ => hn, fun _ => hp⟩
  obtain ⟨fault, hreport, hp⟩ := hfault
  exact ⟨before.length, word, fault, p, by simp, hreport, by rwa [List.take_left],
    by rwa [htake], hp, fun hn => congrArg Failure.complaint (hbare hn)⟩

theorem parse_refused_dash_in_cluster :
    let speed : OptionDecl := ⟨none, some "--speed", .valued .int (.text "10"), by decide⟩
    let argv := ["go", "-vq", "--sp", "--", "-x-y", "--speed"]
    ∃ f, parse false argv [speed] = .error f ∧
      ∃ i word fault p, argv[i]? = some word ∧ f.report = .ok fault ∧
        parse false (argv.take i) [speed] = .ok p ∧
        parse false (argv.take (i + 1)) [speed] = .error f ∧
        fault.message = some
          "cannot read '-x-y' at fifth position as short options, '-' is not an option name" ∧
        fault.Pinpoints word (i + 1) := by
  intro speed argv
  obtain ⟨f, hf, hreport⟩ := Usage.exists_error_of_failsAs (show
    Usage.failsAs (fun f => f.report.toOption.any fun fault =>
      fault.kind == some .unparsableOption && fault.message == some
        "cannot read '-x-y' at fifth position as short options, '-' is not an option name")
      (parse false argv [speed]) = true by decide +kernel)
  obtain ⟨fault, hfault, hcheck⟩ := Usage.exists_ok_of_any hreport
  rw [Bool.and_eq_true, beq_iff_eq, beq_iff_eq] at hcheck
  obtain ⟨i, word, fault', p, hi, hfault', hfront, hupTo, hpin, hbare⟩ := parse_refused hf
  rw [hfault, Except.ok.injEq] at hfault'
  subst hfault'
  refine ⟨f, hf, i, word, fault, p, hi, hfault, hfront, hupTo, hcheck.2, hpin.mpr fun hn => ?_⟩
  rw [hbare hn] at hfault
  cases hfault
  cases hcheck.1

/-- Two dashes with a value are refused as the name that they are not, and nothing is pinpointed. -/
theorem parse_bare_dashes :
    ∃ fault, parse false ["--=x"] [] = .error (.complaint bareDashes) ∧
      (Failure.complaint bareDashes).report = .ok fault ∧
      fault.kind = some .malformedOption ∧ fault.detail? "token" = some (.text "--") ∧
      fault.message = some "bad long option name '--'" ∧
      ∀ word place, ¬ fault.Pinpoints word place := by
  have hn : Nameless "--=x" := ⟨['x'], rfl, by decide⟩
  have hb : Balks ⟨.word, "--=x", 1⟩ [] [] bareDashes := balks_of_nameless hn (by simp [Longless]) []
  exact ⟨_, ofTokens_of_balks hb, rfl, rfl, rfl, by decide, not_pinpoints_bareDashes rfl⟩

end CommandLine

end Synopsis
