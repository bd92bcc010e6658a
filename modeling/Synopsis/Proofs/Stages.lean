import Synopsis.Invocation
import Synopsis.Proofs.Reordering
import Synopsis.Proofs.Reports

/-!
The stages from a help text to the leaves of a command line. They all pass, or one of them breaks off,
and then with a fault that carries the code of its kind; a run goes through the same stages before it
calls its matcher.
-/
namespace Synopsis

/-- The fault is of a kind and carries the code of its kind. -/
def Fault.Coded (fault : Fault) : Prop :=
  ∃ code, fault.kind = some code ∧ fault.code = .datum (.code code)

/-- What a caller sees of the failure is a fault with a code. -/
def Failure.Coded (f : Failure) : Prop := ∃ fault, f.report = .ok fault ∧ fault.Coded

theorem Failure.coded_of_report {f : Failure} {fault : Fault} (h : f.report = .ok fault) :
    f.Coded := by
  cases f with
  | complaint c => exact ⟨fault, h, (Complaint.reported_of_report h).code⟩
  | misuse m => cases h

def Failure.IsMalformed (f : Failure) : Prop :=
  ∃ fault, f.report = .ok fault ∧ fault.kind = some .malformedOption

/-- A line that describes no option is malformed, which is all that the registry passes over. -/
theorem Description.isMalformed_of_read {line : String} {f : Failure}
    (h : Description.read line = .error f) : f.IsMalformed := by
  unfold Description.read at h
  split at h
  · cases h
    exact ⟨_, rfl, rfl⟩
  · dsimp only at h
    split at h
    · cases h
      exact ⟨_, rfl, rfl⟩
    · split at h
      · cases h
      · next why _ =>
        cases h
        exact ⟨why.report, rfl, by cases why <;> rfl⟩

namespace Usage

theorem coded_of_sectionOf {doc : String} {f : Failure} (h : sectionOf doc = .error f) :
    f.Coded := by
  unfold sectionOf at h
  split at h
  · cases h; exact Failure.coded_of_report rfl
  · cases h
  · cases h; exact Failure.coded_of_report rfl

theorem coded_of_formal {usage : String} {f : Failure} (h : formal usage = .error f) :
    f.Coded := by
  unfold formal at h
  split at h
  · cases h; exact Failure.coded_of_report rfl
  · cases h

theorem exists_program_of_formal {usage text : String} (h : formal usage = .ok text) :
    ∃ prog, program? usage = some prog := by
  unfold formal at h
  unfold program?
  split at h
  · cases h
  · next prog rest hw => exact ⟨prog, by rw [hw]; rfl⟩

end Usage

theorem CommandLine.coded_of_ofTokens {optionsFirst : Bool} {tokens : List Token}
    {registry : Registry} {f : Failure} (hp : ∀ t ∈ tokens, 0 < t.index)
    (h : CommandLine.ofTokens optionsFirst tokens registry = .error f) : f.Coded := by
  obtain ⟨x, rfl, hs⟩ := CommandLine.ofTokens_eq_error_iff.mp h
  obtain ⟨token, ht, hb⟩ := hs.blames
  obtain ⟨fault, -, hfault, -⟩ := isOptionFault_of_blames (hp token ht) hb
  exact Failure.coded_of_report hfault

namespace Request

/-- A command line as one text, or as the list of its words. -/
inductive IsVector : Value → Prop where
  | text (s : String) : IsVector (.text s)
  | list (words : List String) : IsVector (.list (words.map .text))

theorem textsAmong?_map_text (texts : List String) : textsAmong? (texts.map .text) = some texts := by
  induction texts with
  | nil => rfl
  | cons s texts ih => simp [textsAmong?, ih, Value.text, Value.text?]

theorem vector_of_isVector {argv : Value} (h : IsVector argv) :
    ∃ texts, vector argv = .ok (Token.ofWords texts) := by
  cases h with
  | text s => exact ⟨Text.words s, rfl⟩
  | list texts =>
    refine ⟨texts, ?_⟩
    simp [vector, words, Value.text?, Value.items?, textsAmong?_map_text]

variable {doc : String} {argv : Value} {optionsFirst : Bool}

/-- All stages pass, each on what the one before it gives. -/
structure Passes (doc : String) (argv : Value) (optionsFirst : Bool) (s : Stages) : Prop where
  usageSection : Usage.sectionOf doc = .ok s.usageSection
  formal : Usage.formal s.usageSection = .ok s.formal
  parsed : Usage.parse s.formal (Description.registryOf doc) = .ok s.parsed
  line : ∃ tokens, vector argv = .ok tokens ∧
    CommandLine.ofTokens optionsFirst tokens s.parsed.registry = .ok s.line

/-- One stage breaks off, and those before it pass. -/
inductive Breaks (doc : String) (argv : Value) (optionsFirst : Bool) : Failure → Prop where
  | usageSection {f : Failure} (h : Usage.sectionOf doc = .error f) : Breaks doc argv optionsFirst f
  | formal {usage : String} {f : Failure} (hu : Usage.sectionOf doc = .ok usage)
      (h : Usage.formal usage = .error f) : Breaks doc argv optionsFirst f
  | parsed {usage text : String} {f : Failure} (hu : Usage.sectionOf doc = .ok usage)
      (ht : Usage.formal usage = .ok text)
      (h : Usage.parse text (Description.registryOf doc) = .error f) : Breaks doc argv optionsFirst f
  | vector {usage text : String} {p : Usage.Parsed} {f : Failure}
      (hu : Usage.sectionOf doc = .ok usage) (ht : Usage.formal usage = .ok text)
      (hp : Usage.parse text (Description.registryOf doc) = .ok p)
      (h : vector argv = .error f) : Breaks doc argv optionsFirst f
  | line {usage text : String} {p : Usage.Parsed} {tokens : List Token} {f : Failure}
      (hu : Usage.sectionOf doc = .ok usage) (ht : Usage.formal usage = .ok text)
      (hp : Usage.parse text (Description.registryOf doc) = .ok p)
      (hv : Request.vector argv = .ok tokens)
      (h : CommandLine.ofTokens optionsFirst tokens p.registry = .error f) :
      Breaks doc argv optionsFirst f

theorem passes_or_breaks (doc : String) (argv : Value) (optionsFirst : Bool) :
    (∃ s, Passes doc argv optionsFirst s) ∨ ∃ f, Breaks doc argv optionsFirst f := by
  cases hu : Usage.sectionOf doc with
  | error f => exact .inr ⟨f, .usageSection hu⟩
  | ok usage =>
    cases ht : Usage.formal usage with
    | error f => exact .inr ⟨f, .formal hu ht⟩
    | ok text =>
      cases hp : Usage.parse text (Description.registryOf doc) with
      | error f => exact .inr ⟨f, .parsed hu ht hp⟩
      | ok p =>
        cases hv : vector argv with
        | error f => exact .inr ⟨f, .vector hu ht hp hv⟩
        | ok tokens =>
          cases hl : CommandLine.ofTokens optionsFirst tokens p.registry with
          | error f => exact .inr ⟨f, .line hu ht hp hv hl⟩
          | ok line => exact .inl ⟨⟨usage, text, p, line⟩, hu, ht, hp, tokens, hv, hl⟩

theorem stages_eq (doc : String) (argv : Value) (optionsFirst : Bool) :
    stages (.text doc) argv optionsFirst = (do
      let usage ← Usage.sectionOf doc
      let text ← Usage.formal usage
      let p ← Usage.parse text (Description.registryOf doc)
      let line ← CommandLine.ofTokens optionsFirst (← vector argv) p.registry
      .ok ⟨usage, text, p, line⟩) := rfl

theorem stages_of_passes {s : Stages} (h : Passes doc argv optionsFirst s) :
    stages (.text doc) argv optionsFirst = .ok s := by
  obtain ⟨hu, ht, hp, tokens, hv, hl⟩ := h
  simp [stages_eq, hu, ht, hp, hv, hl, bind, Except.bind]

theorem stages_of_breaks {f : Failure} (h : Breaks doc argv optionsFirst f) :
    stages (.text doc) argv optionsFirst = .error f := by
  cases h with
  | usageSection h => simp [stages_eq, h, bind, Except.bind]
  | formal hu h => simp [stages_eq, hu, h, bind, Except.bind]
  | parsed hu ht h => simp [stages_eq, hu, ht, h, bind, Except.bind]
  | vector hu ht hp h => simp [stages_eq, hu, ht, hp, h, bind, Except.bind]
  | line hu ht hp hv h => simp [stages_eq, hu, ht, hp, hv, h, bind, Except.bind]

theorem stages_eq_ok_iff {s : Stages} :
    stages (.text doc) argv optionsFirst = .ok s ↔ Passes doc argv optionsFirst s := by
  refine ⟨fun h => ?_, stages_of_passes⟩
  rcases passes_or_breaks doc argv optionsFirst with ⟨s', hs⟩ | ⟨f, hb⟩
  · rw [stages_of_passes hs, Except.ok.injEq] at h
    exact h ▸ hs
  · rw [stages_of_breaks hb] at h
    cases h

/-- Where words are given, whatever breaks off does so with a code. -/
theorem coded_of_breaks {f : Failure} (hw : IsVector argv) (h : Breaks doc argv optionsFirst f) :
    f.Coded := by
  obtain ⟨texts, hvector⟩ := vector_of_isVector hw
  cases h with
  | usageSection h => exact Usage.coded_of_sectionOf h
  | formal hu h => exact Usage.coded_of_formal h
  | parsed hu ht h =>
    obtain ⟨fault, hfault⟩ := Usage.exists_report_of_parse h
    exact Failure.coded_of_report hfault
  | vector hu ht hp h => rw [hvector] at h; cases h
  | line hu ht hp hv h =>
    rw [hvector] at hv
    cases hv
    exact CommandLine.coded_of_ofTokens (fun t ht => Token.placed_of_mem_ofWords ht) h

end Request

namespace Invocation

open Request (Stages Passes Breaks)

@[simp] theorem Trace.calls_log (t : Trace) (label : String) (v : Value) :
    (t.log label v).calls = t.calls := by
  simp [Trace.calls, Trace.log, Event.call?]

@[simp] theorem Trace.calls_call (t : Trace) (c : Call) : (t.call c).calls = t.calls ++ [c] := by
  simp [Trace.calls, Trace.call, Event.call?]

theorem calls_bindLine (r : Task) (prog : String) (pattern : Pattern) (leaves : List Leaf)
    (t : Trace) :
    (bindLine r prog pattern leaves t).trace.calls = t.calls ++ [⟨pattern, leaves⟩] := by
  unfold bindLine
  dsimp only
  split <;> simp

section Logging

variable {console : Console} {host : Host} {p : Presentation} {r : Run}

/-- The console takes everything in a run that is worth logging. -/
def Console.Takes (console : Console) (r : Run) : Prop :=
  ∀ e ∈ r.trace.entries, console.log e.1 e.2 = .ok ()

theorem Console.takes_recorder (r : Run) : Console.recorder.Takes r := fun _ _ => rfl

theorem cut?_eq_none_iff {events : List Event} :
    console.cut? events = none ↔
      ∀ e ∈ events.filterMap Event.logged?, console.log e.1 e.2 = .ok () := by
  induction events with
  | nil => simp [Console.cut?]
  | cons event events ih =>
    cases event with
    | call c => simp [Console.cut?, Console.refusal?, Event.logged?, ih]
    | entry label v =>
      have hlogged : (Event.entry label v).logged? = some (label, v) := rfl
      rw [List.filterMap_cons_some hlogged, List.forall_mem_cons, ← ih]
      cases hlog : console.log label v <;> simp [Console.cut?, Console.refusal?, hlog]

theorem calls_conclude (host : Host) (p : Presentation) (r : Run) :
    (conclude host p r).calls = r.trace.calls ∧ (conclude host p r).log = [] := by
  have hsurfaced (reported : Except Misuse Fault) :
      (surfaced host p r.trace reported).calls = r.trace.calls ∧
        (surfaced host p r.trace reported).log = [] := by
    unfold surfaced
    split <;> exact ⟨rfl, rfl⟩
  unfold conclude
  split
  · exact ⟨rfl, rfl⟩
  · exact ⟨rfl, rfl⟩
  · exact hsurfaced _
  · exact hsurfaced _

/-- Where the console takes what it is given, logging leaves nothing behind but the log. -/
theorem present_of_takes (h : p.debug = true → console.Takes r) :
    present console host p r =
      { conclude host p r with log := if p.debug then r.trace.entries else [] } := by
  unfold present
  cases hd : p.debug with
  | false => rw [if_neg Bool.false_ne_true, if_neg Bool.false_ne_true, ← (calls_conclude host p r).2]
  | true => rw [if_pos rfl, if_pos rfl, cut?_eq_none_iff.mpr (h hd)]

theorem outcome_of_not_takes (host : Host) (hd : p.debug = true) (h : ¬ console.Takes r) :
    ∃ m, (present console host p r).outcome = .refused m := by
  have hcut : console.cut? r.trace.events ≠ none := fun hn => h (cut?_eq_none_iff.mp hn)
  obtain ⟨⟨front, m⟩, hcut⟩ := Option.ne_none_iff_exists'.mp hcut
  exact ⟨m, by rw [present, if_pos hd, hcut]⟩

end Logging

/-- A run that passes all stages shows what it is asked for, or binds the line. -/
theorem run_of_passes {r : Task} {s : Stages} (h : Passes r.doc r.line r.optionsFirst s) :
    ∃ prog t, Usage.program? s.usageSection = some prog ∧ t.calls = [] ∧
      run r = match information? r s.line.leaves with
        | some text => ⟨.informed text, t⟩
        | none => bindLine r prog s.parsed.pattern s.line.leaves t := by
  obtain ⟨hu, ht, hp, tokens, hv, hl⟩ := h
  obtain ⟨prog, hprog⟩ := Usage.exists_program_of_formal ht
  refine ⟨prog, ?trace, hprog, ?calls, ?answer⟩
  case answer =>
    simp only [run, hu, ht, readUsage, hp, readLine, hv, hl, hprog, Option.getD_some]
    rfl
  case calls => rfl

theorem run_of_breaks {r : Task} {f : Failure} (h : Breaks r.doc r.line r.optionsFirst f) :
    (run r).finish = .failed f := by
  cases h with
  | usageSection h => simp [run, h]
  | formal hu h => simp [run, hu, h]
  | parsed hu ht h => simp [run, hu, ht, readUsage, h]
  | vector hu ht hp h => simp [run, hu, ht, readUsage, hp, readLine, h]
  | line hu ht hp hv h => simp [run, hu, ht, readUsage, hp, readLine, hv, h]

/-- A run that fails without a call of its matcher fails in one of the stages. -/
theorem breaks_of_run {r : Task} {f : Failure} (hf : (run r).finish = .failed f)
    (hc : (run r).trace.calls = []) : Breaks r.doc r.line r.optionsFirst f := by
  rcases Request.passes_or_breaks r.doc r.line r.optionsFirst with ⟨s, hs⟩ | ⟨f', hb⟩
  · obtain ⟨prog, t, -, -, hrun⟩ := run_of_passes hs
    rw [hrun] at hf hc
    cases hi : information? r s.line.leaves with
    | some text => rw [hi] at hf; cases hf
    | none =>
      rw [hi] at hc
      simp [calls_bindLine] at hc
  · rw [run_of_breaks hb] at hf
    cases hf
    exact hb

end Invocation

/-- A text describes its options, whatever else it is: the lines that are passed over are malformed.
With a command line of words the stages give a result or break off with a code, the program is named
as soon as there is a pattern, and a run that does not come to its matcher fails with a code too. Left
out is a limit on the depth of recursion, which brackets that are nested deeply enough would run into
without a code. -/
theorem coded_of_stages (doc : String) {argv : Value} (hw : Request.IsVector argv)
    (optionsFirst : Bool) :
    Request.descriptions (.text doc) = .ok (Description.registryOf doc) ∧
      (∀ line f, Description.read line = .error f → f.IsMalformed) ∧
      (∀ usage text, Usage.sectionOf doc = .ok usage → Usage.formal usage = .ok text →
        ∃ prog, Usage.program? usage = some prog) ∧
      ((∃ s, Request.stages (.text doc) argv optionsFirst = .ok s) ∨
        ∃ f, Request.stages (.text doc) argv optionsFirst = .error f ∧ f.Coded) ∧
      ∀ r : Invocation.Task, r.doc = doc → r.line = argv → r.optionsFirst = optionsFirst →
        ∀ f, (Invocation.run r).finish = .failed f → (Invocation.run r).trace.calls = [] →
          f.Coded := by
  refine ⟨rfl, fun _ _ h => Description.isMalformed_of_read h,
    fun _ _ _ h => Usage.exists_program_of_formal h, ?_, ?_⟩
  · rcases Request.passes_or_breaks doc argv optionsFirst with ⟨s, hs⟩ | ⟨f, hb⟩
    · exact .inl ⟨s, Request.stages_of_passes hs⟩
    · exact .inr ⟨f, Request.stages_of_breaks hb, Request.coded_of_breaks hw hb⟩
  · rintro r rfl rfl rfl f hf hc
    exact Request.coded_of_breaks hw (Invocation.breaks_of_run hf hc)

/-- Two dashes alone are no name of an option, and a value may not hold an equals sign. -/
theorem coded_of_stages_assigned_twice :
    let doc := "Usage: nf [--to=K] <x>\n\n --to=K  [default: 1]\n --, -  stop"
    let argv := Value.list (["-v", "--to=1=2"].map .text)
    Request.IsVector argv ∧ (Description.registryOf doc).length = 1 ∧
      (Description.read "--, -  stop").toOption.isNone = true ∧
        ∃ f, Request.stages (.text doc) argv false = .error f ∧ f.Coded ∧
          f.report.toOption.any (·.kind == some .unparsableOption) = true := by
  intro doc argv
  have hw : Request.IsVector argv := .list _
  obtain ⟨f, hf, hkind⟩ := Usage.exists_error_of_failsAs (show
    Usage.failsAs (fun f => f.report.toOption.any (·.kind == some .unparsableOption))
      (Request.stages (.text doc) argv false) = true by decide +kernel)
  refine ⟨hw, by decide +kernel, by decide +kernel, f, hf, ?_, hkind⟩
  obtain ⟨-, -, -, ⟨s, hs⟩ | ⟨f', hf', hcoded⟩, -⟩ := coded_of_stages doc hw false
  · rw [hf] at hs
    cases hs
  · rw [hf] at hf'
    cases hf'
    exact hcoded

end Synopsis
