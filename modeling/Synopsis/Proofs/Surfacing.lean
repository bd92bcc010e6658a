import Synopsis.Proofs.Stages

/-!
What presentation changes about a run, and what it does not. A run ends in one way, and a presentation
shows this end unless it gets in its own way: it hands the console an entry that is refused, it prints a
fault with a title that is no text, or its colours keep control characters that are dropped otherwise.
-/
namespace Synopsis

namespace StyledText

def strip (s : String) : String := String.ofList (s.toList.filter (!isControl ·))

/-- There are no control characters in the text. A text that was made of a string has none; one that
was put together in another way may have some. -/
def Stripped (t : StyledText) : Prop := ∀ c ∈ t.plain.toList, isControl c = false

theorem strip_append (s s' : String) : strip (s ++ s') = strip s ++ strip s' := by
  simp [strip]

theorem strip_strip (s : String) : strip (strip s) = strip s := by
  simp [strip]

theorem strip_eq_self_iff {s : String} : strip s = s ↔ ∀ c ∈ s.toList, isControl c = false := by
  rw [strip, ← String.toList_inj, String.toList_ofList, List.filter_eq_self]
  simp only [Bool.not_eq_true']

theorem plain_append (t piece : StyledText) : (t.append piece).plain = t.plain ++ piece.plain := by
  unfold append
  split
  next h => rw [h, String.append_empty]
  next => rfl

theorem plain_assemble (pieces : List StyledText) :
    (assemble pieces).plain = pieces.foldl (fun s piece => s ++ piece.plain) "" := by
  have hfold : ∀ t : StyledText, (pieces.foldl append t).plain =
      pieces.foldl (fun s piece => s ++ piece.plain) t.plain := by
    induction pieces with
    | nil => exact fun t => rfl
    | cons piece pieces ih =>
      intro t
      rw [List.foldl_cons, List.foldl_cons, ih, plain_append]
  exact hfold empty

end StyledText

open StyledText (strip strip_append strip_strip strip_eq_self_iff)

namespace Value

def Stripped (v : Value) : Prop := ∀ t, v = .datum (.styled t) → t.Stripped

theorem stripped_text (s : String) : (Value.text s).Stripped := by
  intro t h
  cases h

/-- What can be read of a value in a shown fault. In colours a text with a style of its own is shown as
it is; everything else loses its control characters. -/
def legible (colorful : Bool) (v : Value) : String :=
  if !v.truthy then ""
  else if !colorful then strip v.shown
  else match v with
    | .datum (.styled t) => t.plain
    | _ => strip v.shown

theorem strip_legible (colorful : Bool) (v : Value) :
    strip (v.legible colorful) = v.legible false := by
  unfold legible
  cases v.truthy with
  | false => rfl
  | true =>
    cases colorful with
    | false => exact strip_strip _
    | true =>
      simp only [Bool.not_true, Bool.not_false, Bool.false_eq_true, if_false, if_true]
      split
      · rfl
      · exact strip_strip _

theorem legible_eq_iff {v : Value} : v.legible true = v.legible false ↔ v.Stripped := by
  rw [eq_comm, ← strip_legible true, strip_eq_self_iff]
  constructor
  · rintro h t rfl c hc
    apply h c
    rw [legible, if_neg]
    · exact hc
    · intro hfalsy
      have hempty : t.plain = "" := by simpa [truthy, toDatum, Datum.truthy] using hfalsy
      simp [hempty] at hc
  · intro h c hc
    unfold legible at hc
    split at hc
    · simp at hc
    · simp only [Bool.not_true, Bool.false_eq_true, if_false] at hc
      split at hc
      next t _ => exact h t rfl c hc
      next => exact strip_eq_self_iff.mp (strip_strip _) c hc

end Value

/-- The name that the surrounding program sets for itself, if it sets one, has no control
characters. -/
def Host.Stripped (host : Host) : Prop := ∀ v, host.prog = some v → v.Stripped

def Rendering.texts (r : Rendering) : List String := r.header.plain :: r.parts.map (·.plain)

namespace Fault

variable {host : Host} {f : Fault} {title : Value}

theorem plain_fragment (host : Host) (colorful : Bool) (part : String) (v : Value) :
    (fragment host colorful part v).plain = v.legible colorful := by
  unfold fragment Value.legible
  cases v.truthy with
  | false => rfl
  | true =>
    cases colorful with
    | false => rfl
    | true =>
      simp only [Bool.not_true, Bool.false_eq_true, if_false]
      cases v with
      | datum d => cases d <;> rfl
      | _ => rfl

/-- The hint of a fault, nothing where it has none. -/
def hintValue (f : Fault) : Value := (f.detail? "hint").getD .null

/-- None of the pieces of a fault that may come with a style of their own has control characters. -/
structure Stripped (host : Host) (f : Fault) : Prop where
  prog : (f.progValue host).Stripped
  code : (f.codeValue host).Stripped
  hint : f.hintValue.Stripped

/-- The texts that a fault with a title is shown with. -/
def texts (host : Host) (colorful : Bool) (f : Fault) (title : Value) : List String :=
  ("[ " ++ (f.progValue host).legible colorful ++ " — " ++ (f.codeValue host).legible colorful ++
      " | " ++ title.legible colorful ++ " ]") ::
    (Value.text (f.message.getD "")).legible colorful ::
      if f.hintValue.truthy then [" → " ++ f.hintValue.legible colorful] else []

/-- A fault is shown with its texts; its settings decide whether in colours and in a panel. -/
theorem exists_render (host : Host) (h : f.titleValue = .ok title) :
    ∃ r, f.render host = .ok r ∧ r.panel = f.setting "fancy" false ∧
      r.texts = f.texts host (f.setting "colorful" true) title := by
  unfold render
  rw [h]
  refine ⟨_, rfl, rfl, ?_⟩
  have harrow : ∀ colorful, (Value.text " → ").legible colorful = " → " := by decide
  have hhint : f.hintValue = (f.detail? "hint").getD .null := rfl
  rw [Rendering.texts, texts, ← hhint]
  congr 1
  · rw [StyledText.plain_assemble]
    simp only [List.foldl_cons, List.foldl_nil, String.empty_append]
    rw [plain_fragment, plain_fragment, plain_fragment]
    rfl
  · rw [apply_ite (List.map StyledText.plain)]
    split
    · rw [List.map_cons, List.map_singleton, plain_fragment, StyledText.plain_assemble]
      simp only [List.foldl_cons, List.foldl_nil, String.empty_append]
      rw [plain_fragment, plain_fragment, harrow]
    · rw [List.map_singleton, plain_fragment]

theorem map_strip_texts (colorful : Bool) (title : Value) :
    (f.texts host colorful title).map strip = f.texts host false title := by
  have hopen : strip "[ " = "[ " := by decide
  have hdash : strip " — " = " — " := by decide
  have hbar : strip " | " = " | " := by decide
  have hclose : strip " ]" = " ]" := by decide
  have harrow : strip " → " = " → " := by decide
  unfold texts
  rw [List.map_cons, List.map_cons, apply_ite (List.map strip), List.map_singleton, List.map_nil]
  simp only [strip_append, Value.strip_legible, hopen, hdash, hbar, hclose, harrow]

theorem titleValue_stripped (h : f.titleValue = .ok title) : title.Stripped := by
  unfold titleValue at h
  split at h <;> cases h
  · exact Value.stripped_text _
  · exact Value.stripped_text _

/-- Colours change the texts of a fault exactly where they show control characters. -/
theorem texts_eq_iff (h : f.titleValue = .ok title) :
    f.texts host true title = f.texts host false title ↔ f.Stripped host := by
  constructor
  · intro heq
    have hclean : ∀ s ∈ f.texts host true title, strip s = s := by
      rw [← map_strip_texts true] at heq
      exact fun s hs => List.map_inj_left.mp (heq.symm.trans (List.map_id _).symm) s hs
    have hpiece : ∀ {v : Value} {s : String}, s ∈ f.texts host true title →
        (∀ c ∈ (v.legible true).toList, c ∈ s.toList) → v.Stripped := by
      intro v s hs hsub
      rw [← Value.legible_eq_iff, ← Value.strip_legible true, eq_comm, strip_eq_self_iff]
      exact fun c hc => strip_eq_self_iff.mp (hclean s hs) c (hsub c hc)
    refine ⟨hpiece List.mem_cons_self ?_, hpiece List.mem_cons_self ?_, ?_⟩
    · intro c hc
      simp [hc]
    · intro c hc
      simp [hc]
    · cases ht : f.hintValue.truthy with
      | true =>
        refine hpiece (s := " → " ++ f.hintValue.legible true) (by simp [texts, ht]) ?_
        intro c hc
        simp [hc]
      | false =>
        rw [← Value.legible_eq_iff]
        simp [Value.legible, ht]
  · intro hs
    rw [texts, texts, Value.legible_eq_iff.mpr hs.prog, Value.legible_eq_iff.mpr hs.code,
      Value.legible_eq_iff.mpr hs.hint, Value.legible_eq_iff.mpr (titleValue_stripped h),
      Value.legible_eq_iff.mpr (Value.stripped_text _)]

end Fault

namespace Invocation

def settingKeys : List String := ["shell", "fancy", "colorful"]

/-- The fault is another one with the settings of a presentation, and the same in everything else. -/
structure Presentation.Sets (p : Presentation) (base fault : Fault) : Prop where
  kind : fault.kind = base.kind
  message : fault.message = base.message
  code : fault.code = base.code
  shell : fault.detail? "shell" = some p.shell
  fancy : fault.detail? "fancy" = some p.fancy
  colorful : fault.detail? "colorful" = some p.colorful
  others : ∀ key, key ∉ settingKeys → fault.detail? key = base.detail? key

namespace Presentation.Sets

variable {host : Host} {p : Presentation} {base fault : Fault}

theorem titleValue (h : p.Sets base fault) : fault.titleValue = base.titleValue := by
  rw [Fault.titleValue, h.others "title" (by decide), Fault.titleValue]

/-- Settings do not change what a fault is shown with. -/
theorem texts (h : p.Sets base fault) (colorful : Bool) (title : Value) :
    fault.texts host colorful title = base.texts host colorful title := by
  have hprog : fault.progValue host = base.progValue host := by
    rw [Fault.progValue, h.others "prog" (by decide), Fault.progValue]
  have hcode : fault.codeValue host = base.codeValue host := by
    rw [Fault.codeValue, h.code, Fault.codeValue]
  have hhint : fault.hintValue = base.hintValue := by
    rw [Fault.hintValue, h.others "hint" (by decide), Fault.hintValue]
  rw [Fault.texts, hprog, hcode, hhint, h.message, Fault.texts]

end Presentation.Sets

def progDetail (prog : Option String) : List (String × Value) :=
  prog.toList.map fun s => ("prog", .text s)

theorem details_eq (p : Presentation) (prog : Option String) :
    details p prog =
      [("shell", p.shell), ("fancy", p.fancy), ("colorful", p.colorful)] ++ progDetail prog :=
  rfl

theorem not_code_of_details (p : Presentation) (prog : Option String) :
    ∀ d ∈ details p prog, d.1 ≠ "code" := by
  cases prog <;> simp [details]

theorem lookup_progDetail (prog : Option String) {key : String} (h : key ≠ "prog") :
    (progDetail prog).reverse.lookup key = none := by
  cases prog with
  | none => rfl
  | some s => exact (lookup_cons_eq_ite "prog" key (Value.text s) []).trans (if_neg h)

/-- The fault with the name of the program, where it is known. -/
def named (prog : Option String) (fault : Fault) : Fault := fault.withDetails (progDetail prog)

theorem not_code_of_progDetail (prog : Option String) : ∀ d ∈ progDetail prog, d.1 ≠ "code" := by
  cases prog <;> simp [progDetail]

theorem sets_details (p : Presentation) (prog : Option String) (fault : Fault) :
    p.Sets (named prog fault) (fault.withDetails (details p prog)) := by
  have hfound (key : String) : (fault.withDetails (details p prog)).detail? key =
      (((progDetail prog).reverse.lookup key).or
        ([("colorful", p.colorful), ("fancy", p.fancy), ("shell", p.shell)].lookup key)).or
          (fault.detail? key) := by
    rw [fault.detail?_withDetails (not_code_of_details p prog), details_eq, List.reverse_append,
      List.lookup_append]
    rfl
  constructor
  case kind => rfl
  case message => rfl
  case code =>
    rw [fault.code_withDetails (not_code_of_details p prog), named,
      fault.code_withDetails (not_code_of_progDetail prog)]
  case shell => rw [hfound, lookup_progDetail prog (by decide)]; rfl
  case fancy => rw [hfound, lookup_progDetail prog (by decide)]; rfl
  case colorful => rw [hfound, lookup_progDetail prog (by decide)]; rfl
  case others =>
    intro key hkey
    have hnone :
        [("colorful", p.colorful), ("fancy", p.fancy), ("shell", p.shell)].lookup key = none := by
      rw [List.lookup_eq_none_iff]
      simp only [settingKeys, List.mem_cons, List.not_mem_nil, or_false, not_or] at hkey
      simp [hkey.1, hkey.2.1, hkey.2.2]
    rw [hfound, hnone, Option.or_none, named,
      fault.detail?_withDetails (not_code_of_progDetail prog)]

theorem detail?_named (prog : Option String) (fault : Fault) {key : String} (h : key ≠ "prog") :
    (named prog fault).detail? key = fault.detail? key := by
  rw [named, fault.detail?_withDetails (not_code_of_progDetail prog), lookup_progDetail prog h,
    Option.none_or]

theorem titleValue_named (prog : Option String) (fault : Fault) :
    (named prog fault).titleValue = fault.titleValue := by
  rw [Fault.titleValue, detail?_named prog fault (by decide), Fault.titleValue]

theorem exists_titleValue_of_reported {fault : Fault} (h : fault.Reported) :
    ∃ title, fault.titleValue = .ok title := by
  obtain ⟨title, htitle⟩ := h.title
  exact ⟨.text (Text.titled title), by rw [Fault.titleValue, htitle]; rfl⟩

/-- Of a reported fault only the name can have a style of its own, where the surrounding program sets
it. -/
theorem stripped_named_iff {host : Host} {fault : Fault} (h : fault.Reported)
    (prog : Option String) : (named prog fault).Stripped host ↔ host.Stripped := by
  obtain ⟨code, -, hcode⟩ := h.code
  obtain ⟨hint, hhint⟩ := h.hint
  have hlabel : (named prog fault).codeValue host = .text (code.labelFor host) := by
    rw [Fault.codeValue, named, fault.code_withDetails (not_code_of_progDetail prog), hcode]
  have hlast : (named prog fault).hintValue = .text hint := by
    rw [Fault.hintValue, detail?_named prog fault (by decide), hhint]
    rfl
  have hname : ∃ s, ((named prog fault).detail? "prog").getD (.text "usagedoc") = .text s := by
    rw [named, fault.detail?_withDetails (not_code_of_progDetail prog), h.prog]
    cases prog with
    | none => exact ⟨_, rfl⟩
    | some s => exact ⟨s, rfl⟩
  constructor
  · rintro ⟨hprog, -, -⟩ v hv
    rwa [Fault.progValue, hv] at hprog
  · intro hh
    refine ⟨?_, hlabel ▸ Value.stripped_text _, hlast ▸ Value.stripped_text _⟩
    rw [Fault.progValue]
    cases hp : host.prog with
    | some v => exact hh v hp
    | none =>
      obtain ⟨s, hs⟩ := hname
      exact hs ▸ Value.stripped_text s

/-- How a run ends, whatever its presentation. A fault is known by its details other than the
settings, and by the texts that it is shown with. -/
inductive Ending where
  | bound (values : List (String × Datum))
  | informed (text : String)
  | misused (m : Misuse)
  | faulted (f : Fault) (texts : List String)

/-- What is seen of an ending under a presentation: the outcome, and what is written to the two
outputs. A fault takes on the settings, and is raised or printed as they say; raised, it has the same
texts where it can be shown at all. -/
inductive Ending.Seen (host : Host) (p : Presentation) :
    Ending → Outcome → List String → List Rendering → Prop where
  | bound (values : List (String × Datum)) : Seen host p (.bound values) (.bound values) [] []
  | informed (text : String) : Seen host p (.informed text) (.exit 0) [text] []
  | misused (m : Misuse) : Seen host p (.misused m) (.misused m) [] []
  | raised {base f : Fault} {texts : List String} (hp : p.shell.truthy = false)
      (hf : p.Sets base f) (ht : ∀ r, f.render host = .ok r → r.texts = texts) :
      Seen host p (.faulted base texts) (.raised f) [] []
  | printed {base f : Fault} {r : Rendering} {texts : List String} (hp : p.shell.truthy = true)
      (hf : p.Sets base f) (hr : f.render host = .ok r) (ht : r.texts = texts)
      (panel : r.panel = p.fancy.truthy) : Seen host p (.faulted base texts) (.exit 1) [] [r]

/-- A transcript shows an ending, the calls of the matcher and, where it is asked for, the log. -/
structure Transcript.Shows (t : Transcript) (host : Host) (p : Presentation) (ending : Ending)
    (calls : List Call) (entries : List (String × Value)) : Prop where
  seen : ending.Seen host p t.outcome t.stdout t.stderr
  calls : t.calls = calls
  log : t.log = if p.debug then entries else []

/-- The run ends in a fault, its own or one of its matcher. -/
inductive Finish.Reports : Finish → Fault → Prop where
  | failed {x : Failure} {f : Fault} (h : x.report = .ok f) : Reports (.failed x) f
  | faulted (f : Fault) : Reports (.faulted f) f

theorem Finish.Reports.unique {finish : Finish} {f g : Fault} (hf : finish.Reports f)
    (hg : finish.Reports g) : f = g := by
  cases hf with
  | failed h =>
    cases hg with
    | failed h' => exact Except.ok.inj (h.symm.trans h')
  | faulted =>
    cases hg with
    | faulted => rfl

/-- The presentation does not get in its own way: the console takes what it logs, the fault that it
prints has a text for a title, and its colours keep no control characters. -/
structure Presentation.Fits (p : Presentation) (console : Console) (host : Host) (r : Run) :
    Prop where
  logged : p.debug = true → console.Takes r
  titled : p.shell.truthy = true → ∀ f, r.finish.Reports f → ∃ title, f.titleValue = .ok title
  stripped : p.colorful.truthy = true → ∀ f title, r.finish.Reports f → f.titleValue = .ok title →
    (named r.trace.prog f).Stripped host

section

variable (host : Host) (p : Presentation)

def Ending.ofFault (f : Fault) : Ending :=
  .faulted f (match f.titleValue with
    | .ok title => f.texts host false title
    | .error _ => [])

def Run.ending (r : Run) : Ending :=
  match r.finish with
  | .bound values => .bound values
  | .informed text => .informed text
  | .failed x =>
    match x.report with
    | .ok f => .ofFault host (named r.trace.prog f)
    | .error m => .misused m
  | .faulted f => .ofFault host (named r.trace.prog f)

theorem surface_details (prog : Option String) (fault : Fault) :
    fault.surface host (details p prog) =
      if p.shell.truthy then
        ((fault.withDetails (details p prog)).render host).map Surfaced.printed
      else .ok (.raised (fault.withDetails (details p prog))) := by
  have hself : (details p prog).any (·.1 == "self") = false := by
    cases prog <;> rfl
  have hamend : fault.amend (details p prog) = .ok (fault.withDetails (details p prog)) := by
    rw [Fault.amend, hself, if_neg Bool.false_ne_true]
  have hshell : (fault.withDetails (details p prog)).setting "shell" false = p.shell.truthy := by
    rw [Fault.setting, (sets_details p prog fault).shell, Option.elim_some]
  unfold Fault.surface
  rw [hamend, ← hshell]
  rfl

/-- A fault with a title is shown with texts that only colours can change. -/
theorem exists_render_details (prog : Option String) {fault : Fault} {title : Value}
    (h : fault.titleValue = .ok title) :
    ∃ r, (fault.withDetails (details p prog)).render host = .ok r ∧ r.panel = p.fancy.truthy ∧
      r.texts = (named prog fault).texts host p.colorful.truthy title := by
  have hsets := sets_details p prog fault
  have htitle := (hsets.titleValue.trans (titleValue_named prog fault)).trans h
  obtain ⟨r, hr, hpanel, htexts⟩ := Fault.exists_render host htitle
  refine ⟨r, hr, ?_, ?_⟩
  · rw [hpanel, Fault.setting, hsets.fancy, Option.elim_some]
  · rw [htexts, hsets.texts, Fault.setting, hsets.colorful, Option.elim_some]

theorem render_details_of_untitled (prog : Option String) {fault : Fault} {m : Misuse}
    (h : fault.titleValue = .error m) :
    (fault.withDetails (details p prog)).render host = .error m := by
  have hsets := sets_details p prog fault
  have htitle := (hsets.titleValue.trans (titleValue_named prog fault)).trans h
  unfold Fault.render
  rw [htitle]
  rfl

/-- Outside a shell a fault is raised. -/
theorem surfaced_of_not_shell (t : Trace) (fault : Fault) (hs : p.shell.truthy = false) :
    surfaced host p t (.ok fault) =
      ⟨.raised (fault.withDetails (details p t.prog)), t.calls, [], [], []⟩ := by
  have hraised : fault.surface host (details p t.prog) =
      .ok (.raised (fault.withDetails (details p t.prog))) := by
    rw [surface_details, hs, if_neg Bool.false_ne_true]
  simp only [surfaced, Except.bind, hraised]

/-- In a shell a fault that can be shown is printed. -/
theorem surfaced_of_render (t : Trace) {fault : Fault} {r : Rendering} (hs : p.shell.truthy = true)
    (hr : (fault.withDetails (details p t.prog)).render host = .ok r) :
    surfaced host p t (.ok fault) = ⟨.exit 1, t.calls, [], [r], []⟩ := by
  have hprinted : fault.surface host (details p t.prog) = .ok (.printed r) := by
    rw [surface_details, hs, if_pos rfl, hr]
    rfl
  simp only [surfaced, Except.bind, hprinted]

theorem surfaced_of_not_render (t : Trace) {fault : Fault} {m : Misuse}
    (hs : p.shell.truthy = true)
    (hr : (fault.withDetails (details p t.prog)).render host = .error m) :
    surfaced host p t (.ok fault) = ⟨.misused m, t.calls, [], [], []⟩ := by
  have hrefused : fault.surface host (details p t.prog) = .error m := by
    rw [surface_details, hs, if_pos rfl, hr]
    rfl
  simp only [surfaced, Except.bind, hrefused]

/-- A surfaced fault with a title is seen as it is exactly where colours do not change its texts. -/
theorem seen_titled_iff (t : Trace) {fault : Fault} {title : Value}
    (ht : fault.titleValue = .ok title) :
    (Ending.ofFault host (named t.prog fault)).Seen host p (surfaced host p t (.ok fault)).outcome
        (surfaced host p t (.ok fault)).stdout (surfaced host p t (.ok fault)).stderr ↔
      (p.colorful.truthy = true → (named t.prog fault).Stripped host) := by
  have hsets := sets_details p t.prog fault
  have hnamed := (titleValue_named t.prog fault).trans ht
  obtain ⟨r, hr, hpanel, htexts⟩ := exists_render_details host p t.prog ht
  have hsame : r.texts = (named t.prog fault).texts host false title ↔
      (p.colorful.truthy = true → (named t.prog fault).Stripped host) := by
    rw [htexts]
    cases p.colorful.truthy with
    | false => simp
    | true => simp [Fault.texts_eq_iff hnamed]
  rw [← hsame, Ending.ofFault, hnamed]
  cases hs : p.shell.truthy with
  | true =>
    rw [surfaced_of_render host p t hs hr]
    constructor
    · intro h
      cases h with
      | printed _ _ _ hshown _ => exact hshown
    · exact fun h => .printed hs hsets hr h hpanel
  | false =>
    rw [surfaced_of_not_shell host p t fault hs]
    constructor
    · intro h
      cases h with
      | raised _ _ hshown => exact hshown r hr
    · intro h
      refine .raised hs hsets fun r' hr' => ?_
      rw [hr] at hr'
      cases hr'
      exact h

/-- A fault whose title is no text is seen as it is outside a shell only. -/
theorem seen_untitled_iff (t : Trace) {fault : Fault} {m : Misuse}
    (ht : fault.titleValue = .error m) :
    (Ending.ofFault host (named t.prog fault)).Seen host p (surfaced host p t (.ok fault)).outcome
        (surfaced host p t (.ok fault)).stdout (surfaced host p t (.ok fault)).stderr ↔
      p.shell.truthy = false := by
  have hsets := sets_details p t.prog fault
  have hrender := render_details_of_untitled host p t.prog ht
  rw [Ending.ofFault]
  cases hs : p.shell.truthy with
  | true =>
    rw [surfaced_of_not_render host p t hs hrender]
    constructor
    · intro h
      cases h
    · intro h
      cases h
  | false =>
    rw [surfaced_of_not_shell host p t fault hs]
    refine ⟨fun _ => rfl, fun _ => .raised hs hsets fun r hr => ?_⟩
    rw [hrender] at hr
    cases hr

/-- A surfaced fault is seen as it is exactly where it can be printed, if it is to be, and colours do
not change its texts. -/
theorem seen_surfaced_iff (t : Trace) (fault : Fault) :
    (Ending.ofFault host (named t.prog fault)).Seen host p (surfaced host p t (.ok fault)).outcome
        (surfaced host p t (.ok fault)).stdout (surfaced host p t (.ok fault)).stderr ↔
      (p.shell.truthy = true → ∃ title, fault.titleValue = .ok title) ∧
        (p.colorful.truthy = true → ∀ title, fault.titleValue = .ok title →
          (named t.prog fault).Stripped host) := by
  cases ht : fault.titleValue with
  | error m =>
    rw [seen_untitled_iff host p t ht]
    simp
  | ok title =>
    rw [seen_titled_iff host p t ht]
    simp

theorem seen_conclude_iff (r : Run) :
    (r.ending host).Seen host p (conclude host p r).outcome (conclude host p r).stdout
        (conclude host p r).stderr ↔
      (p.shell.truthy = true → ∀ f, r.finish.Reports f → ∃ title, f.titleValue = .ok title) ∧
        (p.colorful.truthy = true → ∀ f title, r.finish.Reports f → f.titleValue = .ok title →
          (named r.trace.prog f).Stripped host) := by
  obtain ⟨finish, trace⟩ := r
  have hsole {fault : Fault} (hr : finish.Reports fault) :
      ((p.shell.truthy = true → ∃ title, fault.titleValue = .ok title) ∧
        (p.colorful.truthy = true → ∀ title, fault.titleValue = .ok title →
          (named trace.prog fault).Stripped host)) ↔
      ((p.shell.truthy = true → ∀ f, finish.Reports f → ∃ title, f.titleValue = .ok title) ∧
        (p.colorful.truthy = true → ∀ f title, finish.Reports f → f.titleValue = .ok title →
          (named trace.prog f).Stripped host)) := by
    constructor
    · rintro ⟨ht, hc⟩
      exact ⟨fun hs f hf => hr.unique hf ▸ ht hs, fun hp f title hf => hr.unique hf ▸ hc hp title⟩
    · rintro ⟨ht, hc⟩
      exact ⟨fun hs => ht hs fault hr, fun hp title => hc hp fault title hr⟩
  cases finish with
  | bound values => exact ⟨fun _ => ⟨nofun, nofun⟩, fun _ => .bound values⟩
  | informed text => exact ⟨fun _ => ⟨nofun, nofun⟩, fun _ => .informed text⟩
  | faulted fault =>
    rw [← hsole (.faulted fault)]
    exact seen_surfaced_iff host p trace fault
  | failed x =>
    cases hx : x.report with
    | error m =>
      have hnone : ∀ f, ¬ (Finish.failed x).Reports f := by
        rintro f ⟨h⟩
        rw [hx] at h
        cases h
      refine ⟨fun _ => ⟨fun _ f hf => (hnone f hf).elim, fun _ f _ hf => (hnone f hf).elim⟩,
        fun _ => ?_⟩
      simp only [Run.ending, conclude, hx]
      exact .misused m
    | ok fault =>
      rw [← hsole (.failed hx)]
      simp only [Run.ending, conclude, hx]
      exact seen_surfaced_iff host p trace fault

end

/-- A presentation shows how a run ends exactly where it fits the run. -/
theorem shows_present_iff (console : Console) (host : Host) (p : Presentation) (r : Run) :
    (present console host p r).Shows host p (r.ending host) r.trace.calls r.trace.entries ↔
      p.Fits console host r := by
  by_cases hl : p.debug = true → console.Takes r
  · rw [present_of_takes hl]
    constructor
    · intro h
      obtain ⟨htitled, hstripped⟩ := (seen_conclude_iff host p r).mp h.seen
      exact ⟨hl, htitled, hstripped⟩
    · intro h
      exact ⟨(seen_conclude_iff host p r).mpr ⟨h.titled, h.stripped⟩, (calls_conclude host p r).1, rfl⟩
  · obtain ⟨hd, hn⟩ := Classical.not_imp.mp hl
    obtain ⟨m, hm⟩ := outcome_of_not_takes host hd hn
    refine ⟨fun h => ?_, fun h => (hl h.logged).elim⟩
    have hseen := h.seen
    rw [hm] at hseen
    generalize r.ending host = ending at hseen
    cases hseen

/-- The outcome in short: the names that are bound, or the message of what is raised. -/
def Outcome.gist : Outcome → List String
  | .bound values => "bound" :: values.map (·.1)
  | .exit status => ["exit", Nat.repr status]
  | .raised f => ["raised", f.message.getD ""]
  | .misused m => ["misused", m.message]
  | .refused m => ["refused", m.message]

end Invocation

end Synopsis
