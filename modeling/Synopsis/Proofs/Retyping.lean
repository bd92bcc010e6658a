import Synopsis.Proofs.Bindings

/-!
What becomes of the values of a run where they are asked for with their types. Texts are read as
numbers or truth values where they can be, and all other values stay. Only one thing is in the way:
an integer may not have more digits than the limit, and then the run ends in misuse.
-/
namespace Synopsis

namespace Coercion

/-- The text consists of digits, more than an integer may have. A final line feed is passed over. -/
def Overlong (s : String) : Prop :=
  (dropFinalNewline s.toList).all Decimal.isDigit = true ∧
    digitLimit < (dropFinalNewline s.toList).length

theorem classify_of_overlong {s : String} (h : Overlong s) :
    classify s = .error (.digitLimit (dropFinalNewline s.toList).length) := by
  have hne : (dropFinalNewline s.toList).isEmpty = false := by
    rw [List.isEmpty_eq_false_iff, ← List.length_pos_iff]
    exact Nat.zero_lt_of_lt h.2
  unfold classify
  dsimp only
  rw [hne, h.1, if_pos h.2]
  rfl

/-- What a text can be read as. -/
inductive Reads (s : String) : Datum → Prop where
  | int (n : Int) : Reads s (.int n)
  | float (x : Decimal.Binary64) : Reads s (.float x)
  | bool (b : Bool) : Reads s (.bool b)
  | text : Reads s (.text s)

theorem exists_classify {s : String} (h : ¬ Overlong s) : ∃ d, classify s = .ok d ∧ Reads s d := by
  unfold classify
  dsimp only
  split
  next hdigits =>
    rw [Bool.and_eq_true] at hdigits
    rw [if_neg fun hl => h ⟨hdigits.2, hl⟩]
    exact ⟨_, rfl, .int _⟩
  next =>
    split
    · exact ⟨_, rfl, .float _⟩
    · split
      · exact ⟨_, rfl, .bool _⟩
      · exact ⟨_, rfl, .text⟩

end Coercion

namespace Invocation

/-- A value that is a text with too many digits. -/
def Overlong (v : Datum) : Prop := ∃ s, v = .text s ∧ Coercion.Overlong s

/-- A text becomes what it is read as, a number, a truth value or itself, and no other value
changes. -/
inductive Retyped : Datum → Datum → Prop where
  | text {s : String} {d : Datum} (h : Coercion.classify s = .ok d) (hd : Coercion.Reads s d) :
      Retyped (.text s) d
  | other {v : Datum} (h : ∀ s, v ≠ .text s) : Retyped v v

theorem exists_coerce {v : Datum} (h : ¬ Overlong v) : ∃ w, coerce v = .ok w ∧ Retyped v w := by
  cases v with
  | text s =>
    obtain ⟨d, hd, hreads⟩ := Coercion.exists_classify fun ho => h ⟨s, rfl, ho⟩
    exact ⟨d, hd, .text hd hreads⟩
  | _ => exact ⟨_, rfl, .other (by simp)⟩

theorem coerce_of_overlong {v : Datum} (h : Overlong v) :
    ∃ n, coerce v = .error (.digitLimit n) ∧ Coercion.digitLimit < n := by
  obtain ⟨s, rfl, hs⟩ := h
  exact ⟨_, Coercion.classify_of_overlong hs, hs.2⟩

theorem coerceAll_cons (name : String) (v : Datum) (entries : List (String × Datum)) :
    coerceAll ((name, v) :: entries) =
      match coerce v with
      | .error m => .error m
      | .ok w => (coerceAll entries).map ((name, w) :: ·) := by
  have hcons : coerceAll ((name, v) :: entries) =
      ((coerce v).map fun w => (name, w)) >>= fun e =>
        coerceAll entries >>= fun rest => pure (e :: rest) := List.mapM_cons
  rw [hcons]
  cases coerce v with
  | error m => rfl
  | ok w => cases coerceAll entries <;> rfl

/-- Where no text is too long, all values are read, each under its name. -/
theorem exists_coerceAll {entries : List (String × Datum)} (h : ∀ e ∈ entries, ¬ Overlong e.2) :
    ∃ coerced, coerceAll entries = .ok coerced ∧
      List.Forall₂ (fun e e' => e.1 = e'.1 ∧ Retyped e.2 e'.2) entries coerced := by
  induction entries with
  | nil => exact ⟨[], rfl, .nil⟩
  | cons e entries ih =>
    obtain ⟨name, v⟩ := e
    rw [List.forall_mem_cons] at h
    obtain ⟨w, hw, hretyped⟩ := exists_coerce h.1
    obtain ⟨coerced, hcoerced, hall⟩ := ih h.2
    refine ⟨(name, w) :: coerced, ?_, .cons ⟨rfl, hretyped⟩ hall⟩
    rw [coerceAll_cons, hw, hcoerced]
    rfl

theorem coerceAll_of_overlong {entries : List (String × Datum)} (h : ∃ e ∈ entries, Overlong e.2) :
    ∃ n, coerceAll entries = .error (.digitLimit n) ∧ Coercion.digitLimit < n := by
  induction entries with
  | nil => simp at h
  | cons e entries ih =>
    obtain ⟨name, v⟩ := e
    rw [coerceAll_cons]
    by_cases he : Overlong v
    · obtain ⟨n, hn, hlimit⟩ := coerce_of_overlong he
      exact ⟨n, by rw [hn], hlimit⟩
    · obtain ⟨w, hw, -⟩ := exists_coerce he
      have hrest : ∃ e ∈ entries, Overlong e.2 := by
        obtain ⟨e', hm, ho⟩ := h
        rcases List.mem_cons.mp hm with rfl | hm
        · exact absurd ho he
        · exact ⟨e', hm, ho⟩
      obtain ⟨n, hn, hlimit⟩ := ih hrest
      refine ⟨n, ?_, hlimit⟩
      rw [hw, hn]
      rfl

/-- Coercion as a last step: it bears only on values that are bound. -/
def Finish.coerced : Finish → Finish
  | .bound values =>
    match coerceAll values with
    | .error m => .failed (.misuse m)
    | .ok coerced => .bound coerced
  | f => f

def Run.coerced (r : Run) : Run := ⟨r.finish.coerced, r.trace⟩

def Task.typedAs (typed : Bool) (r : Task) : Task := { r with typed }

section

variable (r : Task) (typed : Bool)

@[simp] theorem doc_typedAs : (r.typedAs typed).doc = r.doc := rfl

@[simp] theorem line_typedAs : (r.typedAs typed).line = r.line := rfl

@[simp] theorem matcher_typedAs : (r.typedAs typed).matcher = r.matcher := rfl

@[simp] theorem optionsFirst_typedAs : (r.typedAs typed).optionsFirst = r.optionsFirst := rfl

@[simp] theorem information?_typedAs (leaves : List Leaf) :
    information? (r.typedAs typed) leaves = information? r leaves := rfl

end

theorem bound_typedAs (r : Task) (pattern : Pattern) (collected : List Pattern) :
    bound (r.typedAs true) pattern collected =
      (bound (r.typedAs false) pattern collected).coerced := by
  unfold bound
  cases bindings pattern collected with
  | error m => rfl
  | ok entries => rfl

theorem bindLine_typedAs (r : Task) (prog : String) (pattern : Pattern) (leaves : List Leaf)
    (t : Trace) :
    bindLine (r.typedAs true) prog pattern leaves t =
      (bindLine (r.typedAs false) prog pattern leaves t).coerced := by
  unfold bindLine
  simp only [matcher_typedAs, bound_typedAs]
  split <;> rfl

theorem readLine_typedAs (r : Task) (prog : String) (parsed : Usage.Parsed) (t : Trace) :
    readLine (r.typedAs true) prog parsed t = (readLine (r.typedAs false) prog parsed t).coerced := by
  unfold readLine
  simp only [line_typedAs, optionsFirst_typedAs, information?_typedAs, bindLine_typedAs]
  cases Request.vector r.line with
  | error f => rfl
  | ok tokens =>
    dsimp only
    cases CommandLine.ofTokens r.optionsFirst tokens parsed.registry with
    | error f => rfl
    | ok line =>
      dsimp only
      cases information? r line.leaves <;> rfl

theorem readUsage_typedAs (r : Task) (prog formal : String) :
    readUsage (r.typedAs true) prog formal = (readUsage (r.typedAs false) prog formal).coerced := by
  unfold readUsage
  simp only [doc_typedAs, readLine_typedAs]
  split <;> rfl

/-- A run for typed values is the other run, with its values coerced in the end. -/
theorem run_typedAs (r : Task) : run (r.typedAs true) = (run (r.typedAs false)).coerced := by
  unfold run
  simp only [doc_typedAs, readUsage_typedAs]
  split
  · rfl
  · split <;> rfl

theorem finish_of_outcome {console : Console} {host : Host} {p : Presentation} {r : Run}
    {values : List (String × Datum)} (h : (present console host p r).outcome = .bound values) :
    r.finish = .bound values ∧ (p.debug = true → console.Takes r) := by
  have htakes : p.debug = true → console.Takes r := by
    intro hd
    by_contra hn
    obtain ⟨m, hm⟩ := outcome_of_not_takes host hd hn
    rw [hm] at h
    cases h
  rw [present_of_takes htakes] at h
  refine ⟨?_, htakes⟩
  have hsurfaced : ∀ reported, (surfaced host p r.trace reported).outcome ≠ .bound values := by
    intro reported
    unfold surfaced
    split <;> nofun
  unfold conclude at h
  split at h
  next hb => cases h; exact hb
  next => cases h
  next => exact (hsurfaced _ h).elim
  next => exact (hsurfaced _ h).elim

/-- What a call shows that asks for typed values, or for the values as they are. -/
def transcriptOf (console : Console) (host : Host) (p : Presentation) (doc : Value)
    (matcher : Option Matcher) (task : String → Matcher → Task) (typed : Bool) : Transcript :=
  runChecked console host p doc matcher fun s m => (task s m).typedAs typed

/-- The transcripts differ in nothing but the outcome. -/
structure Transcript.SameButOutcome (t u : Transcript) : Prop where
  calls : t.calls = u.calls
  stdout : t.stdout = u.stdout
  stderr : t.stderr = u.stderr
  log : t.log = u.log

variable {console : Console} {host : Host} {p : Presentation} {doc : Value}
  {matcher : Option Matcher} {task : String → Matcher → Task} {values : List (String × Datum)}

theorem exists_run_of_outcome {typed : Bool}
    (h : (transcriptOf console host p doc matcher task typed).outcome = .bound values) :
    ∃ r : Task, (run (r.typedAs typed)).finish = .bound values ∧
      (p.debug = true → console.Takes (run (r.typedAs typed))) ∧
      ∀ typed, transcriptOf console host p doc matcher task typed =
        present console host p (run (r.typedAs typed)) := by
  unfold transcriptOf runChecked at *
  cases hs : doc.text? with
  | none => rw [hs] at h; cases h
  | some s =>
    cases matcher with
    | none => rw [hs] at h; cases h
    | some m =>
      rw [hs] at h
      obtain ⟨hfinish, htakes⟩ := finish_of_outcome h
      exact ⟨task s m, hfinish, htakes, fun typed => rfl⟩

/-- Coercion changes nothing but the outcome of a run, and this as the values let it. -/
theorem present_coerced (host : Host) {r : Run} (h : r.finish = .bound values)
    (hl : p.debug = true → console.Takes r) :
    (present console host p r.coerced).SameButOutcome (present console host p r) ∧
      (∀ coerced, coerceAll values = .ok coerced →
        (present console host p r.coerced).outcome = .bound coerced) ∧
        ∀ m, coerceAll values = .error m →
          (present console host p r.coerced).outcome = .misused m := by
  have hl' : p.debug = true → console.Takes r.coerced := hl
  rw [present_of_takes hl, present_of_takes hl']
  obtain ⟨finish, trace⟩ := r
  cases h
  unfold Run.coerced Finish.coerced
  dsimp only
  cases coerceAll values with
  | error m => exact ⟨⟨rfl, rfl, rfl, rfl⟩, nofun, fun m' hm => by cases hm; rfl⟩
  | ok coerced => exact ⟨⟨rfl, rfl, rfl, rfl⟩, fun c hc => by cases hc; rfl, nofun⟩

def wordTask (word doc : String) (matcher : Matcher) : Task :=
  { doc, argv := .list [.text word], matcher
    help := true, version := .datum .unset, optionsFirst := false, typed := false }

def wordMatcher (word : String) : Matcher :=
  fun _ _ => .ok (some ([], [.leaf (.argument (some "<x>") (.text word))]))

def wordTranscript (word : String) (typed : Bool) : Transcript :=
  transcriptOf .recorder .bare ⟨.bool false, .bool false, .bool true, false⟩ (.text "usage: nf <x>")
    (some (wordMatcher word)) (wordTask word) typed

/-- The names of the values that are bound, each with its text where it is one. -/
def Outcome.texts : Outcome → List (String × Option String)
  | .bound values => values.map fun e => (e.1, (Value.datum e.2).text?)
  | _ => []

theorem outcome_of_texts {o : Outcome} {name s : String} (h : o.texts = [(name, some s)]) :
    o = .bound [(name, .text s)] := by
  cases o with
  | bound values =>
    obtain ⟨⟨name', v⟩, rfl, he⟩ := List.map_eq_singleton_iff.mp h
    obtain ⟨rfl, hv⟩ := Prod.mk.inj he
    cases v with
    | text s' => cases hv; rfl
    | _ => cases hv
  | exit | raised | misused | refused => cases h

theorem finish_wordTask {word : String} (h : CommandLine.WordShape.of word = .positional) :
    ∃ values, values.lookup "<x>" = some (.text word) ∧
      (run ((wordTask word "usage: nf <x>" (wordMatcher word)).typedAs false)).finish =
        .bound values := by
  obtain ⟨s, hs, -⟩ := Usage.exists_ok_of_any (show
    (Request.stages (.text "usage: nf <x>") (.list []) false).toOption.any (fun _ => true) = true by
      decide +kernel)
  have hfirst := Request.stages_eq_ok_iff.mp hs
  let token : Token := ⟨.word, word, 1⟩
  have hends : ¬ CommandLine.Ends false token.text := by
    rintro (rfl | ⟨hfalse, -⟩)
    · cases h
    · cases hfalse
  have hline : CommandLine.ofTokens false [token] s.parsed.registry =
      .ok ⟨[CommandLine.positional token], s.parsed.registry⟩ := by
    rw [CommandLine.ofTokens_of_turn hends (.positional h), CommandLine.ofTokens_nil]
    rfl
  let s' : Request.Stages := { s with line := ⟨[CommandLine.positional token], s.parsed.registry⟩ }
  have hpass : Request.Passes "usage: nf <x>" (.list [.text word]) false s' :=
    { hfirst with line := ⟨[token], rfl, hline⟩ }
  let l : Leaf := .argument (some "<x>") (.text word)
  let r : Task := (wordTask word "usage: nf <x>" (wordMatcher word)).typedAs false
  have hfinish : (run r).finish = bound r s'.parsed.pattern ([l].map .leaf) :=
    finish_of_passes hpass rfl rfl
  refine ⟨collect ((s.parsed.pattern.named ++ [l]).filterMap pair?),
    lookup_collect_last rfl (by simp), hfinish.trans ?_⟩
  rw [bound, bindings_eq]
  rfl

theorem shape_of_nines (n : Nat) :
    CommandLine.WordShape.of (String.ofList (List.replicate (n + 1) '9')) = .positional := by
  simp [CommandLine.WordShape.of, List.replicate_succ]

theorem overlong_nines {n : Nat} (h : Coercion.digitLimit < n) :
    Coercion.Overlong (String.ofList (List.replicate n '9')) := by
  have hlast : Coercion.dropFinalNewline (List.replicate n '9') = List.replicate n '9' := by
    rw [Coercion.dropFinalNewline, if_neg]
    intro hn
    cases List.eq_of_mem_replicate (List.mem_of_getLast? hn)
  constructor
  · rw [String.toList_ofList, hlast, List.all_replicate]
    simp [Decimal.isDigit]
  · rw [String.toList_ofList, hlast, List.length_replicate]
    exact h

/-- Where a call binds values, the call for typed values does all the same, and binds the same names:
texts are retyped, and no other value changes. It ends in misuse instead exactly where one of the
texts has more digits than an integer may have. -/
theorem outcome_typed
    (h : (transcriptOf console host p doc matcher task false).outcome = .bound values) :
    let typed := transcriptOf console host p doc matcher task true
    typed.SameButOutcome (transcriptOf console host p doc matcher task false) ∧
      ((∀ e ∈ values, ¬ Overlong e.2) → ∃ coerced, typed.outcome = .bound coerced ∧
        List.Forall₂ (fun e e' => e.1 = e'.1 ∧ Retyped e.2 e'.2) values coerced) ∧
        ((∃ e ∈ values, Overlong e.2) →
          ∃ n, typed.outcome = .misused (.digitLimit n) ∧ Coercion.digitLimit < n) := by
  obtain ⟨r, hr, htakes, hpresent⟩ := exists_run_of_outcome h
  obtain ⟨hsame, hbound, hmisused⟩ := present_coerced host hr htakes
  rw [hpresent true, hpresent false, run_typedAs]
  refine ⟨hsame, fun hall => ?_, fun hlong => ?_⟩
  · obtain ⟨coerced, hcoerced, hretyped⟩ := exists_coerceAll hall
    exact ⟨coerced, hbound coerced hcoerced, hretyped⟩
  · obtain ⟨n, hn, hlimit⟩ := coerceAll_of_overlong hlong
    exact ⟨n, hmisused _ hn, hlimit⟩

/-- A number in digits is bound as a text, and as an integer where types are asked for. -/
theorem outcome_typed_number :
    let values := [("<x>", .text "42")]
    (wordTranscript "42" false).outcome = .bound values ∧ (∀ e ∈ values, ¬ Overlong e.2) ∧
      ∃ coerced, (wordTranscript "42" true).outcome = .bound coerced ∧
        coerced.lookup "<x>" = some (.int 42) ∧
          List.Forall₂ (fun e e' => e.1 = e'.1 ∧ Retyped e.2 e'.2) values coerced := by
  intro values
  have hbound : (wordTranscript "42" false).outcome = .bound values :=
    outcome_of_texts (by decide +kernel)
  have hshort : ∀ e ∈ values, ¬ Overlong e.2 := by
    rw [List.forall_mem_singleton]
    rintro ⟨s, ⟨⟩, -, hlimit⟩
    revert hlimit
    decide
  obtain ⟨-, hall, -⟩ := outcome_typed hbound
  obtain ⟨coerced, hcoerced, hretyped⟩ := hall hshort
  refine ⟨hbound, hshort, coerced, hcoerced, ?_, hretyped⟩
  have hnumber : Coercion.classify "42" = .ok (.int 42) := rfl
  obtain ⟨⟨name, w⟩, rest, ⟨rfl, hw⟩, -, rfl⟩ := List.forall₂_cons_left_iff.mp hretyped
  cases hw with
  | text h =>
    rw [hnumber] at h
    cases h
    rfl
  | other h => exact absurd rfl (h "42")

/-- A number of more digits than an integer may have is bound as a text, and ends the call for typed
values in misuse. -/
theorem not_bound_typed_overlong :
    let number := String.ofList (List.replicate 4301 '9')
    ∃ values n, (wordTranscript number false).outcome = .bound values ∧
      values.lookup "<x>" = some (.text number) ∧
        (wordTranscript number true).outcome = .misused (.digitLimit n) := by
  intro number
  obtain ⟨values, hlookup, hfinish⟩ := finish_wordTask (shape_of_nines 4300)
  have hlong : ∃ e ∈ values, Overlong e.2 := by
    obtain ⟨front, back, rfl, -⟩ := List.lookup_eq_some_iff.mp hlookup
    exact ⟨_, List.mem_append_right front List.mem_cons_self, number, rfl,
      overlong_nines (by decide)⟩
  obtain ⟨n, hn, -⟩ := coerceAll_of_overlong hlong
  obtain ⟨-, -, hmisused⟩ := present_coerced .bare hfinish fun _ => Console.takes_recorder _
  refine ⟨values, n, outcome_of_bound hfinish _ fun _ => Console.takes_recorder _, hlookup, ?_⟩
  rw [← run_typedAs] at hmisused
  exact hmisused _ hn

end Invocation

end Synopsis
