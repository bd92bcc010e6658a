import Synopsis.Fault
import Synopsis.Proofs.Derivation
import Synopsis.Proofs.Refusal
import Synopsis.Proofs.Scanning

/-!
Nesting of usage patterns. A single pass with a stack of openers decides whether a stream is accepted
and, where it is not, which bracket is missing or which tokens are left over.
-/
namespace Synopsis.Usage

/-- The openers not yet closed, innermost first, and whether an ellipsis may come next. -/
structure Pass where
  stack : List Token
  repeatable : Bool
  deriving DecidableEq, Repr

namespace Pass

def start : Pass := ⟨[], false⟩

/-- One token further, or nothing where the pass is stuck. -/
def step (s : Pass) (t : Token) : Option Pass :=
  match t.kind with
  | .word => some ⟨s.stack, true⟩
  | .opener => some ⟨t :: s.stack, false⟩
  | .pipe => some ⟨s.stack, false⟩
  | .ellipsis => if s.repeatable then some ⟨s.stack, false⟩ else none
  | .closer =>
    match s.stack with
    | [] => none
    | opener :: outer =>
      if Token.closerOf? opener.text = some t.text then some ⟨outer, true⟩ else none

/-- The last state of a pass, and the tokens from the one on at which it is stuck. -/
def run (s : Pass) : List Token → Pass × List Token
  | [] => (s, [])
  | t :: rest =>
    match s.step t with
    | some next => next.run rest
    | none => (s, t :: rest)

theorem run_cons {s next : Pass} {t : Token} (rest : List Token) (h : s.step t = some next) :
    s.run (t :: rest) = next.run rest := by simp [run, h]

theorem run_stuck {s : Pass} {t : Token} (rest : List Token) (h : s.step t = none) :
    s.run (t :: rest) = (s, t :: rest) := by simp [run, h]

theorem step_word (s : Pass) {t : Token} (h : t.kind = .word) :
    s.step t = some ⟨s.stack, true⟩ := by simp [step, h]

theorem step_opener (s : Pass) {t : Token} (h : t.kind = .opener) :
    s.step t = some ⟨t :: s.stack, false⟩ := by simp [step, h]

theorem step_pipe (s : Pass) {t : Token} (h : t.kind = .pipe) :
    s.step t = some ⟨s.stack, false⟩ := by simp [step, h]

theorem step_ellipsis (stack : List Token) {t : Token} (h : t.kind = .ellipsis) :
    (⟨stack, true⟩ : Pass).step t = some ⟨stack, false⟩ := by simp [step, h]

end Pass

/-- An ellipsis in front would be out of place. -/
def Ready (repeatable : Bool) (tokens : List Token) : Prop :=
  repeatable = true → behind? .ellipsis tokens = none

theorem ready_false (tokens : List Token) : Ready false tokens := by simp [Ready]

theorem closerOf?_of_opener {text : String} (h : TokenKind.of text = .opener) :
    ∃ closer, Token.closerOf? text = some closer := by
  have ho : text = "(" ∨ text = "[" := by
    by_contra hn
    simp only [TokenKind.of, if_neg hn] at h
    split_ifs at h
  rcases ho with rfl | rfl
  · exact ⟨")", by decide⟩
  · exact ⟨"]", by decide⟩

/-- The pass goes over what a part reads and comes out with the stack it went in with. -/
def Crosses : Part → List Token → List Token → Prop
  | .atom, tokens, rest => ∀ stack repeatable,
    (⟨stack, repeatable⟩ : Pass).run tokens = (⟨stack, true⟩ : Pass).run rest
  | _, tokens, rest => ∀ stack repeatable, Ready repeatable tokens →
    ∃ again, (⟨stack, repeatable⟩ : Pass).run tokens = (⟨stack, again⟩ : Pass).run rest ∧
      Ready again rest

theorem run_repeated (a : Reading Pattern) (stack : List Token) :
    ∃ again, (⟨stack, true⟩ : Pass).run a.rest = (⟨stack, again⟩ : Pass).run (repeated a).rest ∧
      Ready again (repeated a).rest := by
  unfold repeated
  split
  next rest h =>
    obtain ⟨t, ht, hk⟩ := suffix_of_behind? h
    exact ⟨false, by rw [ht, Pass.run_cons rest (Pass.step_ellipsis stack hk)], ready_false _⟩
  next h => exact ⟨true, rfl, fun _ => h⟩

theorem crosses_of_reads {part : Part} {tokens : List Token} {registry : Registry}
    {r : Reading Pattern} (h : Reads part tokens registry r)
    (hk : ∀ t ∈ tokens, t.kind = TokenKind.of t.text) : Crosses part tokens r.rest := by
  induction h with
  | word hw hr =>
    intro stack repeatable
    rw [Pass.run_cons _ (Pass.step_word _ hw)]
    rcases (readWord_eq_ok_iff.mp hr).rest_cases with hrest | ⟨next, hrest, hn⟩
    · simp [Reading.map, hrest]
    · rw [hrest, Pass.run_cons _ (Pass.step_word _ hn)]
      rfl
  | @group opener next closer rest after registry registry' inside ho hc he hn ih =>
    intro stack repeatable
    have hsub := suffix_of_reads he
    have hnk : next.kind = .closer := by
      rw [hk next (List.mem_cons_of_mem _ (hsub.subset (by simp))), hn]
      exact (kind_of_closerOf? hc).2
    obtain ⟨again, hrun, -⟩ := ih (fun t ht => hk t (by simp [ht])) (opener :: stack) false
      (ready_false rest)
    rw [Pass.run_cons _ (Pass.step_opener _ ho), hrun, Pass.run_cons]
    simp [Pass.step, hnk, hc, hn]
  | stop | last => exact fun stack repeatable hr => ⟨repeatable, rfl, hr⟩
  | @more tokens registry a s ha hs iha ihs =>
    intro stack repeatable hr
    obtain ⟨again, hrun, hagain⟩ := run_repeated a stack
    have hsub := (repeated_suffix a).trans (suffix_of_reads ha)
    rw [iha hk stack repeatable, hrun]
    exact ihs (fun t ht => hk t (hsub.subset ht)) stack again hagain
  | @branch tokens rest registry s b hp hs hb ihs ihb =>
    intro stack repeatable hr
    obtain ⟨t, rfl, ht⟩ := suffix_of_behind? hp
    have hrest : ∀ t ∈ rest, t.kind = TokenKind.of t.text := fun t ht => hk t (by simp [ht])
    obtain ⟨again, hrun, hagain⟩ := ihs hrest stack false (ready_false rest)
    rw [Pass.run_cons _ (Pass.step_pipe _ ht), hrun]
    exact ihb (fun t ht => hrest t ((suffix_of_reads hs).subset ht)) stack again hagain
  | single hs hp ihs => exact ihs hk
  | several hs hp hb ihs ihb =>
    intro stack repeatable hr
    obtain ⟨again, hrun, hagain⟩ := ihs hk stack repeatable hr
    rw [hrun]
    exact ihb (fun t ht => hk t ((suffix_of_reads hs).subset ht)) stack again hagain

/-- The pass ends inside the bracket that the complaint names. -/
def EndsInside (opener : Token) (tokens : List Token) : Prop :=
  ∀ stack repeatable, Ready repeatable tokens →
    ∃ outer again unread,
      (⟨stack, repeatable⟩ : Pass).run tokens = (⟨opener :: outer, again⟩, unread)

/-- What can be wrong with a scanned stream: an option in it, or a bracket without its closer. -/
def Excused (tokens : List Token) (f : Failure) : Prop :=
  (∃ token ∈ tokens, ∃ c, f = .complaint c ∧ Registry.Blames token c) ∨
    ∃ opener ∈ tokens, ∃ closer, Token.closerOf? opener.text = some closer ∧
      f = .complaint (.missingEnclosure opener closer) ∧ EndsInside opener tokens

theorem Excused.after {tokens rest : List Token} {f : Failure} (h : Excused rest f)
    (hsub : rest ⊆ tokens)
    (hrun : ∀ stack repeatable, Ready repeatable tokens → ∃ inner again,
      (⟨stack, repeatable⟩ : Pass).run tokens = (⟨inner, again⟩ : Pass).run rest ∧
        Ready again rest) : Excused tokens f := by
  rcases h with ⟨token, ht, hc⟩ | ⟨opener, ho, closer, hc, hf, hend⟩
  · exact .inl ⟨token, hsub ht, hc⟩
  · refine .inr ⟨opener, hsub ho, closer, hc, hf, fun stack repeatable hr => ?_⟩
    obtain ⟨inner, again, hgo, hagain⟩ := hrun stack repeatable hr
    rw [hgo]
    exact hend inner again hagain

theorem endsInside_of_unclosed {opener : Token} {closer : String} {rest : List Token}
    {registry : Registry} {r : Reading Pattern} (hk : ∀ t ∈ rest, t.kind = TokenKind.of t.text)
    (ho : opener.kind = .opener) (hc : Token.closerOf? opener.text = some closer)
    (he : Reads .expression rest registry r) (hn : ∀ next ∈ r.rest.head?, next.text ≠ closer) :
    EndsInside opener (opener :: rest) := by
  intro stack repeatable _
  obtain ⟨again, hrun, hagain⟩ :=
    crosses_of_reads he hk (opener :: stack) false (ready_false rest)
  rw [Pass.run_cons _ (Pass.step_opener _ ho), hrun]
  obtain ⟨hpipe, hatom⟩ := stops_of_reads he
  cases hr : r.rest with
  | nil => exact ⟨stack, again, [], rfl⟩
  | cons next after =>
    have hstuck : (⟨opener :: stack, again⟩ : Pass).step next = none := by
      rw [hr] at hpipe hatom hagain hn
      cases hnk : next.kind with
      | word | opener => simp [beginsAtom, hnk] at hatom
      | pipe => simp [behind?, hnk] at hpipe
      | ellipsis =>
        cases again with
        | false => simp [Pass.step, hnk]
        | true => simpa [behind?, hnk] using hagain rfl
      | closer =>
        have hne : closer ≠ next.text := fun h => hn next (by simp) h.symm
        simp [Pass.step, hnk, hc, hne]
    exact ⟨stack, again, _, Pass.run_stuck after hstuck⟩

theorem excused_of_fails {part : Part} {tokens : List Token} {registry : Registry} {f : Failure}
    (h : Fails part tokens registry f) (hs : ∀ t ∈ tokens, t.Scanned)
    (hb : part = .atom → beginsAtom tokens = true) : Excused tokens f := by
  induction h with
  | empty => simp [beginsAtom] at hb
  | unknown hk hc =>
    rename_i opener rest registry
    have hkind := (hs opener (by simp)).kind_eq
    obtain ⟨closer, hcl⟩ := closerOf?_of_opener (hkind ▸ hk)
    simp [hc] at hcl
  | misplaced hm => simp [hm] at hb
  | @word token rest registry f hk hr =>
    have hne := (Token.isWord_iff.mp ((hs token (by simp)).word hk)).1
    obtain ⟨c, hf, hc⟩ := blames_of_readWord hne hr
    exact .inl ⟨token, by simp, c, hf, hc⟩
  | @inside opener closer rest registry f hk hc he ih =>
    refine (ih (fun t ht => hs t (by simp [ht])) (by simp)).after (by simp) ?_
    intro stack repeatable _
    exact ⟨opener :: stack, false, Pass.run_cons _ (Pass.step_opener _ hk), ready_false rest⟩
  | @unclosed opener closer rest registry r hk hc he hn =>
    have hrest : ∀ t ∈ rest, t.kind = TokenKind.of t.text :=
      fun t ht => (hs t (by simp [ht])).kind_eq
    exact .inr ⟨opener, by simp, closer, hc, rfl, endsInside_of_unclosed hrest hk hc he hn⟩
  | first hbegins ha ih => exact ih hs fun _ => hbegins
  | @more tokens registry a f ha hf ih =>
    have hsub := ((repeated_suffix a).trans (suffix_of_reads ha)).subset
    refine (ih (fun t ht => hs t (hsub ht)) (by simp)).after hsub ?_
    intro stack repeatable _
    obtain ⟨again, hrun, hagain⟩ := run_repeated a stack
    exact ⟨stack, again,
      (crosses_of_reads ha (fun t ht => (hs t ht).kind_eq) stack repeatable).trans hrun, hagain⟩
  | @branch tokens rest registry f hp hf ih =>
    obtain ⟨t, rfl, ht⟩ := suffix_of_behind? hp
    refine (ih (fun t ht => hs t (by simp [ht])) (by simp)).after (by simp) ?_
    intro stack repeatable _
    exact ⟨stack, false, Pass.run_cons _ (Pass.step_pipe _ ht), ready_false rest⟩
  | @later tokens rest registry s f hp hr hf ih =>
    obtain ⟨t, rfl, ht⟩ := suffix_of_behind? hp
    have hsub := (suffix_of_reads hr).subset
    have hrest : ∀ t ∈ rest, t.Scanned := fun t ht => hs t (by simp [ht])
    refine (ih (fun t ht => hrest t (hsub ht)) (by simp)).after
      (fun t ht => List.mem_cons_of_mem _ (hsub ht)) ?_
    intro stack repeatable _
    obtain ⟨again, hrun, hagain⟩ := crosses_of_reads hr (fun t ht => (hrest t ht).kind_eq) stack
      false (ready_false rest)
    exact ⟨stack, again, (Pass.run_cons _ (Pass.step_pipe _ ht)).trans hrun, hagain⟩
  | single hf ih => exact ih hs (by simp)
  | several hr hp hf ih =>
    have hsub := (suffix_of_reads hr).subset
    refine (ih (fun t ht => hs t (hsub ht)) (by simp)).after hsub ?_
    intro stack repeatable hready
    obtain ⟨again, hrun, hagain⟩ := crosses_of_reads hr (fun t ht => (hs t ht).kind_eq) stack
      repeatable hready
    exact ⟨stack, again, hrun, hagain⟩

end Synopsis.Usage

namespace Synopsis

theorem Token.whereabouts_of_placed {t : Token} (h : 0 < t.index) :
    ∃ place, Text.ordinal? t.index = some place ∧
      t.whereabouts = .ok (" at " ++ place ++ " position") := by
  obtain ⟨n, hn⟩ : ∃ n : Nat, t.index = .ofNat (n + 1) := ⟨t.index.toNat - 1, by simp; omega⟩
  refine ⟨Text.ordinalSucc n, by rw [hn]; rfl, ?_⟩
  rw [Token.whereabouts, if_neg (by omega), hn]
  rfl

def optionCodes : List Fault.Code :=
  [.unparsableOption, .unexpectedArgument, .missingArgument, .ambiguousOption, .malformedOption]

def Failure.IsOptionFault (f : Failure) : Prop :=
  ∃ fault code, f.report = .ok fault ∧ fault.kind = some code ∧ code ∈ optionCodes

theorem isOptionFault_of_blames {token : Token} {c : Complaint} (hp : 0 < token.index)
    (h : Registry.Blames token c) : (Failure.complaint c).IsOptionFault := by
  obtain ⟨place, -, hw⟩ := Token.whereabouts_of_placed hp
  cases h with
  | malformed why =>
    exact ⟨why.report, .malformedOption, rfl, by cases why <;> rfl, by decide⟩
  | unsplittable | dashInCluster | repeatedShort =>
    simp only [Failure.IsOptionFault, Failure.report, Complaint.report, hw]
    exact ⟨_, .unparsableOption, rfl, rfl, by decide⟩
  | unexpectedValue =>
    simp only [Failure.IsOptionFault, Failure.report, Complaint.report, hw]
    exact ⟨_, .unexpectedArgument, rfl, rfl, by decide⟩
  | missingLongValue | missingShortValue =>
    simp only [Failure.IsOptionFault, Failure.report, Complaint.report, hw]
    exact ⟨_, .missingArgument, rfl, rfl, by decide⟩
  | ambiguous =>
    simp only [Failure.IsOptionFault, Failure.report, Complaint.report, hw]
    exact ⟨_, .ambiguousOption, rfl, rfl, by decide⟩

/-- The fault of a missing bracket names the closer and where its opener stands. -/
structure Fault.MissesCloser (fault : Fault) (opener : Token) (closer : String) : Prop where
  kind_eq : fault.kind = some .missingEnclosure
  enclosure : fault.detail? "enclosure" = some (.text closer)
  message : ∃ place, Text.ordinal? opener.index = some place ∧
    fault.message = some ("missing " ++ Text.quoted closer ++ " for the " ++
      Text.quoted opener.text ++ " opened" ++ (" at " ++ place ++ " position"))

theorem report_missingEnclosure {opener : Token} (closer : String) (hp : 0 < opener.index) :
    ∃ fault, (Failure.complaint (.missingEnclosure opener closer)).report = .ok fault ∧
      fault.MissesCloser opener closer := by
  obtain ⟨place, ho, hw⟩ := Token.whereabouts_of_placed hp
  simp only [Failure.report, Complaint.report, hw]
  exact ⟨_, rfl, rfl, rfl, place, ho, rfl⟩

/-- The fault of leftover tokens holds their texts and names where the first of them stands. -/
structure Fault.LeavesTokens (fault : Fault) (first : Token) (rest : List Token) : Prop where
  kind_eq : fault.kind = some .unconsumedTokens
  tokens : fault.detail? "tokens" = some (.tuple ((first :: rest).map fun t => .text t.text))
  message : ∃ place, Text.ordinal? first.index = some place ∧
    fault.message = some ("unexpected " ++ Text.quoted first.text ++
      (" at " ++ place ++ " position") ++ " in the usage pattern")

theorem report_unconsumed {first : Token} (rest : List Token) (hp : 0 < first.index) :
    ∃ fault, (Failure.complaint (.unconsumed first rest)).report = .ok fault ∧
      fault.LeavesTokens first rest := by
  obtain ⟨place, ho, hw⟩ := Token.whereabouts_of_placed hp
  simp only [Failure.report, Complaint.report, hw]
  exact ⟨_, rfl, rfl, rfl, place, ho, rfl⟩

namespace Usage

/-- What the end of a pass says about a reading: success at the end of the stream outside all
brackets, the innermost open bracket inside them, and the tokens that are left where the pass is
stuck outside. -/
def Pass.Explains : Pass × List Token → Except Failure Parsed → Prop
  | (⟨[], _⟩, []), result => ∃ p, result = .ok p
  | (⟨[], _⟩, first :: rest), result =>
    ∃ f fault, result = .error f ∧ f.report = .ok fault ∧ fault.LeavesTokens first rest
  | (⟨opener :: _, _⟩, _), result =>
    ∃ f fault closer, result = .error f ∧ f.report = .ok fault ∧
      Token.closerOf? opener.text = some closer ∧ fault.MissesCloser opener closer

/-- The pass over what an expression leaves outside all brackets ends there. -/
theorem run_of_leftover {tokens rest : List Token} {first : Token} {registry registry' : Registry}
    {found : List Pattern} (hk : ∀ t ∈ tokens, t.kind = TokenKind.of t.text)
    (hr : Reads .expression tokens registry ⟨first :: rest, registry', found⟩) :
    ∃ again, Pass.start.run tokens = (⟨[], again⟩, first :: rest) := by
  obtain ⟨again, hrun, hagain⟩ := crosses_of_reads hr hk [] false (ready_false tokens)
  obtain ⟨hpipe, hatom⟩ := stops_of_reads hr
  have hstuck : (⟨[], again⟩ : Pass).step first = none := by
    cases hfk : first.kind with
    | word | opener => simp [beginsAtom, hfk] at hatom
    | pipe => simp [behind?, hfk] at hpipe
    | closer => simp [Pass.step, hfk]
    | ellipsis =>
      cases again with
      | false => simp [Pass.step, hfk]
      | true => simpa [behind?, hfk] using hagain rfl
  exact ⟨again, hrun.trans (Pass.run_stuck rest hstuck)⟩

/-- A usage pattern is refused for an option in it, or its reading ends as the pass over its tokens
says. -/
theorem parse_explained_by_pass (usage : String) (registry : Registry) :
    (∃ f, parse usage registry = .error f ∧ f.IsOptionFault) ∨
      Pass.Explains (Pass.start.run (Token.scan usage)) (parse usage registry) := by
  have hs : ∀ t ∈ Token.scan usage, t.Scanned := fun t ht => Token.scanned_of_mem_scan ht
  have hk : ∀ t ∈ Token.scan usage, t.kind = TokenKind.of t.text := fun t ht => (hs t ht).kind_eq
  cases h : parse usage registry with
  | ok p =>
    obtain ⟨found, hr, -⟩ := reads_of_ofTokens h
    obtain ⟨again, hrun, -⟩ := crosses_of_reads hr hk [] false (ready_false _)
    rw [show Pass.start.run (Token.scan usage) = (⟨[], again⟩, []) from hrun]
    exact .inr ⟨p, rfl⟩
  | error f =>
    rcases fails_of_ofTokens h with hf | ⟨first, rest, registry', found, hr, rfl⟩
    · rcases excused_of_fails hf hs (by simp) with
        ⟨token, ht, c, rfl, hc⟩ | ⟨opener, ho, closer, hc, rfl, hend⟩
      · exact .inl ⟨_, rfl, isOptionFault_of_blames (hs token ht).placed hc⟩
      · obtain ⟨outer, again, unread, hrun⟩ := hend [] false (ready_false _)
        obtain ⟨fault, hreport, hfault⟩ := report_missingEnclosure closer (hs opener ho).placed
        rw [show Pass.start.run (Token.scan usage) = _ from hrun]
        exact .inr ⟨_, fault, closer, rfl, hreport, hc, hfault⟩
    · obtain ⟨again, hrun⟩ := run_of_leftover hk hr
      have hfirst : first ∈ Token.scan usage := (suffix_of_reads hr).subset (by simp)
      obtain ⟨fault, hreport, hfault⟩ := report_unconsumed rest (hs first hfirst).placed
      rw [hrun]
      exact .inr ⟨_, fault, rfl, hreport, hfault⟩

end Usage

end Synopsis
