import Synopsis.Proofs.Placement

/-!
Command lines one behind another. As long as the first has not ended the options, the second is read
over the registry that the first leaves, as if it stood alone; once they have ended, its words are
positionals. A refusal stands whatever follows, unless what it misses is a value.
-/
namespace Synopsis.CommandLine

/-- The leaves show that the options have ended: there are two dashes among the positionals, or any
positional where options come first. -/
def Ended (optionsFirst : Bool) (leaves : List Leaf) : Prop :=
  positionalOf "--" ∈ leaves ∨
    (optionsFirst = true ∧ ∃ name value, Leaf.argument name value ∈ leaves)

def endsAt (optionsFirst : Bool) : Leaf → Bool
  | .argument none (.text word) => optionsFirst || word == "--"
  | .argument .. => optionsFirst
  | _ => false

theorem ended_iff_any {optionsFirst : Bool} {leaves : List Leaf} :
    Ended optionsFirst leaves ↔ leaves.any (endsAt optionsFirst) = true := by
  rw [List.any_eq_true]
  constructor
  · rintro (h | ⟨rfl, name, value, h⟩)
    · exact ⟨_, h, by simp [endsAt, positionalOf]⟩
    · refine ⟨_, h, ?_⟩
      unfold endsAt
      split <;> simp_all
  · rintro ⟨leaf, h, he⟩
    unfold endsAt at he
    split at he
    next word =>
      rcases (Bool.or_eq_true _ _).mp he with ho | hw
      · exact .inr ⟨ho, none, .text word, h⟩
      · rw [beq_iff_eq.mp hw] at h
        exact .inl h
    next name value _ => exact .inr ⟨he, name, value, h⟩
    next => cases he

instance (optionsFirst : Bool) (leaves : List Leaf) : Decidable (Ended optionsFirst leaves) :=
  decidable_of_iff _ ended_iff_any.symm

theorem ended_append {optionsFirst : Bool} {front back : List Leaf} :
    Ended optionsFirst (front ++ back) ↔ Ended optionsFirst front ∨ Ended optionsFirst back := by
  simp only [ended_iff_any, List.any_append, Bool.or_eq_true]

theorem ended_of_ends {optionsFirst : Bool} {token : Token} (rest : List Token)
    (h : Ends optionsFirst token.text) :
    Ended optionsFirst ((token :: rest).map positional) := by
  have hmem : positionalOf token.text ∈ (token :: rest).map positional := List.mem_cons_self
  rcases h with hs | ⟨ho, -⟩
  · rw [hs] at hmem
    exact .inl hmem
  · exact .inr ⟨ho, _, _, hmem⟩

theorem Turn.not_ended {optionsFirst : Bool} {token : Token} {rest : List Token}
    {registry : Registry} {r : Reading Leaf} (hn : ¬ Ends optionsFirst token.text)
    (h : Turn token rest registry r) : ¬ Ended optionsFirst r.found := by
  have hoption : ∀ {leaves : List OptionDecl}, ¬ Ended optionsFirst (leaves.map Leaf.option) := by
    rintro leaves (h | ⟨-, name, value, h⟩)
    · obtain ⟨o, -, ho⟩ := List.mem_map.mp h
      cases ho
    · obtain ⟨o, -, ho⟩ := List.mem_map.mp h
      cases ho
  cases h with
  | long hs hr => exact hoption
  | cluster hs hc hr => exact hoption
  | positional hs =>
    rintro (h | ⟨ho, -⟩)
    · have htext : "--" = token.text := by
        simpa [positionalOf, CommandLine.positional] using h
      exact hn (.inl htext.symm)
    · exact hn (.inr ⟨ho, hs⟩)

/-- A line whose options have not ended hands its registry on to the line behind it. -/
theorem ofTokens_append {optionsFirst : Bool} {tokens : List Token} {registry : Registry}
    {p : Parsed} (h : Run optionsFirst tokens registry p) (hn : ¬ Ended optionsFirst p.leaves)
    (more : List Token) :
    ofTokens optionsFirst (tokens ++ more) registry =
      (ofTokens optionsFirst more p.registry).map (·.behind p.leaves) := by
  induction h with
  | @done registry =>
    rw [List.nil_append]
    cases ofTokens optionsFirst more registry <;> rfl
  | ended he => exact (hn (ended_of_ends _ he)).elim
  | @turned token rest registry r p hends ht hr ih =>
    obtain ⟨used, hu, hl⟩ := ht.locally
    have hrest : ¬ Ended optionsFirst p.leaves := fun h => hn (ended_append.mpr (.inr h))
    rw [List.cons_append, hu, List.append_assoc, ofTokens_of_turn hends (hl (r.rest ++ more))]
    dsimp only
    rw [ih hrest, map_behind_behind]
    rfl

/-- Behind a line that has ended the options, all words are positionals. -/
theorem Run.append_ended {optionsFirst : Bool} {tokens : List Token} {registry : Registry}
    {p : Parsed} (h : Run optionsFirst tokens registry p) (he : Ended optionsFirst p.leaves)
    (more : List Token) :
    Run optionsFirst (tokens ++ more) registry
      ⟨p.leaves ++ more.map positional, p.registry⟩ := by
  induction h with
  | done =>
    rcases he with h | ⟨-, name, value, h⟩
    · cases h
    · cases h
  | @ended token rest registry hends =>
    rw [← List.map_append]
    exact .ended hends
  | @turned token rest registry r p hends ht hr ih =>
    obtain ⟨used, hu, hl⟩ := ht.locally
    have hp : Ended optionsFirst p.leaves :=
      (ended_append.mp he).resolve_left (ht.not_ended hends)
    have hrun := Run.turned hends (hl (r.rest ++ more)) (ih hp)
    rw [List.cons_append, hu, List.append_assoc]
    simpa only [Parsed.behind, List.append_assoc] using hrun

/-- A line that breaks off, but not for a missing value, breaks off whatever stands behind it. -/
theorem Stuck.append {optionsFirst : Bool} {tokens : List Token} {registry : Registry}
    {x : Complaint} (h : Stuck optionsFirst tokens registry x) (hn : ¬ x.LacksValue)
    (more : List Token) : Stuck optionsFirst (tokens ++ more) registry x := by
  induction h with
  | @here token rest registry x hends hb => exact .here hends (hb.anywhere hn (rest ++ more))
  | @turned token rest registry r x hends ht hs ih =>
    obtain ⟨used, hu, hl⟩ := ht.locally
    rw [List.cons_append, hu, List.append_assoc]
    exact .turned hends (hl (r.rest ++ more)) (ih hn)

theorem Stuck.report_lacksValue {optionsFirst : Bool} {words : List String}
    {registry : Registry} {x : Complaint} (h : Stuck optionsFirst (Token.ofWords words) registry x)
    (hx : x.LacksValue) :
    ∃ fault, (Failure.complaint x).report = .ok fault ∧ fault.kind = some .missingArgument := by
  obtain ⟨token, ht, hb⟩ := h.blames
  obtain ⟨place, -, hw⟩ := Token.whereabouts_of_placed (Token.placed_of_mem_ofWords ht)
  cases hb with
  | missingLongValue | missingShortValue =>
    simp only [Failure.report, Complaint.report, hw]
    exact ⟨_, rfl, Fault.titled_kind ..⟩
  | malformed | unsplittable | dashInCluster | repeatedShort | unexpectedValue | ambiguous =>
    exact hx.elim

/-- How two command lines are read one behind the other, wherever they are cut. -/
theorem parse_append (optionsFirst : Bool) (pre post : List String) (registry : Registry) :
    (∀ p, parse optionsFirst pre registry = .ok p →
      (¬ Ended optionsFirst p.leaves →
        Agree Failure.SameFault (parse optionsFirst (pre ++ post) registry)
          ((parse optionsFirst post p.registry).map (·.behind p.leaves))) ∧
      (Ended optionsFirst p.leaves →
        parse optionsFirst (pre ++ post) registry =
          .ok ⟨p.leaves ++ post.map positionalOf, p.registry⟩)) ∧
    ∀ f, parse optionsFirst pre registry = .error f →
      (∀ fault, f.report = .ok fault → fault.kind ≠ some .missingArgument) →
        parse optionsFirst (pre ++ post) registry = .error f := by
  have htokens : parse optionsFirst (pre ++ post) registry = ofTokens optionsFirst
      (Token.ofWords pre ++ (Token.ofWords post).map (Token.moved pre.length)) registry := by
    rw [parse, Token.ofWords_append]
  rw [htokens]
  constructor
  · intro p h
    have hrun := ofTokens_eq_ok_iff.mp h
    constructor
    · intro hn
      rw [ofTokens_append hrun hn]
      exact (agree_further pre.length).behind p.leaves
    · intro he
      rw [ofTokens_of_run (hrun.append_ended he _), map_positional, Token.map_text_moved,
        Token.map_text_ofWords]
  · intro f h hkind
    obtain ⟨x, rfl, hs⟩ := ofTokens_eq_error_iff.mp h
    apply ofTokens_of_stuck
    apply hs.append
    intro hx
    obtain ⟨fault, hfault, hmissing⟩ := hs.report_lacksValue hx
    exact hkind fault hfault hmissing

theorem parse_append_regimes :
    let verbose : OptionDecl := ⟨some "-v", some "--verbose", .flag .int false, by decide⟩
    let out : OptionDecl := ⟨some "-o", some "--out", .valued .int .null, by decide⟩
    let registry : Registry := [verbose, out]
    (∃ p, parse false ["-q", "--out", "--", "x"] registry = .ok p ∧ ¬ Ended false p.leaves ∧
      Agree Failure.SameFault
        (parse false (["-q", "--out", "--", "x"] ++ ["-q", "y", "-vo"]) registry)
        ((parse false ["-q", "y", "-vo"] p.registry).map (·.behind p.leaves))) ∧
    (∃ p, parse true ["-v", "x"] registry = .ok p ∧ Ended true p.leaves ∧
      parse true (["-v", "x"] ++ ["-o", "--"]) registry =
        .ok ⟨p.leaves ++ ["-o", "--"].map positionalOf, p.registry⟩) ∧
    ∃ f fault, parse false ["x", "--verb=1"] registry = .error f ∧ f.report = .ok fault ∧
      fault.kind = some .unexpectedArgument ∧
        parse false (["x", "--verb=1"] ++ ["-o"]) registry = .error f := by
  intro verbose out registry
  obtain ⟨p, hp, hn⟩ := Usage.exists_ok_of_any (show
    (parse false ["-q", "--out", "--", "x"] registry).toOption.any
      (fun p => decide (¬ Ended false p.leaves)) = true by decide +kernel)
  obtain ⟨q, hq, he⟩ := Usage.exists_ok_of_any (show
    (parse true ["-v", "x"] registry).toOption.any
      (fun p => decide (Ended true p.leaves)) = true by decide +kernel)
  obtain ⟨f, hf, hrefused⟩ := Usage.exists_error_of_failsAs (show
    Usage.failsAs (fun f => f.report.toOption.any (·.kind == some .unexpectedArgument))
      (parse false ["x", "--verb=1"] registry) = true by decide +kernel)
  obtain ⟨fault, hfault, hkind⟩ := Usage.exists_ok_of_any hrefused
  rw [beq_iff_eq] at hkind
  obtain ⟨hopen, -⟩ := (parse_append false ["-q", "--out", "--", "x"] ["-q", "y", "-vo"]
    registry).1 p hp
  obtain ⟨-, hended⟩ := (parse_append true ["-v", "x"] ["-o", "--"] registry).1 q hq
  refine ⟨⟨p, hp, of_decide_eq_true hn, hopen (of_decide_eq_true hn)⟩,
    ⟨q, hq, of_decide_eq_true he, hended (of_decide_eq_true he)⟩, ?_⟩
  refine ⟨f, fault, hf, hfault, hkind,
    (parse_append false ["x", "--verb=1"] ["-o"] registry).2 f hf ?_⟩
  intro fault' hfault'
  rw [hfault, Except.ok.injEq] at hfault'
  rw [← hfault', hkind]
  decide

end Synopsis.CommandLine
