import Synopsis.CommandLine
import Synopsis.Proofs.Refusal

/-!
A command line read turn by turn. A turn reads one option or one positional, or balks at an option;
`Run` and `Stuck` are the sequences of turns that come to an end and that break off, and hold of
exactly what the reader answers. A turn looks at nothing behind the words it consumes, so that the
line in front of the place where a reading breaks off is read on its own as well.
-/
namespace Synopsis

theorem isLongName_iff {s : String} :
    isLongName s = true ↔ ∃ c cs, s.toList = '-' :: '-' :: c :: cs := by
  unfold isLongName
  split
  next c cs hs => simp [hs]
  next hn => simpa using fun c cs hs => hn c cs hs

theorem isShortName_iff {s : String} :
    isShortName s = true ↔ ∃ cs, s.toList = '-' :: cs ∧ cs.head? ≠ some '-' := by
  unfold isShortName
  split
  next cs hs => simp [hs]
  next cs hnot hs =>
    rw [hs]
    refine ⟨fun _ => ⟨cs, rfl, ?_⟩, fun _ => rfl⟩
    intro hhead
    obtain ⟨tail, rfl⟩ := List.head?_eq_some_iff.mp hhead
    exact hnot tail rfl
  next hn hnot =>
    simp only [Bool.false_eq_true, false_iff]
    rintro ⟨cs, hs, -⟩
    exact hnot cs hs

namespace CommandLine

namespace WordShape

theorem of_eq_stop_iff {s : String} : of s = .stop ↔ s = "--" := by
  constructor
  · intro h
    unfold of at h
    split at h
    next hs => exact String.toList_inj.mp hs
    all_goals cases h
  · rintro rfl
    rfl

theorem of_eq_long_iff {s : String} : of s = .long ↔ isLongName s = true := by
  rw [isLongName_iff]
  unfold of
  split
  next hs => simp [hs]
  next cs hne hs =>
    obtain ⟨d, ds, rfl⟩ := List.exists_cons_of_ne_nil hne
    simp [hs]
  next => simp_all
  next hn => simpa using fun c cs hs => hn _ _ hs

theorem of_eq_cluster_iff {s : String} :
    of s = .cluster ↔ ∃ c cs, s.toList = '-' :: c :: cs ∧ c ≠ '-' := by
  unfold of
  split <;> simp_all

end WordShape

def positionalOf (word : String) : Leaf := .argument none (.text word)

theorem map_positional (tokens : List Token) :
    tokens.map positional = (tokens.map (·.text)).map positionalOf := by
  rw [List.map_map]
  rfl

/-- The word ends the options: two dashes, or a positional where options come first. -/
def Ends (optionsFirst : Bool) (word : String) : Prop :=
  word = "--" ∨ (optionsFirst = true ∧ WordShape.of word = .positional)

/-- In front of a line that still has options there is a long option, a cluster or a positional. -/
inductive Turn (token : Token) (rest : List Token) (registry : Registry) :
    Reading Leaf → Prop where
  | long {r : Reading OptionDecl} (hs : isLongName token.text = true)
      (hr : Registry.ReadsLong .commandLine token rest registry r) :
      Turn token rest registry (r.map Leaf.option)
  | cluster {c : Char} {cs : List Char} {r : Reading OptionDecl}
      (hs : token.text.toList = '-' :: c :: cs) (hc : c ≠ '-')
      (hr : Registry.ReadsChars .commandLine rest registry (c :: cs) r) :
      Turn token rest registry (r.map Leaf.option)
  | positional (hs : WordShape.of token.text = .positional) :
      Turn token rest registry ⟨rest, registry, [positional token]⟩

/-- The option in front is refused. -/
inductive Balks (token : Token) (rest : List Token) (registry : Registry) : Complaint → Prop where
  | long {x : Complaint} (hs : isLongName token.text = true)
      (hx : Registry.RefusesLong .commandLine token rest registry x) :
      Balks token rest registry x
  | cluster {c : Char} {cs : List Char} {x : Complaint}
      (hs : token.text.toList = '-' :: c :: cs) (hc : c ≠ '-')
      (hx : Registry.RefusesChars .commandLine token rest registry (c :: cs) x) :
      Balks token rest registry x

theorem ofTokens_nil (optionsFirst : Bool) (registry : Registry) :
    ofTokens optionsFirst [] registry = .ok ⟨[], registry⟩ := by
  rw [ofTokens]

theorem ofTokens_of_ends {optionsFirst : Bool} {token : Token} (rest : List Token)
    (registry : Registry) (h : Ends optionsFirst token.text) :
    ofTokens optionsFirst (token :: rest) registry =
      .ok ⟨(token :: rest).map positional, registry⟩ := by
  rw [ofTokens]
  rcases h with hs | ⟨rfl, hs⟩
  · simp [WordShape.of_eq_stop_iff.mpr hs]
  · simp [hs]

theorem ofTokens_of_turn {optionsFirst : Bool} {token : Token} {rest : List Token}
    {registry : Registry} {r : Reading Leaf} (hn : ¬ Ends optionsFirst token.text)
    (h : Turn token rest registry r) :
    ofTokens optionsFirst (token :: rest) registry =
      (ofTokens optionsFirst r.rest r.registry).map (·.behind r.found) := by
  rw [ofTokens]
  cases h with
  | @long r hs hr =>
    simp only [WordShape.of_eq_long_iff.mpr hs]
    split
    next f hf => simp [Registry.readLong_eq_ok_iff.mpr hr] at hf
    next r' hr' =>
      rw [Registry.readLong_eq_ok_iff.mpr hr, Except.ok.injEq] at hr'
      rw [hr']
      rfl
  | @cluster c cs r hs hc hr =>
    have hread : registry.readCluster .commandLine token rest = .ok r := by
      simp [Registry.readCluster, hs, hc, Registry.readChars_eq_ok_iff.mpr hr]
    simp only [WordShape.of_eq_cluster_iff.mpr ⟨c, cs, hs, hc⟩]
    split
    next f hf => simp [hread] at hf
    next r' hr' =>
      rw [hread, Except.ok.injEq] at hr'
      rw [hr']
      rfl
  | positional hs =>
    have hfirst : optionsFirst = false := by
      rw [← Bool.not_eq_true]
      exact fun ho => hn (.inr ⟨ho, hs⟩)
    simp [hs, hfirst]

theorem ofTokens_of_balks {optionsFirst : Bool} {token : Token} {rest : List Token}
    {registry : Registry} {x : Complaint} (h : Balks token rest registry x) :
    ofTokens optionsFirst (token :: rest) registry = .error (.complaint x) := by
  rw [ofTokens]
  cases h with
  | long hs hx =>
    have hread := Registry.readLong_eq_error_iff.mpr ⟨x, rfl, hx⟩
    simp only [WordShape.of_eq_long_iff.mpr hs]
    split
    next f hf =>
      rw [hread, Except.error.injEq] at hf
      rw [hf]
    next r hr => simp [hread] at hr
  | @cluster c cs x hs hc hx =>
    have hread : registry.readCluster .commandLine token rest = .error (.complaint x) := by
      simp [Registry.readCluster, hs, hc, Registry.readChars_eq_error_iff.mpr ⟨x, rfl, hx⟩]
    simp only [WordShape.of_eq_cluster_iff.mpr ⟨c, cs, hs, hc⟩]
    split
    next f hf =>
      rw [hread, Except.error.injEq] at hf
      rw [hf]
    next r hr => simp [hread] at hr

theorem turn_or_balks {optionsFirst : Bool} {token : Token} (rest : List Token)
    (registry : Registry) (hn : ¬ Ends optionsFirst token.text) :
    (∃ r, Turn token rest registry r) ∨ ∃ x, Balks token rest registry x := by
  cases hs : WordShape.of token.text with
  | stop => exact (hn (.inl (WordShape.of_eq_stop_iff.mp hs))).elim
  | positional => exact .inl ⟨_, .positional hs⟩
  | long =>
    have hl := WordShape.of_eq_long_iff.mp hs
    cases hr : registry.readLong .commandLine token rest with
    | ok r => exact .inl ⟨_, .long hl (Registry.readLong_eq_ok_iff.mp hr)⟩
    | error f =>
      obtain ⟨x, -, hx⟩ := Registry.readLong_eq_error_iff.mp hr
      exact .inr ⟨x, .long hl hx⟩
  | cluster =>
    obtain ⟨c, cs, ht, hc⟩ := WordShape.of_eq_cluster_iff.mp hs
    cases hr : Registry.readChars .commandLine token rest registry (c :: cs) with
    | ok r => exact .inl ⟨_, .cluster ht hc (Registry.readChars_eq_ok_iff.mp hr)⟩
    | error f =>
      obtain ⟨x, -, hx⟩ := Registry.readChars_eq_error_iff.mp hr
      exact .inr ⟨x, .cluster ht hc hx⟩

/-- A turn consumes words in front, and nothing behind them matters to it. -/
theorem Turn.locally {token : Token} {rest : List Token} {registry : Registry}
    {r : Reading Leaf} (h : Turn token rest registry r) :
    ∃ used, rest = used ++ r.rest ∧
      ∀ rest', Turn token (used ++ rest') registry { r with rest := rest' } := by
  cases h with
  | long hs hr =>
    obtain ⟨used, he, hl⟩ := hr.locally
    exact ⟨used, he, fun rest' => .long hs (hl rest')⟩
  | cluster hs hc hr =>
    obtain ⟨used, he, hl⟩ := hr.locally
    exact ⟨used, he, fun rest' => .cluster hs hc (hl rest')⟩
  | positional hs => exact ⟨[], rfl, fun _ => .positional hs⟩

theorem Balks.anywhere {token : Token} {rest : List Token} {registry : Registry}
    {x : Complaint} (h : Balks token rest registry x) (hn : ¬ x.LacksValue)
    (rest' : List Token) : Balks token rest' registry x := by
  cases h with
  | long hs hx => exact .long hs (hx.anywhere hn rest')
  | cluster hs hc hx => exact .cluster hs hc (hx.anywhere hn rest')

/-- Turns up to the end of the line or up to the word that ends the options. -/
inductive Run (optionsFirst : Bool) : List Token → Registry → Parsed → Prop where
  | done {registry : Registry} : Run optionsFirst [] registry ⟨[], registry⟩
  | ended {token : Token} {rest : List Token} {registry : Registry}
      (he : Ends optionsFirst token.text) :
      Run optionsFirst (token :: rest) registry ⟨(token :: rest).map positional, registry⟩
  | turned {token : Token} {rest : List Token} {registry : Registry} {r : Reading Leaf}
      {p : Parsed} (hn : ¬ Ends optionsFirst token.text) (ht : Turn token rest registry r)
      (hr : Run optionsFirst r.rest r.registry p) :
      Run optionsFirst (token :: rest) registry (p.behind r.found)

/-- Turns up to an option that is refused. -/
inductive Stuck (optionsFirst : Bool) : List Token → Registry → Complaint → Prop where
  | here {token : Token} {rest : List Token} {registry : Registry} {x : Complaint}
      (hn : ¬ Ends optionsFirst token.text) (hb : Balks token rest registry x) :
      Stuck optionsFirst (token :: rest) registry x
  | turned {token : Token} {rest : List Token} {registry : Registry} {r : Reading Leaf}
      {x : Complaint} (hn : ¬ Ends optionsFirst token.text) (ht : Turn token rest registry r)
      (hs : Stuck optionsFirst r.rest r.registry x) :
      Stuck optionsFirst (token :: rest) registry x

theorem run_or_stuck (optionsFirst : Bool) (tokens : List Token) (registry : Registry) :
    (∃ p, Run optionsFirst tokens registry p) ∨ ∃ x, Stuck optionsFirst tokens registry x := by
  cases tokens with
  | nil => exact .inl ⟨_, .done⟩
  | cons token rest =>
    by_cases he : Ends optionsFirst token.text
    · exact .inl ⟨_, .ended he⟩
    · rcases turn_or_balks rest registry he with ⟨r, ht⟩ | ⟨x, hb⟩
      · obtain ⟨used, hu, -⟩ := ht.locally
        have hlt : r.rest.length < (token :: rest).length := by
          rw [hu, List.length_cons, List.length_append]
          omega
        rcases run_or_stuck optionsFirst r.rest r.registry with ⟨p, hr⟩ | ⟨x, hs⟩
        · exact .inl ⟨_, .turned he ht hr⟩
        · exact .inr ⟨x, .turned he ht hs⟩
      · exact .inr ⟨x, .here he hb⟩
termination_by tokens.length

theorem ofTokens_of_run {optionsFirst : Bool} {tokens : List Token} {registry : Registry}
    {p : Parsed} (h : Run optionsFirst tokens registry p) :
    ofTokens optionsFirst tokens registry = .ok p := by
  induction h with
  | done => exact ofTokens_nil ..
  | ended he => exact ofTokens_of_ends _ _ he
  | turned hn ht hr ih => rw [ofTokens_of_turn hn ht, ih]; rfl

theorem ofTokens_of_stuck {optionsFirst : Bool} {tokens : List Token} {registry : Registry}
    {x : Complaint} (h : Stuck optionsFirst tokens registry x) :
    ofTokens optionsFirst tokens registry = .error (.complaint x) := by
  induction h with
  | here hn hb => exact ofTokens_of_balks hb
  | turned hn ht hs ih => rw [ofTokens_of_turn hn ht, ih]; rfl

/-- What the reader answers is what the turns come to. -/
theorem ofTokens_eq_ok_iff {optionsFirst : Bool} {tokens : List Token} {registry : Registry}
    {p : Parsed} :
    ofTokens optionsFirst tokens registry = .ok p ↔ Run optionsFirst tokens registry p := by
  refine ⟨fun h => ?_, ofTokens_of_run⟩
  rcases run_or_stuck optionsFirst tokens registry with ⟨q, hq⟩ | ⟨x, hx⟩
  · rw [ofTokens_of_run hq, Except.ok.injEq] at h
    exact h ▸ hq
  · simp [ofTokens_of_stuck hx] at h

theorem ofTokens_eq_error_iff {optionsFirst : Bool} {tokens : List Token} {registry : Registry}
    {f : Failure} :
    ofTokens optionsFirst tokens registry = .error f ↔
      ∃ x, f = .complaint x ∧ Stuck optionsFirst tokens registry x := by
  constructor
  · intro h
    rcases run_or_stuck optionsFirst tokens registry with ⟨q, hq⟩ | ⟨x, hx⟩
    · simp [ofTokens_of_run hq] at h
    · rw [ofTokens_of_stuck hx, Except.error.injEq] at h
      exact ⟨x, h.symm, hx⟩
  · rintro ⟨x, rfl, hx⟩
    exact ofTokens_of_stuck hx

/-- A reading breaks off at one word, and reads the words in front of it when nothing follows. -/
theorem Stuck.exists_run {optionsFirst : Bool} {tokens : List Token} {registry : Registry}
    {x : Complaint} (h : Stuck optionsFirst tokens registry x) :
    ∃ front token rest p, tokens = front ++ token :: rest ∧
      Run optionsFirst front registry p ∧ Balks token rest p.registry x := by
  induction h with
  | @here token rest registry x hn hb => exact ⟨[], token, rest, _, rfl, .done, hb⟩
  | @turned token rest registry r x hn ht hs ih =>
    obtain ⟨front, last, after, p, he, hrun, hb⟩ := ih
    obtain ⟨used, hu, hl⟩ := ht.locally
    refine ⟨token :: (used ++ front), last, after, _, ?_, .turned hn (hl front) hrun, hb⟩
    rw [hu, he]
    simp

end CommandLine

end Synopsis
