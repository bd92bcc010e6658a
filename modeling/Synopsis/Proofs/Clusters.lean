import Synopsis.Proofs.Modes
import Synopsis.Proofs.Spelling

/-!
What a cluster of short options is read as, said of the registry that it is met over. The registry
grows while the characters are read, but a flag that is added changes nothing about which characters
are flags. The leading flags are therefore known beforehand, and the first character behind them ends
the cluster.
-/
namespace Synopsis

/-- The reading is refused with a fault of the kind. No fault can put a negative place into words. -/
def RefusedAs {α : Type} (code : Fault.Code) (token : Token) (result : Except Failure α) : Prop :=
  ∃ f, result = .error f ∧
    (0 ≤ token.index → ∃ fault, f.report = .ok fault ∧ fault.kind = some code)

theorem Token.exists_whereabouts {t : Token} (h : 0 ≤ t.index) :
    ∃ place, t.whereabouts = .ok place := by
  by_cases hz : t.index = 0
  · exact ⟨"", by rw [Token.whereabouts, if_pos hz]⟩
  · have hp : 0 < t.index := by omega
    obtain ⟨place, -, hw⟩ := Token.whereabouts_of_placed hp
    exact ⟨_, hw⟩

theorem refusedAs_of_report {α : Type} {code : Fault.Code} {token : Token} {x : Complaint}
    (h : ∀ place, token.whereabouts = .ok place →
      ∃ fault, x.report = .ok fault ∧ fault.kind = some code) :
    RefusedAs code token (.error (.complaint x) : Except Failure α) := by
  refine ⟨_, rfl, fun hp => ?_⟩
  obtain ⟨place, hw⟩ := Token.exists_whereabouts hp
  exact h place hw

namespace Registry

variable {mode : Mode} {registry after : Registry} {token : Token} {rest : List Token} {c : Char}
  {cs v : List Char} {found : List OptionDecl} {o : OptionDecl}

/-- The flag that a character of a cluster is: a new one where no entry has its short name, and the
one entry that has it where that takes no value. -/
def flag? (registry : Registry) (c : Char) : Option OptionDecl :=
  if h : c = '-' then none
  else match registry.withShort (OptionDecl.shortOf c) with
    | [] => some (OptionDecl.ofChar c h)
    | [o] => if o.takesValue then none else some o
    | _ => none

/-- The leading characters that are flags. -/
def flagChars (registry : Registry) (cs : List Char) : List Char :=
  cs.takeWhile fun c => (registry.flag? c).isSome

/-- The characters without an entry, each once and in the order in which they come first, as flags. -/
def newFlags (registry : Registry) (cs : List Char) : Registry :=
  (cs.filter fun c => (registry.withShort (OptionDecl.shortOf c)).isEmpty).eraseDups.filterMap
    registry.flag?

theorem flag?_of_new (hc : c ≠ '-') (hs : registry.withShort (OptionDecl.shortOf c) = []) :
    registry.flag? c = some (OptionDecl.ofChar c hc) := by
  simp [flag?, hc, hs]

theorem flag?_of_known (hc : c ≠ '-') (hs : registry.withShort (OptionDecl.shortOf c) = [o])
    (ht : o.takesValue = false) : registry.flag? c = some o := by
  simp [flag?, hc, hs, ht]

theorem flag?_isSome_iff : (registry.flag? c).isSome = true ↔
    c ≠ '-' ∧ (registry.withShort (OptionDecl.shortOf c) = [] ∨
      ∃ o, registry.withShort (OptionDecl.shortOf c) = [o] ∧ o.takesValue = false) := by
  unfold flag?
  by_cases hc : c = '-'
  · simp [hc]
  · rcases registry.withShort (OptionDecl.shortOf c) with - | ⟨o, - | ⟨o', os⟩⟩
    · simp [hc]
    · cases ht : o.takesValue <;> simp [hc, ht]
    · simp [hc]

theorem flag?_eq_none_iff : registry.flag? c = none ↔
    c = '-' ∨ 1 < (registry.withShort (OptionDecl.shortOf c)).length ∨
      ∃ o, registry.withShort (OptionDecl.shortOf c) = [o] ∧ o.takesValue = true := by
  unfold flag?
  by_cases hc : c = '-'
  · simp [hc]
  · rcases registry.withShort (OptionDecl.shortOf c) with - | ⟨o, - | ⟨o', os⟩⟩
    · simp [hc]
    · cases ht : o.takesValue <;> simp [hc, ht]
    · simp [hc]

/-- Flags are what they are whether or not one of them has been added. -/
theorem flag?_add (hc : c ≠ '-') (hs : registry.withShort (OptionDecl.shortOf c) = []) :
    (registry ++ [OptionDecl.ofChar c hc]).flag? = registry.flag? := by
  funext d
  by_cases hd : c = d
  · subst hd
    rw [flag?_of_new hc hs]
    apply flag?_of_known hc
    · rw [withShort_ofChar, if_pos rfl, hs, List.nil_append]
    · rfl
  · unfold flag?
    rw [withShort_ofChar, if_neg hd, List.append_nil]

theorem newFlags_of_new (hc : c ≠ '-') (hs : registry.withShort (OptionDecl.shortOf c) = []) :
    registry.newFlags (c :: cs) =
      OptionDecl.ofChar c hc :: (registry ++ [OptionDecl.ofChar c hc]).newFlags cs := by
  have hfilter : (cs.filter fun d => (registry.withShort (OptionDecl.shortOf d)).isEmpty).filter
      (fun d => !d == c) = cs.filter fun d =>
        ((registry ++ [OptionDecl.ofChar c hc]).withShort (OptionDecl.shortOf d)).isEmpty := by
    rw [List.filter_filter]
    congr 1
    funext d
    rw [withShort_ofChar]
    by_cases hd : c = d
    · simp [hd]
    · simp [hd, Ne.symm hd]
  unfold newFlags
  rw [List.filter_cons_of_pos (by rw [hs]; rfl), List.eraseDups_cons, hfilter, flag?_add hc hs,
    List.filterMap_cons_some (flag?_of_new hc hs)]

theorem newFlags_of_known (hs : registry.withShort (OptionDecl.shortOf c) = [o]) :
    registry.newFlags (c :: cs) = registry.newFlags cs := by
  unfold newFlags
  rw [List.filter_cons_of_neg (by rw [hs]; simp)]

/-- Flags are read as what they are in front of the cluster, and leave those behind that are new. -/
theorem readsFlags_of_flags (mode : Mode) (h : ∀ c ∈ cs, (registry.flag? c).isSome = true) :
    ReadsFlags mode registry cs (registry ++ registry.newFlags cs)
      ((cs.filterMap registry.flag?).map mode.flag) := by
  induction cs generalizing registry with
  | nil =>
    rw [show registry ++ registry.newFlags [] = registry from List.append_nil registry]
    exact .nil
  | cons c cs ih =>
    obtain ⟨hc, hflag⟩ := flag?_isSome_iff.mp (h c List.mem_cons_self)
    have htail := fun d hd => h d (List.mem_cons_of_mem c hd)
    rcases hflag with hs | ⟨o, hs, ht⟩
    · have hadd := flag?_add hc hs
      have hrest := @ih (registry ++ [OptionDecl.ofChar c hc]) (by rwa [hadd])
      rw [hadd, List.append_assoc, List.singleton_append, ← newFlags_of_new hc hs] at hrest
      rw [List.filterMap_cons_some (flag?_of_new hc hs), List.map_cons]
      exact .fresh hc hs hrest
    · rw [newFlags_of_known hs, List.filterMap_cons_some (flag?_of_known hc hs ht), List.map_cons]
      exact .flag hc hs ht (ih htail)

theorem isSome_of_mem_flagChars (h : c ∈ registry.flagChars cs) :
    (registry.flag? c).isSome = true :=
  List.all_eq_true.mp List.all_takeWhile c h

theorem flag?_behind_flagChars (h : cs = registry.flagChars cs ++ c :: v) :
    registry.flag? c = none := by
  have hflags : ∀ d ∈ registry.flagChars cs, (registry.flag? d).isSome = true :=
    fun _ => isSome_of_mem_flagChars
  have htake : registry.flagChars cs ++ registry.flagChars (c :: v) = registry.flagChars cs := by
    conv_rhs => rw [h]
    exact (List.takeWhile_append_of_pos hflags).symm
  have hnil : registry.flagChars (c :: v) = [] := List.append_right_eq_self.mp htake
  by_contra hc
  have hsome : (registry.flag? c).isSome = true := Option.isSome_iff_ne_none.mpr hc
  rw [flagChars, List.takeWhile_cons, if_pos hsome] at hnil
  cases hnil

theorem ne_dash_of_withShort (h : registry.withShort (OptionDecl.shortOf c) ≠ []) : c ≠ '-' := by
  obtain ⟨o, ho⟩ := List.exists_mem_of_ne_nil _ h
  have hshort : o.short = some (OptionDecl.shortOf c) := by
    simpa [withShort] using (List.mem_filter.mp ho).2
  exact Pattern.ne_dash_of_shortNamed hshort

theorem ReadsFlags.entries_behind (h : ReadsFlags mode registry cs after found)
    {os : List OptionDecl} (hs : registry.withShort (OptionDecl.shortOf c) = o :: os) :
    c ≠ '-' ∧ after.withShort (OptionDecl.shortOf c) = o :: os := by
  have hne : registry.withShort (OptionDecl.shortOf c) ≠ [] := by simp [hs]
  exact ⟨ne_dash_of_withShort hne, (h.withShort hne).trans hs⟩

/-- Behind flags a dash and the name of several entries are refused. -/
theorem ReadsFlags.refusedAs_unparsable (h : ReadsFlags mode registry cs after found)
    (hc : c = '-' ∨ 1 < (registry.withShort (OptionDecl.shortOf c)).length) :
    RefusedAs .unparsableOption token (readChars mode token rest registry (cs ++ c :: v)) := by
  have hrefused : ∀ x, RefusesChars mode token rest after (c :: v) x →
      readChars mode token rest registry (cs ++ c :: v) = .error (.complaint x) :=
    fun x hx => readChars_eq_error_iff.mpr ⟨x, rfl, h.refuses hx⟩
  rcases hc with rfl | hmany
  · rw [hrefused _ .dash]
    apply refusedAs_of_report
    intro place hw
    simp only [Complaint.report, hw]
    exact ⟨_, rfl, rfl⟩
  · rcases hs : registry.withShort (OptionDecl.shortOf c) with - | ⟨o, - | ⟨o', os⟩⟩
    · simp [hs] at hmany
    · simp [hs] at hmany
    · obtain ⟨hc, hafter⟩ := h.entries_behind hs
      rw [hrefused _ (.repeated hc hafter)]
      apply refusedAs_of_report
      intro place hw
      simp only [Complaint.report, hw]
      exact ⟨_, rfl, rfl⟩

section Valued

variable (h : ReadsFlags mode registry cs after found)
  (hs : registry.withShort (OptionDecl.shortOf c) = [o]) (ht : o.takesValue = true)
include h hs ht

theorem ReadsFlags.readChars_attached (hv : v ≠ []) :
    readChars mode token rest registry (cs ++ c :: v) =
      .ok ⟨rest, after, found ++ [mode.valued o (String.ofList v)]⟩ := by
  obtain ⟨hc, hafter⟩ := h.entries_behind hs
  exact readChars_eq_ok_iff.mpr (h.reads (.attached hc hafter ht hv))

theorem ReadsFlags.readChars_followed {next : Token} {behind : List Token}
    (hw : next.kind = .word) :
    readChars mode token (next :: behind) registry (cs ++ [c]) =
      .ok ⟨behind, after, found ++ [mode.valued o next.text]⟩ := by
  obtain ⟨hc, hafter⟩ := h.entries_behind hs
  exact readChars_eq_ok_iff.mpr (h.reads (.followed hc hafter ht rfl hw))

theorem ReadsFlags.refusedAs_missing (hr : ∀ next ∈ rest.head?, next.kind ≠ .word) :
    RefusedAs .missingArgument token (readChars mode token rest registry (cs ++ [c])) := by
  obtain ⟨hc, hafter⟩ := h.entries_behind hs
  have hnone : nextWord? rest = none := by
    cases rest with
    | nil => rfl
    | cons next behind => simp [nextWord?, Token.isWord, hr next rfl]
  have hx : RefusesChars mode token rest after [c]
      (.missingShortValue token (OptionDecl.shortOf c)) := .missing hc hafter ht hnone
  rw [readChars_eq_error_iff.mpr ⟨_, rfl, h.refuses hx⟩]
  apply refusedAs_of_report
  intro place hw
  simp only [Complaint.report, hw]
  exact ⟨_, rfl, rfl⟩

end Valued

end Registry

namespace Request

open Registry

theorem cluster_eq_readChars (mode : Mode) {token : Token} (rest : List Token)
    (registry : Registry) {s : List Char} (hs : token.text.toList = '-' :: s) (hne : s ≠ [])
    (hd : s.head? ≠ some '-') :
    cluster mode (token :: rest) registry = readChars mode token rest registry s := by
  obtain ⟨c, cs, rfl⟩ := List.exists_cons_of_ne_nil hne
  have hc : c ≠ '-' := by simpa using hd
  show registry.readCluster mode token rest = readChars mode token rest registry (c :: cs)
  rw [readCluster, hs]
  exact if_neg hc

end Request

end Synopsis
