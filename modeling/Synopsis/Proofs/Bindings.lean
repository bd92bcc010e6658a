import Mathlib.Data.List.Induction
import Synopsis.Proofs.Entries
import Synopsis.Proofs.Nodes
import Synopsis.Proofs.Stages

/-!
The values of a run. Over a registry that keeps its names apart, leaves of a parsed tree that share a
name are the same leaf: the name tells the kind of the leaf, and an option from the others. So the
values that are bound do not depend on which of them comes last.
-/
namespace Synopsis

/-- The leaves that values are bound to: arguments, commands and options. -/
def Pattern.named (p : Pattern) : List Leaf :=
  p.select [.kind .argument, .kind .command, .kind .option]

namespace OptionDecl

theorem name_of_long {o : OptionDecl} {long : String} (h : o.long = some long) : o.name = long := by
  simp [name, h]

theorem name_of_short {o : OptionDecl} {short : String} (hl : o.long = none)
    (hs : o.short = some short) : o.name = short := by
  simp [name, hl, hs]

end OptionDecl

namespace Usage

def kindOf (name : String) : NodeKind :=
  if Text.startsWith name "-" ∧ name ≠ "-" ∧ name ≠ "--" then .option
  else if isArgumentName name then .argument
  else .command

theorem kindOf_of_long {long : String} (h : isLongName long = true) : kindOf long = .option := by
  obtain ⟨c, cs, hs⟩ := isLongName_iff.mp h
  refine if_pos ⟨by simp [Text.startsWith, hs], ?_, ?_⟩
  · rintro rfl
    cases hs
  · rintro rfl
    cases hs

theorem kindOf_shortOf {c : Char} (h : c ≠ '-') : kindOf (OptionDecl.shortOf c) = .option := by
  refine if_pos ⟨by simp [Text.startsWith, OptionDecl.shortOf], ?_, ?_⟩
  · intro he
    have hs := congrArg String.toList he
    simp [OptionDecl.shortOf] at hs
  · intro he
    have hs := congrArg String.toList he
    simp [OptionDecl.shortOf] at hs
    exact h hs

theorem kind_of_name {registry : Registry} {l : Leaf} {name : String}
    (h : LeafSettled registry l) (hn : l.name? = some name) : l.kind = kindOf name := by
  cases l with
  | argument n value =>
    obtain ⟨-, s, rfl, ha, hd⟩ := h
    cases hn
    simp [kindOf, ha, hd, Leaf.kind]
  | command n value =>
    obtain ⟨-, ha, -, hd⟩ := h
    cases hn
    have hdash : ¬ (Text.startsWith name "-" = true ∧ name ≠ "-" ∧ name ≠ "--") := by
      rintro ⟨hs, hone, htwo⟩
      rcases hd hs with he | he
      · exact hone he
      · exact htwo he
    simp [kindOf, ha, hdash, Leaf.kind]
  | option o =>
    cases hn
    cases hl : o.long with
    | some long =>
      rw [OptionDecl.name_of_long hl, kindOf_of_long (OptionDecl.isLongName_of_long hl)]
      rfl
    | none =>
      obtain ⟨c, hc⟩ := h.2 hl
      rw [OptionDecl.name_of_short hl hc, kindOf_shortOf (Pattern.ne_dash_of_shortNamed hc)]
      rfl
  | anyOptions => cases hn

/-- The long name of one option is no short name of another. -/
theorem long_ne_shortOf {long : String} {c : Char} (h : isLongName long = true) :
    long ≠ OptionDecl.shortOf c := by
  rintro rfl
  simp [isLongName, OptionDecl.shortOf] at h

theorem option_of_name {registry : Registry} {o o' : OptionDecl} (hd : registry.Distinct)
    (h : LeafSettled registry (.option o)) (h' : LeafSettled registry (.option o'))
    (hn : o.name = o'.name) : o = o' := by
  cases hl : o.long with
  | some long =>
    rw [OptionDecl.name_of_long hl] at hn
    cases hl' : o'.long with
    | some long' =>
      rw [OptionDecl.name_of_long hl'] at hn
      subst hn
      exact List.singleton_inj.mp ((hd.withLong h.1 hl).symm.trans (hd.withLong h'.1 hl'))
    | none =>
      obtain ⟨c, hc⟩ := h'.2 hl'
      rw [OptionDecl.name_of_short hl' hc] at hn
      exact absurd hn (long_ne_shortOf (OptionDecl.isLongName_of_long hl))
  | none =>
    obtain ⟨c, hc⟩ := h.2 hl
    rw [OptionDecl.name_of_short hl hc] at hn
    cases hl' : o'.long with
    | some long' =>
      rw [OptionDecl.name_of_long hl'] at hn
      exact absurd hn.symm (long_ne_shortOf (OptionDecl.isLongName_of_long hl'))
    | none =>
      obtain ⟨c', hc'⟩ := h'.2 hl'
      rw [OptionDecl.name_of_short hl' hc'] at hn
      have hsame : o'.short = some (OptionDecl.shortOf c) := by rw [hn]; exact hc'
      exact List.singleton_inj.mp ((hd.withShort h.1 hc).symm.trans (hd.withShort h'.1 hsame))

theorem leaf_of_name {registry : Registry} {l l' : Leaf} {name : String} (hd : registry.Distinct)
    (h : LeafSettled registry l) (h' : LeafSettled registry l') (hn : l.name? = some name)
    (hn' : l'.name? = some name) : l = l' := by
  have hkind : l.kind = l'.kind := (kind_of_name h hn).trans (kind_of_name h' hn').symm
  cases l with
  | argument n value =>
    cases l' with
    | argument n' value' => rw [h.1, h'.1, show n = n' from hn.trans hn'.symm]
    | command | option | anyOptions => cases hkind
  | command n value =>
    cases l' with
    | command n' value' => rw [h.1, h'.1, show n = n' from Option.some.inj (hn.trans hn'.symm)]
    | argument | option | anyOptions => cases hkind
  | option o =>
    cases l' with
    | option o' => rw [option_of_name hd h h' (Option.some.inj (hn.trans hn'.symm))]
    | argument | command | anyOptions => cases hkind
  | anyOptions => cases hn

end Usage

namespace Invocation

open Request (Stages Passes)

def collect (pairs : List (String × Datum)) : List (String × Datum) := overlay [] pairs

theorem collect_concat (pairs : List (String × Datum)) (name : String) (v : Datum) :
    collect (pairs ++ [(name, v)]) = entered (collect pairs) name v := overlay_concat [] pairs name v

theorem nodup_collect (pairs : List (String × Datum)) : ((collect pairs).map (·.1)).Nodup := by
  induction pairs using List.reverseRecOn with
  | nil => exact List.nodup_nil
  | append_singleton pairs pair ih =>
    rw [collect_concat]
    exact nodup_entered ih pair.1 pair.2

theorem mem_map_fst_collect {pairs : List (String × Datum)} {name : String} :
    name ∈ (collect pairs).map (·.1) ↔ name ∈ pairs.map (·.1) := by
  induction pairs using List.reverseRecOn with
  | nil => exact Iff.rfl
  | append_singleton pairs pair ih =>
    rw [collect_concat, map_fst_entered, List.map_append, List.mem_append, ← ih, List.map_singleton,
      List.mem_singleton]
    split
    next hm =>
      constructor
      · exact .inl
      · rintro (h | rfl)
        · exact h
        · exact hm
    next => rw [List.mem_append, List.mem_singleton]

/-- What is found is what was put last. -/
theorem lookup_collect (pairs : List (String × Datum)) (key : String) :
    (collect pairs).lookup key = pairs.reverse.lookup key := by
  rw [collect, lookup_overlay]
  exact Option.or_none

def pair? (l : Leaf) : Option (String × Datum) :=
  l.name?.bind fun name => l.value?.map fun v => (name, v)

theorem pair?_of_name {l : Leaf} {name : String} (h : l.name? = some name) :
    ∃ v, l.value? = some v ∧ pair? l = some (name, v) := by
  cases l with
  | argument n v | command n v => exact ⟨v, rfl, by simp [pair?, h, Leaf.value?]⟩
  | option o => exact ⟨o.slot.value, rfl, by simp [pair?, h, Leaf.value?]⟩
  | anyOptions => cases h

theorem name_of_pair? {l : Leaf} {name : String} {v : Datum} (h : pair? l = some (name, v)) :
    l.name? = some name ∧ l.value? = some v := by
  obtain ⟨s, hs, h⟩ := Option.bind_eq_some_iff.mp h
  obtain ⟨w, hw, h⟩ := Option.map_eq_some_iff.mp h
  cases h
  exact ⟨hs, hw⟩

theorem mapM_bindingOf (leaves : List Leaf) :
    (leaves.map Pattern.leaf).mapM bindingOf = .ok (leaves.map pair?) := by
  induction leaves with
  | nil => rfl
  | cons l leaves ih =>
    rw [List.map_cons, List.mapM_cons, ih]
    rfl

theorem bindings_eq (pattern : Pattern) (collected : List Leaf) :
    bindings pattern (collected.map .leaf) =
      .ok (collect ((pattern.named ++ collected).filterMap pair?)) := by
  unfold bindings
  change (pattern.named.map Pattern.leaf ++ collected.map Pattern.leaf).mapM bindingOf >>= _ = _
  rw [← List.map_append, mapM_bindingOf]
  refine congrArg Except.ok ?_
  rw [collect, List.filterMap_map]
  rfl

theorem lookup_collect_last {front back : List Leaf} {l : Leaf} {name : String}
    (hn : l.name? = some name) (hb : ∀ l' ∈ back, l'.name? ≠ some name) :
    (collect ((front ++ l :: back).filterMap pair?)).lookup name = l.value? := by
  obtain ⟨v, hv, hpair⟩ := pair?_of_name hn
  have hnone : ((back.filterMap pair?).reverse).lookup name = none := by
    rw [List.lookup_eq_none_iff]
    rintro ⟨s, w⟩ hp
    obtain ⟨l', hl', hpair'⟩ := List.mem_filterMap.mp (List.mem_reverse.mp hp)
    rw [bne_iff_ne]
    rintro rfl
    exact hb l' hl' (name_of_pair? hpair').1
  rw [lookup_collect, List.filterMap_append, List.filterMap_cons_some hpair, List.reverse_append,
    List.reverse_cons, List.append_assoc, List.lookup_append, hnone, Option.none_or,
    List.singleton_append, List.lookup_cons_self, hv]

theorem exists_last_named {leaves : List Leaf} {name : String}
    (h : ∃ l ∈ leaves, l.name? = some name) :
    ∃ front l back, leaves = front ++ l :: back ∧ l.name? = some name ∧
      ∀ l' ∈ back, l'.name? ≠ some name := by
  induction leaves using List.reverseRecOn with
  | nil => simp at h
  | append_singleton leaves last ih =>
    by_cases hlast : last.name? = some name
    · exact ⟨leaves, last, [], rfl, hlast, by simp⟩
    · obtain ⟨l, hl, hn⟩ := h
      have hmem : l ∈ leaves := by
        rcases List.mem_append.mp hl with hl | hl
        · exact hl
        · rw [List.mem_singleton.mp hl] at hn
          exact absurd hn hlast
      obtain ⟨front, l', back, rfl, hn', hb⟩ := ih ⟨l, hmem, hn⟩
      refine ⟨front, l', back ++ [last], by simp, hn', fun d hd => ?_⟩
      rcases List.mem_append.mp hd with hd | hd
      · exact hb d hd
      · rw [List.mem_singleton.mp hd]
        exact hlast

theorem mem_names_collect {leaves : List Leaf} {name : String} :
    name ∈ (collect (leaves.filterMap pair?)).map (·.1) ↔ ∃ l ∈ leaves, l.name? = some name := by
  rw [mem_map_fst_collect, List.mem_map]
  constructor
  · rintro ⟨⟨s, v⟩, hp, rfl⟩
    obtain ⟨l, hl, hpair⟩ := List.mem_filterMap.mp hp
    exact ⟨l, hl, (name_of_pair? hpair).1⟩
  · rintro ⟨l, hl, hn⟩
    obtain ⟨v, -, hpair⟩ := pair?_of_name hn
    exact ⟨(name, v), List.mem_filterMap.mpr ⟨l, hl, hpair⟩, rfl⟩

theorem exists_name_of_mem_named {registry : Registry} {p : Pattern} {l : Leaf}
    (h : Usage.LeafSettled registry l) (hl : l ∈ p.named) : ∃ name, l.name? = some name := by
  cases l with
  | argument n value =>
    obtain ⟨-, s, rfl, -⟩ := h
    exact ⟨s, rfl⟩
  | command n value => exact ⟨n, rfl⟩
  | option o => exact ⟨o.name, rfl⟩
  | anyOptions =>
    have hadmits := (List.mem_filter.mp hl).2
    simp [Selector.admits, Leaf.kind] at hadmits

/-- The value of a leaf that nothing was collected for. -/
def Untouched (registry : Registry) (v : Datum) : Leaf → Prop
  | .argument .. => v = .null
  | .command .. => v = .bool false
  | .option o => o ∈ registry ∧ v = o.slot.value
  | .anyOptions => False

/-- The values of a tree with the leaves `own` for which the leaves `collected` were found: each name of
a leaf once, with the value that was collected last, else with that of its own leaves. -/
structure BoundBy (registry : Registry) (own collected : List Leaf)
    (values : List (String × Datum)) : Prop where
  nodup : (values.map (·.1)).Nodup
  names : ∀ name, name ∈ values.map (·.1) ↔ ∃ l ∈ own ++ collected, l.name? = some name
  last : ∀ front l back name, collected = front ++ l :: back → l.name? = some name →
    (∀ l' ∈ back, l'.name? ≠ some name) → values.lookup name = l.value?
  untouched : ∀ l ∈ own, ∀ name, l.name? = some name →
    (∀ l' ∈ collected, l'.name? ≠ some name) →
      values.lookup name = l.value? ∧ ∃ v, l.value? = some v ∧ Untouched registry v l

theorem untouched_of_settled {registry : Registry} {l : Leaf} {name : String}
    (h : Usage.LeafSettled registry l) (hn : l.name? = some name) :
    ∃ v, l.value? = some v ∧ Untouched registry v l := by
  cases l with
  | argument n value => exact ⟨value, rfl, h.1⟩
  | command n value => exact ⟨value, rfl, h.1⟩
  | option o => exact ⟨o.slot.value, rfl, h.1, rfl⟩
  | anyOptions => cases hn

/-- Where a name stands for one leaf, what is collected behind the leaves is bound. -/
theorem boundBy_collect {registry : Registry} {own : List Leaf} (collected : List Leaf)
    (hs : ∀ l ∈ own, Usage.LeafSettled registry l) (hd : registry.Distinct) :
    BoundBy registry own collected (collect ((own ++ collected).filterMap pair?)) where
  nodup := nodup_collect _
  names _ := mem_names_collect
  last := by
    rintro front l back name rfl hn hb
    rw [← List.append_assoc]
    exact lookup_collect_last hn hb
  untouched := by
    intro l hl name hn hc
    obtain ⟨front, l', back, rfl, hn', hb⟩ := exists_last_named ⟨l, hl, hn⟩
    have hsame : l' = l := Usage.leaf_of_name hd (hs l' (by simp)) (hs l hl) hn' hn
    subst hsame
    refine ⟨?_, untouched_of_settled (hs l' hl) hn⟩
    rw [List.append_assoc, List.cons_append]
    refine lookup_collect_last hn fun d hd => ?_
    rcases List.mem_append.mp hd with hd | hd
    · exact hb d hd
    · exact hc d hd

theorem finish_of_passes {r : Task} {s : Stages} {collected : List Pattern}
    (h : Passes r.doc r.line r.optionsFirst s) (hi : information? r s.line.leaves = none)
    (hm : r.matcher s.parsed.pattern s.line.leaves = .ok (some ([], collected))) :
    (run r).finish = bound r s.parsed.pattern collected := by
  obtain ⟨prog, t, -, -, hrun⟩ := run_of_passes h
  rw [hi] at hrun
  simp only [hrun, bindLine, hm]

theorem outcome_of_bound {r : Run} {values : List (String × Datum)} (h : r.finish = .bound values)
    {console : Console} (host : Host) {p : Presentation} (hl : p.debug = true → console.Takes r) :
    (present console host p r).outcome = .bound values := by
  simp [present_of_takes hl, conclude, h]

/-- In the values of a run a name has one value. Where the help text keeps the names of its options
apart, the leaves of the tree that share a name are equal; where nothing is left over, the names are
those of the leaves of the tree and of what was collected, with the value that was collected last, else
with the value of the leaves. -/
theorem bound_of_run {r : Task} {s : Stages} {collected : List Leaf}
    (hd : (Description.registryOf r.doc).Distinct)
    (hs : Request.stages (.text r.doc) r.line r.optionsFirst = .ok s)
    (hi : information? r s.line.leaves = none)
    (hm : r.matcher s.parsed.pattern s.line.leaves = .ok (some ([], collected.map .leaf))) :
    (∀ l ∈ s.parsed.pattern.named, ∀ l' ∈ s.parsed.pattern.named, l.name? = l'.name? → l = l') ∧
      (r.typed = false → ∃ values,
        (∀ console host p, (p.debug = true → console.Takes (run r)) →
          (present console host p (run r)).outcome = .bound values) ∧
          BoundBy s.parsed.registry s.parsed.pattern.named collected values) := by
  have hpass := Request.stages_eq_ok_iff.mp hs
  have hdistinct : s.parsed.registry.Distinct := (Usage.normal_of_parse hpass.parsed).1.distinct hd
  have hsettled : ∀ l ∈ s.parsed.pattern.named, Usage.LeafSettled s.parsed.registry l :=
    fun l hl => Usage.leafSettled_of_parse hpass.parsed (List.mem_of_mem_filter hl)
  constructor
  · intro l hl l' hl' hname
    obtain ⟨name, hn⟩ := exists_name_of_mem_named (hsettled l hl) hl
    exact Usage.leaf_of_name hdistinct (hsettled l hl) (hsettled l' hl') hn (hname ▸ hn)
  · intro htyped
    refine ⟨_, fun console host p => outcome_of_bound ?_ host,
      boundBy_collect collected hsettled hdistinct⟩
    rw [finish_of_passes hpass hi hm, bound, bindings_eq]
    simp [htyped]

/-- One argument is collected twice and one option stands twice in the tree. -/
theorem bound_of_run_collected_twice :
    let collected : List Leaf :=
      [.argument (some "<x>") (.text "a"), .argument none (.text "b"),
        .argument (some "<x>") (.text "c")]
    let r : Task :=
      { doc := "Usage: nf go -v <x>\n nf -vq\n\n-v --all\n-o=K"
        argv := .list (["go", "a", "c"].map .text)
        matcher := fun _ _ => .ok (some ([], collected.map .leaf))
        help := true, version := .datum .unset, optionsFirst := false, typed := false }
    (Description.registryOf r.doc).Distinct ∧
      ∃ s, Request.stages (.text r.doc) r.line r.optionsFirst = .ok s ∧
        information? r s.line.leaves = none ∧
          r.matcher s.parsed.pattern s.line.leaves = .ok (some ([], collected.map .leaf)) ∧
            s.parsed.pattern.named.length = 5 ∧
              (∀ l ∈ s.parsed.pattern.named, ∀ l' ∈ s.parsed.pattern.named,
                l.name? = l'.name? → l = l') ∧
                ∃ values, (∀ console host p, (p.debug = true → console.Takes (run r)) →
                    (present console host p (run r)).outcome = .bound values) ∧
                  values.lookup "<x>" = some (.text "c") ∧
                    BoundBy s.parsed.registry s.parsed.pattern.named collected values := by
  intro collected r
  have hd : (Description.registryOf r.doc).Distinct := ⟨by decide +kernel, by decide +kernel⟩
  obtain ⟨s, hs, hcheck⟩ := Usage.exists_ok_of_any (show
    (Request.stages (.text r.doc) r.line r.optionsFirst).toOption.any (fun s =>
      (information? r s.line.leaves).isNone && s.parsed.pattern.named.length == 5) = true by
        decide +kernel)
  rw [Bool.and_eq_true, Option.isNone_iff_eq_none, beq_iff_eq] at hcheck
  have hm : r.matcher s.parsed.pattern s.line.leaves = .ok (some ([], collected.map .leaf)) := rfl
  obtain ⟨hsame, hbound⟩ := bound_of_run hd hs hcheck.1 hm
  obtain ⟨values, hvalues, hb⟩ := hbound rfl
  have hlast := hb.last [_, _] _ [] "<x>" rfl rfl (by simp)
  exact ⟨hd, s, hs, hcheck.1, hm, hcheck.2, hsame, values, hvalues, hlast, hb⟩

end Invocation

end Synopsis
