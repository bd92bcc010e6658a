import Synopsis.Proofs.Weight

/-!
Trees whose text is read back. What can go wrong is a repetition that is repeated again, a long name
that is not read as one, and a cluster whose placeholder falls apart. In the first case the text holds
two ellipses in a row, in the others it weighs more than the tree costs.
-/
namespace Synopsis

namespace Pattern

/-- The placeholder behind the last option, where it takes a value, is one word. -/
def lastWritten (cs : List Pattern) : Bool :=
  match cs.getLast? with
  | some (leaf (.option o)) => !o.takesValue || decide (Token.IsWord (placeholder o.name))
  | _ => true

mutual
/-- Whether the text of a tree is read back: long names are plain, no repetition is repeated again,
and the placeholder of a cluster, which is a repetition of several options, is one word. -/
def stable : Pattern → Bool
  | leaf (.option o) => o.plainLong
  | leaf _ => true
  | branch .oneOrMore [branch .oneOrMore _] => false
  | branch .oneOrMore [c] => stable c
  | branch .oneOrMore cs => lastWritten cs
  | branch _ cs => stableEach cs

def stableEach : List Pattern → Bool
  | [] => true
  | p :: rest => stable p && stableEach rest
end

theorem stableEach_eq_all (cs : List Pattern) : stableEach cs = cs.all stable := by
  induction cs with
  | nil => rfl
  | cons c cs ih => simp [stableEach, ih]

theorem stable_group {g : Group} (cs : List Pattern) (h : g ≠ .oneOrMore) :
    (branch g cs).stable = stableEach cs := by
  cases g with
  | oneOrMore => exact absurd rfl h
  | required | optional | either => simp [stable]

theorem stable_repeated {c : Pattern} (h : ¬ c.IsRepetition) :
    (branch .oneOrMore [c]).stable = c.stable := by
  match c with
  | leaf l => simp [stable]
  | branch .oneOrMore cs => exact absurd ⟨cs, rfl⟩ h
  | branch .required cs | branch .optional cs | branch .either cs => simp [stable]

theorem stable_cluster {os : List OptionDecl} (last : OptionDecl) (h : os ≠ []) :
    (clustered (os ++ [last])).stable =
      (!last.takesValue || decide (Token.IsWord (placeholder last.name))) := by
  have hlast : lastWritten ((os ++ [last]).map fun o => leaf (.option o)) =
      (!last.takesValue || decide (Token.IsWord (placeholder last.name))) := by
    simp [lastWritten]
  rw [← hlast]
  match os, h with
  | [o], _ | o :: o' :: os, _ => simp [clustered, stable]

end Pattern

namespace Usage
open Pattern

/-- Over a registry with distinct names, a stable tree that a reader built is canonical. -/
theorem item_of_normal {registry : Registry} {p : Pattern} (hd : registry.Distinct)
    (h : Normal registry p) (hs : p.stable = true) : Item registry p := by
  have heach : ∀ {g : Group} {cs : List Pattern}, g ≠ .oneOrMore →
      (branch g cs).stable = true → ∀ c ∈ cs, c.stable = true := by
    intro g cs hg hall
    rw [stable_group cs hg, stableEach_eq_all] at hall
    exact List.all_eq_true.mp hall
  induction h with
  | leaf hl =>
    cases hl with
    | word hw => exact .leaf (.word hw)
    | @option o ho =>
      obtain ⟨hmem, hshort⟩ := ho
      cases hl : o.long with
      | none =>
        obtain ⟨c, hc, hw⟩ := hshort hl
        exact .leaf (.short hl hc hw (hd.withShort hmem hc))
      | some name =>
        simp only [stable, OptionDecl.plainLong, hl, Option.all_some, Bool.and_eq_true,
          decide_eq_true_eq] at hs
        exact .leaf (.long hl hs.1 (by simpa using hs.2) (hd.withLong hmem hl))
  | required hn h ih =>
    exact .required hn fun c hc => ih c hc (heach (by decide) hs c hc)
  | optional h ih =>
    exact .optional fun c hc => ih c hc (heach (by decide) hs c hc)
  | either hn h ih =>
    exact .either hn fun c hc => ih c hc (heach (by decide) hs c hc)
  | @repeated c h hc ih =>
    have hn : ¬ c.IsRepetition := by
      rintro ⟨cs, rfl⟩
      simp [stable] at hs
    exact .repeated (ih (by rwa [stable_repeated hn] at hs)) hn
  | @cluster os last hne h =>
    obtain ⟨chars, hall, hf, hw⟩ := h
    rw [stable_cluster last hne] at hs
    refine .cluster hne ⟨chars, hall.imp fun o c ho => ⟨ho.2, hd.withShort ho.1 ho.2⟩, hf, hw, ?_⟩
    intro hval
    simpa [hval] using hs

/-- The texts weigh at least the cost, and more than that, or with two ellipses in a row, where
something cannot be read back. -/
structure Weighs (registry : Registry) (cost : Nat) (ok : Bool) (texts : List String) : Prop where
  le : cost ≤ weight registry texts
  excess : ok = false → ["...", "..."] <:+: texts ∨ cost < weight registry texts

theorem Weighs.within {registry : Registry} {cost : Nat} {ok : Bool} {texts texts' : List String}
    (h : Weighs registry cost ok texts) (hi : texts <:+: texts') :
    Weighs registry cost ok texts' := by
  have hle := weight_le_of_infix registry hi
  refine ⟨h.le.trans hle, fun hok => ?_⟩
  rcases h.excess hok with hd | hlt
  · exact .inl (hd.trans hi)
  · exact .inr (hlt.trans_le hle)

theorem Weighs.append {registry : Registry} {cost cost' : Nat} {ok ok' : Bool}
    {texts texts' : List String} (h : Weighs registry cost ok texts)
    (h' : Weighs registry cost' ok' texts') :
    Weighs registry (cost + cost') (ok && ok') (texts ++ texts') := by
  have hle := h.le
  have hle' := h'.le
  refine ⟨by rw [weight_append]; omega, fun hok => ?_⟩
  rw [weight_append]
  rcases Bool.and_eq_false_iff.mp hok with hok | hok
  · rcases h.excess hok with hd | hlt
    · exact .inl (hd.trans (List.prefix_append texts texts').isInfix)
    · exact .inr (by omega)
  · rcases h'.excess hok with hd | hlt
    · exact .inl (hd.trans (List.suffix_append texts texts').isInfix)
    · exact .inr (by omega)

theorem weighs_each {registry : Registry} {cs : List Pattern} (written : Pattern → List String)
    (h : ∀ c ∈ cs, Weighs registry c.cost c.stable (written c)) :
    Weighs registry (costEach cs) (stableEach cs) (cs.flatMap written) := by
  induction cs with
  | nil => exact ⟨by simp, by simp [stableEach]⟩
  | cons c cs ih => exact (h c (by simp)).append (ih fun d hd => h d (by simp [hd]))

theorem weighs_word {registry : Registry} {l : Leaf} {s : String} (hw : Token.IsWord s)
    (hi : (leaf l).inner = .ok (some s)) (hs : ∀ c cs, s.toList = '-' :: c :: cs → c = '-') :
    Weighs registry 2 true (leaf l).pieces := by
  rw [Pattern.pieces, (text_of_inner hi).2, Token.pieces_of_isWord hw]
  exact ⟨by simp [charge_word registry (Token.kind_of_isWord hw) hs], by simp⟩

theorem weighs_wordLeaf (registry : Registry) {l : Leaf} (h : WordLeaf l) :
    Weighs registry (leaf l).cost (leaf l).stable (leaf l).pieces := by
  cases h with
  | @argument name hw hd ha =>
    refine weighs_word hw rfl fun c cs hs => ?_
    simp [Text.startsWith, hs] at hd
  | @command name hw ho ha hd =>
    refine weighs_word hw rfl fun c cs hs => ?_
    rcases hd (by simp [Text.startsWith, hs]) with rfl | rfl
    · simp at hs
    · simp at hs
      exact hs.1.symm
  | anyOptions => exact weighs_word (by decide +kernel) rfl (by simp)

/-- A long name is at least one word, and its first word is no cluster. -/
theorem weight_long (registry : Registry) {name : String} (h : isLongName name = true) :
    2 ≤ weight registry (Token.pieces name) := by
  obtain ⟨d, ds, hs⟩ : ∃ d ds, name.toList = '-' :: '-' :: d :: ds := by
    unfold isLongName at h
    split at h
    · exact ⟨_, _, ‹_›⟩
    · cases h
  obtain ⟨later, hp⟩ := Token.pieces_of_cons hs (by decide) (by decide) (by decide)
  have hdash : Text.isBlank '-' = false := by decide
  rw [Token.spaced_cons (by decide) (by simp [Token.dots]), List.takeWhile_cons, hdash] at hp
  rw [hp, weight_cons, charge_word registry (Token.kind_eq_word_of_head _ (by decide) (by decide))]
  · omega
  · simp

theorem weight_placeholder (registry : Registry) (name : String) :
    2 ≤ weight registry (Token.pieces (placeholder name)) ∧
      (¬ Token.IsWord (placeholder name) →
        2 < weight registry (Token.pieces (placeholder name))) := by
  have hfirst : ∀ first, charge registry (String.ofList ('<' :: first)) = 2 := by
    intro first
    exact charge_word registry (Token.kind_eq_word_of_head _ (by decide) (by decide)) (by simp)
  constructor
  · obtain ⟨later, hp⟩ := Token.pieces_of_cons (toList_placeholder name) (by decide) (by decide)
      (by decide)
    rw [hp, weight_cons, hfirst]
    omega
  · intro hn
    obtain ⟨first, later, word, hp, hm, hw⟩ := pieces_placeholder hn
    have hpos := charge_pos registry hw
    obtain ⟨before, after, rfl⟩ := List.append_of_mem hm
    rw [hp, weight_cons, hfirst, weight_append, weight_cons]
    omega

theorem weighs_value (registry : Registry) (o : OptionDecl) :
    Weighs registry (Leaf.option o).valueToll
      (!o.takesValue || decide (Token.IsWord (placeholder o.name))) (valuePieces o) := by
  obtain ⟨hle, hlt⟩ := weight_placeholder registry o.name
  cases ht : o.takesValue with
  | false => exact ⟨by simp [Leaf.valueToll, ht], by simp⟩
  | true =>
    simp only [Leaf.valueToll, valuePieces, ht, if_true]
    exact ⟨hle, fun hok => .inr (hlt (by simpa using hok))⟩

theorem weighs_option {registry : Registry} {o : OptionDecl} (hd : registry.Distinct)
    (h : OptionNormal registry o) :
    Weighs registry (leaf (.option o)).cost (leaf (.option o)).stable
      (leaf (.option o)).pieces := by
  have hvalue := (weighs_value registry o).le
  obtain ⟨hmem, hshort⟩ := h
  rw [pieces_option, cost, stable]
  cases hl : o.long with
  | none =>
    obtain ⟨c, hc, hw⟩ := hshort hl
    have hplain : o.plainLong = true := by simp [OptionDecl.plainLong, hl]
    have hname : o.name = OptionDecl.shortOf c := by
      simp [OptionDecl.name, hl, show o.short = _ from hc]
    have hchars : (OptionDecl.shortOf c).toList = ['-', c] := by simp [OptionDecl.shortOf]
    have hcharge := charge_cluster (Token.kind_of_isWord hw) hchars (ne_dash_of_shortNamed hc)
      (hd.withShort hmem hc)
    refine ⟨?_, by simp [hplain]⟩
    rw [hname, Token.pieces_of_isWord hw, weight_append, weight_cons, hcharge, weight_nil]
    omega
  | some name =>
    have hname : o.name = name := by simp [OptionDecl.name, hl]
    have hlong := weight_long registry (OptionDecl.isLongName_of_long hl)
    have htoll := Leaf.toll_bounds (.option o)
    rw [hname]
    refine ⟨by rw [weight_append]; omega, fun hok => .inr ?_⟩
    have hone : (Leaf.option o).toll = 1 := by simp [Leaf.toll, hok]
    rw [weight_append]
    omega

theorem weighs_cluster {registry : Registry} {os : List OptionDecl} {last : OptionDecl}
    (hd : registry.Distinct) (hne : os ≠ []) (h : ClusterNormal registry os last) :
    Weighs registry (clustered (os ++ [last])).cost (clustered (os ++ [last])).stable
      (clustered (os ++ [last])).pieces := by
  obtain ⟨chars, hall, hf, hw⟩ := h
  obtain ⟨-, hp⟩ := hasText_clustered hne (hall.imp fun _ _ ho => ho.2) hf
  obtain ⟨o, os, rfl⟩ := List.exists_cons_of_ne_nil hne
  obtain ⟨c, cs, ho, -, rfl⟩ := List.forall₂_cons_left_iff.mp hall
  have hcost : (clustered (o :: os ++ [last])).cost =
      (Leaf.option o).toll + (Leaf.option last).valueToll := by
    rw [clustered, cost_cluster (by simp), spanCost]
    simp [List.getLast?_cons, headToll, tailToll]
  have hcharge := charge_cluster (Token.kind_of_isWord hw) String.toList_ofList
    (Pattern.ne_dash_of_shortNamed ho.2) (hd.withShort ho.1 ho.2)
  have hword : Weighs registry (Leaf.option o).toll true [String.ofList ('-' :: c :: cs)] :=
    ⟨by rw [weight_cons, hcharge]; omega, by simp⟩
  rw [hp, hcost, stable_cluster last hne, Token.pieces_of_isWord hw]
  have hboth := hword.append (weighs_value registry last)
  rw [Bool.true_and] at hboth
  exact hboth.within (List.prefix_append _ _).isInfix

/-- The text of a tree weighs at least what the tree costs, and the text of an unstable one shows
it. -/
theorem weighs_of_normal {registry : Registry} {p : Pattern} (hd : registry.Distinct)
    (h : Normal registry p) : Weighs registry p.cost p.stable p.pieces := by
  induction h with
  | leaf hl =>
    cases hl with
    | word h => exact weighs_wordLeaf registry h
    | option h => exact weighs_option hd h
  | required hn h ih =>
    rw [pieces_required fun c hc => hasText_of_normal (h c hc), cost_group _ (by decide),
      stable_group _ (by decide)]
    exact (weighs_each pieces ih).within ⟨["("], [")"], rfl⟩
  | optional h ih =>
    rw [pieces_optional fun c hc => hasText_of_normal (h c hc), cost_group _ (by decide),
      stable_group _ (by decide)]
    exact (weighs_each pieces ih).within ⟨["["], ["]"], rfl⟩
  | @either cs hn h ih =>
    obtain ⟨c, cs, rfl⟩ : ∃ d ds, cs = d :: ds := by
      cases cs with
      | nil => simp at hn
      | cons d ds => exact ⟨d, ds, rfl⟩
    have hrest := weighs_each (fun d => "|" :: d.pieces) fun d hd =>
      (ih d (List.mem_cons_of_mem c hd)).within ⟨["|"], [], by simp⟩
    rw [pieces_either fun c hc => hasText_of_normal (h c hc), cost_group _ (by decide),
      stable_group _ (by decide)]
    exact ((ih c (by simp)).append hrest).within ⟨["("], [")"], rfl⟩
  | @repeated c h hc ih =>
    rw [pieces_repeated (hasText_of_normal h), cost]
    by_cases hr : c.IsRepetition
    · obtain ⟨front, hf⟩ := ellipsis_of_repetition h hr
      have hle := ih.le
      refine ⟨?_, fun _ => .inl ⟨front, [], by simp [hf]⟩⟩
      rw [weight_append]
      omega
    · rw [stable_repeated hr]
      exact ih.within (List.prefix_append _ _).isInfix
  | cluster hne h => exact weighs_cluster hd hne h

end Usage

end Synopsis
