import Synopsis.Proofs.NormalForm

/-!
A measure of trees and of their texts. A word weighs two, or one where it is a cluster that begins
with an option whose long name cannot be read. A reader that adds nothing to the registry finds trees
that cost at least what it has read weighs; the text of a tree weighs at least what the tree costs.
-/
namespace Synopsis

/-- The long name, where there is one, is a word that is not taken for a name and a value. -/
def OptionDecl.plainLong (o : OptionDecl) : Bool :=
  o.long.all fun name => decide (Token.IsWord name) && !name.toList.contains '='

namespace Leaf

/-- What the first word of a leaf counts for. -/
def toll : Leaf → Nat
  | option o => if o.plainLong then 2 else 1
  | _ => 2

/-- What the value behind a leaf counts for. -/
def valueToll : Leaf → Nat
  | option o => if o.takesValue then 2 else 0
  | _ => 0

theorem toll_bounds (l : Leaf) : 1 ≤ l.toll ∧ l.toll ≤ 2 := by
  unfold toll
  split
  · split <;> omega
  · omega

end Leaf

namespace Pattern

def headToll : Pattern → Nat
  | leaf l => l.toll
  | branch .. => 0

def tailToll : Pattern → Nat
  | leaf l => l.valueToll
  | branch .. => 0

/-- The cost of a cluster: its word, and the value of its last option. -/
def spanCost (cs : List Pattern) : Nat :=
  cs.head?.elim 0 headToll + cs.getLast?.elim 0 tailToll

mutual
/-- The cost of a tree. A repetition of several trees is that of a cluster. -/
@[simp] def cost : Pattern → Nat
  | leaf l => l.toll + l.valueToll
  | branch .oneOrMore [c] => cost c
  | branch .oneOrMore cs => spanCost cs
  | branch _ cs => costEach cs

@[simp] def costEach : List Pattern → Nat
  | [] => 0
  | p :: rest => cost p + costEach rest
end

theorem costEach_append (ps qs : List Pattern) :
    costEach (ps ++ qs) = costEach ps + costEach qs := by
  induction ps with
  | nil => simp
  | cons p ps ih => simp [ih, Nat.add_assoc]

theorem costEach_singleton (p : Pattern) : costEach [p] = p.cost := by simp

theorem cost_group {g : Group} (cs : List Pattern) (h : g ≠ .oneOrMore) :
    (branch g cs).cost = costEach cs := by
  cases g with
  | oneOrMore => exact absurd rfl h
  | required | optional | either => simp

theorem cost_cluster {cs : List Pattern} (h : cs.length ≠ 1) :
    (branch .oneOrMore cs).cost = spanCost cs := by
  match cs, h with
  | [], _ => simp
  | _ :: _ :: _, _ => simp

theorem headToll_le_cost (p : Pattern) : p.headToll ≤ p.cost := by
  cases p with
  | leaf l => simp [headToll]
  | branch g cs => simp [headToll]

theorem tailToll_le_costEach (cs : List Pattern) :
    cs.getLast?.elim 0 tailToll ≤ costEach cs := by
  induction cs with
  | nil => simp
  | cons c cs ih =>
    cases cs with
    | nil => cases c <;> simp [tailToll]
    | cons d ds =>
      rw [List.getLast?_cons_cons, costEach]
      omega

theorem spanCost_le_costEach (cs : List Pattern) : spanCost cs ≤ costEach cs := by
  match cs with
  | [] => simp [spanCost]
  | [leaf l] => simp [spanCost, headToll, tailToll]
  | [branch g ds] => simp [spanCost, headToll, tailToll]
  | c :: d :: ds =>
    have hhead := headToll_le_cost c
    have htail := tailToll_le_costEach (d :: ds)
    rw [spanCost, List.head?_cons, List.getLast?_cons_cons, costEach]
    simp only [Option.elim_some]
    omega

theorem spanCost_le_cost (cs : List Pattern) : spanCost cs ≤ (branch .oneOrMore cs).cost := by
  by_cases h : cs.length = 1
  · obtain ⟨c, rfl⟩ := List.length_eq_one_iff.mp h
    have hle := spanCost_le_costEach [c]
    rw [costEach_singleton] at hle
    simpa using hle
  · rw [cost_cluster h]

end Pattern

namespace Usage
open Pattern

theorem costEach_grouped (ps : List Pattern) : (grouped ps).cost = costEach ps := by
  match ps with
  | [] => simp [grouped]
  | [p] => simp [grouped]
  | _ :: _ :: _ => simp [grouped]

theorem cost_enclosed (opener : String) (ps : List Pattern) :
    (enclosed opener ps).cost = costEach ps := by
  unfold enclosed
  split
  · exact costEach_grouped ps
  · simp

theorem costEach_branchOf (ps : List Pattern) : costEach (branchOf ps) = costEach ps := by
  unfold branchOf
  split
  · rename_i h
    rw [List.isEmpty_iff.mp h]
  · rw [costEach_singleton, costEach_grouped]

theorem costEach_alternation (ps : List Pattern) : costEach (alternation ps) = costEach ps := by
  match ps with
  | [] | [p] => rfl
  | p :: q :: rest => simp [alternation]

/-- The weight of one piece of text; delimiters weigh nothing. -/
def charge (registry : Registry) (s : String) : Nat :=
  if TokenKind.of s = .word then
    match s.toList with
    | '-' :: c :: _ =>
      if c = '-' then 2
      else (registry.withShort (OptionDecl.shortOf c)).head?.elim 2 fun o => (Leaf.option o).toll
    | _ => 2
  else 0

def weight (registry : Registry) : List String → Nat
  | [] => 0
  | s :: texts => charge registry s + weight registry texts

@[simp] theorem weight_nil (registry : Registry) : weight registry [] = 0 := rfl

@[simp] theorem weight_cons (registry : Registry) (s : String) (texts : List String) :
    weight registry (s :: texts) = charge registry s + weight registry texts := rfl

@[simp] theorem weight_append (registry : Registry) (texts texts' : List String) :
    weight registry (texts ++ texts') = weight registry texts + weight registry texts' := by
  induction texts with
  | nil => simp
  | cons s texts ih => simp [ih, Nat.add_assoc]

theorem weight_le_of_infix (registry : Registry) {texts texts' : List String}
    (h : texts <:+: texts') : weight registry texts ≤ weight registry texts' := by
  obtain ⟨before, after, rfl⟩ := h
  rw [weight_append, weight_append]
  omega

theorem charge_delimiter {registry : Registry} {s : String} (h : TokenKind.of s ≠ .word) :
    charge registry s = 0 := by simp [charge, h]

theorem charge_le (registry : Registry) (s : String) : charge registry s ≤ 2 := by
  unfold charge
  split
  · split
    · split
      · exact Nat.le_refl 2
      · rename_i c cs hs hc
        cases registry.withShort (OptionDecl.shortOf c) with
        | nil => simp
        | cons o os => simpa using (Leaf.toll_bounds (.option o)).2
    · exact Nat.le_refl 2
  · omega

theorem charge_pos (registry : Registry) {s : String} (h : TokenKind.of s = .word) :
    1 ≤ charge registry s := by
  unfold charge
  rw [if_pos h]
  split
  · split
    · omega
    · rename_i c cs hs hc
      cases registry.withShort (OptionDecl.shortOf c) with
      | nil => simp
      | cons o os => simpa using (Leaf.toll_bounds (.option o)).1
  · omega

theorem charge_cluster {registry : Registry} {s : String} {c : Char} {cs : List Char}
    {o : OptionDecl} (hw : TokenKind.of s = .word) (hs : s.toList = '-' :: c :: cs)
    (hc : c ≠ '-') (ho : registry.withShort (OptionDecl.shortOf c) = [o]) :
    charge registry s = (Leaf.option o).toll := by
  simp [charge, hw, hs, hc, ho]

/-- Only clusters can weigh less than two. -/
theorem charge_word (registry : Registry) {s : String} (hw : TokenKind.of s = .word)
    (hs : ∀ c cs, s.toList = '-' :: c :: cs → c = '-') : charge registry s = 2 := by
  unfold charge
  rw [if_pos hw]
  split
  · rename_i c cs h
    rw [if_pos (hs c cs h)]
  · rfl

theorem unchanged_between {a b c : Registry} (h : Registry.Extends a b)
    (h' : Registry.Extends b c) (hc : c = a) : b = a := by
  subst hc
  exact (h.starts.eq_of_length (Nat.le_antisymm h.starts.length_le h'.starts.length_le)).symm

theorem not_added {registry : Registry} {o : OptionDecl} {r : Registry}
    (h : Registry.Extends (registry ++ [o]) r) (hr : r = registry) : False := by
  have hle := h.starts.length_le
  rw [hr, List.length_append, List.length_singleton] at hle
  omega

/-- The leaves of a word: the first is worth the word, the last the value behind it. -/
structure Covers (registry : Registry) (token : Token) (rest : List Token) (r : Reading Leaf) :
    Prop where
  first : ∃ l, r.found.head? = some l ∧ charge registry token.text ≤ l.toll
  value : r.rest = rest ∨ ∃ next l, rest = next :: r.rest ∧ r.found.getLast? = some l ∧
    l.valueToll = 2

theorem Covers.plain {registry : Registry} {token : Token} {rest : List Token} {l : Leaf}
    (hl : l.toll = 2) : Covers registry token rest ⟨rest, registry, [l]⟩ :=
  ⟨⟨l, rfl, hl ▸ charge_le registry token.text⟩, .inl rfl⟩

theorem plainLong_of_read? {s : String} {a : Assignment} {o : OptionDecl}
    (hw : Token.IsWord s) (ha : Assignment.read? s = some a) (ho : o.long = some a.name) :
    o.plainLong = true := by
  have hclean : Token.Clean a.name.toList := by
    rw [Assignment.name_of_read? ha, String.toList_ofList]
    exact (Token.isWord_iff.mp hw).2.within (List.takeWhile_prefix _).isInfix
  have hne : a.name ≠ "" := by
    intro he
    exact absurd (OptionDecl.isLongName_of_long ho) (by rw [he]; decide)
  simp [OptionDecl.plainLong, ho, Token.isWord_iff.mpr ⟨hne, hclean⟩,
    Assignment.plain_of_read? ha]

theorem covers_of_long {token : Token} {rest : List Token} {registry : Registry}
    {r : Reading OptionDecl} (hw : Token.IsWord token.text)
    (h : Registry.ReadsLong .usage token rest registry r) (hr : r.registry = registry) :
    Covers registry token rest (r.map Leaf.option) := by
  have htoll : ∀ {a : Assignment} {o : OptionDecl}, Assignment.read? token.text = some a →
      registry.candidates .usage a.name = [o] → (Leaf.option o).toll = 2 := by
    intro a o ha hc
    simp [Leaf.toll, plainLong_of_read? hw ha (Registry.mem_of_candidates hc).2]
  cases h with
  | added ha hc ho => exact (not_added (.refl _) hr).elim
  | flag ha hc ht hv => exact .plain (htoll ha hc)
  | assigned ha hc ht hv => exact .plain (htoll ha hc)
  | @followed a o next after ha hc ht hv hrest hk =>
    refine ⟨⟨.option o, rfl, htoll ha hc ▸ charge_le registry token.text⟩, .inr ?_⟩
    exact ⟨next, .option o, hrest, rfl, by simp [Leaf.valueToll, ht]⟩

/-- The first option of a cluster is the entry of its first character, and a word is taken only by the
last one. -/
theorem chars_unchanged {rest : List Token} {registry : Registry} {cs : List Char}
    {r : Reading OptionDecl} (h : Registry.ReadsChars .usage rest registry cs r)
    (hr : r.registry = registry) :
    (∀ c, cs.head? = some c →
      ∃ o, r.found.head? = some o ∧ registry.withShort (OptionDecl.shortOf c) = [o]) ∧
      (r.rest = rest ∨ ∃ next o, rest = next :: r.rest ∧ r.found.getLast? = some o ∧
        o.takesValue = true) := by
  induction h with
  | nil => simp
  | @fresh registry c cs r hc hs hchars ih =>
    exact (not_added hchars.extends.1 hr).elim
  | @flag registry c cs o r hc hs ht hchars ih =>
    refine ⟨fun d hd => ⟨o, rfl, by simp_all⟩, ?_⟩
    rcases (ih hr).2 with hrest | ⟨next, last, hrest, hlast, hval⟩
    · exact .inl hrest
    · refine .inr ⟨next, last, hrest, ?_, hval⟩
      simp [Reading.after, List.getLast?_cons, hlast]
  | @attached registry c cs o hc hs ht hne =>
    exact ⟨fun d hd => ⟨o, rfl, by simp_all⟩, .inl rfl⟩
  | @followed registry c o next after hc hs ht hrest hw =>
    exact ⟨fun d hd => ⟨o, rfl, by simp_all⟩, .inr ⟨next, o, hrest, rfl, ht⟩⟩

theorem covers_of_word {token : Token} {rest : List Token} {registry : Registry}
    {r : Reading Leaf} (hw : Token.IsWord token.text) (h : ReadsWord token rest registry r)
    (hr : r.registry = registry) : Covers registry token rest r := by
  cases h with
  | anyOptions hs => exact .plain rfl
  | argument hs => exact .plain rfl
  | command hs hne => exact .plain rfl
  | long hs hl => exact covers_of_long hw hl hr
  | @cluster c cs r hs hc hchars =>
    obtain ⟨hfirst, hvalue⟩ := chars_unchanged hchars hr
    obtain ⟨o, ho, hshort⟩ := hfirst c rfl
    refine ⟨⟨.option o, by simp [Reading.map, ho], ?_⟩, ?_⟩
    · rw [charge_cluster (Token.kind_of_isWord hw) hs hc hshort]
    · rcases hvalue with hrest | ⟨next, last, hrest, hlast, hval⟩
      · exact .inl hrest
      · exact .inr ⟨next, .option last, hrest, by simp [Reading.map, hlast],
          by simp [Leaf.valueToll, hval]⟩

def texts (tokens : List Token) : List String := tokens.map (·.text)

theorem weight_le_of_covers {registry : Registry} {token : Token} {rest : List Token}
    {r : Reading Leaf} (h : Covers registry token rest r) :
    weight registry (texts (token :: rest)) ≤
      weight registry (texts r.rest) + spanCost (r.found.map Pattern.leaf) := by
  obtain ⟨l, hhead, hle⟩ := h.first
  have hspan : spanCost (r.found.map Pattern.leaf) =
      l.toll + r.found.getLast?.elim 0 Leaf.valueToll := by
    rw [spanCost, List.head?_map, hhead, List.getLast?_map]
    cases r.found.getLast? <;> rfl
  rcases h.value with hrest | ⟨next, last, hrest, hlast, hval⟩
  · rw [hspan, hrest, texts, List.map_cons, weight_cons]
    simp only [texts]
    omega
  · have hnext := charge_le registry next.text
    rw [hspan, hlast, Option.elim_some, hval, hrest]
    simp only [texts, List.map_cons, weight_cons]
    omega

/-- What a part finds is worth what it has read; what an atom finds is so also when it is repeated. -/
def Paid : Part → Registry → List Token → Reading Pattern → Prop
  | .atom, registry, tokens, r =>
    weight registry (texts tokens) ≤ weight registry (texts r.rest) + costEach r.found ∧
      weight registry (texts tokens) ≤
        weight registry (texts r.rest) + (branch .oneOrMore r.found).cost
  | _, registry, tokens, r =>
    weight registry (texts tokens) ≤ weight registry (texts r.rest) + costEach r.found

theorem weight_skip {registry : Registry} {t : Token} (rest : List Token)
    (h : TokenKind.of t.text ≠ .word) :
    weight registry (texts (t :: rest)) = weight registry (texts rest) := by
  simp [texts, charge_delimiter h]

theorem weight_behind? (registry : Registry) {kind : TokenKind} {tokens rest : List Token}
    (hk : ∀ t ∈ tokens, t.kind = TokenKind.of t.text) (hne : kind ≠ .word)
    (h : behind? kind tokens = some rest) :
    weight registry (texts tokens) = weight registry (texts rest) := by
  obtain ⟨t, rfl, ht⟩ := suffix_of_behind? h
  refine weight_skip rest ?_
  rw [← hk t (by simp), ht]
  exact hne

theorem paid_repeated {registry : Registry} {tokens : List Token} {a : Reading Pattern}
    (hk : ∀ t ∈ a.rest, t.kind = TokenKind.of t.text) (h : Paid .atom registry tokens a) :
    weight registry (texts tokens) ≤
      weight registry (texts (repeated a).rest) + costEach (repeated a).found := by
  unfold repeated
  split
  next rest hb =>
    rw [costEach_singleton, ← weight_behind? registry hk (by decide) hb]
    exact h.2
  next => exact h.1

theorem paid_of_reads {part : Part} {tokens : List Token} {registry : Registry}
    {r : Reading Pattern} (h : Reads part tokens registry r) (hs : ∀ t ∈ tokens, t.Scanned)
    (hr : r.registry = registry) : Paid part registry tokens r := by
  induction h with
  | @word token rest registry r hk hw =>
    have hcov := covers_of_word ((hs token (by simp)).word hk) (readWord_eq_ok_iff.mp hw) hr
    have hle := weight_le_of_covers hcov
    have heach := spanCost_le_costEach (r.found.map Pattern.leaf)
    have hrep := spanCost_le_cost (r.found.map Pattern.leaf)
    constructor
    · exact hle.trans (Nat.add_le_add_left heach _)
    · exact hle.trans (Nat.add_le_add_left hrep _)
  | @group opener next closer rest after registry registry' inside hk hc he hn ih =>
    obtain ⟨hok, hck⟩ := kind_of_closerOf? hc
    have hin := ih (fun t ht => hs t (by simp [ht])) hr
    have hclose : weight registry (texts (next :: after)) = weight registry (texts after) :=
      weight_skip after (by rw [hn, hck]; decide)
    have hle : weight registry (texts (opener :: rest)) ≤
        weight registry (texts after) + costEach inside := by
      rw [weight_skip rest (by rw [hok]; decide), ← hclose]
      exact hin
    constructor
    · rwa [costEach_singleton, cost_enclosed]
    · rwa [cost, cost_enclosed]
  | stop hb => simp [Paid]
  | @more tokens registry a s ha hseq iha ihs =>
    have hsub := suffix_of_reads ha
    have hsub' := (repeated_suffix a).trans hsub
    have hexta := (regular_of_reads ha hs).1
    have hexts := (regular_of_reads hseq fun t ht => hs t (hsub'.subset ht)).1
    rw [registry_repeated] at hexts
    have hra : a.registry = registry := unchanged_between hexta hexts hr
    have hpaid := paid_repeated (fun t ht => (hs t (hsub.subset ht)).kind_eq) (iha hs hra)
    have hrr : (repeated a).registry = registry := (registry_repeated a).trans hra
    have hrest := ihs (fun t ht => hs t (hsub'.subset ht)) (hr.trans hrr.symm)
    rw [hrr] at hrest
    simp only [Paid] at hrest ⊢
    rw [costEach_append]
    omega
  | last hp => simp [Paid]
  | @branch tokens rest registry s b hp hseq hb ihs ihb =>
    have hpipe := weight_behind? registry (fun t ht => (hs t ht).kind_eq) (by decide) hp
    obtain ⟨t, rfl, -⟩ := suffix_of_behind? hp
    have hrest : ∀ u ∈ rest, u.Scanned := fun u hu => hs u (by simp [hu])
    have hlater : ∀ u ∈ s.rest, u.Scanned := fun u hu => hrest u ((suffix_of_reads hseq).subset hu)
    have hrs : s.registry = registry := unchanged_between (regular_of_reads hseq hrest).1
      (regular_of_reads hb hlater).1 hr
    have hfirst := ihs hrest hrs
    have hmore := ihb hlater (hrs ▸ hr)
    rw [hrs] at hmore
    simp only [Paid] at hfirst hmore ⊢
    rw [costEach_append, costEach_branchOf]
    omega
  | single hseq hp ihs => exact ihs hs hr
  | @several tokens registry s b hseq hp hb ihs ihb =>
    have hlater : ∀ u ∈ s.rest, u.Scanned := fun u hu => hs u ((suffix_of_reads hseq).subset hu)
    have hrs : s.registry = registry := unchanged_between (regular_of_reads hseq hs).1
      (regular_of_reads hb hlater).1 hr
    have hfirst := ihs hs hrs
    have hmore := ihb hlater (hrs ▸ hr)
    rw [hrs] at hmore
    simp only [Paid] at hfirst hmore ⊢
    rw [costEach_alternation, costEach_append, costEach_branchOf]
    omega

end Usage

end Synopsis
