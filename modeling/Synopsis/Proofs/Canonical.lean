import Synopsis.Proofs.Derivation
import Synopsis.Proofs.Written

/-!
Canonical trees over a registry, and the reader that finds each of them again in its text. The rest of
the stream is arbitrary, except that an ellipsis behind a tree would repeat it.
-/
namespace Synopsis

/-- Trees without groups of one, with alternations of at least two, and with repetitions of one tree
or of a cluster, over given leaves, repeated trees and clusters. -/
inductive Pattern.Shaped (leafOk : Leaf → Prop) (onceOk : Pattern → Prop)
    (clusterOk : List OptionDecl → OptionDecl → Prop) : Pattern → Prop where
  | leaf {l : Leaf} (hl : leafOk l) : Shaped leafOk onceOk clusterOk (.leaf l)
  | required {cs : List Pattern} (hn : cs.length ≠ 1)
      (h : ∀ c ∈ cs, Shaped leafOk onceOk clusterOk c) :
      Shaped leafOk onceOk clusterOk (.branch .required cs)
  | optional {cs : List Pattern} (h : ∀ c ∈ cs, Shaped leafOk onceOk clusterOk c) :
      Shaped leafOk onceOk clusterOk (.branch .optional cs)
  | either {cs : List Pattern} (hn : 2 ≤ cs.length)
      (h : ∀ c ∈ cs, Shaped leafOk onceOk clusterOk c) :
      Shaped leafOk onceOk clusterOk (.branch .either cs)
  | repeated {c : Pattern} (h : Shaped leafOk onceOk clusterOk c) (hc : onceOk c) :
      Shaped leafOk onceOk clusterOk (.branch .oneOrMore [c])
  | cluster {os : List OptionDecl} {last : OptionDecl} (hne : os ≠ []) (h : clusterOk os last) :
      Shaped leafOk onceOk clusterOk (.clustered (os ++ [last]))

def Pattern.IsRepetition (p : Pattern) : Prop := ∃ cs, p = .branch .oneOrMore cs

namespace Usage

/-- Leaves other than options that a word of a usage pattern can stand for. -/
inductive WordLeaf : Leaf → Prop where
  | argument {name : String} (hw : Token.IsWord name)
      (hd : Text.startsWith name "-" = false) (ha : isArgumentName name = true) :
      WordLeaf (.argument (some name) .null)
  | command {name : String} (hw : Token.IsWord name) (ho : name ≠ "options")
      (ha : isArgumentName name = false)
      (hd : Text.startsWith name "-" = true → name = "-" ∨ name = "--") :
      WordLeaf (.command name (.bool false))
  | anyOptions : WordLeaf .anyOptions

/-- Leaves of a canonical tree. An option is the only entry of its long name, which is a word without
an equals sign, or of its short name where it has no long one. -/
inductive LeafItem (registry : Registry) : Leaf → Prop where
  | word {l : Leaf} (h : WordLeaf l) : LeafItem registry l
  | long {o : OptionDecl} {name : String} (hl : o.long = some name) (hw : Token.IsWord name)
      (he : '=' ∉ name.toList) (hu : registry.withLong name = [o]) : LeafItem registry (.option o)
  | short {o : OptionDecl} {c : Char} (hl : o.long = none) (hs : Pattern.ShortNamed o c)
      (hw : Token.IsWord (OptionDecl.shortOf c))
      (hu : registry.withShort (OptionDecl.shortOf c) = [o]) : LeafItem registry (.option o)

/-- The only entry of its short name of one character. -/
def Sole (registry : Registry) (o : OptionDecl) (c : Char) : Prop :=
  Pattern.ShortNamed o c ∧ registry.withShort (OptionDecl.shortOf c) = [o]

/-- Options that make a cluster: only the last may take a value, and the cluster, like the placeholder
for the value, is a single word. -/
def ClusterItem (registry : Registry) (os : List OptionDecl) (last : OptionDecl) : Prop :=
  ∃ chars, List.Forall₂ (Sole registry) (os ++ [last]) chars ∧
    (∀ o ∈ os, o.takesValue = false) ∧ Token.IsWord (String.ofList ('-' :: chars)) ∧
      (last.takesValue = true → Token.IsWord (Pattern.placeholder last.name))

/-- A canonical tree over a registry; a repetition is not repeated again. -/
def Item (registry : Registry) : Pattern → Prop :=
  Pattern.Shaped (LeafItem registry) (fun c => ¬ c.IsRepetition) (ClusterItem registry)

/-- The tokens have these texts, and the kinds that go with them. -/
def Spelled (tokens : List Token) (texts : List String) : Prop :=
  tokens.map (·.text) = texts ∧ ∀ t ∈ tokens, t.kind = TokenKind.of t.text

theorem spelled_scan (source : String) : Spelled (Token.scan source) (Token.pieces source) := by
  constructor
  · exact Token.map_text_number TokenKind.of (Token.pieces source)
  · intro t ht
    exact (Token.scanned_of_mem_scan ht).kind_eq

theorem Spelled.append {tokens : List Token} {texts texts' : List String}
    (h : Spelled tokens (texts ++ texts')) :
    ∃ ts ts', tokens = ts ++ ts' ∧ Spelled ts texts ∧ Spelled ts' texts' := by
  obtain ⟨ts, ts', rfl, hts, hts'⟩ := List.map_eq_append_iff.mp h.1
  exact ⟨ts, ts', rfl, ⟨hts, fun t ht => h.2 t (by simp [ht])⟩,
    ⟨hts', fun t ht => h.2 t (by simp [ht])⟩⟩

theorem Spelled.cons {tokens : List Token} {text : String} {texts : List String}
    (h : Spelled tokens (text :: texts)) :
    ∃ t ts, tokens = t :: ts ∧ t.text = text ∧ t.kind = TokenKind.of text ∧ Spelled ts texts := by
  obtain ⟨t, ts, rfl, ht, hts⟩ := List.map_eq_cons_iff.mp h.1
  exact ⟨t, ts, rfl, ht, ht ▸ h.2 t (by simp), hts, fun t ht => h.2 t (by simp [ht])⟩

theorem Spelled.nil {tokens : List Token} (h : Spelled tokens []) : tokens = [] :=
  List.map_eq_nil_iff.mp h.1

theorem Spelled.singleton {tokens : List Token} {text : String} (h : Spelled tokens [text]) :
    ∃ t, tokens = [t] ∧ t.text = text ∧ t.kind = TokenKind.of text := by
  obtain ⟨t, ts, rfl, ht, hk, hts⟩ := h.cons
  exact ⟨t, by rw [hts.nil], ht, hk⟩

/-- Wherever the texts stand, an atom reads them and finds the trees. -/
def ReadsAtom (registry : Registry) (texts : List String) (found : List Pattern) : Prop :=
  ∀ tokens rest, Spelled tokens texts →
    Reads .atom (tokens ++ rest) registry ⟨rest, registry, found⟩

/-- Wherever the texts stand with no ellipsis behind them, they are one step of a sequence, which
finds the tree. -/
def ReadsItem (registry : Registry) (texts : List String) (p : Pattern) : Prop :=
  ∀ tokens rest, Spelled tokens texts → behind? .ellipsis rest = none →
    ∃ a, Reads .atom (tokens ++ rest) registry a ∧ repeated a = ⟨rest, registry, [p]⟩

theorem ReadsAtom.item {registry : Registry} {texts : List String} {p : Pattern}
    (h : ReadsAtom registry texts [p]) : ReadsItem registry texts p := by
  intro tokens rest hs he
  exact ⟨_, h tokens rest hs, by simp [repeated, he]⟩

theorem ReadsAtom.repeated {registry : Registry} {texts : List String} {found : List Pattern}
    (h : ReadsAtom registry texts found) :
    ReadsItem registry (texts ++ ["..."]) (.branch .oneOrMore found) := by
  intro tokens rest hs _
  obtain ⟨ts, es, rfl, hts, hes⟩ := hs.append
  obtain ⟨e, rfl, -, hk⟩ := hes.singleton
  refine ⟨_, by simpa using h ts (e :: rest) hts, ?_⟩
  simp [Usage.repeated, behind?, hk.trans (by decide : TokenKind.of "..." = .ellipsis)]

theorem not_ellipsis_of_beginsAtom {tokens : List Token} (h : beginsAtom tokens = true) :
    behind? .ellipsis tokens = none := by
  cases tokens with
  | nil => rfl
  | cons t rest =>
    have hk : t.kind ≠ .ellipsis := by
      intro hk
      simp [beginsAtom, hk] at h
    simp [behind?, hk]

/-- Neither an atom nor an ellipsis is in front. -/
structure Closed (rest : List Token) : Prop where
  atom : beginsAtom rest = false
  ellipsis : behind? .ellipsis rest = none

theorem reads_sequence {registry : Registry} {cs : List Pattern}
    (h : ∀ c ∈ cs, ReadsItem registry c.pieces c) {tokens rest : List Token}
    (hs : Spelled tokens (cs.flatMap Pattern.pieces)) (hr : Closed rest) :
    Reads .sequence (tokens ++ rest) registry ⟨rest, registry, cs⟩ ∧
      behind? .ellipsis (tokens ++ rest) = none := by
  induction cs generalizing tokens with
  | nil =>
    rw [hs.nil]
    exact ⟨.stop hr.atom, hr.ellipsis⟩
  | cons c cs ih =>
    obtain ⟨ts, ts', rfl, hts, hts'⟩ := hs.append
    obtain ⟨hseq, he⟩ := ih (fun d hd => h d (by simp [hd])) hts'
    obtain ⟨a, ha, hrep⟩ := h c (by simp) ts (ts' ++ rest) hts he
    rw [List.append_assoc]
    refine ⟨?_, not_ellipsis_of_beginsAtom (beginsAtom_of_reads ha)⟩
    have hmore := Reads.more ha (by rw [hrep]; exact hseq)
    rw [hrep] at hmore
    exact hmore

theorem reads_branches {registry : Registry} {cs : List Pattern}
    (h : ∀ c ∈ cs, ReadsItem registry c.pieces c) {tokens rest : List Token}
    (hs : Spelled tokens (cs.flatMap fun c => "|" :: c.pieces)) (hr : Closed rest)
    (hp : behind? .pipe rest = none) :
    Reads .branches (tokens ++ rest) registry ⟨rest, registry, cs⟩ ∧ Closed (tokens ++ rest) := by
  induction cs generalizing tokens with
  | nil =>
    rw [hs.nil]
    exact ⟨.last hp, hr⟩
  | cons c cs ih =>
    obtain ⟨ts, ts', rfl, hts, hts'⟩ := hs.append
    obtain ⟨t, ts, rfl, -, hk, hts⟩ := hts.cons
    have hpipe : t.kind = .pipe := hk.trans (by decide)
    obtain ⟨hbr, hcl⟩ := ih (fun d hd => h d (by simp [hd])) hts'
    have hone : Spelled ts ([c].flatMap Pattern.pieces) := by simpa using hts
    obtain ⟨hseq, -⟩ := reads_sequence (fun d hd => by
      rw [List.mem_singleton.mp hd]; exact h c (by simp)) hone hcl
    rw [List.append_assoc, List.cons_append]
    refine ⟨?_, by simp [beginsAtom, hpipe], by simp [behind?, hpipe]⟩
    exact .branch (by simp [behind?, hpipe]) hseq hbr

theorem readsAtom_word {registry : Registry} {text : String} {values : List String}
    (leaves : List Leaf) (hw : TokenKind.of text = .word)
    (h : ∀ token tail rest, token.text = text → Spelled tail values →
      ReadsWord token (tail ++ rest) registry ⟨rest, registry, leaves⟩) :
    ReadsAtom registry (text :: values) (leaves.map Pattern.leaf) := by
  intro tokens rest hs
  obtain ⟨token, tail, rfl, ht, hk, htail⟩ := hs.cons
  exact .word (hk.trans hw) (readWord_eq_ok_iff.mpr (h token tail rest ht htail))

theorem Spelled.value {o : OptionDecl} {tail : List Token}
    (h : Spelled tail (Pattern.valuePieces o)) (ht : o.takesValue = true)
    (hw : Token.IsWord (Pattern.placeholder o.name)) :
    ∃ next, tail = [next] ∧ next.kind = .word := by
  rw [Pattern.valuePieces, if_pos ht, Token.pieces_of_isWord hw] at h
  obtain ⟨next, rfl, -, hk⟩ := h.singleton
  exact ⟨next, rfl, hk.trans (Token.kind_of_isWord hw)⟩

theorem Spelled.noValue {o : OptionDecl} {tail : List Token}
    (h : Spelled tail (Pattern.valuePieces o)) (ht : o.takesValue = false) : tail = [] := by
  rw [Pattern.valuePieces, ht] at h
  exact h.nil

theorem bne_equals_of_mem {name : String} (h : '=' ∉ name.toList) :
    ∀ c ∈ name.toList, (c != '=') = true := by
  intro c hc
  simpa using fun he : c = '=' => h (he ▸ hc)

theorem read?_of_no_equals {name : String} (h : '=' ∉ name.toList) :
    Assignment.read? name = some ⟨name, none⟩ := by
  have hne := bne_equals_of_mem h
  simp only [Assignment.read?, List.dropWhile_eq_nil_iff.mpr hne,
    List.takeWhile_eq_self_iff.mpr hne, String.ofList_toList]

theorem readsLong_of_name {registry : Registry} {o : OptionDecl} {name : String}
    (he : '=' ∉ name.toList) (hu : registry.withLong name = [o])
    (hv : o.takesValue = true → Token.IsWord (Pattern.placeholder o.name)) {token : Token}
    {tail : List Token} (rest : List Token) (ht : token.text = name)
    (hs : Spelled tail (Pattern.valuePieces o)) :
    Registry.ReadsLong .usage token (tail ++ rest) registry ⟨rest, registry, [o]⟩ := by
  have ha : Assignment.read? token.text = some ⟨name, none⟩ := by rw [ht, read?_of_no_equals he]
  have hc : registry.candidates .usage name = [o] := by rw [Registry.candidates_usage, hu]
  cases hval : o.takesValue with
  | false =>
    rw [hs.noValue hval]
    exact .flag ha hc hval rfl
  | true =>
    obtain ⟨next, rfl, hk⟩ := hs.value hval (hv hval)
    exact .followed ha hc hval rfl rfl hk

/-- Flags and a last option are read off the characters of their cluster. -/
theorem readsChars_of_sole {registry : Registry} {os : List OptionDecl} {last : OptionDecl}
    {chars : List Char} (h : List.Forall₂ (Sole registry) (os ++ [last]) chars)
    (hf : ∀ o ∈ os, o.takesValue = false)
    (hv : last.takesValue = true → Token.IsWord (Pattern.placeholder last.name))
    {tail : List Token} (rest : List Token) (hs : Spelled tail (Pattern.valuePieces last)) :
    Registry.ReadsChars .usage (tail ++ rest) registry chars ⟨rest, registry, os ++ [last]⟩ := by
  induction os generalizing chars with
  | nil =>
    obtain ⟨c, cs, hc, hnil, rfl⟩ := List.forall₂_cons_left_iff.mp h
    obtain rfl := List.forall₂_nil_left_iff.mp hnil
    cases hval : last.takesValue with
    | false =>
      rw [hs.noValue hval]
      exact .flag (Pattern.ne_dash_of_shortNamed hc.1) hc.2 hval .nil
    | true =>
      obtain ⟨next, rfl, hk⟩ := hs.value hval (hv hval)
      exact .followed (Pattern.ne_dash_of_shortNamed hc.1) hc.2 hval rfl hk
  | cons o os ih =>
    obtain ⟨c, cs, hc, hcs, rfl⟩ := List.forall₂_cons_left_iff.mp h
    exact .flag (Pattern.ne_dash_of_shortNamed hc.1) hc.2 (hf o (by simp))
      (ih hcs fun o ho => hf o (by simp [ho]))

theorem readsAtom_cluster {registry : Registry} {os : List OptionDecl} {last : OptionDecl}
    {chars : List Char} (h : List.Forall₂ (Sole registry) (os ++ [last]) chars)
    (hf : ∀ o ∈ os, o.takesValue = false) (hw : Token.IsWord (String.ofList ('-' :: chars)))
    (hv : last.takesValue = true → Token.IsWord (Pattern.placeholder last.name)) :
    ReadsAtom registry (String.ofList ('-' :: chars) :: Pattern.valuePieces last)
      ((os ++ [last]).map fun o => .leaf (.option o)) := by
  rw [← Pattern.map_leaf_option]
  refine readsAtom_word _ (Token.kind_of_isWord hw) fun token tail rest ht hs => ?_
  obtain ⟨c, cs, rfl⟩ : ∃ c cs, chars = c :: cs := by
    cases os <;> obtain ⟨c, cs, -, -, rfl⟩ := List.forall₂_cons_left_iff.mp h <;> exact ⟨c, cs, rfl⟩
  obtain ⟨o, os', hc, -, -⟩ := List.forall₂_cons_right_iff.mp h
  have hchars := readsChars_of_sole h hf hv rest hs
  exact .cluster (by simp [ht]) (Pattern.ne_dash_of_shortNamed hc.1) hchars

theorem readsAtom_group {registry : Registry} {opener closer : String} {texts : List String}
    {inside : List Pattern} (hc : Token.closerOf? opener = some closer)
    (h : ∀ tokens rest, Spelled tokens texts → Closed rest → behind? .pipe rest = none →
      Reads .expression (tokens ++ rest) registry ⟨rest, registry, inside⟩) :
    ReadsAtom registry (opener :: texts ++ [closer]) [enclosed opener inside] := by
  intro tokens rest hs
  obtain ⟨front, back, rfl, hfront, hback⟩ := hs.append
  obtain ⟨t, ts, rfl, ht, htk, hts⟩ := hfront.cons
  obtain ⟨next, rfl, hn, hnk⟩ := hback.singleton
  obtain ⟨hok, hck⟩ := kind_of_closerOf? hc
  have hclosed : Closed (next :: rest) :=
    ⟨by simp [beginsAtom, hnk, hck], by simp [behind?, hnk, hck]⟩
  have hinside := h ts (next :: rest) hts hclosed (by simp [behind?, hnk, hck])
  have hgroup := Reads.group (htk.trans hok) (ht ▸ hc) hinside hn
  simpa [ht] using hgroup

section Groups

variable {registry : Registry} {cs : List Pattern} (h : ∀ c ∈ cs, ReadsItem registry c.pieces c)
include h

theorem reads_expression {tokens rest : List Token}
    (hs : Spelled tokens (cs.flatMap Pattern.pieces)) (hr : Closed rest)
    (hp : behind? .pipe rest = none) :
    Reads .expression (tokens ++ rest) registry ⟨rest, registry, cs⟩ :=
  .single (reads_sequence h hs hr).1 hp

theorem readsAtom_required (ht : ∀ c ∈ cs, c.HasText) (hn : cs.length ≠ 1) :
    ReadsAtom registry (Pattern.branch .required cs).pieces [.branch .required cs] := by
  have hg : enclosed "(" cs = .branch .required cs := by
    match cs, hn with
    | [], _ => rfl
    | _ :: _ :: _, _ => rfl
  rw [Pattern.pieces_required ht, ← hg]
  exact readsAtom_group (by decide) fun tokens rest hs hr hp => reads_expression h hs hr hp

theorem readsAtom_optional (ht : ∀ c ∈ cs, c.HasText) :
    ReadsAtom registry (Pattern.branch .optional cs).pieces [.branch .optional cs] := by
  have hg : enclosed "[" cs = .branch .optional cs := rfl
  rw [Pattern.pieces_optional ht, ← hg]
  exact readsAtom_group (by decide) fun tokens rest hs hr hp => reads_expression h hs hr hp

theorem readsAtom_either (ht : ∀ c ∈ cs, c.HasText) (hn : 2 ≤ cs.length) :
    ReadsAtom registry (Pattern.branch .either cs).pieces [.branch .either cs] := by
  match cs, hn with
  | c :: d :: ds, _ =>
    have hg : enclosed "(" (alternation (branchOf [c] ++ d :: ds)) =
        .branch .either (c :: d :: ds) := rfl
    rw [Pattern.pieces_either ht, ← hg]
    refine readsAtom_group (by decide) fun tokens rest hs hr hp => ?_
    obtain ⟨ts, ts', rfl, hts, hts'⟩ := hs.append
    obtain ⟨hbr, hcl⟩ := reads_branches (fun e he => h e (by simp [he])) hts' hr hp
    have hone : Spelled ts ([c].flatMap Pattern.pieces) := by simpa using hts
    have hitem : ∀ e ∈ [c], ReadsItem registry e.pieces e := by simpa using h c (by simp)
    obtain ⟨hseq, -⟩ := reads_sequence hitem hone hcl
    obtain ⟨t, us, rfl, -, hk, -⟩ := hts'.cons
    have hpipe : t.kind = .pipe := hk.trans (by decide)
    rw [List.append_assoc]
    exact .several hseq (by simp [behind?, hpipe]) hbr

end Groups

/-- The tree has a text, and the reader finds the tree in it; without a repetition at the root it is
an atom, which may be repeated. -/
structure ReadBack (registry : Registry) (p : Pattern) : Prop where
  hasText : p.HasText
  item : ReadsItem registry p.pieces p
  atom : ¬ p.IsRepetition → ReadsAtom registry p.pieces [p]

theorem ReadBack.of_atom {registry : Registry} {p : Pattern} (ht : p.HasText)
    (h : ReadsAtom registry p.pieces [p]) : ReadBack registry p := ⟨ht, h.item, fun _ => h⟩

theorem ReadBack.of_word {registry : Registry} {l : Leaf} {s : String} (hw : Token.IsWord s)
    (hi : (Pattern.leaf l).inner = .ok (some s))
    (h : ∀ token rest, token.text = s →
      ReadsWord token rest registry ⟨rest, registry, [l]⟩) :
    ReadBack registry (.leaf l) := by
  obtain ⟨ht, hs⟩ := Pattern.text_of_inner hi
  refine .of_atom ht ?_
  rw [Pattern.pieces, hs, Token.pieces_of_isWord hw]
  refine readsAtom_word [l] (Token.kind_of_isWord hw) fun token tail rest htoken hs => ?_
  rw [hs.nil]
  exact h token rest htoken

theorem ReadBack.of_option {registry : Registry} {o : OptionDecl} (hw : Token.IsWord o.name)
    (h : ∀ token tail rest, token.text = o.name → Spelled tail (Pattern.valuePieces o) →
      ReadsWord token (tail ++ rest) registry ⟨rest, registry, [.option o]⟩) :
    ReadBack registry (.leaf (.option o)) := by
  refine .of_atom (Pattern.text_of_inner rfl).1 ?_
  rw [Pattern.pieces_option, Token.pieces_of_isWord hw]
  exact readsAtom_word [.option o] (Token.kind_of_isWord hw) h

theorem readBack_of_wordLeaf (registry : Registry) {l : Leaf} (h : WordLeaf l) :
    ReadBack registry (.leaf l) := by
  cases h with
  | @argument name hw hd ha =>
    refine .of_word hw rfl fun token rest ht => ?_
    have ho : name ≠ "options" := by rintro rfl; exact absurd ha (by decide)
    have hn : ∀ c cs, name.toList ≠ '-' :: c :: cs := by
      intro c cs hs
      simp [Text.startsWith, hs] at hd
    have hshape := WordShape.of_other ho hn
    rw [if_pos ha] at hshape
    have harg : ReadsWord token rest registry _ := .argument (ht ▸ hshape)
    rwa [ht] at harg
  | @command name hw ho ha hd =>
    refine .of_word hw rfl fun token rest ht => ?_
    have hshape : WordShape.of name = .command := by
      by_cases hdash : Text.startsWith name "-" = true
      · rcases hd hdash with rfl | rfl <;> decide
      · have hn : ∀ c cs, name.toList ≠ '-' :: c :: cs := by
          intro c cs hs
          simp [Text.startsWith, hs] at hdash
        rw [WordShape.of_other ho hn, ha]
        rfl
    have hcmd : ReadsWord token rest registry _ :=
      .command (ht ▸ hshape) (ht ▸ (Token.isWord_iff.mp hw).1)
    rwa [ht] at hcmd
  | anyOptions => exact .of_word (by decide +kernel) rfl fun token rest ht => .anyOptions ht

theorem readBack_of_leaf {registry : Registry} {l : Leaf} (h : LeafItem registry l) :
    ReadBack registry (.leaf l) := by
  cases h with
  | word h => exact readBack_of_wordLeaf registry h
  | @long o name hl hw he hu =>
    have hname : o.name = name := by simp [OptionDecl.name, hl]
    have hv := Pattern.isWord_placeholder (Token.isWord_iff.mp hw).2
    refine .of_option (hname ▸ hw) fun token tail rest ht hs => ?_
    have hlong := readsLong_of_name he hu (fun _ => hname ▸ hv) rest (ht.trans hname) hs
    have hn : isLongName token.text = true := by
      rw [ht, hname]
      exact OptionDecl.isLongName_of_long hl
    exact .long hn hlong
  | @short o c hl hshort hw hu =>
    have hname : o.name = OptionDecl.shortOf c := by
      simp [OptionDecl.name, hl, show o.short = _ from hshort]
    have hv := Pattern.isWord_placeholder (Token.isWord_iff.mp hw).2
    refine .of_option (hname ▸ hw) fun token tail rest ht hs => ?_
    have hsole : List.Forall₂ (Sole registry) ([] ++ [o]) [c] := .cons ⟨hshort, hu⟩ .nil
    have hchars := readsChars_of_sole hsole (by simp) (fun _ => hname ▸ hv) rest hs
    have hd := Pattern.ne_dash_of_shortNamed hshort
    exact .cluster (by simp [ht, hname, OptionDecl.shortOf]) hd hchars

theorem readBack_of_item {registry : Registry} {p : Pattern} (h : Item registry p) :
    ReadBack registry p := by
  induction h with
  | leaf hl => exact readBack_of_leaf hl
  | required hn h ih =>
    have ht := fun c hc => (ih c hc).hasText
    exact .of_atom ⟨_, Pattern.inner_required ht⟩
      (readsAtom_required (fun c hc => (ih c hc).item) ht hn)
  | optional h ih =>
    have ht := fun c hc => (ih c hc).hasText
    exact .of_atom ⟨_, Pattern.inner_optional ht⟩
      (readsAtom_optional (fun c hc => (ih c hc).item) ht)
  | either hn h ih =>
    have ht := fun c hc => (ih c hc).hasText
    exact .of_atom ⟨_, Pattern.inner_either ht⟩
      (readsAtom_either (fun c hc => (ih c hc).item) ht hn)
  | repeated h hc ih =>
    refine ⟨⟨_, Pattern.inner_repeated ih.hasText⟩, ?_, fun hr => absurd ⟨_, rfl⟩ hr⟩
    rw [Pattern.pieces_repeated ih.hasText]
    exact (ih.atom hc).repeated
  | cluster hne h =>
    obtain ⟨chars, hsole, hf, hw, hv⟩ := h
    obtain ⟨ht, hpieces⟩ := Pattern.hasText_clustered hne (hsole.imp fun _ _ hs => hs.1) hf
    refine ⟨ht, ?_, fun hr => absurd ⟨_, rfl⟩ hr⟩
    rw [hpieces, Token.pieces_of_isWord hw]
    exact (readsAtom_cluster hsole hf hw hv).repeated

/-- Trees that are read back one by one are read back together. -/
theorem parse_of_readBack {registry : Registry} {items : List Pattern}
    (h : ∀ p ∈ items, ReadBack registry p) :
    ∃ text, (Pattern.branch .required items).render = .ok (some text) ∧
      parse text registry = .ok ⟨.branch .required items, registry⟩ := by
  refine ⟨_, Pattern.render_required fun p hp => (h p hp).hasText, ofTokens_of_reads ?_⟩
  have hs := spelled_scan (Text.join " " (items.map Pattern.text))
  rw [Pattern.pieces_join_text] at hs
  have hr := reads_expression (fun p hp => (h p hp).item) hs (⟨rfl, rfl⟩ : Closed []) rfl
  simpa using hr

/-- A sequence of canonical trees has a text, and parsing it over the same registry gives the sequence
and leaves the registry as it is. -/
theorem parse_render_of_items {registry : Registry} {items : List Pattern}
    (h : ∀ p ∈ items, Item registry p) :
    ∃ text, (Pattern.branch .required items).render = .ok (some text) ∧
      parse text registry = .ok ⟨.branch .required items, registry⟩ :=
  parse_of_readBack fun p hp => readBack_of_item (h p hp)

theorem parse_render_of_items_nested :
    let verbose : OptionDecl := ⟨some "-v", some "--verbose", .flag .int false, by decide⟩
    let out : OptionDecl := ⟨some "-o", some "--out", .valued .int .null, by decide⟩
    let items : List Pattern :=
      [.leaf (.command "go" (.bool false)),
        .branch .oneOrMore [.branch .optional [.branch .either
          [.leaf (.argument (some "<x>") .null), .leaf (.option out)]]],
        .clustered ([verbose] ++ [out])]
    ∃ text, (Pattern.branch .required items).render = .ok (some text) ∧
      parse text [verbose, out] = .ok ⟨.branch .required items, [verbose, out]⟩ := by
  intro verbose out items
  refine parse_render_of_items fun p hp => ?_
  have hout : LeafItem [verbose, out] (.option out) :=
    .long rfl (by decide +kernel) (by decide) (by simp [Registry.withLong, verbose, out])
  have hx : WordLeaf (.argument (some "<x>") .null) :=
    .argument (by decide +kernel) (by decide) (by decide)
  rcases List.mem_cons.mp hp with rfl | hp
  · exact .leaf (.word (.command (by decide +kernel) (by decide) (by decide) (by decide)))
  rcases List.mem_cons.mp hp with rfl | hp
  · refine .repeated (.optional ?_) (by simp [Pattern.IsRepetition])
    simpa using .either (by simp) (by simpa using ⟨.leaf (.word hx), .leaf hout⟩)
  · rw [List.mem_singleton.mp hp]
    have hflag : verbose.takesValue = false := rfl
    refine .cluster (by simp) ⟨['v', 'o'], ?_, by simp [hflag], by decide +kernel,
      fun _ => by decide +kernel⟩
    refine .cons ⟨rfl, ?_⟩ (.cons ⟨rfl, ?_⟩ .nil)
    · simp [Registry.withShort, verbose, out, OptionDecl.shortOf]
    · simp [Registry.withShort, verbose, out, OptionDecl.shortOf]

end Usage

end Synopsis
