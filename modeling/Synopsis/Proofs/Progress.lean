import Synopsis.Proofs.Modes
import Synopsis.Proofs.Pairing

/-!
How far the readers get. What they leave of a stream is behind what they read; atoms and options take
at least one token, sequences and expressions stop at a delimiter, and the brackets that an expression
goes over are in pairs. Since a reader calls another one, or goes into another round, only on fewer
tokens or for a smaller part of the grammar, every chain of calls and rounds is bounded by the length
of the stream.
-/
namespace Synopsis

namespace Token

/-- What may be left of a stream: the tokens of some texts, each of the kind that its text has, or all
of them words. -/
def Remains (tokens : List Token) : Prop :=
  ∃ texts, tokens <:+ number TokenKind.of texts ∨ tokens <:+ ofWords texts

theorem remains_scan (source : String) : Remains (scan source) ∧ Remains (scanPlain source) :=
  ⟨⟨_, .inl (List.suffix_refl _)⟩, ⟨_, .inr (List.suffix_refl _)⟩⟩

theorem Remains.suffix {tokens rest : List Token} (h : Remains tokens) (hs : rest <:+ tokens) :
    Remains rest := by
  obtain ⟨texts, h | h⟩ := h
  · exact ⟨texts, .inl (hs.trans h)⟩
  · exact ⟨texts, .inr (hs.trans h)⟩

theorem kind_of_remains {tokens : List Token} (h : Remains tokens) :
    ∀ t ∈ tokens, t.kind = .word ∨ t.kind = TokenKind.of t.text := by
  intro t ht
  obtain ⟨texts, h | h⟩ := h
  · obtain ⟨⟨text, i⟩, -, rfl⟩ := List.mem_map.mp (h.subset ht)
    exact .inr rfl
  · exact .inl (kind_of_mem_ofWords (h.subset ht))

end Token

namespace Registry

variable {mode : Mode} {token : Token} {rest : List Token} {registry : Registry}
  {r : Reading OptionDecl}

theorem ReadsLong.found_ne_nil (h : ReadsLong mode token rest registry r) : r.found ≠ [] := by
  cases h <;> exact List.cons_ne_nil _ _

theorem ReadsChars.found_ne_nil {c : Char} {cs : List Char}
    (h : ReadsChars mode rest registry (c :: cs) r) : r.found ≠ [] := by
  cases h <;> exact List.cons_ne_nil _ _

end Registry

namespace Usage

variable {part : Part} {token : Token} {tokens rest : List Token} {registry : Registry}
  {r : Reading Pattern}

theorem ReadsWord.found_ne_nil {r : Reading Leaf} (h : ReadsWord token rest registry r) :
    r.found ≠ [] := by
  cases h with
  | anyOptions | argument | command => exact List.cons_ne_nil _ _
  | long hs hr => simpa [Reading.map] using hr.found_ne_nil
  | cluster hs hc hr => simpa [Reading.map] using hr.found_ne_nil

theorem found_ne_nil_of_reads (h : Reads .atom tokens registry r) : r.found ≠ [] := by
  cases h with
  | word hk hr => simpa [Reading.map] using (readWord_eq_ok_iff.mp hr).found_ne_nil
  | group => exact List.cons_ne_nil _ _

/-- A reader at work: a part of the grammar that is to be read off a stream. -/
structure Call where
  part : Part
  tokens : List Token
  registry : Registry

namespace Call

/-- The readers that a reader calls, and its next round: a sequence goes on behind each atom, and the
branches behind each sequence. -/
inductive Leads : Call → Call → Prop where
  | inside {opener : Token} {rest : List Token} {registry : Registry}
      (hk : opener.kind = .opener) :
      Leads ⟨.atom, opener :: rest, registry⟩ ⟨.expression, rest, registry⟩
  | atom {tokens : List Token} {registry : Registry} (hb : beginsAtom tokens = true) :
      Leads ⟨.sequence, tokens, registry⟩ ⟨.atom, tokens, registry⟩
  | again {tokens : List Token} {registry : Registry} {a : Reading Pattern}
      (ha : Reads .atom tokens registry a) :
      Leads ⟨.sequence, tokens, registry⟩
        ⟨.sequence, (repeated a).rest, (repeated a).registry⟩
  | branch {tokens rest : List Token} {registry : Registry}
      (hp : behind? .pipe tokens = some rest) :
      Leads ⟨.branches, tokens, registry⟩ ⟨.sequence, rest, registry⟩
  | later {tokens rest : List Token} {registry : Registry} {s : Reading Pattern}
      (hp : behind? .pipe tokens = some rest) (hs : Reads .sequence rest registry s) :
      Leads ⟨.branches, tokens, registry⟩ ⟨.branches, s.rest, s.registry⟩
  | first {tokens : List Token} {registry : Registry} :
      Leads ⟨.expression, tokens, registry⟩ ⟨.sequence, tokens, registry⟩
  | several {tokens : List Token} {registry : Registry} {s : Reading Pattern}
      (hs : Reads .sequence tokens registry s) (hp : behind? .pipe s.rest ≠ none) :
      Leads ⟨.expression, tokens, registry⟩ ⟨.branches, s.rest, s.registry⟩

/-- Fewer tokens come first, then the smaller part. -/
def rank (c : Call) : Nat :=
  3 * c.tokens.length + match c.part with
    | .atom | .branches => 0
    | .sequence => 1
    | .expression => 2

theorem rank_le (c : Call) : c.rank ≤ 3 * c.tokens.length + 2 := by
  unfold rank
  split <;> omega

theorem rank_lt_of_leads {c d : Call} (h : Leads c d) : d.rank < c.rank := by
  cases h with
  | inside hk => simp only [rank, List.length_cons]; omega
  | atom | first => simp only [rank]; omega
  | again ha =>
    have hlt := Nat.lt_of_le_of_lt (repeated_suffix _).length_le (readAtom_length (read_of_reads ha))
    simp only [rank]
    omega
  | branch hp =>
    have hlt := length_of_behind? hp
    simp only [rank]
    omega
  | later hp hs =>
    have hlt := length_of_behind? hp
    have hle := (suffix_of_reads hs).length_le
    simp only [rank]
    omega
  | several hs hp =>
    have hle := (suffix_of_reads hs).length_le
    simp only [rank]
    omega

/-- There are no longer chains of calls and rounds than the rank allows. -/
theorem length_le_rank {c : Call} {calls : List Call} (h : List.IsChain Leads (c :: calls)) :
    calls.length ≤ c.rank := by
  induction calls generalizing c with
  | nil => exact Nat.zero_le _
  | cons d calls ih =>
    obtain ⟨hfirst, hrest⟩ := List.isChain_cons_cons.mp h
    have hlt := rank_lt_of_leads hfirst
    have hle := ih hrest
    rw [List.length_cons]
    omega

/-- The reader has an answer, with a derivation of finitely many steps behind it. -/
def Answered (c : Call) : Prop :=
  (∃ r, Reads c.part c.tokens c.registry r) ∨ ∃ f, Fails c.part c.tokens c.registry f

/-- A reader waits for nothing but the readers that it calls and its next round. -/
theorem answered_of_leads {c : Call} (h : ∀ d, Leads c d → d.Answered) : c.Answered := by
  obtain ⟨part, tokens, registry⟩ := c
  cases part with
  | atom =>
    cases tokens with
    | nil => exact .inr ⟨_, .empty⟩
    | cons token rest =>
      cases hk : token.kind with
      | word =>
        cases hr : readWord token rest registry with
        | ok r => exact .inl ⟨_, .word hk hr⟩
        | error f => exact .inr ⟨_, .word hk hr⟩
      | opener =>
        cases hc : Token.closerOf? token.text with
        | none => exact .inr ⟨_, .unknown hk hc⟩
        | some closer =>
          rcases h _ (.inside hk) with ⟨⟨left, registry', found⟩, he⟩ | ⟨f, he⟩
          · by_cases hn : ∀ next ∈ left.head?, next.text ≠ closer
            · exact .inr ⟨_, .unclosed hk hc he hn⟩
            · push Not at hn
              obtain ⟨next, hnext, htext⟩ := hn
              obtain ⟨after, rfl⟩ := List.head?_eq_some_iff.mp hnext
              exact .inl ⟨_, .group hk hc he htext⟩
          · exact .inr ⟨_, .inside hk hc he⟩
      | closer | pipe | ellipsis => exact .inr ⟨_, .misplaced (by simp [beginsAtom, hk])⟩
  | sequence =>
    cases hb : beginsAtom tokens with
    | false => exact .inl ⟨_, .stop hb⟩
    | true =>
      rcases h _ (.atom hb) with ⟨a, ha⟩ | ⟨f, ha⟩
      · rcases h _ (.again ha) with ⟨s, hs⟩ | ⟨f, hs⟩
        · exact .inl ⟨_, .more ha hs⟩
        · exact .inr ⟨_, .more ha hs⟩
      · exact .inr ⟨_, .first hb ha⟩
  | branches =>
    cases hp : behind? .pipe tokens with
    | none => exact .inl ⟨_, .last hp⟩
    | some rest =>
      rcases h _ (.branch hp) with ⟨s, hs⟩ | ⟨f, hs⟩
      · rcases h _ (.later hp hs) with ⟨b, hb⟩ | ⟨f, hb⟩
        · exact .inl ⟨_, .branch hp hs hb⟩
        · exact .inr ⟨_, .later hp hs hb⟩
      · exact .inr ⟨_, .branch hp hs⟩
  | expression =>
    rcases h _ .first with ⟨s, hs⟩ | ⟨f, hs⟩
    · by_cases hp : behind? .pipe s.rest = none
      · exact .inl ⟨_, .single hs hp⟩
      · rcases h _ (.several hs hp) with ⟨b, hb⟩ | ⟨f, hb⟩
        · exact .inl ⟨_, .several hs hp hb⟩
        · exact .inr ⟨_, .several hs hp hb⟩
    · exact .inr ⟨_, .single hs⟩

theorem answered (c : Call) : c.Answered :=
  answered_of_leads fun d hd =>
    have := rank_lt_of_leads hd
    answered d
termination_by c.rank

end Call

/-- What every reader makes of a stream. Options and atoms take at least one token of it and an atom
is at least one pattern; a sequence stops at a delimiter other than an opener, an expression not even
at a pipe, and the brackets that it goes over are in pairs. Each part is read or fails, and no chain
of calls and rounds is longer than the stream allows. -/
structure Progress (tokens : List Token) (registry : Registry) : Prop where
  option : ∀ mode r, Request.long mode tokens registry = .ok r ∨
    Request.cluster mode tokens registry = .ok r →
      r.rest <:+ tokens ∧ r.rest.length < tokens.length
  atom : ∀ r, readAtom tokens registry = .ok r →
    r.rest <:+ tokens ∧ r.rest.length < tokens.length ∧ r.found ≠ []
  sequence : ∀ r, readSequence tokens registry = .ok r → r.rest <:+ tokens ∧
    ∀ t ∈ r.rest.head?, t.kind = .closer ∨ t.kind = .pipe ∨ t.kind = .ellipsis
  expression : ∀ r, readExpression tokens registry = .ok r →
    (∃ used, tokens = used ++ r.rest ∧ Token.Paired used) ∧
      ∀ t ∈ r.rest.head?, t.kind = .closer ∨ t.kind = .ellipsis
  ends : ∀ part, (⟨part, tokens, registry⟩ : Call).Answered ∧
    ∀ calls, List.IsChain Call.Leads (⟨part, tokens, registry⟩ :: calls) →
      calls.length ≤ 3 * tokens.length + 2

theorem kind_of_not_beginsAtom (h : beginsAtom tokens = false) :
    ∀ t ∈ tokens.head?, t.kind = .closer ∨ t.kind = .pipe ∨ t.kind = .ellipsis := by
  cases tokens with
  | nil => simp
  | cons t rest =>
    rintro t ⟨⟩
    cases hk : t.kind <;> simp_all [beginsAtom]

theorem proper_of_rest_cases {left : List Token}
    (h : left = rest ∨ ∃ next, rest = next :: left ∧ next.kind = .word) :
    left <:+ token :: rest ∧ left.length < (token :: rest).length := by
  have hsuffix : left <:+ rest := by
    rcases h with rfl | ⟨next, rfl, -⟩
    · exact List.suffix_refl _
    · exact List.suffix_cons next left
  exact ⟨hsuffix.trans (List.suffix_cons token rest), Nat.lt_succ_of_le hsuffix.length_le⟩

theorem proper_of_option {mode : Mode} {r : Reading OptionDecl}
    (h : Request.long mode tokens registry = .ok r ∨
      Request.cluster mode tokens registry = .ok r) :
    r.rest <:+ tokens ∧ r.rest.length < tokens.length := by
  cases tokens with
  | nil => rcases h with h | h <;> cases h
  | cons token rest =>
    rcases h with h | h
    · exact proper_of_rest_cases (Registry.readLong_eq_ok_iff.mp h).rest_cases
    · have hcluster : registry.readCluster mode token rest = .ok r := h
      rcases Registry.readCluster_cases token rest registry with ⟨cs, hcs⟩ | hnot
      · rw [hcs] at hcluster
        exact proper_of_rest_cases (Registry.readChars_eq_ok_iff.mp hcluster).rest_cases
      · rw [hnot] at hcluster
        cases hcluster

/-- Every reader gets on in what is left of a stream of tokens, and comes to an end. -/
theorem progress_of_remains (h : Token.Remains tokens) (registry : Registry) :
    Progress tokens registry where
  option mode r hr := proper_of_option hr
  atom r hr := by
    have hreads : Reads .atom tokens registry r := reads_iff.mpr hr
    exact ⟨suffix_of_reads hreads, readAtom_length hr, found_ne_nil_of_reads hreads⟩
  sequence r hr := by
    have hreads : Reads .sequence tokens registry r := reads_iff.mpr hr
    exact ⟨suffix_of_reads hreads, kind_of_not_beginsAtom (stops_of_reads hreads)⟩
  expression r hr := by
    have hreads : Reads .expression tokens registry r := reads_iff.mpr hr
    obtain ⟨hpipe, hatom⟩ := stops_of_reads hreads
    refine ⟨spans_of_reads hreads (Token.kind_of_remains h), fun t ht => ?_⟩
    rcases kind_of_not_beginsAtom hatom t ht with hk | hk | hk
    · exact .inl hk
    · obtain ⟨behind, hb⟩ := List.head?_eq_some_iff.mp ht
      simp [hb, behind?, hk] at hpipe
    · exact .inr hk
  ends part :=
    ⟨Call.answered _, fun _ hcalls => (Call.length_le_rank hcalls).trans (Call.rank_le _)⟩

theorem progress_of_remains_nested :
    let inside : List Token := [⟨.word, "-vo", 2⟩, ⟨.word, "FILE", 3⟩, ⟨.pipe, "|", 4⟩,
      ⟨.opener, "[", 5⟩, ⟨.word, "x", 6⟩, ⟨.closer, "]", 7⟩, ⟨.closer, ")", 8⟩,
      ⟨.ellipsis, "...", 9⟩, ⟨.closer, "]", 10⟩]
    let stream : List Token := ⟨.opener, "(", 1⟩ :: inside
    let registry : Registry := [⟨some "-o", none, .valued .int .null, by decide⟩]
    Token.Remains stream ∧ Token.Remains inside ∧
      (∃ r, Request.cluster .usage inside registry = .ok r ∧ r.rest.length = 7 ∧
        r.rest <:+ inside) ∧
      (∃ r, readSequence inside registry = .ok r ∧ r.rest.length = 7 ∧
        ∀ t ∈ r.rest.head?, t.kind = .closer ∨ t.kind = .pipe ∨ t.kind = .ellipsis) ∧
      (∃ r, readAtom stream registry = .ok r ∧ r.rest.length = 2 ∧ r.found ≠ []) ∧
      ∃ r used, readExpression stream registry = .ok r ∧ r.rest.length = 1 ∧
        stream = used ++ r.rest ∧ Token.Paired used := by
  intro inside stream registry
  have hscan : Token.scan "(-vo FILE | [x])... ]" = stream := by decide +kernel
  have hstream : Token.Remains stream := hscan ▸ (Token.remains_scan _).1
  have hinside : Token.Remains inside := hstream.suffix (List.suffix_cons _ inside)
  obtain ⟨r, hr, hrlen⟩ := exists_ok_of_any (show
    (Request.cluster .usage inside registry).toOption.any (·.rest.length == 7) = true by
      decide +kernel)
  obtain ⟨s, hs, hslen⟩ := exists_ok_of_any (show
    (readSequence inside registry).toOption.any (·.rest.length == 7) = true by decide +kernel)
  obtain ⟨a, ha, halen⟩ := exists_ok_of_any (show
    (readAtom stream registry).toOption.any (·.rest.length == 2) = true by decide +kernel)
  obtain ⟨e, he, helen⟩ := exists_ok_of_any (show
    (readExpression stream registry).toOption.any (·.rest.length == 1) = true by decide +kernel)
  have hall := progress_of_remains hstream registry
  have hpart := progress_of_remains hinside registry
  obtain ⟨⟨used, hused, hpaired⟩, -⟩ := hall.expression e he
  exact ⟨hstream, hinside, ⟨r, hr, beq_iff_eq.mp hrlen, (hpart.option .usage r (.inr hr)).1⟩,
    ⟨s, hs, beq_iff_eq.mp hslen, (hpart.sequence s hs).2⟩,
    ⟨a, ha, beq_iff_eq.mp halen, (hall.atom a ha).2.2⟩,
    e, used, he, beq_iff_eq.mp helen, hused, hpaired⟩

end Usage

end Synopsis
