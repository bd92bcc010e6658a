import Mathlib.Data.List.Infix
import Synopsis.Proofs.Lines
import Synopsis.Proofs.Pairing

/-!
The brackets of usage lines. The lines of a section are read together, each in parentheses of its own,
and the brackets of a line can pair off with the parentheses around it. Where the section is read, its
lines are read one by one exactly when no line closes a bracket that it has not opened.
-/
namespace Synopsis

namespace Token

/-- A bracket that opens leads one step in, one that closes one step out. -/
def level (t : Token) : Int :=
  match t.kind with
  | .opener => 1
  | .closer => -1
  | _ => 0

/-- How many more brackets open than close. -/
def depth : List Token → Int
  | [] => 0
  | t :: rest => t.level + depth rest

@[simp] theorem depth_nil : depth [] = 0 := rfl

@[simp] theorem depth_cons (t : Token) (rest : List Token) :
    depth (t :: rest) = t.level + depth rest := rfl

@[simp] theorem depth_append (front back : List Token) :
    depth (front ++ back) = depth front + depth back := by
  induction front with
  | nil => simp
  | cons t rest ih =>
    rw [List.cons_append, depth_cons, depth_cons, ih]
    omega

@[simp] theorem depth_moved (n : Nat) (tokens : List Token) :
    depth (tokens.map (moved n)) = depth tokens := by
  induction tokens with
  | nil => rfl
  | cons t rest ih =>
    rw [List.map_cons, depth_cons, depth_cons, ih]
    rfl

theorem level_opener {t : Token} (h : t.kind = .opener) : t.level = 1 := by simp [level, h]

theorem level_closer {t : Token} (h : t.kind = .closer) : t.level = -1 := by simp [level, h]

theorem level_inside {t : Token} (ho : t.kind ≠ .opener) (hc : t.kind ≠ .closer) :
    t.level = 0 := by
  unfold level
  split
  · contradiction
  · contradiction
  · rfl

theorem depth_number_append (front back : List String) :
    depth (number TokenKind.of (front ++ back)) =
      depth (number TokenKind.of front) + depth (number TokenKind.of back) := by
  rw [number_append, depth_append, depth_moved]

theorem Paired.depth_eq {tokens : List Token} (h : Paired tokens) : depth tokens = 0 := by
  induction h with
  | nil => rfl
  | other ho hc h ih => rw [depth_cons, level_inside ho hc, ih, Int.zero_add]
  | pair ho hc hm hi h ihi ih =>
    rw [depth_cons, depth_append, depth_cons, level_opener ho, level_closer hc, ihi, ih]
    rfl

/-- Every closer of the stream closes an opener of the stream: wherever it is cut, the front has not
closed more than it has opened. -/
def ClosesOwn (tokens : List Token) : Prop := ∀ front, front <+: tokens → 0 ≤ depth front

instance (tokens : List Token) : Decidable (ClosesOwn tokens) :=
  decidable_of_iff (∀ front ∈ tokens.inits, 0 ≤ depth front) (by simp [ClosesOwn, List.mem_inits])

theorem ClosesOwn.depth_nonneg {tokens : List Token} (h : ClosesOwn tokens) : 0 ≤ depth tokens :=
  h tokens (List.prefix_refl tokens)

end Token

namespace Usage

open Token (depth ClosesOwn)

theorem depth_of_spans {tokens rest : List Token} (h : Token.Spans tokens rest) :
    depth tokens = depth rest := by
  obtain ⟨used, rfl, hp⟩ := h
  rw [Token.depth_append, hp.depth_eq, Int.zero_add]

theorem depth_behind? {kind : TokenKind} {tokens rest : List Token}
    (h : behind? kind tokens = some rest) (ho : kind ≠ .opener) (hc : kind ≠ .closer) :
    depth tokens = depth rest :=
  depth_of_spans (spans_of_behind? h ho hc)

theorem depth_repeated (a : Reading Pattern) : depth (repeated a).rest = depth a.rest :=
  (depth_of_spans (spans_repeated a)).symm

/-- What is read closes all that it opens, and nothing else. -/
theorem depth_of_reads {part : Part} {tokens : List Token} {registry : Registry}
    {r : Reading Pattern} (h : Reads part tokens registry r)
    (hk : ∀ t ∈ tokens, t.kind = TokenKind.of t.text) : depth tokens = depth r.rest :=
  depth_of_spans (spans_of_reads h fun t ht => .inr (hk t ht))

/-- Up to the token where it is stuck, a pass goes out of no more brackets than it is in. -/
theorem Pass.depth_of_run {tokens : List Token} {s : Pass} (h : (s.run tokens).2 = [])
    {front : List Token} (hf : front <+: tokens) : 0 ≤ s.stack.length + depth front := by
  induction tokens generalizing s front with
  | nil =>
    rw [List.prefix_nil.mp hf]
    simp
  | cons t rest ih =>
    rcases List.prefix_cons_iff.mp hf with rfl | ⟨after, rfl, hafter⟩
    · simp
    · cases hstep : s.step t with
      | none =>
        rw [Pass.run_stuck rest hstep] at h
        cases h
      | some next =>
        rw [Pass.run_cons rest hstep] at h
        have hrest := ih h hafter
        have hgo : (next.stack.length : Int) = s.stack.length + t.level := by
          unfold Pass.step at hstep
          unfold Token.level
          cases hk : t.kind with
          | word | pipe =>
            simp only [hk, Option.some.injEq] at hstep
            simp [← hstep]
          | opener =>
            simp only [hk, Option.some.injEq] at hstep
            simp [← hstep]
          | ellipsis =>
            simp only [hk, Option.ite_none_right_eq_some, Option.some.injEq] at hstep
            simp [← hstep.2]
          | closer =>
            simp only [hk] at hstep
            cases hs : s.stack with
            | nil => simp [hs] at hstep
            | cons opener outer =>
              simp only [hs, Option.ite_none_right_eq_some, Option.some.injEq] at hstep
              have houter : next.stack = outer := by rw [← hstep.2]
              rw [houter]
              show (outer.length : Int) = (outer.length + 1 : Nat) + -1
              omega
        rw [Token.depth_cons]
        omega

theorem closesOwn_of_parse {usage : String} {registry : Registry} {p : Parsed}
    (h : parse usage registry = .ok p) : ClosesOwn (Token.scan usage) := by
  obtain ⟨found, hr, -⟩ := reads_of_ofTokens h
  have hk : ∀ t ∈ Token.scan usage, t.kind = TokenKind.of t.text :=
    fun t ht => (Token.scanned_of_mem_scan ht).kind_eq
  obtain ⟨again, hrun, -⟩ := crosses_of_reads hr hk [] false (ready_false _)
  intro front hf
  have hend : ((⟨[], false⟩ : Pass).run (Token.scan usage)).2 = [] := by rw [hrun]; rfl
  have hdepth := Pass.depth_of_run hend hf
  simpa using hdepth

section Fences

variable {mode : Mode} {token : Token} {tokens rest tail : List Token} {registry : Registry}

theorem nextWord?_before (hf : Fenced tail) (n : Nat) (h : nextWord? rest = none) :
    nextWord? (rest.map (Token.moved n) ++ tail) = none := by
  cases rest with
  | cons t rest =>
    have ht : t.isWord = false := by simpa [nextWord?] using h
    have hmoved : (t.moved n).isWord = false := ht
    simp [nextWord?, hmoved]
  | nil =>
    cases tail with
    | nil => rfl
    | cons t tail =>
      have ht : t.kind = .closer := hf
      simp [nextWord?, Token.isWord, ht]

theorem RefusesLong.before {x : Complaint}
    (h : Registry.RefusesLong mode token rest registry x) (n : Nat) (hf : Fenced tail) :
    Registry.RefusesLong mode (token.moved n) (rest.map (Token.moved n) ++ tail) registry
      (x.onToken (Token.moved n)) := by
  cases h with
  | unsplittable ha => exact .unsplittable ha
  | undeclarable ha hc ho => exact .undeclarable ha hc ho
  | unexpected ha hc ht hv => exact .unexpected ha hc ht hv
  | missing ha hc ht hv hr => exact .missing ha hc ht hv (nextWord?_before hf n hr)
  | ambiguous ha hc => exact .ambiguous ha hc

theorem RefusesChars.before {cs : List Char} {x : Complaint}
    (h : Registry.RefusesChars mode token rest registry cs x) (n : Nat) (hf : Fenced tail) :
    Registry.RefusesChars mode (token.moved n) (rest.map (Token.moved n) ++ tail) registry cs
      (x.onToken (Token.moved n)) := by
  induction h with
  | dash => exact .dash
  | fresh hc hs hx ih => exact .fresh hc hs ih
  | flag hc hs ht hx ih => exact .flag hc hs ht ih
  | missing hc hs ht hr => exact .missing hc hs ht (nextWord?_before hf n hr)
  | repeated hc hs => exact .repeated hc hs

theorem RefusesWord.before {f : Failure} (h : RefusesWord token rest registry f) (n : Nat)
    (hf : Fenced tail) :
    ∃ g, RefusesWord (token.moved n) (rest.map (Token.moved n) ++ tail) registry g := by
  cases h with
  | empty hs => exact ⟨_, .empty hs⟩
  | long hs hx =>
    refine ⟨_, .long ?_ (RefusesLong.before hx n hf)⟩
    exact hs
  | cluster hs hc hx =>
    refine ⟨_, .cluster ?_ hc (RefusesChars.before hx n hf)⟩
    exact hs

/-- What breaks off breaks off in front of a closer as well, unless it ends inside a bracket, which the
closer may then close. -/
theorem Fails.before {part : Part} {f : Failure} (h : Fails part tokens registry f) (n : Nat)
    (hf : Fenced tail) (hk : ∀ t ∈ tokens, t.kind = TokenKind.of t.text) :
    (∃ g, Fails part (tokens.map (Token.moved n) ++ tail) registry g) ∨ 0 < depth tokens := by
  induction h with
  | empty =>
    cases tail with
    | nil => exact .inl ⟨_, .empty⟩
    | cons t tail =>
      have ht : t.kind = .closer := hf
      exact .inl ⟨_, .misplaced (by simp [beginsAtom, ht])⟩
  | unknown ho hc =>
    refine .inl ⟨_, .unknown ?_ hc⟩
    exact ho
  | misplaced hb =>
    refine .inl ⟨_, .misplaced ?_⟩
    exact hb
  | word hw hr =>
    obtain ⟨g, hg⟩ := (readWord_eq_error_iff.mp hr).before n hf
    refine .inl ⟨g, .word ?_ (readWord_eq_error_iff.mpr hg)⟩
    exact hw
  | @inside opener closer rest registry f ho hc he ih =>
    rcases ih fun t ht => hk t (by simp [ht]) with ⟨g, hg⟩ | hpos
    · refine .inl ⟨g, .inside ?_ hc hg⟩
      exact ho
    · right
      rw [Token.depth_cons, Token.level_opener ho]
      omega
  | @unclosed opener closer rest registry r ho hc he hn =>
    cases hr : r.rest with
    | nil =>
      right
      have hdepth := depth_of_reads he fun t ht => hk t (by simp [ht])
      rw [Token.depth_cons, Token.level_opener ho, hdepth, hr, Token.depth_nil]
      omega
    | cons next after =>
      refine .inl ⟨_, .unclosed ?_ hc (he.before n hf) ?_⟩
      · exact ho
      · intro first hfirst
        rw [Reading.before, hr, List.map_cons, List.cons_append, List.head?_cons,
          Option.mem_some_iff] at hfirst
        rw [← hfirst]
        exact hn next (by simp [hr])
  | first hb ha ih =>
    rcases ih hk with ⟨g, hg⟩ | hpos
    · exact .inl ⟨g, .first (by rwa [beginsAtom_before hf]) hg⟩
    · exact .inr hpos
  | @more tokens registry a f ha hs ih =>
    have hsub := (repeated_suffix a).trans (suffix_of_reads ha)
    rcases ih fun t ht => hk t (hsub.subset ht) with ⟨g, hg⟩ | hpos
    · exact .inl ⟨g, .more (ha.before n hf) (by rw [repeated_before hf]; exact hg)⟩
    · right
      rwa [depth_of_reads ha hk, ← depth_repeated]
  | @branch tokens rest registry f hp hs ih =>
    have hrest : ∀ t ∈ rest, t.kind = TokenKind.of t.text := by
      obtain ⟨t, rfl, -⟩ := suffix_of_behind? hp
      exact fun t ht => hk t (by simp [ht])
    rcases ih hrest with ⟨g, hg⟩ | hpos
    · exact .inl ⟨g, .branch (by rw [behind?_before (by decide) hf, hp]; rfl) hg⟩
    · right
      rwa [depth_behind? hp (by decide) (by decide)]
  | @later tokens rest registry s f hp hs hb ih =>
    have hrest : ∀ t ∈ rest, t.kind = TokenKind.of t.text := by
      obtain ⟨t, rfl, -⟩ := suffix_of_behind? hp
      exact fun t ht => hk t (by simp [ht])
    rcases ih fun t ht => hrest t ((suffix_of_reads hs).subset ht) with ⟨g, hg⟩ | hpos
    · exact .inl ⟨g, .later (by rw [behind?_before (by decide) hf, hp]; rfl) (hs.before n hf) hg⟩
    · right
      rwa [depth_behind? hp (by decide) (by decide), depth_of_reads hs hrest]
  | single hs ih =>
    rcases ih hk with ⟨g, hg⟩ | hpos
    · exact .inl ⟨g, .single hg⟩
    · exact .inr hpos
  | @several tokens registry s f hs hp hb ih =>
    rcases ih fun t ht => hk t ((suffix_of_reads hs).subset ht) with ⟨g, hg⟩ | hpos
    · refine .inl ⟨g, .several (hs.before n hf) ?_ hg⟩
      rw [Reading.before, behind?_before (by decide) hf]
      simpa using hp
    · right
      rwa [depth_of_reads hs hk]

end Fences

/-- A line that is refused alone, though its brackets pair off, is refused in parentheses as well. -/
theorem fails_parenthesized {body : String} {registry : Registry} {f : Failure}
    (h : parse body registry = .error f) (hown : ClosesOwn (Token.scan body))
    (hdepth : depth (Token.scan body) = 0) (n : Nat) {opener closer : Token}
    (rest : List Token) (ho : opener.kind = .opener) (hot : opener.text = "(")
    (hc : closer.kind = .closer) :
    ∃ g, Fails .atom (opener :: ((Token.scan body).map (Token.moved n) ++ closer :: rest))
      registry g := by
  have hk : ∀ t ∈ Token.scan body, t.kind = TokenKind.of t.text :=
    fun t ht => (Token.scanned_of_mem_scan ht).kind_eq
  have hcloser : Token.closerOf? opener.text = some ")" := by rw [hot]; rfl
  have hf : Fenced (closer :: rest) := hc
  rcases fails_of_ofTokens h with hfails | ⟨first, left, registry', found, hr, -⟩
  · rcases hfails.before n hf hk with ⟨g, hg⟩ | hpos
    · exact ⟨g, .inside ho hcloser hg⟩
    · omega
  · refine ⟨_, .unclosed ho hcloser (hr.before n hf) ?_⟩
    intro next hnext hparen
    rw [Reading.before, List.map_cons, List.cons_append, List.head?_cons,
      Option.mem_some_iff] at hnext
    obtain ⟨front, hfront⟩ := suffix_of_reads hr
    have hfirst : first.kind = .closer := by
      rw [hk first (by rw [← hfront]; simp), show first.text = ")" by rw [← hparen, ← hnext]; rfl]
      rfl
    have hbalance := depth_of_reads hr hk
    rw [← hfront] at hbalance hown
    have hcut := hown (front ++ [first]) ⟨left, by simp⟩
    rw [Token.depth_append] at hbalance hcut
    rw [Token.depth_cons, Token.level_closer hfirst, Token.depth_nil] at hcut
    omega

theorem Reads.unique {part : Part} {tokens : List Token} {registry : Registry}
    {r r' : Reading Pattern} (h : Reads part tokens registry r)
    (h' : Reads part tokens registry r') : r = r' :=
  Except.ok.inj ((read_of_reads h).symm.trans (read_of_reads h'))

theorem Reads.not_fails {part : Part} {tokens : List Token} {registry : Registry}
    {r : Reading Pattern} {f : Failure} (h : Reads part tokens registry r) :
    ¬ Fails part tokens registry f := by
  intro hf
  have hboth := (read_of_reads h).symm.trans (read_of_fails hf)
  cases hboth

theorem Reads.piped {tokens : List Token} {registry : Registry} {r : Reading Pattern}
    (h : Reads .expression tokens registry r) (pipe : Token) (hp : pipe.kind = .pipe) :
    ∃ found, Reads .branches (pipe :: tokens) registry ⟨r.rest, r.registry, found⟩ := by
  have hbehind : behind? .pipe (pipe :: tokens) = some tokens := by simp [behind?, hp]
  cases h with
  | single hs hlast => exact ⟨branchOf r.found ++ [], .branch hbehind hs (.last hlast)⟩
  | @several _ _ s b hs hmore hb => exact ⟨branchOf s.found ++ b.found, .branch hbehind hs hb⟩

theorem tokens_line (body : String) (bodies : List String) (n : Nat) :
    ∃ opener closer k m, opener.kind = .opener ∧ opener.text = "(" ∧ closer.kind = .closer ∧
      (Token.number TokenKind.of (lineTexts body ++ barred bodies)).map (Token.moved n) =
        opener :: ((Token.scan body).map (Token.moved k) ++
          closer :: (Token.number TokenKind.of (barred bodies)).map (Token.moved m)) := by
  have htexts : lineTexts body ++ barred bodies =
      "(" :: (Token.pieces body ++ ")" :: barred bodies) := by simp [lineTexts]
  rw [htexts, Token.number_cons, Token.number_append, Token.number_cons _ ")"]
  simp only [List.map_append, List.map_cons, Token.map_moved_moved]
  exact ⟨_, _, _, _, rfl, rfl, rfl, rfl⟩

theorem depth_barred_cons (body : String) (bodies : List String) :
    depth (Token.number TokenKind.of (barred (body :: bodies))) =
      depth (Token.scan body) + depth (Token.number TokenKind.of (barred bodies)) := by
  have hline : depth (Token.number TokenKind.of (lineTexts body)) = depth (Token.scan body) := by
    have hopen : (⟨TokenKind.of "(", "(", 1⟩ : Token).level = 1 := by decide
    have hclose : (⟨TokenKind.of ")", ")", 1⟩ : Token).level = -1 := by decide
    rw [lineTexts, List.cons_append, Token.number_cons, Token.depth_cons, Token.depth_moved,
      Token.depth_number_append, Token.number_cons, Token.depth_cons, hopen, hclose,
      ← Token.scan_eq_number]
    show 1 + (depth (Token.scan body) + (-1 + 0)) = depth (Token.scan body)
    omega
  have hpipe : (⟨TokenKind.of "|", "|", 1⟩ : Token).level = 0 := by decide
  rw [barred_cons, Token.number_cons, Token.depth_cons, Token.depth_moved,
    Token.depth_number_append, hpipe, hline, Int.zero_add]

/-- No line has more brackets to spare than all lines together, if none closes those of another. -/
theorem depth_le_barred {bodies : List String}
    (hown : ∀ body ∈ bodies, ClosesOwn (Token.scan body)) :
    0 ≤ depth (Token.number TokenKind.of (barred bodies)) ∧
      ∀ body ∈ bodies,
        depth (Token.scan body) ≤ depth (Token.number TokenKind.of (barred bodies)) := by
  induction bodies with
  | nil => exact ⟨Int.le_refl 0, by simp⟩
  | cons body bodies ih =>
    obtain ⟨hrest, hle⟩ := ih fun d hd => hown d (List.mem_cons_of_mem body hd)
    have hbody := (hown body List.mem_cons_self).depth_nonneg
    rw [depth_barred_cons]
    refine ⟨by omega, fun d hd => ?_⟩
    rcases List.mem_cons.mp hd with rfl | hd
    · omega
    · have hd := hle d hd
      omega

/-- Lines whose brackets pair off are read one by one where they are read together. -/
theorem parsesInTurn_of_reads {bodies : List String} {n : Nat} {registry : Registry}
    {r : Reading Pattern}
    (h : Reads .branches ((Token.number TokenKind.of (barred bodies)).map (Token.moved n)) registry
      r)
    (hown : ∀ body ∈ bodies, ClosesOwn (Token.scan body))
    (hdepth : ∀ body ∈ bodies, depth (Token.scan body) = 0) :
    ∃ lines, ParsesInTurn bodies registry lines r.registry := by
  induction bodies generalizing n registry r with
  | nil =>
    cases h with
    | last => exact ⟨[], .done⟩
    | branch hp => cases hp
  | cons body bodies ih =>
    rw [barred_cons, Token.number_cons, List.map_cons, Token.map_moved_moved] at h
    cases h with
    | last hp => cases hp
    | @branch _ rest _ s b hp hs hb =>
      have hrest : (Token.number TokenKind.of (lineTexts body ++ barred bodies)).map
          (Token.moved (1 + n)) = rest := Option.some.inj hp
      subst hrest
      cases hline : parse body registry with
      | error f =>
        obtain ⟨opener, closer, k, m, ho, hot, hc, htokens⟩ := tokens_line body bodies (1 + n)
        rw [htokens] at hs
        obtain ⟨g, hg⟩ := fails_parenthesized hline (hown body (by simp)) (hdepth body (by simp)) k
          _ ho hot hc
        exact absurd (Fails.first (by simp [beginsAtom, ho]) hg) hs.not_fails
      | ok p =>
        obtain ⟨pattern, middle⟩ := p
        obtain ⟨found', -, rfl⟩ := reads_of_ofTokens hline
        obtain ⟨m, hread⟩ := reads_line hline bodies
        have hs' := hs.unique (hread.moved (1 + n))
        subst hs'
        rw [Reading.moved, Token.map_moved_moved] at hb
        obtain ⟨lines, hlines⟩ := ih hb (fun d hd => hown d (by simp [hd]))
          fun d hd => hdepth d (by simp [hd])
        exact ⟨found' :: lines, .next hline hlines⟩

theorem parse_of_mem_of_parsesInTurn {bodies : List String} {registry registry' : Registry}
    {lines : List (List Pattern)} (h : ParsesInTurn bodies registry lines registry')
    {body : String} (hb : body ∈ bodies) : ∃ before p, parse body before = .ok p := by
  induction h with
  | done => cases hb
  | next hp hr ih =>
    rcases List.mem_cons.mp hb with rfl | hb
    · exact ⟨_, _, hp⟩
    · exact ih hb

/-- Where the lines of a section are read together, they are read one by one exactly when every closer
of a line closes an opener of that line. -/
theorem parsesInTurn_iff_closesOwn {usage prog text : String} {rest : List String}
    {registry : Registry} {p : Parsed} (hw : Text.words usage = prog :: rest)
    (ht : formal usage = .ok text) (hp : parse text registry = .ok p) :
    (∃ lines registry', ParsesInTurn ((rest.splitOn prog).map (Text.join " ")) registry lines
      registry') ↔
      ∀ body ∈ (rest.splitOn prog).map (Text.join " "), ClosesOwn (Token.scan body) := by
  obtain ⟨text', htext, hpieces⟩ := pieces_formal hw
  obtain rfl : text = text' := Except.ok.inj (ht.symm.trans htext)
  generalize (rest.splitOn prog).map (Text.join " ") = bodies at hpieces ⊢
  constructor
  · rintro ⟨lines, registry', hl⟩ body hb
    obtain ⟨before, q, hq⟩ := parse_of_mem_of_parsesInTurn hl hb
    exact closesOwn_of_parse hq
  · intro hown
    obtain ⟨found, hr, -⟩ := reads_of_ofTokens hp
    have hk : ∀ t ∈ Token.scan text, t.kind = TokenKind.of t.text :=
      fun t ht => (Token.scanned_of_mem_scan ht).kind_eq
    have htokens : Token.number TokenKind.of (barred bodies) =
        ⟨TokenKind.of "|", "|", 1⟩ :: (Token.scan text).map (Token.moved 1) := by
      rw [← hpieces, Token.number_cons, Token.scan_eq_number]
    have hsum : depth (Token.number TokenKind.of (barred bodies)) = 0 := by
      rw [htokens, Token.depth_cons, Token.depth_moved, depth_of_reads hr hk]
      rfl
    have hdepth : ∀ body ∈ bodies, depth (Token.scan body) = 0 := by
      intro body hb
      have hle := (depth_le_barred hown).2 body hb
      have hge := (hown body hb).depth_nonneg
      omega
    obtain ⟨found', hbranches⟩ := (hr.moved 1).piped ⟨TokenKind.of "|", "|", 1⟩ rfl
    rw [← htokens, ← Token.map_moved_zero (Token.number _ _)] at hbranches
    obtain ⟨lines, hlines⟩ := parsesInTurn_of_reads hbranches hown hdepth
    exact ⟨lines, _, hlines⟩

theorem parsesInTurn_two_lines :
    let usage := "nf ( a | -v ) ...\n  nf [ b ]"
    let words := ["(", "a", "|", "-v", ")", "...", "nf", "[", "b", "]"]
    let bodies := (words.splitOn "nf").map (Text.join " ")
    Text.words usage = "nf" :: words ∧ bodies = ["( a | -v ) ...", "[ b ]"] ∧
      (∃ text p, formal usage = .ok text ∧ parse text [] = .ok p) ∧
        (∀ body ∈ bodies, ClosesOwn (Token.scan body)) ∧
          ∃ lines registry', ParsesInTurn bodies [] lines registry' := by
  intro usage words bodies
  have hw : Text.words usage = "nf" :: words := by decide +kernel
  have hb : bodies = ["( a | -v ) ...", "[ b ]"] := by decide +kernel
  have hown : ∀ body ∈ bodies, ClosesOwn (Token.scan body) := by
    rw [hb]
    decide +kernel
  have ht : formal usage = .ok "( ( a | -v ) ... ) | ( [ b ] )" := by
    rw [formal, hw]
    rfl
  obtain ⟨p, hp, -⟩ := exists_ok_of_any (show
    (parse "( ( a | -v ) ... ) | ( [ b ] )" []).toOption.any
      (·.registry.length == 1) = true by decide +kernel)
  exact ⟨hw, hb, ⟨_, p, ht, hp⟩, hown, (parsesInTurn_iff_closesOwn hw ht hp).mpr hown⟩

/-- Two lines of which neither is read alone are read together: the parentheses that the one opens and
the other closes pair off with those around them. -/
theorem parse_formal_crossed_lines :
    let usage := "nf ( a\n  nf b )"
    let words := ["(", "a", "nf", "b", ")"]
    let bodies := (words.splitOn "nf").map (Text.join " ")
    Text.words usage = "nf" :: words ∧ bodies = ["( a", "b )"] ∧
      (∃ text p, formal usage = .ok text ∧ parse text [] = .ok p) ∧
        ¬ ∃ lines registry', ParsesInTurn bodies [] lines registry' := by
  intro usage words bodies
  have hw : Text.words usage = "nf" :: words := by decide +kernel
  have hb : bodies = ["( a", "b )"] := by decide +kernel
  have ht : formal usage = .ok "( ( a ) | ( b ) )" := by
    rw [formal, hw]
    rfl
  obtain ⟨p, hp, -⟩ := exists_ok_of_any (show
    (parse "( ( a ) | ( b ) )" []).toOption.any (·.registry.isEmpty) = true by decide +kernel)
  refine ⟨hw, hb, ⟨_, p, ht, hp⟩, ?_⟩
  rintro ⟨lines, registry', hl⟩
  rw [hb] at hl
  cases hl with
  | next hline hrest =>
    have hopen : (parse "( a" []).toBool = false := by decide +kernel
    simp [hline, Except.toBool] at hopen

end Usage

end Synopsis
