import Synopsis.Proofs.Lookup

/-!
Derivations of the usage grammar. `Reads` has one rule for each production and `Fails` one for each
way in which a production breaks off; a reader answers exactly what has a derivation.
-/
namespace Synopsis.Usage

/-- The parts of the grammar; the branches are what follows the first sequence of an expression. -/
inductive Part where
  | atom | sequence | branches | expression
  deriving DecidableEq, Repr

def readBranches (tokens : List Token) (registry : Registry) : Except Failure (Reading Pattern) :=
  (branches tokens registry).map (·.val)

def read : Part → List Token → Registry → Except Failure (Reading Pattern)
  | .atom => readAtom
  | .sequence => readSequence
  | .branches => readBranches
  | .expression => readExpression

theorem readAtom_length {tokens : List Token} {registry : Registry} {r : Reading Pattern}
    (h : readAtom tokens registry = .ok r) : r.rest.length < tokens.length := by
  unfold readAtom at h
  cases ha : atom tokens registry with
  | error e => simp [ha, Except.map] at h
  | ok a =>
    simp only [ha, Except.map, Except.ok.injEq] at h
    exact h ▸ a.property

theorem readSequence_length {tokens : List Token} {registry : Registry} {r : Reading Pattern}
    (h : readSequence tokens registry = .ok r) : r.rest.length ≤ tokens.length := by
  unfold readSequence at h
  cases hs : sequence tokens registry with
  | error e => simp [hs, Except.map] at h
  | ok s =>
    simp only [hs, Except.map, Except.ok.injEq] at h
    exact h ▸ s.property

theorem readAtom_nil (registry : Registry) :
    readAtom [] registry = .error (.misuse .emptyStream) := by
  rw [readAtom, atom]; rfl

theorem readAtom_misplaced {token : Token} {rest : List Token} (registry : Registry)
    (h : beginsAtom (token :: rest) = false) :
    readAtom (token :: rest) registry = .error (.misuse (.notAtomStart token.text)) := by
  rw [readAtom, atom]
  cases hk : token.kind <;> simp_all [beginsAtom, Except.map]

theorem readAtom_unknown {token : Token} (rest : List Token) (registry : Registry)
    (h : token.kind = .opener) (hc : Token.closerOf? token.text = none) :
    readAtom (token :: rest) registry = .error (.misuse (.unknownOpener token.text)) := by
  rw [readAtom, atom]
  simp [h, hc, Except.map]

theorem readAtom_word {token : Token} (rest : List Token) (registry : Registry)
    (h : token.kind = .word) :
    readAtom (token :: rest) registry =
      (readWord token rest registry).map (·.map Pattern.leaf) := by
  unfold readAtom
  rw [atom]
  simp only [h]
  split <;> rename_i hr <;> simp [hr, Except.map]

theorem readAtom_opener {token : Token} {closer : String} (rest : List Token)
    (registry : Registry) (h : token.kind = .opener)
    (hc : Token.closerOf? token.text = some closer) :
    readAtom (token :: rest) registry =
      match readExpression rest registry with
      | .error e => .error e
      | .ok ⟨[], _, _⟩ => .error (.complaint (.missingEnclosure token closer))
      | .ok ⟨next :: after, registry', inside⟩ =>
        if next.text = closer then .ok ⟨after, registry', [enclosed token.text inside]⟩
        else .error (.complaint (.missingEnclosure token closer)) := by
  unfold readAtom readExpression
  rw [atom]
  simp only [h, hc]
  cases he : expression rest registry with
  | error e => simp [Except.map]
  | ok r =>
    obtain ⟨⟨tokens, registry', inside⟩, hl⟩ := r
    cases tokens with
    | nil => simp [Except.map]
    | cons next after =>
      by_cases hn : next.text = closer <;> simp [Except.map, hn]

theorem readSequence_eq (tokens : List Token) (registry : Registry) :
    readSequence tokens registry =
      if beginsAtom tokens then
        match readAtom tokens registry with
        | .error e => .error e
        | .ok a =>
          match readSequence (repeated a).rest (repeated a).registry with
          | .error e => .error e
          | .ok s => .ok { s with found := (repeated a).found ++ s.found }
      else .ok ⟨tokens, registry, []⟩ := by
  rw [readSequence, sequence]
  by_cases hb : beginsAtom tokens = true
  · simp only [hb, if_true]
    unfold readAtom
    cases ha : atom tokens registry with
    | error e => simp [Except.map]
    | ok a =>
      simp only [Except.map]
      unfold readSequence
      cases hs : sequence (repeated a.val).rest (repeated a.val).registry with
      | error e => simp [Except.map]
      | ok s => simp [Except.map]
  · simp [hb, Except.map]

theorem readBranches_eq (tokens : List Token) (registry : Registry) :
    readBranches tokens registry =
      match behind? .pipe tokens with
      | none => .ok ⟨tokens, registry, []⟩
      | some rest =>
        match readSequence rest registry with
        | .error e => .error e
        | .ok s =>
          match readBranches s.rest s.registry with
          | .error e => .error e
          | .ok b => .ok { b with found := branchOf s.found ++ b.found } := by
  rw [readBranches, branches]
  split
  · rename_i hp
    simp [hp, Except.map]
  · rename_i rest hp
    simp only [hp]
    unfold readSequence
    cases hs : sequence rest registry with
    | error e => simp [Except.map]
    | ok s =>
      simp only [Except.map]
      unfold readBranches
      cases hb : branches s.val.rest s.val.registry with
      | error e => simp [Except.map]
      | ok b => simp [Except.map]

theorem readExpression_eq (tokens : List Token) (registry : Registry) :
    readExpression tokens registry =
      match readSequence tokens registry with
      | .error e => .error e
      | .ok s =>
        if behind? .pipe s.rest = none then .ok s
        else
          match readBranches s.rest s.registry with
          | .error e => .error e
          | .ok b => .ok { b with found := alternation (branchOf s.found ++ b.found) } := by
  unfold readExpression
  rw [expression]
  unfold readSequence
  cases hs : sequence tokens registry with
  | error e => simp [Except.map]
  | ok s =>
    simp only [Except.map, Option.isNone_iff_eq_none]
    by_cases hp : behind? .pipe s.val.rest = none
    · simp [hp]
    · simp only [hp, if_false]
      unfold readBranches
      cases hb : branches s.val.rest s.val.registry with
      | error e => simp [Except.map]
      | ok b => simp [Except.map]

/-- The part is read off the front of the tokens and leaves the reading. -/
inductive Reads : Part → List Token → Registry → Reading Pattern → Prop where
  | word {token : Token} {rest : List Token} {registry : Registry} {r : Reading Leaf}
      (hk : token.kind = .word) (hr : readWord token rest registry = .ok r) :
      Reads .atom (token :: rest) registry (r.map Pattern.leaf)
  | group {opener next : Token} {closer : String} {rest after : List Token}
      {registry registry' : Registry} {inside : List Pattern}
      (hk : opener.kind = .opener) (hc : Token.closerOf? opener.text = some closer)
      (he : Reads .expression rest registry ⟨next :: after, registry', inside⟩)
      (hn : next.text = closer) :
      Reads .atom (opener :: rest) registry ⟨after, registry', [enclosed opener.text inside]⟩
  | stop {tokens : List Token} {registry : Registry} (hb : beginsAtom tokens = false) :
      Reads .sequence tokens registry ⟨tokens, registry, []⟩
  | more {tokens : List Token} {registry : Registry} {a s : Reading Pattern}
      (ha : Reads .atom tokens registry a)
      (hs : Reads .sequence (repeated a).rest (repeated a).registry s) :
      Reads .sequence tokens registry ⟨s.rest, s.registry, (repeated a).found ++ s.found⟩
  | last {tokens : List Token} {registry : Registry} (hp : behind? .pipe tokens = none) :
      Reads .branches tokens registry ⟨tokens, registry, []⟩
  | branch {tokens rest : List Token} {registry : Registry} {s b : Reading Pattern}
      (hp : behind? .pipe tokens = some rest) (hs : Reads .sequence rest registry s)
      (hb : Reads .branches s.rest s.registry b) :
      Reads .branches tokens registry ⟨b.rest, b.registry, branchOf s.found ++ b.found⟩
  | single {tokens : List Token} {registry : Registry} {s : Reading Pattern}
      (hs : Reads .sequence tokens registry s) (hp : behind? .pipe s.rest = none) :
      Reads .expression tokens registry s
  | several {tokens : List Token} {registry : Registry} {s b : Reading Pattern}
      (hs : Reads .sequence tokens registry s) (hp : behind? .pipe s.rest ≠ none)
      (hb : Reads .branches s.rest s.registry b) :
      Reads .expression tokens registry
        ⟨b.rest, b.registry, alternation (branchOf s.found ++ b.found)⟩

/-- The reading of the part breaks off with the failure. The first three rules are for streams that
begin with no atom, where no other reader looks for one. -/
inductive Fails : Part → List Token → Registry → Failure → Prop where
  | empty {registry : Registry} : Fails .atom [] registry (.misuse .emptyStream)
  | unknown {opener : Token} {rest : List Token} {registry : Registry}
      (hk : opener.kind = .opener) (hc : Token.closerOf? opener.text = none) :
      Fails .atom (opener :: rest) registry (.misuse (.unknownOpener opener.text))
  | misplaced {token : Token} {rest : List Token} {registry : Registry}
      (hb : beginsAtom (token :: rest) = false) :
      Fails .atom (token :: rest) registry (.misuse (.notAtomStart token.text))
  | word {token : Token} {rest : List Token} {registry : Registry} {f : Failure}
      (hk : token.kind = .word) (hr : readWord token rest registry = .error f) :
      Fails .atom (token :: rest) registry f
  | inside {opener : Token} {closer : String} {rest : List Token} {registry : Registry}
      {f : Failure} (hk : opener.kind = .opener)
      (hc : Token.closerOf? opener.text = some closer)
      (he : Fails .expression rest registry f) : Fails .atom (opener :: rest) registry f
  | unclosed {opener : Token} {closer : String} {rest : List Token} {registry : Registry}
      {r : Reading Pattern} (hk : opener.kind = .opener)
      (hc : Token.closerOf? opener.text = some closer)
      (he : Reads .expression rest registry r) (hn : ∀ next ∈ r.rest.head?, next.text ≠ closer) :
      Fails .atom (opener :: rest) registry (.complaint (.missingEnclosure opener closer))
  | first {tokens : List Token} {registry : Registry} {f : Failure}
      (hb : beginsAtom tokens = true) (ha : Fails .atom tokens registry f) :
      Fails .sequence tokens registry f
  | more {tokens : List Token} {registry : Registry} {a : Reading Pattern} {f : Failure}
      (ha : Reads .atom tokens registry a)
      (hs : Fails .sequence (repeated a).rest (repeated a).registry f) :
      Fails .sequence tokens registry f
  | branch {tokens rest : List Token} {registry : Registry} {f : Failure}
      (hp : behind? .pipe tokens = some rest) (hs : Fails .sequence rest registry f) :
      Fails .branches tokens registry f
  | later {tokens rest : List Token} {registry : Registry} {s : Reading Pattern} {f : Failure}
      (hp : behind? .pipe tokens = some rest) (hs : Reads .sequence rest registry s)
      (hb : Fails .branches s.rest s.registry f) : Fails .branches tokens registry f
  | single {tokens : List Token} {registry : Registry} {f : Failure}
      (hs : Fails .sequence tokens registry f) : Fails .expression tokens registry f
  | several {tokens : List Token} {registry : Registry} {s : Reading Pattern} {f : Failure}
      (hs : Reads .sequence tokens registry s) (hp : behind? .pipe s.rest ≠ none)
      (hb : Fails .branches s.rest s.registry f) : Fails .expression tokens registry f

/-- An answer with a derivation behind it. -/
def Derived (part : Part) (tokens : List Token) (registry : Registry) :
    Except Failure (Reading Pattern) → Prop
  | .ok r => Reads part tokens registry r
  | .error f => Fails part tokens registry f

mutual
theorem derived_atom (tokens : List Token) (registry : Registry) :
    Derived .atom tokens registry (readAtom tokens registry) := by
  match tokens with
  | [] => rw [readAtom_nil]; exact .empty
  | token :: rest =>
    cases hk : token.kind with
    | word =>
      rw [readAtom_word rest registry hk]
      cases hr : readWord token rest registry with
      | error f => exact .word hk hr
      | ok r => exact .word hk hr
    | opener =>
      cases hc : Token.closerOf? token.text with
      | none => rw [readAtom_unknown rest registry hk hc]; exact .unknown hk hc
      | some closer =>
        rw [readAtom_opener rest registry hk hc]
        have he := derived_expression rest registry
        cases hr : readExpression rest registry with
        | error f => exact .inside hk hc (by rwa [hr] at he)
        | ok r =>
          rw [hr] at he
          obtain ⟨tokens, registry', inside⟩ := r
          cases tokens with
          | nil => exact .unclosed hk hc he (by simp)
          | cons next after =>
            by_cases hn : next.text = closer
            · simp only [hn, if_true]
              exact .group hk hc he hn
            · simp only [hn, if_false]
              exact .unclosed hk hc he (by simpa using hn)
    | closer | pipe | ellipsis =>
      have hb : beginsAtom (token :: rest) = false := by simp [beginsAtom, hk]
      rw [readAtom_misplaced registry hb]
      exact .misplaced hb
termination_by 3 * tokens.length

theorem derived_sequence (tokens : List Token) (registry : Registry) :
    Derived .sequence tokens registry (readSequence tokens registry) := by
  rw [readSequence_eq]
  cases hb : beginsAtom tokens with
  | false => exact .stop hb
  | true =>
    have ha := derived_atom tokens registry
    cases hr : readAtom tokens registry with
    | error f => exact .first hb (by rwa [hr] at ha)
    | ok a =>
      rw [hr] at ha
      have hlt := Nat.lt_of_le_of_lt (repeated_length a) (readAtom_length hr)
      have hs := derived_sequence (repeated a).rest (repeated a).registry
      simp only [if_true]
      cases hq : readSequence (repeated a).rest (repeated a).registry with
      | error f => exact .more ha (by rwa [hq] at hs)
      | ok s => exact .more ha (by rwa [hq] at hs)
termination_by 3 * tokens.length + 1

theorem derived_branches (tokens : List Token) (registry : Registry) :
    Derived .branches tokens registry (readBranches tokens registry) := by
  rw [readBranches_eq]
  cases hp : behind? .pipe tokens with
  | none => exact .last hp
  | some rest =>
    dsimp only
    have hlt := length_of_behind? hp
    have hs := derived_sequence rest registry
    cases hq : readSequence rest registry with
    | error f => exact .branch hp (by rwa [hq] at hs)
    | ok s =>
      rw [hq] at hs
      dsimp only
      have hle := readSequence_length hq
      have hb := derived_branches s.rest s.registry
      cases hr : readBranches s.rest s.registry with
      | error f => exact .later hp hs (by rwa [hr] at hb)
      | ok b => exact .branch hp hs (by rwa [hr] at hb)
termination_by 3 * tokens.length

theorem derived_expression (tokens : List Token) (registry : Registry) :
    Derived .expression tokens registry (readExpression tokens registry) := by
  rw [readExpression_eq]
  have hs := derived_sequence tokens registry
  cases hq : readSequence tokens registry with
  | error f => exact .single (by rwa [hq] at hs)
  | ok s =>
    rw [hq] at hs
    by_cases hp : behind? .pipe s.rest = none
    · simp only [hp, if_true]
      exact .single hs hp
    · simp only [hp, if_false]
      have hle := readSequence_length hq
      have hb := derived_branches s.rest s.registry
      cases hr : readBranches s.rest s.registry with
      | error f => exact .several hs hp (by rwa [hr] at hb)
      | ok b => exact .several hs hp (by rwa [hr] at hb)
termination_by 3 * tokens.length + 2
end

theorem derived (part : Part) (tokens : List Token) (registry : Registry) :
    Derived part tokens registry (read part tokens registry) := by
  cases part with
  | atom => exact derived_atom tokens registry
  | sequence => exact derived_sequence tokens registry
  | branches => exact derived_branches tokens registry
  | expression => exact derived_expression tokens registry

theorem beginsAtom_of_reads {tokens : List Token} {registry : Registry} {a : Reading Pattern}
    (h : Reads .atom tokens registry a) : beginsAtom tokens = true := by
  cases h with
  | word hk => simp [beginsAtom, hk]
  | group hk => simp [beginsAtom, hk]

/-- What has a derivation is what the reader answers. -/
theorem read_of_reads {part : Part} {tokens : List Token} {registry : Registry}
    {r : Reading Pattern} (h : Reads part tokens registry r) :
    read part tokens registry = .ok r := by
  induction h with
  | word hk hr =>
    show readAtom _ _ = _
    rw [readAtom_word _ _ hk, hr]; rfl
  | group hk hc he hn ih =>
    show readAtom _ _ = _
    rw [readAtom_opener _ _ hk hc, show readExpression _ _ = _ from ih]
    simp [hn]
  | stop hb =>
    show readSequence _ _ = _
    rw [readSequence_eq]
    simp [hb]
  | more ha hs iha ihs =>
    show readSequence _ _ = _
    rw [readSequence_eq, beginsAtom_of_reads ha, show readAtom _ _ = _ from iha]
    simp [show readSequence _ _ = _ from ihs]
  | last hp =>
    show readBranches _ _ = _
    rw [readBranches_eq, hp]
  | branch hp hs hb ihs ihb =>
    show readBranches _ _ = _
    rw [readBranches_eq, hp]
    simp [show readSequence _ _ = _ from ihs, show readBranches _ _ = _ from ihb]
  | single hs hp ihs =>
    show readExpression _ _ = _
    rw [readExpression_eq, show readSequence _ _ = _ from ihs]
    simp [hp]
  | several hs hp hb ihs ihb =>
    show readExpression _ _ = _
    rw [readExpression_eq, show readSequence _ _ = _ from ihs]
    simp [hp, show readBranches _ _ = _ from ihb]

theorem reads_iff {part : Part} {tokens : List Token} {registry : Registry}
    {r : Reading Pattern} :
    Reads part tokens registry r ↔ read part tokens registry = .ok r := by
  refine ⟨read_of_reads, fun h => ?_⟩
  have hd := derived part tokens registry
  rwa [h] at hd

theorem fails_of_read {part : Part} {tokens : List Token} {registry : Registry} {f : Failure}
    (h : read part tokens registry = .error f) : Fails part tokens registry f := by
  have hd := derived part tokens registry
  rwa [h] at hd

/-- What has no reading is what the reader refuses. -/
theorem read_of_fails {part : Part} {tokens : List Token} {registry : Registry} {f : Failure}
    (h : Fails part tokens registry f) : read part tokens registry = .error f := by
  induction h with
  | empty => exact readAtom_nil _
  | unknown hk hc => exact readAtom_unknown _ _ hk hc
  | misplaced hb => exact readAtom_misplaced _ hb
  | word hk hr =>
    show readAtom _ _ = _
    rw [readAtom_word _ _ hk, hr]; rfl
  | inside hk hc he ih =>
    show readAtom _ _ = _
    rw [readAtom_opener _ _ hk hc, show readExpression _ _ = _ from ih]
  | @unclosed opener closer rest registry r hk hc he hn =>
    show readAtom _ _ = _
    rw [readAtom_opener _ _ hk hc, show readExpression _ _ = _ from read_of_reads he]
    obtain ⟨left, registry', inside⟩ := r
    cases left with
    | nil => rfl
    | cons next after => simp [hn next (by simp)]
  | first hb ha ih =>
    show readSequence _ _ = _
    rw [readSequence_eq, hb, show readAtom _ _ = _ from ih]
    rfl
  | more ha hs ih =>
    show readSequence _ _ = _
    rw [readSequence_eq, beginsAtom_of_reads ha, show readAtom _ _ = _ from read_of_reads ha]
    simp [show readSequence _ _ = _ from ih]
  | branch hp hs ih =>
    show readBranches _ _ = _
    rw [readBranches_eq, hp]
    simp [show readSequence _ _ = _ from ih]
  | later hp hs hb ih =>
    show readBranches _ _ = _
    rw [readBranches_eq, hp]
    simp [show readSequence _ _ = _ from read_of_reads hs, show readBranches _ _ = _ from ih]
  | single hs ih =>
    show readExpression _ _ = _
    rw [readExpression_eq, show readSequence _ _ = _ from ih]
  | several hs hp hb ih =>
    show readExpression _ _ = _
    rw [readExpression_eq, show readSequence _ _ = _ from read_of_reads hs]
    simp [hp, show readBranches _ _ = _ from ih]

theorem kind_of_closerOf? {opener closer : String} (h : Token.closerOf? opener = some closer) :
    TokenKind.of opener = .opener ∧ TokenKind.of closer = .closer := by
  unfold Token.closerOf? at h
  split at h
  next ho =>
    cases h
    exact ⟨ho ▸ by decide, by decide⟩
  next =>
    split at h
    next ho =>
      cases h
      exact ⟨ho ▸ by decide, by decide⟩
    next => simp at h

/-- What is in front where a part ends: no atom behind a sequence or an expression, no pipe behind
the branches or an expression. -/
def Stops : Part → List Token → List Token → Prop
  | .atom, _, _ => True
  | .sequence, _, rest => beginsAtom rest = false
  | .branches, tokens, rest =>
    behind? .pipe rest = none ∧ (beginsAtom tokens = false → beginsAtom rest = false)
  | .expression, _, rest => behind? .pipe rest = none ∧ beginsAtom rest = false

theorem stops_of_reads {part : Part} {tokens : List Token} {registry : Registry}
    {r : Reading Pattern} (h : Reads part tokens registry r) : Stops part tokens r.rest := by
  induction h with
  | word | group => trivial
  | stop hb => exact hb
  | more ha hs iha ihs => exact ihs
  | last hp => exact ⟨hp, id⟩
  | branch hp hs hb ihs ihb => exact ⟨ihb.1, fun _ => ihb.2 ihs⟩
  | single hs hp ihs => exact ⟨hp, ihs⟩
  | several hs hp hb ihs ihb => exact ⟨ihb.1, ihb.2 ihs⟩

theorem suffix_of_behind? {kind : TokenKind} {tokens rest : List Token}
    (h : behind? kind tokens = some rest) :
    ∃ t, tokens = t :: rest ∧ t.kind = kind := by
  cases tokens with
  | nil => simp [behind?] at h
  | cons t ts =>
    simp only [behind?] at h
    split at h
    next hk =>
      simp only [Option.some.injEq] at h
      exact ⟨t, by rw [h], hk⟩
    next => simp at h

theorem repeated_suffix (a : Reading Pattern) : (repeated a).rest <:+ a.rest := by
  unfold repeated
  split
  next rest h =>
    obtain ⟨t, ht, -⟩ := suffix_of_behind? h
    exact ht ▸ List.suffix_cons t rest
  next => exact List.suffix_refl _

theorem registry_repeated (a : Reading Pattern) : (repeated a).registry = a.registry := by
  unfold repeated
  split <;> rfl

theorem repeated_over (a : Reading Pattern) (registry : Registry) :
    repeated { a with registry := registry } = { repeated a with registry := registry } := by
  unfold repeated
  dsimp only
  split <;> rfl

theorem suffix_of_reads {part : Part} {tokens : List Token} {registry : Registry}
    {r : Reading Pattern} (h : Reads part tokens registry r) : r.rest <:+ tokens := by
  induction h with
  | word hk hr =>
    rcases (readWord_eq_ok_iff.mp hr).rest_cases with h | ⟨next, h, -⟩
    · exact h ▸ List.suffix_cons _ _
    · rw [h]
      exact (List.suffix_cons next _).trans (List.suffix_cons _ _)
  | group hk hc he hn ih =>
    exact ((List.suffix_cons _ _).trans ih).trans (List.suffix_cons _ _)
  | stop | last => exact List.suffix_refl _
  | more ha hs iha ihs => exact ihs.trans ((repeated_suffix _).trans iha)
  | branch hp hs hb ihs ihb =>
    obtain ⟨t, rfl, -⟩ := suffix_of_behind? hp
    exact (ihb.trans ihs).trans (List.suffix_cons t _)
  | single hs hp ihs => exact ihs
  | several hs hp hb ihs ihb => exact ihb.trans ihs

/-- A whole stream is read when its expression leaves nothing. -/
theorem reads_of_ofTokens {tokens : List Token} {registry : Registry} {p : Parsed}
    (h : ofTokens tokens registry = .ok p) :
    ∃ found, Reads .expression tokens registry ⟨[], p.registry, found⟩ ∧
      p.pattern = .branch .required found := by
  unfold ofTokens at h
  cases hr : readExpression tokens registry with
  | error f => simp [hr] at h
  | ok r =>
    obtain ⟨rest, registry', found⟩ := r
    cases rest with
    | nil =>
      simp only [hr, Except.ok.injEq] at h
      subst h
      exact ⟨found, reads_iff.mpr hr, rfl⟩
    | cons first rest => simp [hr] at h

theorem ofTokens_of_reads {tokens : List Token} {registry registry' : Registry}
    {found : List Pattern} (h : Reads .expression tokens registry ⟨[], registry', found⟩) :
    ofTokens tokens registry = .ok ⟨.branch .required found, registry'⟩ := by
  have hr : readExpression tokens registry = _ := read_of_reads h
  simp [ofTokens, hr]

/-- A stream is refused where its expression is, or for what the expression leaves. -/
theorem fails_of_ofTokens {tokens : List Token} {registry : Registry} {f : Failure}
    (h : ofTokens tokens registry = .error f) :
    Fails .expression tokens registry f ∨
      ∃ first rest registry' found,
        Reads .expression tokens registry ⟨first :: rest, registry', found⟩ ∧
          f = .complaint (.unconsumed first rest) := by
  unfold ofTokens at h
  cases hr : readExpression tokens registry with
  | error e =>
    simp only [hr, Except.error.injEq] at h
    exact .inl (fails_of_read (h ▸ hr))
  | ok r =>
    obtain ⟨rest, registry', found⟩ := r
    cases rest with
    | nil => simp [hr] at h
    | cons first rest =>
      simp only [hr, Except.error.injEq] at h
      exact .inr ⟨first, rest, registry', found, reads_iff.mpr hr, h.symm⟩

theorem ofTokens_of_fails {tokens : List Token} {registry : Registry} {f : Failure}
    (h : Fails .expression tokens registry f) : ofTokens tokens registry = .error f := by
  have hr : readExpression tokens registry = _ := read_of_fails h
  simp [ofTokens, hr]

theorem ofTokens_of_leftover {tokens rest : List Token} {first : Token}
    {registry registry' : Registry} {found : List Pattern}
    (h : Reads .expression tokens registry ⟨first :: rest, registry', found⟩) :
    ofTokens tokens registry = .error (.complaint (.unconsumed first rest)) := by
  have hr : readExpression tokens registry = _ := read_of_reads h
  simp [ofTokens, hr]

theorem exists_ok_of_any {ε α : Type} {result : Except ε α} {check : α → Bool}
    (h : result.toOption.any check = true) : ∃ p, result = .ok p ∧ check p = true := by
  cases result with
  | error f => simp [Except.toOption] at h
  | ok p => exact ⟨p, rfl, by simpa [Except.toOption] using h⟩

/-- The answer is a failure that passes a check. -/
def failsAs {ε α : Type} (check : ε → Bool) : Except ε α → Bool
  | .error f => check f
  | .ok _ => false

theorem exists_error_of_failsAs {ε α : Type} {result : Except ε α} {check : ε → Bool}
    (h : failsAs check result = true) : ∃ f, result = .error f ∧ check f = true := by
  cases result with
  | error f => exact ⟨f, rfl, h⟩
  | ok p => cases h

end Synopsis.Usage
