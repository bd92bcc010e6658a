import Synopsis.Proofs.Canonical
import Synopsis.Proofs.Placement
import Synopsis.Usage.Section

/-!
The lines of a usage section. Each is read in its own group as it is read alone: a part that has been
read is read in the same way further down a stream and in front of a closer, where all readers stop.
The registry goes from one line to the next.
-/
namespace Synopsis

/-- The reading with what it leaves further down the stream and in front of more. -/
def Reading.before {α : Type} (n : Nat) (tail : List Token) (r : Reading α) : Reading α :=
  { r with rest := r.rest.map (Token.moved n) ++ tail }

namespace Usage

section Fences

variable {tail : List Token} {registry : Registry}

/-- The stream ends, or a closer is in front. -/
def Fenced : List Token → Prop
  | [] => True
  | t :: _ => t.kind = .closer

theorem ReadsWord.moved {token : Token} {rest : List Token} {r : Reading Leaf}
    (h : ReadsWord token rest registry r) (n : Nat) :
    ReadsWord (token.moved n) (rest.map (Token.moved n)) registry (r.moved n) := by
  cases h with
  | anyOptions hs => exact .anyOptions hs
  | long hs hr =>
    refine .long ?_ (hr.moved n)
    exact hs
  | cluster hs hc hr =>
    refine .cluster ?_ hc (hr.moved n)
    exact hs
  | argument hs => exact .argument hs
  | command hs hne => exact .command hs hne

theorem ReadsWord.locally {token : Token} {rest : List Token} {r : Reading Leaf}
    (h : ReadsWord token rest registry r) :
    ∃ used, rest = used ++ r.rest ∧
      ∀ rest', ReadsWord token (used ++ rest') registry { r with rest := rest' } := by
  cases h with
  | anyOptions hs => exact ⟨[], rfl, fun _ => .anyOptions hs⟩
  | long hs hr =>
    obtain ⟨used, he, hl⟩ := hr.locally
    exact ⟨used, he, fun rest' => .long hs (hl rest')⟩
  | cluster hs hc hr =>
    obtain ⟨used, he, hl⟩ := hr.locally
    exact ⟨used, he, fun rest' => .cluster hs hc (hl rest')⟩
  | argument hs => exact ⟨[], rfl, fun _ => .argument hs⟩
  | command hs hne => exact ⟨[], rfl, fun _ => .command hs hne⟩

theorem ReadsWord.before {token : Token} {rest : List Token} {r : Reading Leaf}
    (h : ReadsWord token rest registry r) (n : Nat) (tail : List Token) :
    ReadsWord (token.moved n) (rest.map (Token.moved n) ++ tail) registry (r.before n tail) := by
  obtain ⟨used, he, hl⟩ := (h.moved n).locally
  rw [he, List.append_assoc]
  exact hl _

theorem beginsAtom_before (hf : Fenced tail) (n : Nat) (tokens : List Token) :
    beginsAtom (tokens.map (Token.moved n) ++ tail) = beginsAtom tokens := by
  cases tokens with
  | cons t tokens => rfl
  | nil =>
    cases tail with
    | nil => rfl
    | cons t tail =>
      have ht : t.kind = .closer := hf
      simp [beginsAtom, ht]

theorem behind?_before {kind : TokenKind} (hk : kind ≠ .closer) (hf : Fenced tail) (n : Nat)
    (tokens : List Token) :
    behind? kind (tokens.map (Token.moved n) ++ tail) =
      (behind? kind tokens).map fun rest => rest.map (Token.moved n) ++ tail := by
  cases tokens with
  | cons t tokens =>
    simp only [List.map_cons, List.cons_append, behind?, Token.moved_kind]
    split
    next hk => simp [hk]
    next hk => simp [hk]
  | nil =>
    cases tail with
    | nil => rfl
    | cons t tail =>
      have ht : t.kind ≠ kind := fun he => hk (he.symm.trans hf)
      simp [behind?, ht]

theorem repeated_before (hf : Fenced tail) (n : Nat) (a : Reading Pattern) :
    repeated (a.before n tail) = (repeated a).before n tail := by
  have hb : behind? .ellipsis (a.rest.map (Token.moved n) ++ tail) = _ :=
    behind?_before (by decide) hf n a.rest
  cases ha : behind? .ellipsis a.rest with
  | none => simp [repeated, Reading.before, hb, ha]
  | some rest => simp [repeated, Reading.before, hb, ha]

/-- No reader looks past a closer that it has not opened. -/
theorem Reads.before {part : Part} {tokens : List Token} {r : Reading Pattern}
    (h : Reads part tokens registry r) (n : Nat) (hf : Fenced tail) :
    Reads part (tokens.map (Token.moved n) ++ tail) registry (r.before n tail) := by
  induction h with
  | word hk hr =>
    have hword := (readWord_eq_ok_iff.mp hr).before n tail
    refine .word ?_ (readWord_eq_ok_iff.mpr hword)
    exact hk
  | group hk hc he hn ih => exact .group hk hc ih hn
  | @stop tokens registry hb => exact .stop (by rwa [beginsAtom_before hf])
  | @more tokens registry a s ha hs iha ihs =>
    have hmore := Reads.more iha (by rw [repeated_before hf]; exact ihs)
    rw [repeated_before hf] at hmore
    exact hmore
  | @last tokens registry hp =>
    exact .last (by rw [behind?_before (by decide) hf, hp]; rfl)
  | branch hp hs hb ihs ihb =>
    exact .branch (by rw [behind?_before (by decide) hf, hp]; rfl) ihs ihb
  | single hs hp ihs =>
    refine .single ihs ?_
    rw [Reading.before, behind?_before (by decide) hf, hp]
    rfl
  | several hs hp hb ihs ihb =>
    refine .several ihs ?_ ihb
    rw [Reading.before, behind?_before (by decide) hf]
    simpa using hp

end Fences

/-- The texts of a line in its group. -/
def lineTexts (body : String) : List String := "(" :: Token.pieces body ++ [")"]

def barred (bodies : List String) : List String := bodies.flatMap fun body => "|" :: lineTexts body

theorem barred_cons (body : String) (bodies : List String) :
    barred (body :: bodies) = "|" :: (lineTexts body ++ barred bodies) := rfl

/-- Between the words of the section, the name of the program closes one line and opens the next. -/
theorem barred_splitOn (prog : String) (rest : List String) :
    barred ((rest.splitOn prog).map (Text.join " ")) =
      "|" :: "(" :: (rest.flatMap fun w =>
        if w = prog then [")", "|", "("] else Token.pieces w) ++ [")"] := by
  have hline : ∀ ws, lineTexts (Text.join " " ws) = "(" :: ws.flatMap Token.pieces ++ [")"] :=
    fun ws => by rw [lineTexts, Token.pieces_join_space]
  simp only [barred, List.flatMap_map, hline]
  induction rest with
  | nil => rfl
  | cons w rest ih =>
    rw [List.splitOn, List.splitOnP_cons_eq_if_modifyHead]
    rw [List.splitOn] at ih
    by_cases hw : w = prog
    · simpa [hw] using ih
    · obtain ⟨line, lines, hl⟩ := List.exists_cons_of_ne_nil
        (List.splitOnP_ne_nil (· == prog) rest)
      rw [hl] at ih
      simpa [hw, hl] using ih

/-- The text of a usage section is that of all its lines, with a pipe between neighbours. -/
theorem pieces_formal {usage prog : String} {rest : List String}
    (h : Text.words usage = prog :: rest) :
    ∃ text, formal usage = .ok text ∧
      "|" :: Token.pieces text = barred ((rest.splitOn prog).map (Text.join " ")) := by
  have hbetween : Token.pieces ") | (" = [")", "|", "("] := by decide +kernel
  refine ⟨_, by rw [formal, h], ?_⟩
  rw [Token.pieces_parentheses, Token.pieces_join_space, List.flatMap_map, barred_splitOn]
  congr 4
  funext w
  split
  next => exact hbetween
  next => rfl

/-- The group of a line: its only element, or else all of its elements as one sequence. -/
def GroupOf (found : List Pattern) (group : Pattern) : Prop :=
  found = [group] ∨ found.length ≠ 1 ∧ group = .branch .required found

theorem groupOf_grouped (found : List Pattern) : GroupOf found (grouped found) := by
  match found with
  | [p] => exact .inl rfl
  | [] | p :: q :: rest => exact .inr ⟨by simp, rfl⟩

/-- Usage patterns parsed one after another, each over the registry that the one in front leaves. -/
inductive ParsesInTurn : List String → Registry → List (List Pattern) → Registry → Prop where
  | done {registry : Registry} : ParsesInTurn [] registry [] registry
  | next {body : String} {bodies : List String} {registry middle registry' : Registry}
      {found : List Pattern} {lines : List (List Pattern)}
      (hp : parse body registry = .ok ⟨.branch .required found, middle⟩)
      (hr : ParsesInTurn bodies middle lines registry') :
      ParsesInTurn (body :: bodies) registry (found :: lines) registry'

theorem closed_barred (bodies : List String) (n : Nat) :
    Closed ((Token.number TokenKind.of (barred bodies)).map (Token.moved n)) := by
  cases bodies with
  | nil => exact ⟨rfl, rfl⟩
  | cons body bodies => exact ⟨rfl, rfl⟩

theorem Reads.last_atom {tokens rest : List Token} {registry registry' : Registry}
    {found : List Pattern} (h : Reads .atom tokens registry ⟨rest, registry', found⟩)
    (hc : Closed rest) : Reads .sequence tokens registry ⟨rest, registry', found⟩ := by
  have hself : repeated ⟨rest, registry', found⟩ = ⟨rest, registry', found⟩ := by
    simp [repeated, hc.ellipsis]
  have hmore := Reads.more h (by rw [hself]; exact .stop hc.atom)
  simpa only [hself, List.append_nil] using hmore

/-- A line in its group is read as it is alone, whatever lines are behind it. -/
theorem reads_line {body : String} {registry registry' : Registry} {found : List Pattern}
    (h : parse body registry = .ok ⟨.branch .required found, registry'⟩) (bodies : List String) :
    ∃ n, Reads .sequence (Token.number TokenKind.of (lineTexts body ++ barred bodies)) registry
      ⟨(Token.number TokenKind.of (barred bodies)).map (Token.moved n), registry',
        [grouped found]⟩ := by
  obtain ⟨_, hr, hfound⟩ := reads_of_ofTokens h
  cases hfound
  have htexts : lineTexts body ++ barred bodies =
      "(" :: (Token.pieces body ++ ")" :: barred bodies) := by simp [lineTexts]
  rw [htexts, Token.number_cons, Token.number_append, Token.number_cons _ ")", List.map_append,
    List.map_cons, List.map_cons, Token.map_moved_moved, Token.map_moved_moved]
  generalize 1 + ((Token.pieces body).length + 1) = n
  refine ⟨n, ?_⟩
  generalize hcloser : Token.moved 1 (Token.moved (Token.pieces body).length
    ⟨TokenKind.of ")", ")", 1⟩) = closer
  have hkind : closer.kind = .closer := by rw [← hcloser]; rfl
  have htext : closer.text = ")" := by rw [← hcloser]; rfl
  have hgroup := @Reads.group ⟨TokenKind.of "(", "(", 1⟩ closer ")" _
    ((Token.number TokenKind.of (barred bodies)).map (Token.moved n)) _ _ _ (by decide) (by decide)
    (hr.before 1 (show Fenced (closer :: _) from hkind)) htext
  exact hgroup.last_atom (closed_barred bodies n)

theorem Reads.moved {part : Part} {tokens : List Token} {registry : Registry}
    {r : Reading Pattern} (h : Reads part tokens registry r) (n : Nat) :
    Reads part (tokens.map (Token.moved n)) registry (r.moved n) := by
  have hfenced : Fenced [] := trivial
  have hmoved := h.before n hfenced
  simp only [Reading.before, List.append_nil] at hmoved
  exact hmoved

theorem reads_lines {bodies : List String} {registry registry' : Registry}
    {lines : List (List Pattern)} (h : ParsesInTurn bodies registry lines registry') :
    Reads .branches (Token.number TokenKind.of (barred bodies)) registry
      ⟨[], registry', lines.map grouped⟩ := by
  induction h with
  | done => exact .last rfl
  | @next body bodies registry middle registry' found lines hp hr ih =>
    obtain ⟨n, hline⟩ := reads_line hp bodies
    rw [barred_cons, Token.number_cons]
    exact .branch rfl (hline.moved 1) ((ih.moved n).moved 1)

/-- The alternation of usage lines parses to what its lines parse to one after another, each in its
group. -/
theorem parse_formal {usage prog : String} {rest : List String} {registry registry' : Registry}
    {lines : List (List Pattern)} (hw : Text.words usage = prog :: rest)
    (hl : ParsesInTurn ((rest.splitOn prog).map (Text.join " ")) registry lines registry') :
    ∃ text groups, formal usage = .ok text ∧ List.Forall₂ GroupOf lines groups ∧
      parse text registry = .ok ⟨.branch .required
        (if groups.length = 1 then groups else [.branch .either groups]), registry'⟩ := by
  obtain ⟨text, htext, hpieces⟩ := pieces_formal hw
  have hgroups : List.Forall₂ GroupOf lines (lines.map grouped) := by
    rw [List.forall₂_map_right_iff, List.forall₂_same]
    exact fun found _ => groupOf_grouped found
  refine ⟨text, lines.map grouped, htext, hgroups, ofTokens_of_reads ?_⟩
  rw [Token.scan_eq_number]
  generalize hb : (rest.splitOn prog).map (Text.join " ") = bodies at hl hpieces
  cases hl with
  | done => exact absurd (List.map_eq_nil_iff.mp hb) (List.splitOn_ne_nil prog rest)
  | @next body bodies _ middle _ found lines hp hr =>
    rw [barred_cons, List.cons.injEq] at hpieces
    obtain ⟨n, hline⟩ := reads_line hp bodies
    rw [hpieces.2]
    cases hr with
    | done => exact .single hline rfl
    | next hp' hr' =>
      have hbranches := (reads_lines (.next hp' hr')).moved n
      rw [if_neg (by simp)]
      exact .several hline (Option.some_ne_none _) hbranches

theorem parse_formal_three_lines :
    let verbose : OptionDecl := ⟨some "-v", none, .flag .int false, by decide⟩
    let usage := "nf a -v\n  nf\n  nf -v... | b"
    let words := ["a", "-v", "nf", "nf", "-v...", "|", "b"]
    let lines : List (List Pattern) :=
      [[.leaf (.command "a" (.bool false)), .leaf (.option verbose)], [],
        [.branch .either [.branch .oneOrMore [.leaf (.option verbose)],
          .leaf (.command "b" (.bool false))]]]
    Text.words usage = "nf" :: words ∧
      ParsesInTurn ((words.splitOn "nf").map (Text.join " ")) [] lines [verbose] ∧
        ∃ text groups, formal usage = .ok text ∧ List.Forall₂ GroupOf lines groups ∧
          parse text [] = .ok ⟨.branch .required
            (if groups.length = 1 then groups else [.branch .either groups]), [verbose]⟩ := by
  intro verbose usage words lines
  have hw : Text.words usage = "nf" :: words := by decide +kernel
  have hb : (words.splitOn "nf").map (Text.join " ") = ["a -v", "", "-v... | b"] := by
    decide +kernel
  have hl : ParsesInTurn ((words.splitOn "nf").map (Text.join " ")) [] lines [verbose] := by
    rw [hb]
    exact .next (by with_unfolding_all rfl) (.next (by with_unfolding_all rfl)
      (.next (by with_unfolding_all rfl) .done))
  exact ⟨hw, hl, parse_formal hw hl⟩

end Usage

end Synopsis
