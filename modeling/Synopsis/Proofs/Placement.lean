import Synopsis.Proofs.Nesting
import Synopsis.Proofs.Scanning
import Synopsis.Proofs.Turns

/-!
The places of words. Words further down a line are read as they would be at its head: the leaves and
the registry are the same, and a refusal is a fault of the same kind about the same word. Only the
place that its message names moves along.
-/
namespace Synopsis

namespace Token

def moved (n : Nat) (t : Token) : Token := { t with index := t.index + n }

@[simp] theorem moved_kind (n : Nat) (t : Token) : (t.moved n).kind = t.kind := rfl

@[simp] theorem moved_text (n : Nat) (t : Token) : (t.moved n).text = t.text := rfl

@[simp] theorem map_moved_zero (tokens : List Token) : tokens.map (moved 0) = tokens := by
  have hid : moved 0 = id := by
    funext t
    simp [moved]
  rw [hid, List.map_id]

theorem map_moved_moved (m n : Nat) (tokens : List Token) :
    (tokens.map (moved m)).map (moved n) = tokens.map (moved (m + n)) := by
  rw [List.map_map]
  congr 1
  funext t
  simp [moved, Int.add_assoc]

theorem map_text_moved (n : Nat) (tokens : List Token) :
    (tokens.map (moved n)).map (·.text) = tokens.map (·.text) := by
  rw [List.map_map]
  rfl

theorem number_append (kindOf : String → TokenKind) (front back : List String) :
    number kindOf (front ++ back) =
      number kindOf front ++ (number kindOf back).map (moved front.length) := by
  unfold number
  rw [List.zipIdx_append, List.map_append, Nat.add_comm, ← List.map_snd_add_zipIdx_eq_zipIdx,
    List.map_map, List.map_map]
  congr 1

theorem number_cons (kindOf : String → TokenKind) (text : String) (texts : List String) :
    number kindOf (text :: texts) =
      ⟨kindOf text, text, 1⟩ :: (number kindOf texts).map (moved 1) :=
  number_append kindOf [text] texts

theorem ofWords_append (front back : List String) :
    ofWords (front ++ back) = ofWords front ++ (ofWords back).map (moved front.length) :=
  number_append _ front back

theorem ofWords_cons (word : String) (words : List String) :
    ofWords (word :: words) = ⟨.word, word, 1⟩ :: (ofWords words).map (moved 1) :=
  ofWords_append [word] words

theorem ofWords_cons_cons (word next : String) (words : List String) :
    ofWords (word :: next :: words) =
      ⟨.word, word, 1⟩ :: ⟨.word, next, 2⟩ :: (ofWords words).map (moved 2) :=
  ofWords_append [word, next] words

theorem map_text_ofWords (words : List String) : (ofWords words).map (·.text) = words :=
  map_text_number _ words

theorem placed_of_mem_ofWords {words : List String} {t : Token} (h : t ∈ ofWords words) :
    0 < t.index := by
  unfold ofWords number at h
  obtain ⟨⟨word, i⟩, hm, rfl⟩ := List.mem_map.mp h
  have hi := List.le_snd_of_mem_zipIdx hm
  show (0 : Int) < (i : Int)
  omega

theorem kind_of_mem_ofWords {words : List String} {t : Token} (h : t ∈ ofWords words) :
    t.kind = .word := by
  unfold ofWords number at h
  obtain ⟨⟨word, i⟩, -, rfl⟩ := List.mem_map.mp h
  rfl

theorem ofWords_append_cons (before : List String) (word : String) (after : List String) :
    ofWords (before ++ word :: after) =
      ofWords before ++ ⟨.word, word, before.length + 1⟩ ::
        (ofWords after).map (moved (before.length + 1)) := by
  rw [ofWords_append, ofWords_cons, List.map_cons, map_moved_moved, Nat.add_comm 1]
  simp [moved, Int.add_comm]

theorem parts_of_ofWords {words : List String} {front rest : List Token} {token : Token}
    (h : ofWords words = front ++ token :: rest) :
    ∃ before word after, words = before ++ word :: after ∧ front = ofWords before ∧
      token = ⟨.word, word, before.length + 1⟩ ∧
        rest = (ofWords after).map (moved (before.length + 1)) := by
  have htexts : words = front.map (·.text) ++ token.text :: rest.map (·.text) := by
    rw [← map_text_ofWords words, h]
    simp
  refine ⟨_, _, _, htexts, ?_⟩
  rw [htexts, ofWords_append_cons] at h
  have hlen : (ofWords (front.map (·.text))).length = front.length := by
    simp [ofWords, number]
  obtain ⟨hfront, htail⟩ := List.append_inj h hlen
  obtain ⟨htoken, hrest⟩ := List.cons.inj htail
  exact ⟨hfront.symm, htoken.symm, hrest.symm⟩

/-- What stands in front of a word of a line is a line of its own. -/
theorem ofWords_eq_append_cons {words : List String} {front rest : List Token} {token : Token}
    (h : ofWords words = front ++ token :: rest) :
    ∃ before after, words = before ++ token.text :: after ∧ front = ofWords before := by
  obtain ⟨before, word, after, hwords, hfront, rfl, -⟩ := parts_of_ofWords h
  exact ⟨before, after, hwords, hfront⟩

end Token

theorem nextWord?_moved {rest : List Token} (n : Nat) (h : nextWord? rest = none) :
    nextWord? (rest.map (Token.moved n)) = none := by
  cases rest with
  | nil => rfl
  | cons t rest =>
    simp only [nextWord?, Token.isWord, beq_iff_eq] at h
    simp only [List.map_cons, nextWord?, Token.isWord, Token.moved_kind, beq_iff_eq]
    split at h
    next => cases h
    next hk => rw [if_neg hk]

/-- The reading with what it leaves further down the stream. -/
def Reading.moved {α : Type} (n : Nat) (r : Reading α) : Reading α :=
  { r with rest := r.rest.map (Token.moved n) }

/-- The complaint about an option with another token in the place of its own. -/
def Complaint.onToken (g : Token → Token) : Complaint → Complaint
  | .unsplittable t => .unsplittable (g t)
  | .dashInCluster t => .dashInCluster (g t)
  | .repeatedShort t short count => .repeatedShort (g t) short count
  | .unexpectedValue t long => .unexpectedValue (g t) long
  | .missingLongValue t long => .missingLongValue (g t) long
  | .missingShortValue t short => .missingShortValue (g t) short
  | .ambiguous t name candidates => .ambiguous (g t) name candidates
  | c => c

namespace Registry

variable {mode : Mode} {token : Token} {rest : List Token} {registry : Registry}

theorem ReadsLong.moved {r : Reading OptionDecl} (h : ReadsLong mode token rest registry r)
    (n : Nat) :
    ReadsLong mode (token.moved n) (rest.map (Token.moved n)) registry (r.moved n) := by
  cases h with
  | added ha hc ho => exact .added ha hc ho
  | flag ha hc ht hv => exact .flag ha hc ht hv
  | assigned ha hc ht hv => exact .assigned ha hc ht hv
  | @followed a o next after ha hc ht hv hr hw =>
    have hread : ReadsLong mode (token.moved n) (next.moved n :: after.map (Token.moved n))
        registry ⟨after.map (Token.moved n), registry, [mode.valued o (next.moved n).text]⟩ :=
      .followed ha hc ht hv rfl hw
    rw [hr]
    exact hread

theorem ReadsChars.moved {cs : List Char} {r : Reading OptionDecl}
    (h : ReadsChars mode rest registry cs r) (n : Nat) :
    ReadsChars mode (rest.map (Token.moved n)) registry cs (r.moved n) := by
  induction h with
  | nil => exact .nil
  | fresh hc hs hr ih => exact .fresh hc hs ih
  | flag hc hs ht hr ih => exact .flag hc hs ht ih
  | attached hc hs ht hne => exact .attached hc hs ht hne
  | @followed registry c o next after hc hs ht hr hw =>
    have hread : ReadsChars mode (next.moved n :: after.map (Token.moved n)) registry [c]
        ⟨after.map (Token.moved n), registry, [mode.valued o (next.moved n).text]⟩ :=
      .followed hc hs ht rfl hw
    rw [hr]
    exact hread

theorem RefusesLong.moved {x : Complaint} (h : RefusesLong mode token rest registry x) (n : Nat) :
    RefusesLong mode (token.moved n) (rest.map (Token.moved n)) registry
      (x.onToken (Token.moved n)) := by
  cases h with
  | unsplittable ha => exact .unsplittable ha
  | undeclarable ha hc ho => exact .undeclarable ha hc ho
  | unexpected ha hc ht hv => exact .unexpected ha hc ht hv
  | missing ha hc ht hv hr => exact .missing ha hc ht hv (nextWord?_moved n hr)
  | ambiguous ha hc => exact .ambiguous ha hc

/-- The characters of a cluster are refused for what they are, whatever the token they stand in. -/
theorem RefusesChars.moved {cs : List Char} {x : Complaint}
    (h : RefusesChars mode token rest registry cs x) (n : Nat) (g : Token → Token) :
    RefusesChars mode (g token) (rest.map (Token.moved n)) registry cs (x.onToken g) := by
  induction h with
  | dash => exact .dash
  | fresh hc hs hx ih => exact .fresh hc hs ih
  | flag hc hs ht hx ih => exact .flag hc hs ht ih
  | missing hc hs ht hr => exact .missing hc hs ht (nextWord?_moved n hr)
  | repeated hc hs => exact .repeated hc hs

end Registry

theorem Fault.titled_kind (code : Fault.Code) (title message hint : String)
    (details : List (String × Value)) :
    (Fault.titled code title message hint details).kind = some code := rfl

theorem Fault.titled_token (code : Fault.Code) (title message hint : String) (word : Value) :
    (Fault.titled code title message hint [("token", word)]).detail? "token" = some word := by
  rfl

theorem Fault.titled_token_candidates (code : Fault.Code) (title message hint : String)
    (word candidates : Value) :
    (Fault.titled code title message hint
      [("token", word), ("candidates", candidates)]).detail? "token" = some word := by
  rfl

/-- Two failures are reported as faults of one kind. -/
def Failure.SameKind (f g : Failure) : Prop :=
  ∃ left right, f.report = .ok left ∧ g.report = .ok right ∧ left.kind = right.kind

/-- Two failures are reported as faults of one kind about the same word. -/
def Failure.SameFault (f g : Failure) : Prop :=
  ∃ left right, f.report = .ok left ∧ g.report = .ok right ∧ left.kind = right.kind ∧
    left.detail? "token" = right.detail? "token"

/-- Tokens in the place of its own change neither the kind of a fault nor, with the same text, the word
that it is about. -/
theorem reports_onToken {token : Token} {x : Complaint} {g k : Token → Token}
    (h : Registry.Blames token x) (hg : 0 < (g token).index) (hk : 0 < (k token).index) :
    ∃ left right, (Failure.complaint (x.onToken g)).report = .ok left ∧
      (Failure.complaint (x.onToken k)).report = .ok right ∧ left.kind = right.kind ∧
        ((g token).text = (k token).text → left.detail? "token" = right.detail? "token") := by
  obtain ⟨place, -, hw⟩ := Token.whereabouts_of_placed hg
  obtain ⟨place', -, hw'⟩ := Token.whereabouts_of_placed hk
  cases h with
  | malformed why => exact ⟨_, _, rfl, rfl, rfl, fun _ => rfl⟩
  | unsplittable | dashInCluster | repeatedShort | unexpectedValue | missingLongValue
  | missingShortValue | ambiguous =>
    simp only [Failure.report, Complaint.onToken, Complaint.report, hw, hw']
    refine ⟨_, _, rfl, rfl, ?_, fun ht => ?_⟩
    · simp only [Fault.titled_kind]
    · simp only [Fault.titled_token, Fault.titled_token_candidates, ht]

namespace CommandLine

variable {optionsFirst : Bool} {token : Token} {tokens rest : List Token} {registry : Registry}

theorem Turn.moved {r : Reading Leaf} (h : Turn token rest registry r) (n : Nat) :
    Turn (token.moved n) (rest.map (Token.moved n)) registry (r.moved n) := by
  cases h with
  | long hs hr =>
    refine .long ?_ (hr.moved n)
    exact hs
  | cluster hs hc hr =>
    refine .cluster ?_ hc (hr.moved n)
    exact hs
  | positional hs => exact .positional hs

theorem Balks.moved {x : Complaint} (h : Balks token rest registry x) (n : Nat) :
    Balks (token.moved n) (rest.map (Token.moved n)) registry (x.onToken (Token.moved n)) := by
  cases h with
  | long hs hx =>
    refine .long ?_ (hx.moved n)
    exact hs
  | cluster hs hc hx =>
    refine .cluster ?_ hc (hx.moved n (Token.moved n))
    exact hs

theorem Balks.blames {x : Complaint} (h : Balks token rest registry x) :
    Registry.Blames token x := by
  cases h with
  | long hs hx => exact hx.blames
  | cluster hs hc hx => exact hx.blames

theorem Run.moved {p : Parsed} (h : Run optionsFirst tokens registry p) (n : Nat) :
    Run optionsFirst (tokens.map (Token.moved n)) registry p := by
  induction h with
  | done => exact .done
  | @ended token rest registry he =>
    have hleaves : (token :: rest).map positional =
        ((token :: rest).map (Token.moved n)).map positional := by
      rw [List.map_map]
      rfl
    rw [hleaves]
    exact .ended he
  | @turned token rest registry r p hn ht hr ih =>
    exact Run.turned (r := r.moved n) hn (ht.moved n) ih

theorem Stuck.moved {x : Complaint} (h : Stuck optionsFirst tokens registry x) (n : Nat) :
    Stuck optionsFirst (tokens.map (Token.moved n)) registry (x.onToken (Token.moved n)) := by
  induction h with
  | here hn hb => exact .here hn (hb.moved n)
  | turned hn ht hs ih =>
    refine .turned hn (ht.moved n) ?_
    exact ih

theorem Stuck.blames {x : Complaint} (h : Stuck optionsFirst tokens registry x) :
    ∃ token ∈ tokens, Registry.Blames token x := by
  obtain ⟨front, token, rest, p, rfl, -, hb⟩ := h.exists_run
  exact ⟨token, by simp, hb.blames⟩

theorem map_behind_behind (x : Except Failure Parsed) (front back : List Leaf) :
    (x.map (·.behind back)).map (·.behind front) = x.map (·.behind (front ++ back)) := by
  cases x with
  | error f => rfl
  | ok p => simp [Except.map, Parsed.behind]

/-- Both readings succeed with the same leaves and registry, or both fail in a related way. -/
def Agree (related : Failure → Failure → Prop) :
    Except Failure Parsed → Except Failure Parsed → Prop
  | .ok p, .ok q => p = q
  | .error f, .error g => related f g
  | _, _ => False

theorem Agree.behind {related : Failure → Failure → Prop} {x y : Except Failure Parsed}
    (h : Agree related x y) (found : List Leaf) :
    Agree related (x.map (·.behind found)) (y.map (·.behind found)) := by
  cases x <;> cases y
  · exact h
  · exact h
  · exact h
  · exact congrArg (·.behind found) h

/-- Words are read alike wherever they stand. -/
theorem agree_moved (hp : ∀ t ∈ tokens, 0 < t.index) (m n : Nat) :
    Agree Failure.SameFault (ofTokens optionsFirst (tokens.map (Token.moved m)) registry)
      (ofTokens optionsFirst (tokens.map (Token.moved n)) registry) := by
  rcases run_or_stuck optionsFirst tokens registry with ⟨p, hr⟩ | ⟨x, hs⟩
  · rw [ofTokens_of_run (hr.moved m), ofTokens_of_run (hr.moved n)]
    rfl
  · rw [ofTokens_of_stuck (hs.moved m), ofTokens_of_stuck (hs.moved n)]
    obtain ⟨token, ht, hb⟩ := hs.blames
    have hplaced : ∀ k, 0 < (token.moved k).index := by
      intro k
      have htoken := hp token ht
      show 0 < token.index + (k : Int)
      omega
    obtain ⟨left, right, hl, hr, hkind, htext⟩ := reports_onToken hb (hplaced m) (hplaced n)
    exact ⟨left, right, hl, hr, hkind, htext rfl⟩

theorem agree_further {words : List String} (n : Nat) :
    Agree Failure.SameFault
      (ofTokens optionsFirst ((Token.ofWords words).map (Token.moved n)) registry)
      (parse optionsFirst words registry) := by
  have hmoved : Agree Failure.SameFault
      (ofTokens optionsFirst ((Token.ofWords words).map (Token.moved n)) registry)
      (ofTokens optionsFirst ((Token.ofWords words).map (Token.moved 0)) registry) :=
    agree_moved (fun _ ht => Token.placed_of_mem_ofWords ht) n 0
  rwa [Token.map_moved_zero] at hmoved

end CommandLine

end Synopsis
