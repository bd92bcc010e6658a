import Synopsis.Proofs.RoundTrip

/-!
The nodes of the trees that usage patterns parse to. Below the root there are no groups of one, no
alternations of fewer than two and no empty repetitions, only clusters are repeated as several, and
each leaf is an entry of the registry or has the name and the value of a word.
-/
namespace Synopsis

namespace Pattern

mutual
/-- The nodes of a tree: the tree itself and the nodes of its children. -/
def nodes : Pattern → List Pattern
  | leaf l => [leaf l]
  | branch g cs => branch g cs :: nodesOf cs

def nodesOf : List Pattern → List Pattern
  | [] => []
  | p :: rest => nodes p ++ nodesOf rest
end

theorem mem_nodesOf {node : Pattern} {cs : List Pattern} :
    node ∈ nodesOf cs ↔ ∃ c ∈ cs, node ∈ c.nodes := by
  induction cs with
  | nil => simp [nodesOf]
  | cons c cs ih => simp [nodesOf, ih]

theorem mem_nodes_branch {node : Pattern} {g : Group} {cs : List Pattern} :
    node ∈ (branch g cs).nodes ↔ node = branch g cs ∨ ∃ c ∈ cs, node ∈ c.nodes := by
  rw [nodes, List.mem_cons, mem_nodesOf]

theorem mem_leavesOf {l : Leaf} {cs : List Pattern} :
    l ∈ leavesOf cs ↔ ∃ c ∈ cs, l ∈ c.leaves := by
  induction cs with
  | nil => simp [leavesOf]
  | cons c cs ih => simp [leavesOf, ih]

theorem leaf_mem_nodes {p : Pattern} {l : Leaf} (h : l ∈ p.leaves) : leaf l ∈ p.nodes := by
  induction p using children_induction with
  | leaf l' =>
    rw [leaves, List.mem_singleton] at h
    rw [h, nodes, List.mem_singleton]
  | branch g cs ih =>
    rw [leaves, mem_leavesOf] at h
    obtain ⟨c, hc, hl⟩ := h
    exact mem_nodes_branch.mpr (.inr ⟨c, hc, ih c hc hl⟩)

end Pattern

namespace Usage

/-- The leaves of a parsed tree. An argument holds nothing, a command is off, and an option is an entry
of the registry as it stands there; without a long name it is named by a character. -/
def LeafSettled (registry : Registry) : Leaf → Prop
  | .argument name value =>
    value = .null ∧ ∃ s, name = some s ∧ isArgumentName s = true ∧ Text.startsWith s "-" = false
  | .command name value =>
    value = .bool false ∧ isArgumentName name = false ∧ name ≠ "options" ∧
      (Text.startsWith name "-" = true → name = "-" ∨ name = "--")
  | .option o => o ∈ registry ∧ (o.long = none → ∃ c, Pattern.ShortNamed o c)
  | .anyOptions => True

/-- Options with short names of two characters, of which only the last may take a value. -/
def OfCluster (cs : List Pattern) : Prop :=
  ∃ os : List OptionDecl, cs = os.map (fun o => .leaf (.option o)) ∧
    (∀ o ∈ os, ∃ name, o.short = some name ∧ name.length = 2) ∧
      ∀ o ∈ os.dropLast, o.takesValue = false

/-- The nodes of a parsed tree below its root. -/
def NodeSettled (registry : Registry) : Pattern → Prop
  | .leaf l => LeafSettled registry l
  | .branch .required cs => cs.length ≠ 1
  | .branch .optional _ => True
  | .branch .either cs => 2 ≤ cs.length
  | .branch .oneOrMore cs => 1 ≤ cs.length ∧ (2 ≤ cs.length → OfCluster cs)

theorem leafSettled_of_normal {registry : Registry} {l : Leaf} (h : LeafNormal registry l) :
    LeafSettled registry l := by
  cases h with
  | word hw =>
    cases hw with
    | argument hw hd ha => exact ⟨rfl, _, rfl, ha, hd⟩
    | command hw ho ha hd => exact ⟨rfl, ha, ho, hd⟩
    | anyOptions => trivial
  | option ho =>
    refine ⟨ho.1, fun hl => ?_⟩
    obtain ⟨c, hc, -⟩ := ho.2 hl
    exact ⟨c, hc⟩

/-- Whatever the readers build is settled in all of its nodes. -/
theorem settled_of_normal {registry : Registry} {p : Pattern} (h : Normal registry p) :
    ∀ node ∈ p.nodes, NodeSettled registry node := by
  have hnode : ∀ {g : Group} {cs : List Pattern}, NodeSettled registry (.branch g cs) →
      (∀ c ∈ cs, ∀ node ∈ c.nodes, NodeSettled registry node) →
        ∀ node ∈ (Pattern.branch g cs).nodes, NodeSettled registry node := by
    intro g cs hroot hbelow node hm
    rcases Pattern.mem_nodes_branch.mp hm with rfl | ⟨c, hc, hm⟩
    · exact hroot
    · exact hbelow c hc node hm
  induction h with
  | leaf hl =>
    intro node hm
    rw [Pattern.nodes, List.mem_singleton] at hm
    rw [hm]
    exact leafSettled_of_normal hl
  | required hn h ih => exact hnode hn ih
  | optional h ih => exact hnode trivial ih
  | either hn h ih => exact hnode hn ih
  | repeated h hc ih => exact hnode ⟨by simp, by simp⟩ (by simpa using ih)
  | @cluster os last hne h =>
    obtain ⟨chars, hall, hf, -⟩ := h
    have hheld := exists_char hall
    refine hnode ⟨by simp, fun _ => ⟨os ++ [last], rfl, fun o ho => ?_, by simpa using hf⟩⟩ ?_
    · obtain ⟨c, -, -, hc⟩ := hheld o ho
      exact ⟨_, hc, by rw [OptionDecl.shortOf, String.length_ofList]; rfl⟩
    · intro c hc node hm
      obtain ⟨o, ho, rfl⟩ := List.mem_map.mp hc
      obtain ⟨c, -, hreg, hshort⟩ := hheld o ho
      rw [Pattern.nodes, List.mem_singleton] at hm
      rw [hm]
      exact ⟨hreg, fun _ => ⟨c, hshort⟩⟩

theorem leafSettled_of_parse {usage : String} {registry : Registry} {p : Parsed}
    (h : parse usage registry = .ok p) {l : Leaf} (hl : l ∈ p.pattern.leaves) :
    LeafSettled p.registry l := by
  obtain ⟨-, children, hp, hn, -⟩ := normal_of_parse h
  rw [hp, Pattern.leaves, Pattern.mem_leavesOf] at hl
  obtain ⟨c, hc, hl⟩ := hl
  exact settled_of_normal (hn c hc) _ (Pattern.leaf_mem_nodes hl)

/-- A usage pattern parses to a sequence, and all nodes below it are settled over the registry that
parsing leaves. -/
theorem settled_of_parse {usage : String} {registry : Registry} {p : Parsed}
    (h : parse usage registry = .ok p) :
    ∃ children, p.pattern = .branch .required children ∧
      ∀ node ∈ Pattern.nodesOf children, NodeSettled p.registry node := by
  obtain ⟨-, children, hp, hn, -⟩ := normal_of_parse h
  refine ⟨children, hp, fun node hm => ?_⟩
  obtain ⟨c, hc, hm⟩ := Pattern.mem_nodesOf.mp hm
  exact settled_of_normal (hn c hc) node hm

/-- A repeated cluster and a nested alternation, with every kind of leaf: ten nodes below the root. -/
theorem settled_of_parse_nested :
    ∃ p children, parse "-ab... ( <x> | go [ options ] ) ( )" [] = .ok p ∧
      p.pattern = .branch .required children ∧ (Pattern.nodesOf children).length = 10 ∧
        ∀ node ∈ Pattern.nodesOf children, NodeSettled p.registry node := by
  obtain ⟨p, hp, hlen⟩ := exists_ok_of_any (show
    (parse "-ab... ( <x> | go [ options ] ) ( )" []).toOption.any
      (·.pattern.nodes.length == 11) = true by decide +kernel)
  obtain ⟨children, hpattern, hsettled⟩ := settled_of_parse hp
  rw [beq_iff_eq, hpattern, Pattern.nodes, List.length_cons] at hlen
  exact ⟨p, children, hp, hpattern, by omega, hsettled⟩

end Usage

end Synopsis
