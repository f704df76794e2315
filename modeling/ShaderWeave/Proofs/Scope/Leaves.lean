import ShaderWeave.Proofs.Scope.Collisions

/-!
# The leaves of a variable

A leaf of a variable stands at an address: the indices of the fields on the way from the root down to it
(`Variable.LeafAt`). Of two leaves the one that is met first, when the fields are gone through in depth and from left
to right, is the one whose address comes first in the lexicographic order.

`Variable.nodes` lists the leaves with their addresses. What `Variable.leaves` makes of them is their dotted names below
a path. It tells by the empty text that there is no path, which is right as long as no name on the way is empty
(`Variable.IsNamed`): below the root the path is then never empty. `Variable.leaves_enumerate` puts this together.
-/

namespace ShaderWeave

namespace Variable

/-! ### Leaves and their addresses -/

/-- No name in the tree is empty. -/
inductive IsNamed : Variable → Prop
  /-- A scalar or a vector. -/
  | value {name : String} {values : Values} (named : name ≠ "") : IsNamed (.value name values)
  /-- A struct. -/
  | group {name : String} {fields : List Variable} (named : name ≠ "") (each : ∀ field ∈ fields, IsNamed field) :
    IsNamed (.group name fields)

/-- What is declared has names. -/
theorem WellFormed.isNamed {types : Structs} {v : Variable} (h : v.WellFormed types) : v.IsNamed := by
  induction h with
  | value named => exact .value named.ne_empty
  | group named _ _ ih => exact .group named.ne_empty ih

/-- A leaf together with the place where it stands. -/
structure Node where
  /-- The indices of the fields on the way from the root to the leaf. -/
  address : List Nat
  /-- The names on the way, that of the root and that of the leaf included. -/
  names : List String
  /-- The values of the leaf. -/
  values : Values

namespace Node

/-- The leaf of a field as a leaf of the struct. -/
def under (name : String) (i : Nat) (node : Node) : Node :=
  ⟨i :: node.address, name :: node.names, node.values⟩

/-- The path, if there is one, and the names on the way, with dots between. -/
def fullName (path : String) (node : Node) : String :=
  ".".intercalate (if path = "" then node.names else path :: node.names)

/-- The uniform that the leaf is below a path. -/
def uniform (path : String) (node : Node) : Uniform :=
  ⟨node.fullName path, node.values⟩

end Node

/-- The leaves of a variable: a scalar or a vector is its own leaf, and the leaves of a struct are those of its fields,
each below the index of the field. -/
inductive LeafAt : Variable → Node → Prop
  /-- A scalar or a vector. -/
  | value {name : String} {values : Values} : LeafAt (.value name values) ⟨[], [name], values⟩
  /-- A leaf of a field of a struct. -/
  | field {name : String} {fields : List Variable} {i : Nat} {field : Variable} {node : Node}
    (here : fields[i]? = some field) (below : LeafAt field node) : LeafAt (.group name fields) (node.under name i)

mutual

/-- The leaves with their places, from left to right. -/
def nodes : Variable → List Node
  | .value name values => [⟨[], [name], values⟩]
  | .group name fields => nodesFrom name 0 fields

/-- The leaves of the fields of a struct, where the first field has the given index. -/
def nodesFrom (name : String) (i : Nat) : List Variable → List Node
  | [] => []
  | field :: fields => (nodes field).map (Node.under name i) ++ nodesFrom name (i + 1) fields

end

section Nodes

variable {name : String} {fields : List Variable} {v : Variable} {node : Node}

theorem mem_nodesFrom_iff {i : Nat} :
    node ∈ nodesFrom name i fields ↔
      ∃ (j : Nat) (field : Variable) (below : Node),
        fields[j]? = some field ∧ below ∈ field.nodes ∧ node = below.under name (i + j) := by
  induction fields generalizing i with
  | nil => simp [nodesFrom]
  | cons field fields ih =>
    rw [nodesFrom, List.mem_append, List.mem_map, ih]
    constructor
    · rintro (⟨below, mem, rfl⟩ | ⟨j, other, below, here, mem, rfl⟩)
      · exact ⟨0, field, below, rfl, mem, rfl⟩
      · exact ⟨j + 1, other, below, here, mem, by rw [Nat.add_right_comm, Nat.add_assoc]⟩
    · rintro ⟨j, other, below, here, mem, rfl⟩
      cases j with
      | zero =>
        obtain rfl : field = other := by simpa using here
        exact .inl ⟨below, mem, rfl⟩
      | succ j => exact .inr ⟨j, other, below, here, mem, by rw [Nat.add_right_comm, Nat.add_assoc]⟩

/-- The list of leaves is complete. -/
theorem IsNamed.mem_nodes_iff (named : v.IsNamed) : node ∈ v.nodes ↔ v.LeafAt node := by
  induction named generalizing node with
  | @value name values _ =>
    rw [nodes, List.mem_singleton]
    constructor
    · rintro rfl
      exact .value
    · rintro ⟨⟩
      rfl
  | @group name fields _ _ ih =>
    rw [nodes, mem_nodesFrom_iff]
    constructor
    · rintro ⟨j, field, below, here, mem, rfl⟩
      rw [Nat.zero_add]
      exact .field here ((ih field (List.mem_of_getElem? here)).1 mem)
    · intro leaf
      cases leaf with
      | @field _ _ j field below here leaf =>
        refine ⟨j, field, below, here, (ih field (List.mem_of_getElem? here)).2 leaf, ?_⟩
        rw [Nat.zero_add]

/-- The leaves of fields are in order if those of each field are. -/
theorem pairwise_nodesFrom {i : Nat}
    (each : ∀ field ∈ fields, field.nodes.Pairwise fun a b => a.address < b.address) :
    (nodesFrom name i fields).Pairwise fun a b => a.address < b.address := by
  induction fields generalizing i with
  | nil => exact List.Pairwise.nil
  | cons field fields ih =>
    rw [nodesFrom, List.pairwise_append]
    refine ⟨?_, ih fun other mem => each other (List.mem_cons_of_mem _ mem), ?_⟩
    · rw [List.pairwise_map]
      exact (each field List.mem_cons_self).imp fun before => List.cons_lt_cons_iff.2 (.inr ⟨rfl, before⟩)
    · -- The leaves further on are below a greater index.
      intro a ha b hb
      obtain ⟨first, -, rfl⟩ := List.mem_map.1 ha
      obtain ⟨j, other, second, -, -, rfl⟩ := mem_nodesFrom_iff.1 hb
      exact List.cons_lt_cons_iff.2 (.inl (by omega))

/-- The leaves are listed in depth and from left to right, each once. -/
theorem IsNamed.pairwise_nodes (named : v.IsNamed) : v.nodes.Pairwise fun a b => a.address < b.address := by
  induction named with
  | value => exact List.pairwise_singleton _ _
  | group _ _ ih => exact pairwise_nodesFrom ih

end Nodes

/-! ### Dotted names -/

theorem fullName_ne_empty {path name : String} (named : name ≠ "") : Variable.fullName path name ≠ "" := by
  unfold Variable.fullName
  split
  · exact named
  · simp [named]

/-- Going down by one name makes the path longer by it. -/
theorem Node.fullName_under {path name : String} (i : Nat) (node : Node) (named : name ≠ "") :
    (node.under name i).fullName path = node.fullName (Variable.fullName path name) := by
  unfold Node.fullName
  rw [if_neg (fullName_ne_empty named)]
  unfold Variable.fullName
  split <;> rfl

theorem Node.uniform_under {path name : String} (i : Nat) (node : Node) (named : name ≠ "") :
    (node.under name i).uniform path = node.uniform (Variable.fullName path name) := by
  rw [uniform, uniform, fullName_under i node named]
  rfl

/-- If the leaves of each field are its nodes under their full names, so are those of the struct. -/
theorem leavesOfAll_eq_map {path name : String} {fields : List Variable} (i : Nat) (named : name ≠ "")
    (each : ∀ field ∈ fields, ∀ path, field.leaves path = field.nodes.map (Node.uniform path)) :
    leavesOfAll (Variable.fullName path name) fields = (nodesFrom name i fields).map (Node.uniform path) := by
  induction fields generalizing i with
  | nil => rfl
  | cons field fields ih =>
    have below : (Node.uniform path ∘ Node.under name i) = Node.uniform (Variable.fullName path name) :=
      funext fun node => Node.uniform_under i node named
    rw [leavesOfAll, nodesFrom, List.map_append, List.map_map, below, each field List.mem_cons_self,
      ih (i + 1) fun other mem => each other (List.mem_cons_of_mem _ mem)]

/-- The leaves of a variable are its nodes under their full names. -/
theorem IsNamed.leaves_eq_map {v : Variable} (named : v.IsNamed) (path : String) :
    v.leaves path = v.nodes.map (Node.uniform path) := by
  induction named generalizing path with
  | @value name values named =>
    have alone : Node.uniform path ⟨[], [name], values⟩ = ⟨Variable.fullName path name, values⟩ := by
      unfold Node.uniform Node.fullName Variable.fullName
      split <;> rfl
    rw [Variable.leaves, nodes, List.map_singleton, alone]
  | group named _ ih => exact leavesOfAll_eq_map 0 named fun field mem path => ih field mem path

theorem LeafAt.names_ne_nil {v : Variable} {node : Node} (leaf : v.LeafAt node) : node.names ≠ [] := by
  cases leaf with
  | value => exact List.cons_ne_nil _ _
  | field => exact List.cons_ne_nil _ _

/-- A path is put before the whole name. -/
theorem Node.fullName_of_path {path : String} (given : path ≠ "") {node : Node} (ne : node.names ≠ []) :
    node.fullName path = path ++ "." ++ node.fullName "" := by
  unfold Node.fullName
  rw [if_neg given, if_pos rfl, String.intercalate_cons_of_ne_nil ne]

end Variable

/-- The uniform with a path and a dot before its name. -/
def Uniform.below (path : String) (u : Uniform) : Uniform :=
  ⟨path ++ "." ++ u.name, u.values⟩

namespace Variable

theorem IsNamed.leaves_of_path {v : Variable} (named : v.IsNamed) {path : String} (given : path ≠ "") :
    v.leaves path = (v.leaves "").map (Uniform.below path) := by
  rw [named.leaves_eq_map, named.leaves_eq_map, List.map_map]
  refine List.map_congr_left fun node mem => ?_
  have ne := (named.mem_nodes_iff.1 mem).names_ne_nil
  rw [Node.uniform, Node.fullName_of_path given ne]
  rfl

/-- The leaves of a struct are those of its fields, one field after the other. -/
theorem leaves_group_append (path name : String) (fields more : List Variable) :
    (group name (fields ++ more)).leaves path = (group name fields).leaves path ++ (group name more).leaves path := by
  simp only [Variable.leaves, leavesOfAll_eq_flatMap, List.flatMap_append]

/-- **The leaves of a variable are enumerated.** For every variable without empty names there is one list of its leaves,
each with its address, its names and its values, in which every leaf stands exactly once and the addresses increase in
the lexicographic order, and below every path `leaves` gives these leaves in this order, with their values as they are
and with the path, if it is not empty, and the names joined by dots. So a path that is not empty is put before every
name that there is without it. And `leaves` takes the fields of a struct one after the other: without fields there are
no leaves, two lists of fields that follow each other give the leaves of the one and then those of the other, and a
single field gives its own leaves below the name of the struct. -/
theorem leaves_enumerate {v : Variable} (named : v.IsNamed) :
    (∃ nodes : List Node,
      nodes.Pairwise (fun a b => a.address < b.address) ∧
      (∀ node, node ∈ nodes ↔ v.LeafAt node) ∧
      ∀ path, v.leaves path = nodes.map (Node.uniform path)) ∧
    (∀ path ≠ "", v.leaves path = (v.leaves "").map (Uniform.below path)) ∧
    ∀ (path name : String) (field : Variable) (fields more : List Variable),
      (group name []).leaves path = [] ∧
      (group name (fields ++ more)).leaves path =
        (group name fields).leaves path ++ (group name more).leaves path ∧
      (group name [field]).leaves path = field.leaves (Variable.fullName path name) := by
  refine ⟨⟨v.nodes, named.pairwise_nodes, fun node => named.mem_nodes_iff, named.leaves_eq_map⟩,
    fun path given => named.leaves_of_path given, ?_⟩
  intro path name field fields more
  refine ⟨rfl, leaves_group_append path name fields more, ?_⟩
  rw [Variable.leaves, leavesOfAll, leavesOfAll, List.append_nil]

/-- A light with a struct between two vectors. -/
def light : Variable :=
  .group "light" [.value "color" (.integer [1, 2, 3]),
    .group "cone" [.value "angle" (.integer [45]), .value "soft" (.boolean [true])],
    .value "position" (.integer [0, 8, 0])]

theorem isNamed_light : light.IsNamed := by
  have cone : (group "cone" [.value "angle" (.integer [45]), .value "soft" (.boolean [true])]).IsNamed := by
    refine .group (by decide) (List.forall_mem_cons.2 ⟨.value (by decide), ?_⟩)
    exact List.forall_mem_singleton.2 (.value (by decide))
  refine .group (by decide) (List.forall_mem_cons.2 ⟨.value (by decide), ?_⟩)
  exact List.forall_mem_cons.2 ⟨cone, List.forall_mem_singleton.2 (.value (by decide))⟩

/-- The path is put before the whole name, and below the root the names follow each other. -/
theorem leaves_enumerate_light :
    light.IsNamed ∧
      light.leaves "scene" = (light.leaves "").map (Uniform.below "scene") ∧
      light.leaves "scene" = [⟨"scene.light.color", .integer [1, 2, 3]⟩, ⟨"scene.light.cone.angle", .integer [45]⟩,
        ⟨"scene.light.cone.soft", .boolean [true]⟩, ⟨"scene.light.position", .integer [0, 8, 0]⟩] := by
  have enumerated := leaves_enumerate isNamed_light
  exact ⟨isNamed_light, enumerated.2.1 "scene" (by decide), by decide +kernel⟩

end Variable

end ShaderWeave
