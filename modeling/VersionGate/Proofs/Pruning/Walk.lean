import VersionGate.Proofs.Annotation
import VersionGate.Proofs.Pruning.Pass

/-!
# The walk through a tree

The entries of a tree in the order in which a pass comes to them, as long as nothing ends it: the
values of a node, then its children, each with what it contains behind it. What a child contains is
left out if its annotation does not hold. The walk says nothing of what is done to an entry.

## Key results

- `isIn_of_mem_walk`: an entry of the walk is in the tree, at its address and under its name, and
  the names that lead to it have no annotations below the root
- `firstMalformed_append`, `firstMalformed_map_under`: the first malformed name, part by part
-/

namespace VersionGate.Pruning

open Config

/-- An entry of a tree: its place in the node at an address. -/
structure Visit where
  /-- The names of the nodes on the way, root first, as they are when the entry has its turn. -/
  trail : List (Option String)
  address : List Nat
  entry : Entry
  index : Nat
  name : Option String
  deriving DecidableEq, Repr

/-- The same entry seen from the node above, which stays under the name `kept` and has the node
below as its child at `i`. -/
def Visit.under (kept : Option String) (i : Nat) (x : Visit) : Visit :=
  { x with trail := kept :: x.trail, address := i :: x.address }

/-- The values of a node that stays under the name `kept`, from the one at `i` on. -/
def valueVisits (kept : Option String) (i : Nat) (vs : List Value) : List Visit :=
  (vs.zipIdx i).map fun (v, j) => ⟨[kept], [], .value, j, v.name⟩

mutual

/-- All that the walk comes to in a node that stays under the name `kept`. -/
def visits (running : Version) (kept : Option String) : Node → List Visit
  | ⟨_, values, nodes⟩ => valueVisits kept 0 values ++ nodeVisits running kept 0 nodes

/-- The children of a node that stays under the name `kept`, from the one at `i` on, and all that
the walk comes to in them. -/
def nodeVisits (running : Version) (kept : Option String) (i : Nat) : List Node → List Visit
  | [] => []
  | n :: ns =>
    let below :=
      if Excluded running n.name then []
      else (visits running (AnnotatedName.stripped n.name) n).map (·.under kept i)
    ⟨[kept], [], .node, i, n.name⟩ :: (below ++ nodeVisits running kept (i + 1) ns)

end

/-- All that the walk through a tree comes to. The name of the root is no part of it. -/
def walk (running : Version) (tree : Node) : List Visit := visits running tree.name tree

@[simp] theorem valueVisits_cons (kept : Option String) (i : Nat) (v : Value) (vs : List Value) :
    valueVisits kept i (v :: vs) =
      ⟨[kept], [], .value, i, v.name⟩ :: valueVisits kept (i + 1) vs := rfl

/-! ## The first malformed name -/

/-- The first entry whose name is malformed. -/
def firstMalformed (xs : List Visit) : Option Visit := xs.find? fun x => MalformedName x.name

/-- A malformed name in front is the first one. -/
theorem firstMalformed_cons_of_malformed {x : Visit} (h : MalformedName x.name)
    (xs : List Visit) : firstMalformed (x :: xs) = some x := by
  simp [firstMalformed, h]

/-- Another name in front does not count. -/
theorem firstMalformed_cons_of_not {x : Visit} (h : ¬MalformedName x.name) (xs : List Visit) :
    firstMalformed (x :: xs) = firstMalformed xs := by
  simp [firstMalformed, h]

/-- The first malformed name of two rows is that of the first row that has one. -/
theorem firstMalformed_append (xs ys : List Visit) :
    firstMalformed (xs ++ ys) = (firstMalformed xs).or (firstMalformed ys) :=
  List.find?_append

/-- Further up in the tree the first malformed name is the same. -/
theorem firstMalformed_map_under (kept : Option String) (i : Nat) (xs : List Visit) :
    firstMalformed (xs.map (·.under kept i)) = (firstMalformed xs).map (·.under kept i) :=
  List.find?_map

/-- There is no first one exactly if no name is malformed. -/
theorem firstMalformed_eq_none_iff {xs : List Visit} :
    firstMalformed xs = none ↔ ∀ x ∈ xs, ¬MalformedName x.name := by
  simp [firstMalformed]

/-- No name of a row is malformed if neither the first one is nor any of the others. -/
theorem firstMalformed_cons_eq_none_iff {x : Visit} {xs : List Visit} :
    firstMalformed (x :: xs) = none ↔
      NameFault.of? x.name = none ∧ firstMalformed xs = none := by
  simp only [firstMalformed_eq_none_iff, List.forall_mem_cons, not_malformedName_iff]

theorem firstMalformed_append_eq_none_iff {xs ys : List Visit} :
    firstMalformed (xs ++ ys) = none ↔ firstMalformed xs = none ∧ firstMalformed ys = none := by
  rw [firstMalformed_append, Option.or_eq_none_iff]

/-- The first malformed name is the one that has none in front. -/
theorem firstMalformed_eq_some_iff {xs : List Visit} {x : Visit} :
    firstMalformed xs = some x ↔
      MalformedName x.name ∧ ∃ before after, xs = before ++ x :: after ∧
        ∀ y ∈ before, ¬MalformedName y.name := by
  simp [firstMalformed, List.find?_eq_some_iff_append]

/-! ## Where the entries are -/

/-- The name of an entry of a node. -/
def entryName? (n : Node) (entry : Entry) (index : Nat) : Option (Option String) :=
  match entry with
  | .value => n.values[index]?.map (·.name)
  | .node => n.nodes[index]?.map (·.name)

/-- What a visit says about the place of an entry below a node under the name `kept`. -/
structure Visit.IsIn (kept : Option String) (n : Node) (x : Visit) : Prop where
  name_eq : (n.at? x.address).bind (entryName? · x.entry x.index) = some x.name
  trail_eq : x.trail = kept :: (n.namesTo x.address).tail.map AnnotatedName.stripped

/-- The names on the way to an address start with that of the node itself. -/
private theorem namesTo_eq_cons (n : Node) (address : List Nat) :
    n.namesTo address = n.name :: (n.namesTo address).tail := by
  cases address <;> rfl

/-- An entry of the child at `i` is in the node above. -/
theorem Visit.IsIn.under {kept : Option String} {n child : Node} {x : Visit} {i : Nat}
    (h : x.IsIn (AnnotatedName.stripped child.name) child) (hi : n.nodes[i]? = some child) :
    (x.under kept i).IsIn kept n := by
  constructor
  · show (n.at? (i :: x.address)).bind (entryName? · x.entry x.index) = some x.name
    rw [Node.at?, hi]
    exact h.name_eq
  · show kept :: x.trail = kept :: (n.namesTo (i :: x.address)).tail.map AnnotatedName.stripped
    have hnames : n.namesTo (i :: x.address) = n.name :: child.namesTo x.address := by
      rw [Node.namesTo, hi]
    rw [hnames, List.tail_cons, namesTo_eq_cons child, List.map_cons, ← h.trail_eq]

/-- A value that the walk comes to is in its node. -/
private theorem isIn_of_mem_valueVisits {kept : Option String} {n : Node} {front vs : List Value}
    (hn : n.values = front ++ vs) {x : Visit} (hx : x ∈ valueVisits kept front.length vs) :
    x.IsIn kept n := by
  -- The values in front are there only for the index to be counted from the first one.
  induction vs generalizing front with
  | nil => exact nomatch hx
  | cons v vs ih =>
    rw [valueVisits_cons, List.mem_cons] at hx
    rcases hx with rfl | hx
    · exact ⟨by simp [Node.at?, entryName?, hn], rfl⟩
    · have hn' : n.values = (front ++ [v]) ++ vs := by simp [hn]
      refine ih hn' ?_
      rwa [List.length_append]

mutual

/-- An entry that the walk comes to in a node is there. -/
private theorem isIn_of_mem_visits (running : Version) (kept : Option String) :
    ∀ (n : Node) {x : Visit}, x ∈ visits running kept n → x.IsIn kept n
  | ⟨name, values, nodes⟩, x, hx => by
    rw [visits, List.mem_append] at hx
    rcases hx with hx | hx
    · have hn : (⟨name, values, nodes⟩ : Node).values = [] ++ values := rfl
      exact isIn_of_mem_valueVisits hn hx
    · have hn : (⟨name, values, nodes⟩ : Node).nodes = [] ++ nodes := rfl
      exact isIn_of_mem_nodeVisits running kept nodes hn hx

/-- An entry that the walk comes to among the children of a node is there. -/
private theorem isIn_of_mem_nodeVisits (running : Version) (kept : Option String) :
    ∀ (ns : List Node) {n : Node} {front : List Node} {x : Visit}, n.nodes = front ++ ns →
      x ∈ nodeVisits running kept front.length ns → x.IsIn kept n
  | [], n, front, x, _, hx => by
    rw [nodeVisits] at hx
    exact nomatch hx
  | child :: ns, n, front, x, hn, hx => by
    have hchild : n.nodes[front.length]? = some child := by simp [hn]
    rw [nodeVisits, List.mem_cons, List.mem_append] at hx
    rcases hx with rfl | hx | hx
    · exact ⟨by simp [Node.at?, entryName?, hchild], rfl⟩
    · split at hx
      · -- Nothing is visited in a child that goes.
        exact nomatch hx
      · obtain ⟨y, hy, rfl⟩ := List.mem_map.mp hx
        exact (isIn_of_mem_visits running _ child hy).under hchild
    · -- The entry is behind the child, which joins those in front.
      have hn' : n.nodes = (front ++ [child]) ++ ns := by simp [hn]
      refine isIn_of_mem_nodeVisits running kept ns hn' ?_
      rwa [List.length_append]

end

/-- An entry that the walk comes to is in the tree. -/
theorem isIn_of_mem_walk {running : Version} {tree : Node} {x : Visit}
    (hx : x ∈ walk running tree) : x.IsIn tree.name tree :=
  isIn_of_mem_visits running tree.name tree hx

end VersionGate.Pruning
