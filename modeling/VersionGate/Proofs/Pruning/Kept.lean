import VersionGate.Pruning
import VersionGate.Proofs.Annotation

/-!
# What stays of a tree

An entry stays unless its annotation does not hold, and it stays under its name without the
annotation; what a child contains is treated in the same way. `keptPart` says so of a whole tree,
entry by entry and without an order. `keptUpTo` says it of the part of a tree that lies in front of
an entry, the rest staying as it is.

## Key results

- `keptPart_eq`: the values and children of what stays are filtered and renamed, in order
- `keptNodes_append`: neighbouring children do not matter to each other
-/

namespace VersionGate.Pruning

open Config

/-- The values that stay, each under its name without the annotation. -/
def keptValues (running : Version) (vs : List Value) : List Value :=
  (vs.filter fun v => ¬Excluded running v.name).map fun v =>
    { v with name := AnnotatedName.stripped v.name }

mutual

/-- A node with what stays of its values and children. Its own name is left alone. -/
def keptPart (running : Version) : Node → Node
  | ⟨name, values, nodes⟩ => ⟨name, keptValues running values, keptNodes running nodes⟩

/-- The children that stay, each with what stays of it and under its name without the annotation. -/
def keptNodes (running : Version) : List Node → List Node
  | [] => []
  | n :: ns =>
    if Excluded running n.name then keptNodes running ns
    else { keptPart running n with name := AnnotatedName.stripped n.name } :: keptNodes running ns

end

/--
A node of which only the part in front of an entry has been gone through. The entry is the value or
the child at `index` in the node at an address below. On the way down, a node has what stays of its
values and of the children in front of the one on the way; that one stays, without its annotation;
the children behind it are as they were. In the node that holds the entry, it and all behind it are
as they were, which for a value are also all children.
-/
def keptUpTo (running : Version) (entry : Entry) (index : Nat) : List Nat → Node → Node
  | [], n =>
    match entry with
    | .value =>
      { n with values := keptValues running (n.values.take index) ++ n.values.drop index }
    | .node =>
      { n with
        values := keptValues running n.values
        nodes := keptNodes running (n.nodes.take index) ++ n.nodes.drop index }
  | i :: is, n =>
    let onTheWay := n.nodes[i]?.toList.map fun child =>
      { keptUpTo running entry index is child with name := AnnotatedName.stripped child.name }
    { n with
      values := keptValues running n.values
      nodes := keptNodes running (n.nodes.take i) ++ onTheWay ++ n.nodes.drop (i + 1) }

/-- The children that are kept are those that are not excluded, one by one. -/
theorem keptNodes_eq (running : Version) (ns : List Node) :
    keptNodes running ns = (ns.filter fun n => ¬Excluded running n.name).map fun n =>
      { keptPart running n with name := AnnotatedName.stripped n.name } := by
  induction ns with
  | nil => rw [keptNodes]; rfl
  | cons n ns ih =>
    rw [keptNodes]
    split
    · next h => simp [h, ih]
    · next h => simp [h, ih]

/-- What stays of a node: its values and its children, filtered and renamed, in order. -/
theorem keptPart_eq (running : Version) (n : Node) :
    keptPart running n =
      { name := n.name
        values := (n.values.filter fun v => ¬Excluded running v.name).map fun v =>
          { v with name := AnnotatedName.stripped v.name }
        nodes := (n.nodes.filter fun c => ¬Excluded running c.name).map fun c =>
          { keptPart running c with name := AnnotatedName.stripped c.name } } := by
  obtain ⟨name, values, nodes⟩ := n
  rw [keptPart, keptNodes_eq]
  rfl

/-- What is kept of two rows of children stands in a row. -/
theorem keptNodes_append (running : Version) (ms ns : List Node) :
    keptNodes running (ms ++ ns) = keptNodes running ms ++ keptNodes running ns := by
  simp [keptNodes_eq]

/-- A child that is excluded adds nothing. -/
theorem keptNodes_append_of_excluded {running : Version} {n : Node}
    (h : Excluded running n.name) (front : List Node) :
    keptNodes running (front ++ [n]) = keptNodes running front := by
  simp [keptNodes_append, keptNodes, h]

/-- A child that is not excluded adds what is kept of it. -/
theorem keptNodes_append_of_not_excluded {running : Version} {n : Node}
    (h : ¬Excluded running n.name) (front : List Node) :
    keptNodes running (front ++ [n]) =
      keptNodes running front ++
        [{ keptPart running n with name := AnnotatedName.stripped n.name }] := by
  simp [keptNodes_append, keptNodes, h]

/-- Going through part of a node leaves its name alone. -/
theorem keptUpTo_self (running : Version) (entry : Entry) (index : Nat) (address : List Nat)
    (n : Node) :
    { keptUpTo running entry index address n with name := n.name } =
      keptUpTo running entry index address n := by
  cases address with
  | nil => cases entry <;> rfl
  | cons i is => rfl

end VersionGate.Pruning
