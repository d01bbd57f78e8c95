import VersionGate.Proofs.Pruning.Settled

/-!
# Places of entries

An entry is known by its place in a tree: the address of its node, its kind, and its index there.
The place changes when a pass goes through the tree up to the entry, because what is gone in front
of it, and in front of the nodes on the way, does not count any more: `Place.settled`.

## Key results

- `rename_value`, `rename_node`, `rename_under`: what giving the entry at a place another name does
- `settled_value`, `settled_node`, `settled_under`: the place after a pass up to the entry
- `eq_or_mem_of_mem_rename`: the names in a tree in which an entry has got another name
-/

namespace List

variable {α : Type}

/-- The element behind as many as the number says is changed, and no other one. -/
private theorem modify_append_cons (front : List α) (a : α) (back : List α) (f : α → α) :
    (front ++ a :: back).modify front.length f = front ++ f a :: back := by
  induction front with
  | nil => rfl
  | cons b front ih => simp [ih]

/-- What is in a changed list was there before, or comes of what was there. -/
private theorem exists_of_mem_modify {l : List α} {i : Nat} {f : α → α} {b : α}
    (h : b ∈ l.modify i f) : b ∈ l ∨ ∃ a ∈ l, b = f a := by
  induction l generalizing i with
  | nil => simp at h
  | cons a l ih =>
    cases i with
    | zero =>
      rw [List.modify_zero_cons, List.mem_cons] at h
      rcases h with rfl | h
      · exact .inr ⟨a, by simp, rfl⟩
      · exact .inl (by simp [h])
    | succ i =>
      rw [List.modify_succ_cons, List.mem_cons] at h
      rcases h with rfl | h
      · exact .inl (by simp)
      · rcases ih h with h | ⟨c, hc, rfl⟩
        · exact .inl (by simp [h])
        · exact .inr ⟨c, by simp [hc], rfl⟩

end List

namespace VersionGate.Pruning

open Config

/-- The place of an entry in a tree. -/
structure Place where
  address : List Nat
  entry : Entry
  index : Nat
  deriving DecidableEq, Repr

/-- The place of an entry that the walk comes to. -/
def Visit.place (x : Visit) : Place := ⟨x.address, x.entry, x.index⟩

/-- The same place seen from the node above, in which the node is the child at `i`. -/
def Place.under (i : Nat) (p : Place) : Place := { p with address := i :: p.address }

@[simp] theorem place_under (kept : Option String) (i : Nat) (x : Visit) :
    (x.under kept i).place = x.place.under i := rfl

/-- The name at a place. -/
def nameAt? (n : Node) (p : Place) : Option (Option String) :=
  (n.at? p.address).bind (entryName? · p.entry p.index)

/-- Gives an entry of a node another name. -/
def renameEntry (entry : Entry) (index : Nat) (name : Option String) (n : Node) : Node :=
  match entry with
  | .value => { n with values := n.values.modify index fun v => { v with name } }
  | .node => { n with nodes := n.nodes.modify index fun child => { child with name } }

/-- Gives the entry at a place another name. -/
def rename (p : Place) (name : Option String) (n : Node) : Node :=
  n.modifyAt (renameEntry p.entry p.index name) p.address

/-- The place that the entry at `index` below an address has after a pass that has ended there: of
the entries in front, and of those in front of a node on the way, only the ones that stay count. -/
def settledPlace (running : Version) (entry : Entry) (index : Nat) : List Nat → Node → Place
  | [], n =>
    match entry with
    | .value => ⟨[], entry, (keptValues running (n.values.take index)).length⟩
    | .node => ⟨[], entry, (keptNodes running (n.nodes.take index)).length⟩
  | i :: is, n =>
    let below : Place :=
      match n.nodes[i]? with
      | none => ⟨is, entry, index⟩
      | some child => settledPlace running entry index is child
    below.under (keptNodes running (n.nodes.take i)).length

/-- The place of an entry of a tree after a pass that has ended there. -/
def Place.settled (running : Version) (tree : Node) (p : Place) : Place :=
  settledPlace running p.entry p.index p.address tree

/-- A value of the node itself is renamed. -/
theorem rename_value (front : List Value) (v : Value) (back : List Value) (nodes : List Node)
    (kept name : Option String) :
    rename ⟨[], .value, front.length⟩ name ⟨kept, front ++ v :: back, nodes⟩ =
      ⟨kept, front ++ { v with name } :: back, nodes⟩ := by
  simp [rename, Node.modifyAt, renameEntry, List.modify_append_cons]

/-- A child of the node itself is renamed. -/
theorem rename_node (values : List Value) (front : List Node) (n : Node) (back : List Node)
    (kept name : Option String) :
    rename ⟨[], .node, front.length⟩ name ⟨kept, values, front ++ n :: back⟩ =
      ⟨kept, values, front ++ { n with name } :: back⟩ := by
  simp [rename, Node.modifyAt, renameEntry, List.modify_append_cons]

/-- Below a child, the renaming is one of that child. -/
theorem rename_under (values : List Value) (front : List Node) (n : Node) (back : List Node)
    (kept name : Option String) (p : Place) :
    rename (p.under front.length) name ⟨kept, values, front ++ n :: back⟩ =
      ⟨kept, values, front ++ rename p name n :: back⟩ := by
  simp [rename, Place.under, Node.modifyAt, List.modify_append_cons]

/-- Giving an entry of a node another name leaves the name of the node alone. -/
@[simp] theorem name_rename (p : Place) (name : Option String) (n : Node) :
    (rename p name n).name = n.name := by
  obtain ⟨address, entry, index⟩ := p
  cases address with
  | nil => cases entry <;> rfl
  | cons i is => rfl

/-- A value is found behind the values before it that are kept. -/
theorem settled_value (running : Version) (front back : List Value) (nodes : List Node)
    (name : Option String) :
    (⟨[], .value, front.length⟩ : Place).settled running ⟨name, front ++ back, nodes⟩ =
      ⟨[], .value, (keptValues running front).length⟩ := by
  simp [Place.settled, settledPlace]

/-- A child is found behind the children before it that are kept. -/
theorem settled_node (running : Version) (values : List Value) (front back : List Node)
    (name : Option String) :
    (⟨[], .node, front.length⟩ : Place).settled running ⟨name, values, front ++ back⟩ =
      ⟨[], .node, (keptNodes running front).length⟩ := by
  simp [Place.settled, settledPlace]

/-- What is below a child is found below it, behind the children before it that are kept. -/
theorem settled_under (running : Version) (values : List Value) (front : List Node) (n : Node)
    (back : List Node) (name : Option String) (p : Place) :
    (p.under front.length).settled running ⟨name, values, front ++ n :: back⟩ =
      (p.settled running n).under (keptNodes running front).length := by
  simp [Place.settled, settledPlace, Place.under]

/-! ## The names in a tree with an entry renamed -/

private theorem mem_childNames {ns : List Node} {name : Option String} :
    name ∈ childNames ns ↔ ∃ n ∈ ns, name = n.name ∨ name ∈ entryNames n := by
  induction ns with
  | nil => simp [childNames]
  | cons n ns ih => simp [childNames, ih, or_assoc]

/-- Giving an entry another name brings no other name into the tree. -/
theorem eq_or_mem_of_mem_rename {p : Place} {new : Option String} {n : Node} {name : Option String}
    (h : name ∈ entryNames (rename p new n)) : name = new ∨ name ∈ entryNames n := by
  obtain ⟨address, entry, index⟩ := p
  simp only [rename] at h
  -- The induction is on the address: at its end the entry gets the name, and above it all names
  -- stay.
  induction address generalizing n with
  | nil =>
    obtain ⟨kept, values, nodes⟩ := n
    cases entry with
    | value =>
      simp only [Node.modifyAt, renameEntry, entryNames, List.mem_append, List.mem_map] at h ⊢
      rcases h with ⟨v, hv, rfl⟩ | h
      · rcases List.exists_of_mem_modify hv with hv | ⟨w, -, rfl⟩
        · exact .inr (.inl ⟨v, hv, rfl⟩)
        · exact .inl rfl
      · exact .inr (.inr h)
    | node =>
      simp only [Node.modifyAt, renameEntry, entryNames, List.mem_append, mem_childNames] at h ⊢
      rcases h with h | ⟨c, hc, h⟩
      · exact .inr (.inl h)
      · rcases List.exists_of_mem_modify hc with hc | ⟨d, hd, rfl⟩
        · exact .inr (.inr ⟨c, hc, h⟩)
        · rw [entryNames_with_name] at h
          rcases h with rfl | h
          · exact .inl rfl
          · exact .inr (.inr ⟨d, hd, .inr h⟩)
  | cons i is ih =>
    obtain ⟨kept, values, nodes⟩ := n
    simp only [Node.modifyAt, entryNames, List.mem_append, mem_childNames] at h ⊢
    rcases h with h | ⟨c, hc, h⟩
    · exact .inr (.inl h)
    · rcases List.exists_of_mem_modify hc with hc | ⟨d, hd, rfl⟩
      · exact .inr (.inr ⟨c, hc, h⟩)
      · -- The entry is below the child at `i`, which keeps its own name.
        have hname : (d.modifyAt (renameEntry entry index new) is).name = d.name :=
          name_rename ⟨is, entry, index⟩ new d
        rw [hname] at h
        rcases h with h | h
        · exact .inr (.inr ⟨d, hd, .inl h⟩)
        · rcases ih h with h | h
          · exact .inl h
          · exact .inr (.inr ⟨d, hd, .inr h⟩)

end VersionGate.Pruning
