import VersionGate.Pruning

/-!
# A pass, entry by entry

The walk through the entries of a node carries along what stays so far and how many entries have
been decided, and only puts the entries of the node together when it ends. What it does from some
place on does not depend on what lies in front (`walkValues_behind`, `walkNodes_behind`). So the
entries of a node come out as if each of them was put in front of what becomes of those behind it.

## Key results

- `Progress.map_commit_behind`: what stays of the first entry comes before what is behind it
- `pruneValues_cons`, `pruneNodes_cons`: what becomes of the first entry, and of those behind it
- `pruneNode_eq`: first the values, then, unless that has ended the pass, the children
-/

namespace VersionGate.Pruning

open Config

namespace Outcome

variable {α β γ : Type}

@[simp] theorem map_mk (f : α → β) (result : α) (notices : List Notice)
    (fault : Option NameFault) :
    (mk result notices fault).map f = ⟨f result, notices, fault⟩ := rfl

@[simp] theorem map_map (f : α → β) (g : β → γ) (o : Outcome α) :
    (o.map f).map g = o.map (g ∘ f) := rfl

@[simp] theorem map_after (f : α → β) (ns : List Notice) (o : Outcome α) :
    (o.after ns).map f = (o.map f).after ns := rfl

/-- What goes on under a view of the result can be viewed afterwards. -/
theorem map_andThen {f : α → β} {next : α → Outcome α} {next' : β → Outcome β}
    (h : ∀ a, next' (f a) = (next a).map f) (o : Outcome α) :
    (o.andThen next).map f = (o.map f).andThen next' := by
  obtain ⟨result, notices, fault⟩ := o
  cases fault with
  | none => simp [andThen, h]
  | some fault => rfl

end Outcome

/-! ## The walk through some entries, behind others -/

namespace Progress

variable {α : Type}

/-- The same progress behind entries of which `kept` stay and `decided` have been decided. -/
def behind (kept : List α) (decided : Nat) (p : Progress α) : Progress α :=
  ⟨kept ++ p.kept, decided + p.decided⟩

@[simp] theorem keep_behind (kept : List α) (decided : Nat) (p : Progress α) (entry : α) :
    (p.behind kept decided).keep entry = (p.keep entry).behind kept decided := by
  simp [keep, behind, Nat.add_assoc]

@[simp] theorem remove_behind (kept : List α) (decided : Nat) (p : Progress α) :
    (p.behind kept decided).remove = p.remove.behind kept decided := by
  simp [remove, behind, Nat.add_assoc]

/-- Where the entry in front has been decided, what stays of it comes first. -/
private theorem map_commit_behind (kept : List α) (entry : α) (entries : List α)
    (o : Outcome (Progress α)) :
    (o.map (·.behind kept 1)).map (·.commit (entry :: entries)) =
      (o.map (·.commit entries)).map (kept ++ ·) := by
  obtain ⟨p, notices, fault⟩ := o
  simp [commit, behind, Nat.add_comm 1]

end Progress

/-- What the walk through values does depends on nothing in front of them. -/
theorem walkValues_behind (running : Version) (path : String) (kept : List Value)
    (decided : Nat) (vs : List Value) (p : Progress Value) :
    walkValues running path vs (p.behind kept decided) =
      (walkValues running path vs p).map (·.behind kept decided) := by
  induction vs generalizing p with
  | nil => rfl
  | cons v vs ih =>
    simp only [walkValues]
    cases Verdict.ofName running v.name with
    | fail fault => rfl
    | remove => simp only [Progress.remove_behind, ih, Outcome.map_after]
    | keep name => simp only [Progress.keep_behind, ih, Outcome.map_after]

/-- What the walk through children does depends on nothing in front of them. -/
theorem walkNodes_behind (running : Version) (trail : List (Option String)) (kept : List Node)
    (decided : Nat) (ns : List Node) (p : Progress Node) :
    walkNodes running trail ns (p.behind kept decided) =
      (walkNodes running trail ns p).map (·.behind kept decided) := by
  induction ns generalizing p with
  | nil => rfl
  | cons n ns ih =>
    simp only [walkNodes, Outcome.map_after]
    cases Verdict.ofName running n.name with
    | fail fault => rfl
    | remove => simp only [Progress.remove_behind, ih, Outcome.map_after]
    | keep name =>
      -- What becomes of the child is not known before the pass has gone through it.
      have hkeep : (p.behind kept decided).keep = (·.behind kept decided) ∘ p.keep :=
        funext fun child => p.keep_behind kept decided child
      simp only [Outcome.map_after]
      rw [Outcome.map_andThen ih, Outcome.map_map, ← hkeep]

/-! ## The entries of a node -/

/-- What becomes of a value and of those behind it. -/
theorem pruneValues_cons (running : Version) (path : String) (v : Value) (vs : List Value) :
    pruneValues running path (v :: vs) =
      match Verdict.ofName running v.name with
      | .fail fault => ⟨v :: vs, [.failed .value v.name fault], some fault⟩
      | .remove => (pruneValues running path vs).after [.removed .value v.name path]
      | .keep name =>
        ((pruneValues running path vs).map ({ v with name } :: ·)).after
          (strippedNotice .value v.name name) := by
  rw [pruneValues, walkValues]
  -- Once the value is decided, the walk goes on behind it.
  cases Verdict.ofName running v.name with
  | fail fault => rfl
  | remove =>
    have hp : ({} : Progress Value).remove = ({} : Progress Value).behind [] 1 := rfl
    simp only [hp, walkValues_behind, Outcome.map_after, Progress.map_commit_behind]
    rfl
  | keep name =>
    have hp : ({} : Progress Value).keep { v with name } =
      ({} : Progress Value).behind [{ v with name }] 1 := rfl
    simp only [hp, walkValues_behind, Outcome.map_after, Progress.map_commit_behind]
    rfl

/-- Prunes the children of the node that `trail` leads to, root first. -/
def pruneNodes (running : Version) (trail : List (Option String)) (nodes : List Node) :
    Outcome (List Node) :=
  (walkNodes running trail nodes {}).map (·.commit nodes)

/-- What becomes of a child and of those behind it. -/
theorem pruneNodes_cons (running : Version) (trail : List (Option String)) (n : Node)
    (ns : List Node) :
    pruneNodes running trail (n :: ns) =
      Outcome.after (namelessNotice (pathText trail) n.name)
        (match Verdict.ofName running n.name with
        | .fail fault => ⟨n :: ns, [.failed .node n.name fault], some fault⟩
        | .remove =>
          (pruneNodes running trail ns).after [.removed .node n.name (pathText trail)]
        | .keep kept =>
          let child := pruneNode running trail kept n
          Outcome.after (strippedNotice .node n.name kept)
            (match child.fault with
            | some _ => child.map (· :: ns)
            | none => ((pruneNodes running trail ns).map (child.result :: ·)).after
                child.notices)) := by
  rw [pruneNodes, walkNodes]
  simp only [Outcome.map_after]
  -- What has been decided before does not matter to the rest of the walk: it is put in front of it.
  cases Verdict.ofName running n.name with
  | fail fault => rfl
  | remove =>
    -- the child is counted, and not kept
    have hp : ({} : Progress Node).remove = ({} : Progress Node).behind [] 1 := rfl
    simp only [hp, walkNodes_behind, Outcome.map_after, Progress.map_commit_behind]
    rfl
  | keep kept =>
    have hp : ({} : Progress Node).keep = fun child => ({} : Progress Node).behind [child] 1 := rfl
    simp only [hp, Outcome.map_after, Outcome.andThen, Outcome.fault_map, Outcome.result_map,
      Outcome.notices_map]
    cases (pruneNode running trail kept n).fault with
    | some fault => rfl
    | none =>
      simp only [walkNodes_behind, Outcome.map_after, Progress.map_commit_behind]
      rfl

/-- The values of a node come first, and then, unless the pass has ended, its children. -/
theorem pruneNode_eq (running : Version) (above : List (Option String)) (kept : Option String)
    (n : Node) :
    pruneNode running above kept n =
      ((pruneValues running (pathText (above ++ [kept])) n.values).map
        fun values => ⟨kept, values, n.nodes⟩).andThen
          fun node => (pruneNodes running (above ++ [kept]) n.nodes).map
            fun nodes => { node with nodes } := by
  obtain ⟨name, values, nodes⟩ := n
  rw [pruneNode]
  rfl

/-- A pass that has ended among the values does not come to the children. -/
theorem pruneNode_of_fault {running : Version} {above : List (Option String)}
    {kept : Option String} {values : List Value} {fault : NameFault}
    (h : (pruneValues running (pathText (above ++ [kept])) values).fault = some fault)
    (name : Option String) (nodes : List Node) :
    pruneNode running above kept ⟨name, values, nodes⟩ =
      (pruneValues running (pathText (above ++ [kept])) values).map
        fun values => ⟨kept, values, nodes⟩ := by
  have h' : ((pruneValues running (pathText (above ++ [kept])) values).map
      fun values => (⟨kept, values, nodes⟩ : Node)).fault = some fault := h
  rw [pruneNode_eq]
  exact Outcome.andThen_of_fault h' _

/-- If nothing is wrong with the values, the children are pruned next. -/
theorem pruneNode_of_no_fault {running : Version} {above : List (Option String)}
    {kept : Option String} {values : List Value}
    (h : (pruneValues running (pathText (above ++ [kept])) values).fault = none)
    (name : Option String) (nodes : List Node) :
    pruneNode running above kept ⟨name, values, nodes⟩ =
      ((pruneNodes running (above ++ [kept]) nodes).map fun nodes =>
        ⟨kept, (pruneValues running (pathText (above ++ [kept])) values).result, nodes⟩).after
          (pruneValues running (pathText (above ++ [kept])) values).notices := by
  have h' : ((pruneValues running (pathText (above ++ [kept])) values).map
      fun values => (⟨kept, values, nodes⟩ : Node)).fault = none := h
  rw [pruneNode_eq]
  exact Outcome.andThen_of_no_fault h' _

/-- A node that a pass goes through gets the name under which it stays. -/
@[simp] theorem name_pruneNode (running : Version) (above : List (Option String))
    (kept : Option String) (n : Node) : (pruneNode running above kept n).result.name = kept := by
  rw [pruneNode_eq]
  cases hfault : (pruneValues running (pathText (above ++ [kept])) n.values).fault with
  | some fault => simp [Outcome.andThen, hfault]
  | none => simp [Outcome.andThen, hfault]

end VersionGate.Pruning
