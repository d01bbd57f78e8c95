import VersionGate.Proofs.Pruning.Walk

/-!
# How a pass ends

A pass ends early exactly when the walk comes to a malformed name, and the fault that it ends with
is that of the first one.

## Key results

- `pruneValues_fault`, `pruneNode_fault`, `pruneNodes_fault`: a pass has the first fault of its walk
- `pruneNode_no_fault`, `exists_pruneNode_fault`: whether it has one, by the first malformed name
-/

namespace VersionGate.Pruning

open Config

/-- The fault of the first malformed name. -/
def firstFault (xs : List Visit) : Option NameFault := xs.findSome? fun x => NameFault.of? x.name

/-- The first fault is what is wrong with the first malformed name. -/
theorem firstFault_eq (xs : List Visit) :
    firstFault xs = (firstMalformed xs).bind fun x => NameFault.of? x.name := by
  induction xs with
  | nil => rfl
  | cons x xs ih =>
    rw [firstFault, List.findSome?_cons]
    cases hx : NameFault.of? x.name with
    | none =>
      rw [firstMalformed_cons_of_not (not_malformedName_iff.mpr hx)]
      exact ih
    | some fault =>
      rw [firstMalformed_cons_of_malformed (malformedName_iff.mpr ⟨fault, hx⟩)]
      exact hx.symm

/-- There is no fault exactly if no name is malformed. -/
theorem firstFault_eq_none_iff {xs : List Visit} :
    firstFault xs = none ↔ firstMalformed xs = none := by
  rw [firstMalformed_eq_none_iff, firstFault, List.findSome?_eq_none_iff]
  simp only [not_malformedName_iff]

/-- The first malformed name has the first fault. -/
theorem exists_firstFault {xs : List Visit} {x : Visit} (h : firstMalformed xs = some x) :
    ∃ fault, NameFault.of? x.name = some fault ∧ firstFault xs = some fault := by
  obtain ⟨hx, -⟩ := firstMalformed_eq_some_iff.mp h
  obtain ⟨fault, hfault⟩ := malformedName_iff.mp hx
  exact ⟨fault, hfault, by rw [firstFault_eq, h, Option.bind_some, hfault]⟩

/-- The first fault of two rows is that of the first row that has one. -/
private theorem firstFault_append (xs ys : List Visit) :
    firstFault (xs ++ ys) = (firstFault xs).or (firstFault ys) :=
  List.findSome?_append

/-- Further up in the tree it is the same fault. -/
private theorem firstFault_map_under (kept : Option String) (i : Nat) (xs : List Visit) :
    firstFault (xs.map (·.under kept i)) = firstFault xs := by
  rw [firstFault, List.findSome?_map]
  rfl

/-- Two steps end with the fault of the first one, or else of the second one. -/
private theorem Outcome.fault_andThen {α : Type} (o : Outcome α) (next : α → Outcome α) :
    (o.andThen next).fault = o.fault.or (next o.result).fault := by
  cases h : o.fault with
  | none => rw [andThen_of_no_fault h]; rfl
  | some fault => rw [andThen_of_fault h, h]; rfl

/-- The pass through values ends with the fault of the first malformed name. -/
theorem pruneValues_fault (running : Version) (path : String) (kept : Option String) (i : Nat)
    (vs : List Value) :
    (pruneValues running path vs).fault = firstFault (valueVisits kept i vs) := by
  induction vs generalizing i with
  | nil => rfl
  | cons v vs ih =>
    rw [pruneValues_cons, valueVisits_cons, firstFault, List.findSome?_cons]
    rcases Verdict.ofName_cases running v.name with ⟨fault, hf, hv⟩ | ⟨hf, -, hv⟩ | ⟨hf, -, hv⟩
    · simp only [hf, hv]
    · simp only [hf, hv, Outcome.fault_after]
      exact ih (i + 1)
    · simp only [hf, hv, Outcome.fault_after, Outcome.fault_map]
      exact ih (i + 1)

mutual

/-- The pass through a node ends with the fault of the first malformed name. -/
theorem pruneNode_fault (running : Version) :
    ∀ (n : Node) (above : List (Option String)) (kept : Option String),
      (pruneNode running above kept n).fault = firstFault (visits running kept n)
  | ⟨name, values, nodes⟩, above, kept => by
    rw [pruneNode_eq, Outcome.fault_andThen, visits, firstFault_append]
    simp only [Outcome.fault_map]
    rw [pruneValues_fault running _ kept 0, pruneNodes_fault running nodes _ kept 0]

/-- The pass through children ends with the fault of the first malformed name. -/
theorem pruneNodes_fault (running : Version) :
    ∀ (ns : List Node) (trail : List (Option String)) (kept : Option String) (i : Nat),
      (pruneNodes running trail ns).fault = firstFault (nodeVisits running kept i ns)
  | [], trail, kept, i => by
    rw [nodeVisits]
    rfl
  | n :: ns, trail, kept, i => by
    have hrest := pruneNodes_fault running ns trail kept (i + 1)
    rw [pruneNodes_cons, nodeVisits, firstFault, List.findSome?_cons]
    rcases Verdict.ofName_cases running n.name with ⟨fault, hf, hn⟩ | ⟨hf, hex, hn⟩ | ⟨hf, hex, hn⟩
    · simp only [hf, hn, Outcome.fault_after]
    · simp only [hf, hn, hex, Outcome.fault_after, if_true, List.nil_append]
      exact hrest
    · -- Seen from the node above, the walk through the child has the same faults.
      have hchild := pruneNode_fault running n trail (AnnotatedName.stripped n.name)
      simp only [hf, hn, hex, Outcome.fault_after, if_false]
      show _ = firstFault (_ ++ _)
      rw [firstFault_append, firstFault_map_under, ← hchild, ← hrest]
      cases hc : (pruneNode running trail (AnnotatedName.stripped n.name) n).fault with
      | none => rfl
      | some fault => exact hc

end

/-! ## Whether a pass ends early -/

/-- Without a malformed name among them, values are gone through. -/
theorem pruneValues_no_fault {kept : Option String} {i : Nat} {vs : List Value}
    (h : firstMalformed (valueVisits kept i vs) = none) (running : Version) (path : String) :
    (pruneValues running path vs).fault = none := by
  rw [pruneValues_fault running path kept i, firstFault_eq_none_iff]
  exact h

/-- A malformed name among the values ends the pass. -/
theorem exists_pruneValues_fault {kept : Option String} {i : Nat} {vs : List Value} {x : Visit}
    (h : firstMalformed (valueVisits kept i vs) = some x) (running : Version) (path : String) :
    ∃ fault, (pruneValues running path vs).fault = some fault := by
  obtain ⟨fault, -, hfault⟩ := exists_firstFault h
  exact ⟨fault, by rw [pruneValues_fault running path kept i, hfault]⟩

/-- A pass through a node in which no name is malformed goes through. -/
theorem pruneNode_no_fault {running : Version} {kept : Option String} {n : Node}
    (h : firstMalformed (visits running kept n) = none) (above : List (Option String)) :
    (pruneNode running above kept n).fault = none := by
  rw [pruneNode_fault, firstFault_eq_none_iff]
  exact h

/-- A pass through a node in which the walk comes to a malformed name ends early. -/
theorem exists_pruneNode_fault {running : Version} {kept : Option String} {n : Node} {x : Visit}
    (h : firstMalformed (visits running kept n) = some x) (above : List (Option String)) :
    ∃ fault, (pruneNode running above kept n).fault = some fault := by
  obtain ⟨fault, -, hfault⟩ := exists_firstFault h
  exact ⟨fault, by rw [pruneNode_fault, hfault]⟩

end VersionGate.Pruning
