import VersionGate.Checker
import VersionGate.Proofs.Pruning.Fault

/-!
# What a pass reports

A pass comes to the entries of the walk in order, up to the first malformed name and with it. What
it meets at an entry depends on the entry alone: on the names that lead to it, which are those that
the nodes above have by then, and on its own name, which is still the one that it had before.

## Key results

- `pruneNode_notices`: what a pass meets is what it meets at each entry that it comes to
- `reports_notices`: what is reported about an entry
- `prune_reports`: the reports of a pass, entry by entry
-/

namespace VersionGate.Pruning

open Config

/-! ## The entries that a pass comes to -/

/-- The entries up to the first one whose name is malformed, and that one. -/
def reached (xs : List Visit) : List Visit :=
  (xs.takeWhile fun x => ¬MalformedName x.name) ++ (firstMalformed xs).toList

/-- A pass gets no further than a malformed name. -/
private theorem reached_cons_of_malformed {x : Visit} (h : MalformedName x.name) (xs : List Visit) :
    reached (x :: xs) = [x] := by
  simp [reached, firstMalformed_cons_of_malformed h, h]

/-- A pass goes on behind any other name. -/
private theorem reached_cons_of_not {x : Visit} (h : ¬MalformedName x.name) (xs : List Visit) :
    reached (x :: xs) = x :: reached xs := by
  simp [reached, firstMalformed_cons_of_not h, h]

/-- A pass comes to what is behind some entries if none of them is malformed. -/
private theorem reached_append_of_none {xs : List Visit} (h : firstMalformed xs = none)
    (ys : List Visit) : reached (xs ++ ys) = reached xs ++ reached ys := by
  induction xs with
  | nil => rfl
  | cons x xs ih =>
    rw [firstMalformed_cons_eq_none_iff, ← not_malformedName_iff] at h
    rw [List.cons_append, reached_cons_of_not h.1, reached_cons_of_not h.1, ih h.2,
      List.cons_append]

/-- A pass does not come to what is behind a malformed name. -/
private theorem reached_append_of_some {xs : List Visit} {x : Visit}
    (h : firstMalformed xs = some x) (ys : List Visit) : reached (xs ++ ys) = reached xs := by
  induction xs with
  | nil => simp [firstMalformed] at h
  | cons y xs ih =>
    by_cases hy : MalformedName y.name
    · rw [List.cons_append, reached_cons_of_malformed hy, reached_cons_of_malformed hy]
    · rw [firstMalformed_cons_of_not hy] at h
      rw [List.cons_append, reached_cons_of_not hy, reached_cons_of_not hy, ih h]

/-- Further up in the tree the same names are reached. -/
private theorem reached_map_under (kept : Option String) (i : Nat) (xs : List Visit) :
    reached (xs.map (·.under kept i)) = (reached xs).map (·.under kept i) := by
  rw [reached, reached, firstMalformed_map_under, List.takeWhile_map, List.map_append,
    Option.toList_map]
  rfl

/-! ## What is met at an entry -/

/-- What a pass meets at an entry of a part of a tree that `above` leads to. -/
def Visit.notices (running : Version) (above : List (Option String)) (x : Visit) : List Notice :=
  let path := pathText (above ++ x.trail)
  let nameless :=
    match x.entry with
    | .value => []
    | .node => namelessNotice path x.name
  nameless ++
    match Verdict.ofName running x.name with
    | .fail fault => [.failed x.entry x.name fault]
    | .remove => [.removed x.entry x.name path]
    | .keep kept => strippedNotice x.entry x.name kept

/-- From the node above, the way to an entry goes through that node. -/
private theorem Visit.notices_under (running : Version) (above : List (Option String))
    (kept : Option String) (i : Nat) (x : Visit) :
    (x.under kept i).notices running above = x.notices running (above ++ [kept]) := by
  simp [notices, under]

/-- What a pass meets in a node at the values is what it meets at each that it comes to. -/
private theorem pruneValues_notices (running : Version) (above : List (Option String))
    (kept : Option String) (i : Nat) (vs : List Value) :
    (pruneValues running (pathText (above ++ [kept])) vs).notices =
      (reached (valueVisits kept i vs)).flatMap (·.notices running above) := by
  induction vs generalizing i with
  | nil => rfl
  | cons v vs ih =>
    rw [pruneValues_cons, valueVisits_cons]
    rcases Verdict.ofName_cases running v.name with ⟨fault, hf, hv⟩ | ⟨hf, -, hv⟩ | ⟨hf, -, hv⟩
    · rw [reached_cons_of_malformed (malformedName_iff.mpr ⟨fault, hf⟩)]
      simp [Visit.notices, hv]
    · rw [reached_cons_of_not (not_malformedName_iff.mpr hf), List.flatMap_cons, ← ih]
      simp [Visit.notices, hv]
    · rw [reached_cons_of_not (not_malformedName_iff.mpr hf), List.flatMap_cons, ← ih]
      simp [Visit.notices, hv]

mutual

/-- What a pass meets in a node is what it meets at each entry that it comes to. -/
theorem pruneNode_notices (running : Version) :
    ∀ (n : Node) (above : List (Option String)) (kept : Option String),
      (pruneNode running above kept n).notices =
        (reached (visits running kept n)).flatMap (·.notices running above)
  | ⟨name, values, nodes⟩, above, kept => by
    have hvalues := pruneValues_notices running above kept 0 values
    rw [visits]
    cases hv : firstMalformed (valueVisits kept 0 values) with
    | some x =>
      -- The pass ends among the values, and no child is come to.
      obtain ⟨fault, hfault⟩ :=
        exists_pruneValues_fault hv running (pathText (above ++ [kept]))
      rw [pruneNode_of_fault hfault, Outcome.notices_map, hvalues, reached_append_of_some hv]
    | none =>
      have hfault := pruneValues_no_fault hv running (pathText (above ++ [kept]))
      rw [pruneNode_of_no_fault hfault, Outcome.notices_after, Outcome.notices_map, hvalues,
        pruneNodes_notices running nodes above kept 0, reached_append_of_none hv,
        List.flatMap_append]

/-- What a pass meets among children is what it meets at each entry that it comes to. -/
private theorem pruneNodes_notices (running : Version) :
    ∀ (ns : List Node) (above : List (Option String)) (kept : Option String) (i : Nat),
      (pruneNodes running (above ++ [kept]) ns).notices =
        (reached (nodeVisits running kept i ns)).flatMap (·.notices running above)
  | [], above, kept, i => by
    rw [nodeVisits]
    rfl
  | n :: ns, above, kept, i => by
    have hrest := pruneNodes_notices running ns above kept (i + 1)
    rw [pruneNodes_cons, nodeVisits, Outcome.notices_after]
    -- A child is malformed, excluded or kept, and the pass and the walk part in the same way.
    rcases Verdict.ofName_cases running n.name with ⟨fault, hf, hn⟩ | ⟨hf, hex, hn⟩ | ⟨hf, hex, hn⟩
    · rw [reached_cons_of_malformed (malformedName_iff.mpr ⟨fault, hf⟩)]
      simp [Visit.notices, hn]
    · rw [reached_cons_of_not (not_malformedName_iff.mpr hf), if_pos hex, List.nil_append,
        List.flatMap_cons, ← hrest]
      simp [Visit.notices, hn]
    · -- In the child, the names that lead to an entry start with those that lead to the child.
      have hchild := pruneNode_notices running n (above ++ [kept]) (AnnotatedName.stripped n.name)
      have hbelow : (reached ((visits running (AnnotatedName.stripped n.name) n).map
          (·.under kept i))).flatMap (·.notices running above) =
          (pruneNode running (above ++ [kept]) (AnnotatedName.stripped n.name) n).notices := by
        rw [reached_map_under, List.flatMap_map, hchild]
        simp only [Visit.notices_under]
      rw [reached_cons_of_not (not_malformedName_iff.mpr hf), if_neg hex, List.flatMap_cons]
      cases hfirst : firstMalformed (visits running (AnnotatedName.stripped n.name) n) with
      | some x =>
        -- The pass ends below the child, and what is behind the child is not come to.
        obtain ⟨fault, hfault⟩ := exists_pruneNode_fault hfirst (above ++ [kept])
        rw [reached_append_of_some (by rw [firstMalformed_map_under, hfirst, Option.map_some]),
          hbelow]
        simp [Visit.notices, hn, hfault]
      | none =>
        have hfault := pruneNode_no_fault hfirst (above ++ [kept])
        rw [reached_append_of_none (by rw [firstMalformed_map_under, hfirst, Option.map_none]),
          List.flatMap_append, hbelow, ← hrest]
        simp [Visit.notices, hn, hfault]

end

/-! ## What is reported -/

/-- What is reported about an entry that can be decided: that it is a child without a name, and that
it goes. The path to the entry ends in its name with the annotation. -/
def Visit.reports (running : Version) (source : String) (x : Visit) : List Report :=
  let path := pathText x.trail
  let nameless :=
    if x.entry = .node ∧ x.name = none then
      [.error source
        ("Error - Node in file " ++ source ++ " subnode: " ++ path ++ " has config.name == None")]
    else []
  let removed :=
    if Excluded running x.name then
      match x.entry with
      | .value => [.valueRemoved source (path ++ "/" ++ plainName x.name)]
      | .node => [.nodeRemoved source (path ++ "/" ++ plainName x.name)]
    else []
  nameless ++ removed

/-- What is reported about an entry that ends the pass. -/
def Visit.failure? (x : Visit) : Option Report :=
  (NameFault.of? x.name).map fun fault =>
    .failed
      ("Exception while checking KSP_VERSION for " ++ x.entry.word ++ " \"" ++ plainName x.name
        ++ "\"")
      (.name fault)

/-- That an entry lost its annotation is not reported. -/
theorem reports_strippedNotice (source : String) (entry : Entry) (name kept : Option String) :
    (strippedNotice entry name kept).filterMap (·.report? source) = [] := by
  rw [strippedNotice]
  split <;> rfl

/-- What a pass meets at an entry of a whole tree is reported in this order. -/
theorem reports_notices (running : Version) (source : String) (x : Visit) :
    (x.notices running []).filterMap (·.report? source) =
      x.reports running source ++ x.failure?.toList := by
  obtain ⟨trail, address, entry, index, name⟩ := x
  rw [Visit.notices, Visit.reports, Visit.failure?, List.filterMap_append, List.append_assoc,
    List.nil_append]
  -- First the missing name, and then what becomes of the entry.
  refine congr_arg₂ (· ++ ·) ?_ ?_
  · cases entry <;> cases name <;> simp [namelessNotice, Notice.report?]
  · rcases Verdict.ofName_cases running name with ⟨fault, hf, hv⟩ | ⟨hf, hex, hv⟩ | ⟨hf, hex, hv⟩
    · have hnot := (malformedName_iff.mpr ⟨fault, hf⟩).not_excluded running
      simp [hf, hv, hnot, Notice.report?]
    · cases entry <;> simp [hf, hv, hex, Notice.report?]
    · simp [hf, hv, hex, reports_strippedNotice]

/-- Only the last entry that a pass comes to can be one that ends it. -/
private theorem flatMap_reached (f : Visit → List Report) (xs : List Visit) :
    (reached xs).flatMap (fun x => f x ++ x.failure?.toList) =
      (reached xs).flatMap f ++ ((firstMalformed xs).bind Visit.failure?).toList := by
  induction xs with
  | nil => rfl
  | cons x xs ih =>
    by_cases hx : MalformedName x.name
    · simp [reached_cons_of_malformed hx, firstMalformed_cons_of_malformed hx]
    · have hfailure : x.failure? = none := by
        rw [Visit.failure?, not_malformedName_iff.mp hx, Option.map_none]
      rw [reached_cons_of_not hx, firstMalformed_cons_of_not hx, List.flatMap_cons,
        List.flatMap_cons, ih, hfailure, Option.toList_none, List.append_nil, List.append_assoc]

/-- What is reported of a pass over a tree. -/
theorem reports_prune (running : Version) (source : String) (tree : Node) :
    (prune running tree).reports source =
      (reached (walk running tree)).flatMap (·.reports running source) ++
        ((firstMalformed (walk running tree)).bind Visit.failure?).toList := by
  rw [prune, Outcome.reports, pruneNode_notices, List.filterMap_flatMap, ← flatMap_reached, walk]
  simp only [reports_notices]

/-- The reports of a pass are what is reported about each entry that it comes to, in the order of
the walk, and at the end, if the pass ends early, about the entry that ends it. The way to an entry
goes from the root, under its own name, through nodes under their names without annotations. -/
theorem prune_reports (c : Checker) (tree : Node) (source : String) :
    ∃ outcome, c.prune (some tree) (some source) = .ok (source, outcome) ∧
      outcome.reports source =
        (reached (walk c.running tree)).flatMap (·.reports c.running source) ++
          ((firstMalformed (walk c.running tree)).bind Visit.failure?).toList ∧
      outcome.fault = (firstMalformed (walk c.running tree)).bind (NameFault.of? ·.name) ∧
      ∀ x ∈ walk c.running tree, x.IsIn tree.name tree := by
  refine ⟨prune c.running tree, rfl, reports_prune c.running source tree, ?_,
    fun x => isIn_of_mem_walk⟩
  rw [prune, pruneNode_fault, firstFault_eq, walk]

end VersionGate.Pruning
