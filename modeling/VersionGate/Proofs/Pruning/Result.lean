import VersionGate.Checker
import VersionGate.Proofs.Pruning.Fault
import VersionGate.Proofs.Pruning.Kept

/-!
# What a pass leaves behind

A pass that goes through leaves what stays of the tree. If it ends at a malformed name, only what
lies in front of that entry has been gone through.

## Key results

- `pruneNode_result_of_none`: a pass that goes through leaves `keptPart`
- `pruneNode_result_of_some`: a pass that ends at an entry leaves `keptUpTo` that entry
- `prune_leaves_kept`, `prune_leaves_keptUpTo`: both for a checker and a whole tree
-/

namespace VersionGate.Pruning

open Config

/-! ## A pass that goes through -/

/-- Values that are all decided are filtered and renamed. -/
theorem pruneValues_result_of_none {running : Version} {path : String} {kept : Option String}
    {i : Nat} {vs : List Value} (h : firstMalformed (valueVisits kept i vs) = none) :
    (pruneValues running path vs).result = keptValues running vs := by
  induction vs generalizing i with
  | nil => rfl
  | cons v vs ih =>
    rw [valueVisits_cons, firstMalformed_cons_eq_none_iff] at h
    have hrest := ih h.2
    rw [pruneValues_cons]
    rcases Verdict.ofName_cases running v.name with ⟨fault, hf, -⟩ | ⟨-, hex, hv⟩ | ⟨-, hex, hv⟩
    · simp [h.1] at hf
    · simp [hv, hex, keptValues, hrest]
    · simp [hv, hex, keptValues, hrest]

mutual

/-- A node of which all is decided has what stays of it. -/
theorem pruneNode_result_of_none (running : Version) :
    ∀ (n : Node) (above : List (Option String)) (kept : Option String),
      firstMalformed (visits running kept n) = none →
        (pruneNode running above kept n).result = { keptPart running n with name := kept }
  | ⟨name, values, nodes⟩, above, kept, h => by
    rw [visits, firstMalformed_append_eq_none_iff] at h
    rw [pruneNode_of_no_fault (pruneValues_no_fault h.1 running _), keptPart]
    simp only [Outcome.result_after, Outcome.result_map]
    rw [pruneValues_result_of_none h.1, pruneNodes_result_of_none running nodes _ kept 0 h.2]

/-- Children that are all decided are filtered and renamed, each with what stays of it. -/
theorem pruneNodes_result_of_none (running : Version) :
    ∀ (ns : List Node) (trail : List (Option String)) (kept : Option String) (i : Nat),
      firstMalformed (nodeVisits running kept i ns) = none →
        (pruneNodes running trail ns).result = keptNodes running ns
  | [], trail, kept, i, _ => by
    rw [keptNodes]
    rfl
  | n :: ns, trail, kept, i, h => by
    rw [nodeVisits, firstMalformed_cons_eq_none_iff, firstMalformed_append_eq_none_iff] at h
    obtain ⟨hn, hbelow, hbehind⟩ := h
    have hrest := pruneNodes_result_of_none running ns trail kept (i + 1) hbehind
    rw [pruneNodes_cons, keptNodes]
    rcases Verdict.ofName_cases running n.name with ⟨fault, hf, -⟩ | ⟨-, hex, hv⟩ | ⟨-, hex, hv⟩
    · simp [hn] at hf
    · simp [hv, hex, hrest]
    · rw [if_neg hex, firstMalformed_map_under, Option.map_eq_none_iff] at hbelow
      have hchild := pruneNode_result_of_none running n trail _ hbelow
      simp [hv, hex, pruneNode_no_fault hbelow, hchild, hrest]

end

/-! ## A pass that ends early -/

/-- Values up to the first malformed one are filtered and renamed, and the others stay as they
were. -/
private theorem pruneValues_result_of_some {running : Version} {kept : Option String}
    {front vs : List Value} {x : Visit} (path : String)
    (h : firstMalformed (valueVisits kept front.length vs) = some x) :
    x.entry = .value ∧ x.address = [] ∧
      keptValues running front ++ (pruneValues running path vs).result =
        keptValues running ((front ++ vs).take x.index) ++ (front ++ vs).drop x.index := by
  -- Decided values move over to `front`, so that indices go on counting from the first value.
  induction vs generalizing front with
  | nil => exact nomatch h
  | cons v vs ih =>
    rw [valueVisits_cons] at h
    rw [pruneValues_cons]
    rcases Verdict.ofName_cases running v.name with ⟨fault, hf, hv⟩ | ⟨hf, hex, hv⟩ | ⟨hf, hex, hv⟩
    · rw [firstMalformed_cons_of_malformed (malformedName_iff.mpr ⟨fault, hf⟩)] at h
      obtain rfl := Option.some.inj h
      exact ⟨rfl, rfl, by simp [hv]⟩
    · rw [firstMalformed_cons_of_not (not_malformedName_iff.mpr hf)] at h
      have hrest := @ih (front ++ [v]) (by simpa using h)
      simpa [hv, hex, keptValues] using hrest
    · rw [firstMalformed_cons_of_not (not_malformedName_iff.mpr hf)] at h
      have hrest := @ih (front ++ [v]) (by simpa using h)
      simpa [hv, hex, keptValues] using hrest

mutual

/-- A node in which the pass has come to a malformed name is gone through up to that entry. -/
theorem pruneNode_result_of_some (running : Version) :
    ∀ (n : Node) (above : List (Option String)) (kept : Option String) {x : Visit},
      firstMalformed (visits running kept n) = some x →
        (pruneNode running above kept n).result =
          { keptUpTo running x.entry x.index x.address n with name := kept }
  | ⟨name, values, nodes⟩, above, kept, x, h => by
    rw [visits, firstMalformed_append] at h
    cases hv : firstMalformed (valueVisits kept 0 values) with
    | some y =>
      -- The pass ends among the values, and the children stay as they were.
      rw [hv, Option.some_or] at h
      obtain rfl := Option.some.inj h
      obtain ⟨fault, hfault⟩ :=
        exists_pruneValues_fault hv running (pathText (above ++ [kept]))
      have hvs : firstMalformed (valueVisits kept ([] : List Value).length values) = some y := hv
      obtain ⟨hentry, haddress, hvalues⟩ :=
        pruneValues_result_of_some (pathText (above ++ [kept])) hvs
      rw [pruneNode_of_fault hfault, hentry, haddress, keptUpTo]
      simpa [keptValues] using hvalues
    | none =>
      -- All values are decided, and the malformed name is among the children.
      rw [hv, Option.none_or] at h
      rw [pruneNode_of_no_fault (pruneValues_no_fault hv running _)]
      simp only [Outcome.result_after, Outcome.result_map]
      have hnodes := pruneNodes_result_of_some running nodes [] (above ++ [kept]) kept name values h
      rw [List.nil_append] at hnodes
      rw [hnodes, pruneValues_result_of_none hv]
      rfl

/-- Children of which one is malformed, or holds a malformed name, are gone through up to it. -/
private theorem pruneNodes_result_of_some (running : Version) :
    ∀ (ns front : List Node) (trail : List (Option String)) (kept name : Option String)
      (values : List Value) {x : Visit},
      firstMalformed (nodeVisits running kept front.length ns) = some x →
        keptUpTo running x.entry x.index x.address ⟨name, values, front ++ ns⟩ =
          ⟨name, keptValues running values,
            keptNodes running front ++ (pruneNodes running trail ns).result⟩
  | [], front, trail, kept, name, values, x, h => by
    rw [nodeVisits] at h
    exact nomatch h
  | n :: ns, front, trail, kept, name, values, x, h => by
    -- As with values, children that are decided move over to `front`.
    have hlength : front.length + 1 = (front ++ [n]).length := by simp
    have happend : front ++ n :: ns = (front ++ [n]) ++ ns := by simp
    rw [nodeVisits] at h
    rw [pruneNodes_cons]
    rcases Verdict.ofName_cases running n.name with ⟨fault, hf, hv⟩ | ⟨hf, hex, hv⟩ | ⟨hf, hex, hv⟩
    · -- The child itself is malformed.
      rw [firstMalformed_cons_of_malformed (malformedName_iff.mpr ⟨fault, hf⟩)] at h
      obtain rfl := Option.some.inj h
      simp [keptUpTo, hv]
    · -- The child goes, and the malformed name is behind it.
      rw [firstMalformed_cons_of_not (not_malformedName_iff.mpr hf), if_pos hex, List.nil_append,
        hlength] at h
      have hrest := pruneNodes_result_of_some running ns (front ++ [n]) trail kept name values h
      rw [happend, hrest, keptNodes_append_of_excluded hex, hv]
      rfl
    · rw [firstMalformed_cons_of_not (not_malformedName_iff.mpr hf), if_neg hex,
        firstMalformed_append, firstMalformed_map_under] at h
      cases hbelow : firstMalformed (visits running (AnnotatedName.stripped n.name) n) with
      | some y =>
        -- The child stays, and the malformed name is below it.
        rw [hbelow, Option.map_some, Option.some_or] at h
        obtain rfl := Option.some.inj h
        obtain ⟨fault, hfault⟩ := exists_pruneNode_fault hbelow trail
        have hchild := pruneNode_result_of_some running n trail _ hbelow
        simp [Visit.under, keptUpTo, hv, hfault, hchild]
      | none =>
        -- The child stays with what stays of it, and the malformed name is behind it.
        rw [hbelow, Option.map_none, Option.none_or, hlength] at h
        have hrest := pruneNodes_result_of_some running ns (front ++ [n]) trail kept name values h
        have hchild := pruneNode_result_of_none running n trail _ hbelow
        rw [happend, hrest, keptNodes_append_of_not_excluded hex, hv]
        simp [pruneNode_no_fault hbelow, hchild]

end

/-! ## A pass of a checker -/

/-- A pass goes through exactly when the walk through the tree comes to no malformed name, and then
it leaves what stays of the tree, under the name of the root. -/
theorem prune_leaves_kept (c : Checker) (tree : Node) (source : String) :
    ∃ outcome, c.prune (some tree) (some source) = .ok (source, outcome) ∧
      (outcome.fault = none ↔ ∀ x ∈ walk c.running tree, ¬MalformedName x.name) ∧
      (outcome.fault = none → outcome.result = keptPart c.running tree) := by
  refine ⟨prune c.running tree, rfl, ?_, ?_⟩
  · rw [prune, pruneNode_fault, firstFault_eq_none_iff, firstMalformed_eq_none_iff, walk]
  · intro h
    rw [prune, pruneNode_fault, firstFault_eq_none_iff] at h
    rw [prune, pruneNode_result_of_none c.running tree [] tree.name h, keptPart_eq]

/-- A pass over a tree in which the walk comes to a malformed name ends with the fault of the first
one, and leaves the tree gone through up to that entry. -/
theorem prune_leaves_keptUpTo (c : Checker) (tree : Node) (source : String)
    {before after : List Visit} {x : Visit}
    (hwalk : walk c.running tree = before ++ x :: after)
    (hbefore : ∀ y ∈ before, ¬MalformedName y.name) (hx : MalformedName x.name) :
    ∃ outcome fault, c.prune (some tree) (some source) = .ok (source, outcome) ∧
      outcome.fault = some fault ∧ NameFault.of? x.name = some fault ∧
      (tree.at? x.address).bind (entryName? · x.entry x.index) = some x.name ∧
      outcome.result = keptUpTo c.running x.entry x.index x.address tree := by
  have hfirst : firstMalformed (visits c.running tree.name tree) = some x :=
    firstMalformed_eq_some_iff.mpr ⟨hx, before, after, hwalk, hbefore⟩
  have hmem : x ∈ walk c.running tree := by simp [hwalk]
  obtain ⟨fault, hname, hfault⟩ := exists_firstFault hfirst
  refine ⟨prune c.running tree, fault, rfl, ?_, hname, (isIn_of_mem_walk hmem).name_eq, ?_⟩
  · rw [prune, pruneNode_fault, hfault]
  · rw [prune, pruneNode_result_of_some c.running tree [] tree.name hfirst, keptUpTo_self]

/-- In `OK`, the name of the second value has no closing bracket. -/
private def interrupted : Node :=
  { name := some "ROOT"
    values := [⟨some "old:KSP_VERSION[2.0]", "1"⟩]
    nodes := [
      { name := some "GONE:KSP_VERSION[2.0]" },
      { name := some "OK:KSP_VERSION[1.8]"
        values := [⟨some "a:KSP_VERSION[1.8]", "1"⟩, ⟨some "x:KSP_VERSION[1.8", "2"⟩,
          ⟨some "b:KSP_VERSION[2.0]", "3"⟩] },
      { name := some "LATER:KSP_VERSION[2.0]" }] }

/-- All that lies in front of the open bracket is decided, and nothing else. -/
theorem prune_leaves_keptUpTo_open_bracket :
    ∃ outcome fault, (⟨0, .full 1 8 1, rfl⟩ : Checker).prune (some interrupted) (some "a.cfg") =
        .ok ("a.cfg", outcome) ∧
      outcome.fault = some fault ∧ NameFault.of? (some "x:KSP_VERSION[1.8") = some fault ∧
      outcome.result =
        { name := some "ROOT"
          nodes := [
            { name := some "OK"
              values := [⟨some "a", "1"⟩, ⟨some "x:KSP_VERSION[1.8", "2"⟩,
                ⟨some "b:KSP_VERSION[2.0]", "3"⟩] },
            { name := some "LATER:KSP_VERSION[2.0]" }] } := by
  have hwalk : walk (.full 1 8 1) interrupted =
      [⟨[some "ROOT"], [], .value, 0, some "old:KSP_VERSION[2.0]"⟩,
        ⟨[some "ROOT"], [], .node, 0, some "GONE:KSP_VERSION[2.0]"⟩,
        ⟨[some "ROOT"], [], .node, 1, some "OK:KSP_VERSION[1.8]"⟩,
        ⟨[some "ROOT", some "OK"], [1], .value, 0, some "a:KSP_VERSION[1.8]"⟩] ++
      ⟨[some "ROOT", some "OK"], [1], .value, 1, some "x:KSP_VERSION[1.8"⟩ ::
      [⟨[some "ROOT", some "OK"], [1], .value, 2, some "b:KSP_VERSION[2.0]"⟩,
        ⟨[some "ROOT"], [], .node, 2, some "LATER:KSP_VERSION[2.0]"⟩] := by decide +kernel
  obtain ⟨outcome, fault, hprune, hfault, hname, -, hresult⟩ :=
    prune_leaves_keptUpTo ⟨0, .full 1 8 1, rfl⟩ interrupted "a.cfg" hwalk (by decide +kernel)
      (by decide +kernel)
  have hold : Excluded (.full 1 8 1) (some "old:KSP_VERSION[2.0]") := by decide +kernel
  have hgone : Excluded (.full 1 8 1) (some "GONE:KSP_VERSION[2.0]") := by decide +kernel
  have ha : ¬Excluded (.full 1 8 1) (some "a:KSP_VERSION[1.8]") := by decide +kernel
  have hstripped : AnnotatedName.stripped (some "a:KSP_VERSION[1.8]") = some "a" ∧
      AnnotatedName.stripped (some "OK:KSP_VERSION[1.8]") = some "OK" := by decide +kernel
  refine ⟨outcome, fault, hprune, hfault, hname, hresult.trans ?_⟩
  simp [keptUpTo, interrupted, keptValues, keptNodes, hold, hgone, ha, hstripped]

end VersionGate.Pruning
