import VersionGate.Proofs.Pruning.Ending
import VersionGate.Proofs.Pruning.Place
import VersionGate.Proofs.Pruning.Trace

/-!
# Going on after a failure

A pass that ends at an entry leaves a tree in which all that lies in front is decided. Once the name
of that entry is put right, another pass goes on from there: it comes to the same end and leaves the
same tree as a single pass over the tree with the name put right from the start, and between them
the two passes remove what that pass removes, each thing once. For this no name may get a new marker
by losing its annotation.

## Key results

- `EndsAt.exists_settled`: a pass over what an ended pass has left ends at the same entry
- `EndsAt.onlyRemovals_rename`: what another pass does once the entry has a new name
- `prune_resumes`: the passes before and after a failure make up one pass without it
-/

namespace VersionGate.Pruning

open Config

/-! ## The tree that is left -/

/-- A pass over what a pass has left that ended at an entry ends there, too. -/
theorem EndsAt.exists_settled {running : Version} {kept : Option String} {n : Node} {x : Visit}
    (h : EndsAt running kept n x)
    (hclean : ∀ name ∈ entryNames n, AnnotatedName.StripsClean name)
    (above : List (Option String)) :
    ∃ y, EndsAt running kept (pruneNode running above kept n).result y ∧
      y.place = x.place.settled running n ∧ y.name = x.name := by
  -- In each case the entries in front are passed over again, as none of them has a marker left.
  induction h generalizing above with
  | @atValue kept name front back v nodes hfront hv =>
    obtain ⟨hcleanFront, -⟩ := forall_mem_entryNames_values.mp hclean
    rw [result_pruneNode_at_value hfront hv]
    refine ⟨_, .atValue (of?_of_mem_keptValues running hfront hcleanFront) hv, ?_, rfl⟩
    exact (settled_value running front (v :: back) nodes name).symm
  | @atChild kept name values front back n hvalues hfront hn =>
    obtain ⟨hcleanValues, hcleanFront, -⟩ := forall_mem_entryNames_child.mp hclean
    have hmarker := hasMarker_of_mem_keptNodes running front kept 0 hfront hcleanFront
    rw [result_pruneNode_at_child hvalues hfront hn]
    refine ⟨_, .atChild (of?_of_mem_keptValues running hvalues hcleanValues)
      (firstMalformed_nodeVisits_of_hasMarker hmarker running kept 0) hn, ?_, rfl⟩
    exact (settled_node running values front (n :: back) name).symm
  | @inChild kept name values front back n x hvalues hfront hn hex hbelow ih =>
    obtain ⟨hcleanValues, hcleanFront, hcleanName, hcleanBelow, -⟩ :=
      forall_mem_entryNames_child.mp hclean
    obtain ⟨y, hy, hplace, hname⟩ := ih hcleanBelow (above ++ [kept])
    have hmarker := hasMarker_of_mem_keptNodes running front kept 0 hfront hcleanFront
    -- The child has lost its annotation, and its name is left alone from then on.
    have hchild : AnnotatedName.hasMarker
        (pruneNode running (above ++ [kept]) (AnnotatedName.stripped n.name) n).result.name =
          false := by
      rw [name_pruneNode]
      exact hasMarker_stripped hn hcleanName
    rw [result_pruneNode_in_child hvalues hfront hn hex hbelow]
    refine ⟨_, .inChild (x := y) (of?_of_mem_keptValues running hvalues hcleanValues)
      (firstMalformed_nodeVisits_of_hasMarker hmarker running kept 0) (of?_of_hasMarker hchild)
      (not_excluded_of_hasMarker hchild running) ?_, ?_, hname⟩
    · rw [AnnotatedName.stripped_of_hasMarker hchild, name_pruneNode]
      exact hy
    · rw [place_under, place_under, settled_under, hplace]

/-! ## Another pass -/

/-- Of two children that stay under the same name, what becomes of them decides what becomes of
the children from there on. -/
private theorem onlyRemovals_pruneNodes_cons {running : Version} {trail : List (Option String)}
    {kept : Option String} {m n : Node} {removed : List Notice}
    (hm : Verdict.ofName running m.name = .keep kept)
    (hn : Verdict.ofName running n.name = .keep kept)
    (h : (pruneNode running trail kept m).onlyRemovals =
      (pruneNode running trail kept n).onlyRemovals.after removed) (back : List Node) :
    (pruneNodes running trail (m :: back)).onlyRemovals =
      (pruneNodes running trail (n :: back)).onlyRemovals.after removed := by
  have hfault : (pruneNode running trail kept m).fault = (pruneNode running trail kept n).fault :=
    congrArg (·.fault) h
  have hresult : (pruneNode running trail kept m).result =
      (pruneNode running trail kept n).result := congrArg (·.result) h
  have hnotices : (pruneNode running trail kept m).notices.filter Notice.isRemoval =
      removed ++ (pruneNode running trail kept n).notices.filter Notice.isRemoval :=
    congrArg (·.notices) h
  rw [pruneNodes_cons, pruneNodes_cons, hm, hn]
  -- If the pass ends in the one child it does in the other, and else it goes on behind both.
  cases hend : (pruneNode running trail kept n).fault with
  | some fault => simp [hfault, hend, h]
  | none => simp [hfault, hend, hresult, hnotices]

/-- Once the entry at which a pass has ended has another name, a second pass does what is left to be
done of a single pass over the tree in which the entry has that name. -/
theorem EndsAt.onlyRemovals_rename {running : Version} {kept : Option String} {n : Node}
    {x : Visit} (h : EndsAt running kept n x)
    (hclean : ∀ name ∈ entryNames n, AnnotatedName.StripsClean name) (new : Option String)
    (above : List (Option String)) :
    (pruneNode running above kept (rename x.place new n)).onlyRemovals =
      (pruneNode running above kept (rename (x.place.settled running n) new
        (pruneNode running above kept n).result)).onlyRemovals.after
          (pruneNode running above kept n).onlyRemovals.notices := by
  induction h generalizing above with
  | @atValue kept name front back v nodes hfront hv =>
    obtain ⟨hcleanFront, -⟩ := forall_mem_entryNames_values.mp hclean
    obtain ⟨fault, hfault⟩ := malformedName_iff.mp hv
    have hplace : (⟨[kept], [], .value, front.length, v.name⟩ : Visit).place =
        ⟨[], .value, front.length⟩ := rfl
    -- In front of the value the second pass has nothing to do, and from there on both go on alike.
    rw [onlyRemovals_pruneNode_at_value hfront hfault, result_pruneNode_at_value hfront hv, hplace,
      settled_value, rename_value, rename_value, pruneNode_values_append hfront,
      pruneNode_keptValues_append hfront hcleanFront, Outcome.onlyRemovals_after]
  | @atChild kept name values front back n hvalues hfront hn =>
    obtain ⟨hcleanValues, hcleanFront, -⟩ := forall_mem_entryNames_child.mp hclean
    obtain ⟨fault, hfault⟩ := malformedName_iff.mp hn
    have hplace : (⟨[kept], [], .node, front.length, n.name⟩ : Visit).place =
        ⟨[], .node, front.length⟩ := rfl
    rw [onlyRemovals_pruneNode_at_child hvalues hfront hfault,
      result_pruneNode_at_child hvalues hfront hn, hplace, settled_node, rename_node, rename_node,
      pruneNode_nodes_append hvalues hfront,
      onlyRemovals_pruneNode_keptNodes_append hvalues hfront hcleanValues hcleanFront,
      Outcome.onlyRemovals_after, Outcome.onlyRemovals_map]
  | @inChild kept name values front back n x hvalues hfront hn hex hbelow ih =>
    obtain ⟨hcleanValues, hcleanFront, hcleanName, hcleanBelow, -⟩ :=
      forall_mem_entryNames_child.mp hclean
    obtain ⟨fault, hfault⟩ := hbelow.exists_fault (above ++ [kept])
    -- Both children stay, under the same name, and the second pass goes on below.
    have hbefore : Verdict.ofName running (rename x.place new n).name =
        .keep (AnnotatedName.stripped n.name) := by
      rw [name_rename]
      exact Verdict.ofName_of_not_excluded hn hex
    have hafter : Verdict.ofName running (rename (x.place.settled running n) new
        (pruneNode running (above ++ [kept]) (AnnotatedName.stripped n.name) n).result).name =
          .keep (AnnotatedName.stripped n.name) := by
      rw [name_rename, name_pruneNode]
      exact Verdict.ofName_of_hasMarker (hasMarker_stripped hn hcleanName) running
    have hchild := onlyRemovals_pruneNodes_cons hbefore hafter
      (ih hcleanBelow (above ++ [kept])) back
    rw [onlyRemovals_pruneNode_in_child hvalues hfront hn hex hfault,
      result_pruneNode_in_child hvalues hfront hn hex hbelow, place_under, settled_under,
      rename_under, rename_under, pruneNode_nodes_append hvalues hfront,
      onlyRemovals_pruneNode_keptNodes_append hvalues hfront hcleanValues hcleanFront,
      Outcome.onlyRemovals_after, Outcome.onlyRemovals_map, hchild, Outcome.map_after,
      Outcome.after_after]

/-! ## The names that are left -/

/-- In what a pass leaves that has ended at an entry, a name has no marker or is one of those that
were there. -/
private theorem EndsAt.mem_entryNames_result {running : Version} {kept : Option String} {n : Node}
    {x : Visit} (h : EndsAt running kept n x)
    (hclean : ∀ name ∈ entryNames n, AnnotatedName.StripsClean name)
    (above : List (Option String)) :
    ∀ name ∈ entryNames (pruneNode running above kept n).result,
      AnnotatedName.hasMarker name = false ∨ name ∈ entryNames n := by
  -- In each case, what was kept in front of the entry has lost its markers, and the rest is as it
  -- was.
  induction h generalizing above with
  | @atValue kept name front back v nodes hfront hv =>
    obtain ⟨hcleanFront, -⟩ := forall_mem_entryNames_values.mp hclean
    obtain ⟨-, hback, hchildren⟩ := forall_mem_entryNames_values
      (p := (· ∈ entryNames ⟨name, front ++ v :: back, nodes⟩)).mp fun _ hm => hm
    have hmarker := hasMarker_of_mem_keptValues running hfront hcleanFront
    rw [result_pruneNode_at_value hfront hv, forall_mem_entryNames_values]
    exact ⟨fun m hm => .inl (hmarker m hm), fun m hm => .inr (hback m hm),
      fun m hm => .inr (hchildren m hm)⟩
  | @atChild kept name values front back n hvalues hfront hn =>
    obtain ⟨hcleanValues, hcleanFront, -⟩ := forall_mem_entryNames_child.mp hclean
    obtain ⟨-, -, hname, hbelow, hback⟩ := forall_mem_entryNames_child
      (p := (· ∈ entryNames ⟨name, values, front ++ n :: back⟩)).mp fun _ hm => hm
    have hmarkerValues := hasMarker_of_mem_keptValues running hvalues hcleanValues
    have hmarkerFront := hasMarker_of_mem_keptNodes running front kept 0 hfront hcleanFront
    rw [result_pruneNode_at_child hvalues hfront hn, forall_mem_entryNames_child]
    -- The child in which the pass ends has lost its marker, and below it the induction hypothesis
    -- says the same again.
    exact ⟨fun m hm => .inl (hmarkerValues m hm), fun m hm => .inl (hmarkerFront m hm), .inr hname,
      fun m hm => .inr (hbelow m hm), fun m hm => .inr (hback m hm)⟩
  | @inChild kept name values front back n x hvalues hfront hn hex hends ih =>
    obtain ⟨hcleanValues, hcleanFront, hcleanName, hcleanBelow, -⟩ :=
      forall_mem_entryNames_child.mp hclean
    obtain ⟨-, -, -, hbelow, hback⟩ := forall_mem_entryNames_child
      (p := (· ∈ entryNames ⟨name, values, front ++ n :: back⟩)).mp fun _ hm => hm
    have hmarkerValues := hasMarker_of_mem_keptValues running hvalues hcleanValues
    have hmarkerFront := hasMarker_of_mem_keptNodes running front kept 0 hfront hcleanFront
    rw [result_pruneNode_in_child hvalues hfront hn hex hends, forall_mem_entryNames_child,
      name_pruneNode]
    exact ⟨fun m hm => .inl (hmarkerValues m hm), fun m hm => .inl (hmarkerFront m hm),
      .inl (hasMarker_stripped hn hcleanName),
      fun m hm => (ih hcleanBelow (above ++ [kept]) m hm).imp_right (hbelow m),
      fun m hm => .inr (hback m hm)⟩

/-! ## A pass over a tree -/

section Tree

variable {running : Version} {tree : Node} {x : Visit} {name : Option String}

/-- Where no name could get a new marker, none could once an entry has another such name. -/
private theorem stripsClean_rename (hclean : ∀ n ∈ entryNames tree, AnnotatedName.StripsClean n)
    (hname : AnnotatedName.StripsClean name) (p : Place) :
    ∀ n ∈ entryNames (rename p name tree), AnnotatedName.StripsClean n := by
  intro n hn
  rcases eq_or_mem_of_mem_rename hn with rfl | hn
  · exact hname
  · exact hclean n hn

/-- No name in what a pass leaves could get a new marker. -/
private theorem stripsClean_result (hclean : ∀ n ∈ entryNames tree, AnnotatedName.StripsClean n)
    (hx : firstMalformed (walk running tree) = some x) :
    ∀ n ∈ entryNames (prune running tree).result, AnnotatedName.StripsClean n := by
  intro n hn
  rcases (endsAt_iff.mpr hx).mem_entryNames_result hclean [] n hn with hn | hn
  · exact stripsClean_of_hasMarker hn
  · exact hclean n hn

/-- The entry at which a pass has ended still has its name. -/
private theorem nameAt?_settled (hclean : ∀ n ∈ entryNames tree, AnnotatedName.StripsClean n)
    (hx : firstMalformed (walk running tree) = some x) :
    nameAt? (prune running tree).result (x.place.settled running tree) = some x.name := by
  obtain ⟨y, hy, hplace, hname⟩ := (endsAt_iff.mpr hx).exists_settled hclean []
  have hmem : y ∈ walk running (prune running tree).result := by
    rw [walk, prune, name_pruneNode]
    exact List.mem_of_find?_eq_some (endsAt_iff.mp hy)
  have hat : nameAt? (prune running tree).result y.place = some y.name :=
    (isIn_of_mem_walk hmem).name_eq
  rw [← hplace, ← hname]
  exact hat

/-- A second pass does what the first one has left to be done of a single pass. -/
private theorem onlyRemovals_prune_rename
    (hclean : ∀ n ∈ entryNames tree, AnnotatedName.StripsClean n)
    (hx : firstMalformed (walk running tree) = some x) (name : Option String) :
    (prune running (rename x.place name tree)).onlyRemovals =
      (prune running (rename (x.place.settled running tree) name
        (prune running tree).result)).onlyRemovals.after
          (prune running tree).onlyRemovals.notices := by
  rw [prune, prune, prune, name_rename, name_rename, name_pruneNode]
  exact (endsAt_iff.mpr hx).onlyRemovals_rename hclean name []

end Tree

/-- The name of the entry at which a pass over a tree ends, and its place in what is left. -/
def ending (running : Version) (tree : Node) : Option (Option String × Place) :=
  (firstMalformed (walk running tree)).map fun x => (x.name, x.place.settled running tree)

/-- Where a pass has ended can be seen from the tree that it has left. -/
private theorem ending_eq {tree : Node}
    (hclean : ∀ name ∈ entryNames tree, AnnotatedName.StripsClean name) (running : Version) :
    ending running tree =
      (firstMalformed (walk running (prune running tree).result)).map fun y =>
        (y.name, y.place) := by
  rw [ending, walk, walk, prune, name_pruneNode]
  cases hfirst : firstMalformed (visits running tree.name tree) with
  | none =>
    -- A pass that goes through leaves no marker, so the next one goes through as well.
    have hresult := pruneNode_result_of_none running tree [] tree.name hfirst
    have hmarker := hasMarker_of_mem_keptPart running tree tree.name hfirst hclean
    rw [← entryNames_with_name _ tree.name, ← hresult] at hmarker
    have hself := onlyRemovals_pruneNode_of_hasMarker running _ [] tree.name hmarker
    have hnone : firstMalformed (visits running tree.name
        (pruneNode running [] tree.name tree).result) = none := by
      rw [← firstFault_eq_none_iff, ← pruneNode_fault running _ []]
      exact congrArg (·.fault) hself
    rw [hnone, Option.map_none, Option.map_none]
  | some x =>
    obtain ⟨y, hy, hplace, hname⟩ := (endsAt_iff.mpr hfirst).exists_settled hclean []
    rw [endsAt_iff.mp hy, Option.map_some, Option.map_some, hplace, hname]

/-! ## A pass of a checker -/

/-- A pass that has ended at an entry and another pass, once that entry has another name, make up a
single pass over the tree in which the entry has that name from the start: they come to the same end
and leave the same tree, and what the two remove is what the single pass removes, in order and under
the same paths. -/
theorem prune_resumes (c : Checker) (tree : Node) (source : String) {x : Visit}
    {name : Option String} (hclean : ∀ n ∈ entryNames tree, AnnotatedName.StripsClean n)
    (hx : firstMalformed (walk c.running tree) = some x)
    (hname : AnnotatedName.StripsClean name) :
    let place := x.place.settled c.running tree
    ∃ first resumed whole,
      c.prune (some tree) (some source) = .ok (source, first) ∧
      c.prune (some (rename place name first.result)) (some source) = .ok (source, resumed) ∧
      c.prune (some (rename x.place name tree)) (some source) = .ok (source, whole) ∧
      first.fault = NameFault.of? x.name ∧ nameAt? first.result place = some x.name ∧
      resumed.fault = whole.fault ∧ resumed.result = whole.result ∧
      ending c.running (rename place name first.result) =
        ending c.running (rename x.place name tree) ∧
      (first.reports source).filter Report.isRemoval ++
          (resumed.reports source).filter Report.isRemoval =
        (whole.reports source).filter Report.isRemoval := by
  intro place
  obtain ⟨fault, hfault, hfirst⟩ := exists_firstFault hx
  -- All that is said of the three passes can be read off this one equation between them.
  have hwhole : (prune c.running (rename x.place name tree)).onlyRemovals =
      (prune c.running (rename place name (prune c.running tree).result)).onlyRemovals.after
        (prune c.running tree).onlyRemovals.notices := onlyRemovals_prune_rename hclean hx name
  have hresult := congrArg (·.result) hwhole
  simp only [Outcome.result_onlyRemovals, Outcome.result_after] at hresult
  -- Neither of the two trees has a name that could get a new marker.
  have hcleanWhole := stripsClean_rename hclean hname x.place
  have hcleanResumed := stripsClean_rename (stripsClean_result hclean hx) hname place
  refine ⟨prune c.running tree, prune c.running (rename place name (prune c.running tree).result),
    prune c.running (rename x.place name tree), rfl, rfl, rfl, ?_, nameAt?_settled hclean hx,
    (congrArg (·.fault) hwhole).symm, hresult.symm, ?_, ?_⟩
  · rw [prune, pruneNode_fault, hfault]
    exact hfirst
  · rw [ending_eq hcleanResumed, ending_eq hcleanWhole, hresult]
  · rw [filter_reports, filter_reports, filter_reports, hwhole]
    simp [Outcome.reports]

/-- In `B`, the name of the second value has no closing bracket, and that of the child needs one
more look once the value is put right. -/
private def halted : Node :=
  { name := some "ROOT"
    values := [⟨some "old:KSP_VERSION[2.0]", "1"⟩]
    nodes := [
      { name := some "A:KSP_VERSION[2.0]" },
      { name := some "B:KSP_VERSION[1.8]"
        values := [⟨some "a:KSP_VERSION[1.9]", "1"⟩, ⟨some "x:KSP_VERSION[1.8", "2"⟩]
        nodes := [{ name := some "C:KSP_VERSION[1.x]" }] },
      { name := none }] }

/-- The value is put right, and the next pass ends at the child behind it. -/
theorem prune_resumes_at_next_child :
    let c : Checker := ⟨0, .full 1 8 1, rfl⟩
    let x : Visit := ⟨[some "ROOT", some "B"], [1], .value, 1, some "x:KSP_VERSION[1.8"⟩
    let name := some "x:KSP_VERSION[2.0]"
    (∀ n ∈ entryNames halted, AnnotatedName.StripsClean n) ∧
      firstMalformed (walk c.running halted) = some x ∧ AnnotatedName.StripsClean name ∧
      x.place.settled c.running halted = ⟨[0], .value, 0⟩ ∧
      ∃ first resumed whole,
        c.prune (some halted) (some "a.cfg") = .ok ("a.cfg", first) ∧
        c.prune (some (rename ⟨[0], .value, 0⟩ name first.result)) (some "a.cfg") =
          .ok ("a.cfg", resumed) ∧
        c.prune (some (rename x.place name halted)) (some "a.cfg") = .ok ("a.cfg", whole) ∧
        resumed.fault = whole.fault ∧ resumed.result = whole.result ∧
        ending c.running (rename ⟨[0], .value, 0⟩ name first.result) =
          some (some "C:KSP_VERSION[1.x]", ⟨[0], .node, 0⟩) ∧
        (whole.reports "a.cfg").filter Report.isRemoval =
          [.valueRemoved "a.cfg" "ROOT/old:KSP_VERSION[2.0]",
            .nodeRemoved "a.cfg" "ROOT/A:KSP_VERSION[2.0]",
            .valueRemoved "a.cfg" "ROOT/B/a:KSP_VERSION[1.9]"] ++
          [.valueRemoved "a.cfg" "ROOT/B/x:KSP_VERSION[2.0]"] := by
  intro c x name
  have hclean : ∀ n ∈ entryNames halted, AnnotatedName.StripsClean n := by decide +kernel
  have hx : firstMalformed (walk c.running halted) = some x := by decide +kernel
  have hname : AnnotatedName.StripsClean name := by decide +kernel
  have hplace : x.place.settled c.running halted = ⟨[0], .value, 0⟩ := by decide +kernel
  refine ⟨hclean, hx, hname, hplace, ?_⟩
  obtain ⟨first, resumed, whole, hfirst, hresumed, hwhole, -, -, hfault, hresult, hending,
    hremoved⟩ := prune_resumes c halted "a.cfg" hclean hx hname
  rw [hplace] at hresumed hending
  refine ⟨first, resumed, whole, hfirst, hresumed, hwhole, hfault, hresult, ?_, ?_⟩
  · rw [hending]
    decide +kernel
  · obtain rfl : whole = prune c.running (rename x.place name halted) :=
      (Prod.mk.inj (Except.ok.inj hwhole)).2.symm
    decide +kernel

end VersionGate.Pruning
