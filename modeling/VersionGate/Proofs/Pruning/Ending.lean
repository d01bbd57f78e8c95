import VersionGate.Proofs.Pruning.Settled

/-!
# Where a pass ends

A pass that ends early does so at a value, behind values that can be decided; at a child, behind
such values and children; or below a child that stays. `EndsAt` says so of a node, with all that
lies in front of the entry in sight, and an induction on it follows the way down to the entry.

What a pass does at the entry and behind it does not depend on the entries in front, neither as they
were nor as another pass finds them, when only some of them are left.

## Key results

- `endsAt_iff`: a pass ends at the first malformed name of its walk
- `pruneNode_values_append`, `pruneNode_nodes_append`: what a pass does behind entries that can be
  decided
- `onlyRemovals_pruneNode_at_value`, `onlyRemovals_pruneNode_at_child`,
  `onlyRemovals_pruneNode_in_child`: what such a pass leaves, in each of the three cases
- `pruneNode_keptValues_append`, `onlyRemovals_pruneNode_keptNodes_append`: the same behind what
  stays of them
-/

namespace VersionGate.Pruning

open Config

/-! ## The entry in its tree -/

/-- A pass over a node that stays under the name `kept` ends at an entry. -/
inductive EndsAt (running : Version) : Option String → Node → Visit → Prop
  | atValue {kept name : Option String} {front back : List Value} {v : Value} {nodes : List Node}
      (hfront : ∀ w ∈ front, NameFault.of? w.name = none) (hv : MalformedName v.name) :
      EndsAt running kept ⟨name, front ++ v :: back, nodes⟩
        ⟨[kept], [], .value, front.length, v.name⟩
  | atChild {kept name : Option String} {values : List Value} {front back : List Node} {n : Node}
      (hvalues : ∀ w ∈ values, NameFault.of? w.name = none)
      (hfront : firstMalformed (nodeVisits running kept 0 front) = none)
      (hn : MalformedName n.name) :
      EndsAt running kept ⟨name, values, front ++ n :: back⟩
        ⟨[kept], [], .node, front.length, n.name⟩
  | inChild {kept name : Option String} {values : List Value} {front back : List Node} {n : Node}
      {x : Visit} (hvalues : ∀ w ∈ values, NameFault.of? w.name = none)
      (hfront : firstMalformed (nodeVisits running kept 0 front) = none)
      (hn : NameFault.of? n.name = none) (hex : ¬Excluded running n.name)
      (hbelow : EndsAt running (AnnotatedName.stripped n.name) n x) :
      EndsAt running kept ⟨name, values, front ++ n :: back⟩ (x.under kept front.length)

/-- Values are visited in a row. -/
private theorem valueVisits_append (kept : Option String) (i : Nat) (vs ws : List Value) :
    valueVisits kept i (vs ++ ws) =
      valueVisits kept i vs ++ valueVisits kept (i + vs.length) ws := by
  simp [valueVisits, List.zipIdx_append]

/-- Children are visited in a row. -/
theorem nodeVisits_append (running : Version) (kept : Option String) (i : Nat)
    (ms ns : List Node) :
    nodeVisits running kept i (ms ++ ns) =
      nodeVisits running kept i ms ++ nodeVisits running kept (i + ms.length) ns := by
  induction ms generalizing i with
  | nil => simp [nodeVisits]
  | cons m ms ih =>
    have hlength : i + (m :: ms).length = i + 1 + ms.length := by simp; omega
    rw [List.cons_append, nodeVisits, ih, hlength]
    simp [nodeVisits]

/-- Values up to a malformed one. -/
private theorem exists_value_of_firstMalformed {kept : Option String} {i : Nat} {vs : List Value}
    {x : Visit} (h : firstMalformed (valueVisits kept i vs) = some x) :
    ∃ front v back, vs = front ++ v :: back ∧ (∀ w ∈ front, NameFault.of? w.name = none) ∧
      MalformedName v.name ∧ x = ⟨[kept], [], .value, i + front.length, v.name⟩ := by
  induction vs generalizing i with
  | nil => exact nomatch h
  | cons v vs ih =>
    rw [valueVisits_cons] at h
    by_cases hv : MalformedName v.name
    · rw [firstMalformed_cons_of_malformed hv] at h
      exact ⟨[], v, vs, rfl, by simp, hv, (Option.some.inj h).symm⟩
    · rw [firstMalformed_cons_of_not hv] at h
      obtain ⟨front, w, back, rfl, hfront, hw, rfl⟩ := ih h
      refine ⟨v :: front, w, back, rfl, ?_, hw, ?_⟩
      · exact List.forall_mem_cons.mpr ⟨not_malformedName_iff.mp hv, hfront⟩
      · simp only [List.length_cons, Visit.mk.injEq, true_and, and_true]
        omega

mutual

/-- Where the first malformed name is, the pass ends. -/
private theorem endsAt_of_firstMalformed (running : Version) :
    ∀ (n : Node) (kept : Option String) {x : Visit},
      firstMalformed (visits running kept n) = some x → EndsAt running kept n x
  | ⟨name, values, nodes⟩, kept, x, h => by
    rw [visits, firstMalformed_append] at h
    -- The values come before the children.
    cases hv : firstMalformed (valueVisits kept 0 values) with
    | some y =>
      rw [hv, Option.some_or] at h
      obtain rfl := Option.some.inj h
      obtain ⟨front, v, back, rfl, hfront, hmalformed, rfl⟩ := exists_value_of_firstMalformed hv
      rw [Nat.zero_add]
      exact .atValue hfront hmalformed
    | none =>
      rw [hv, Option.none_or] at h
      have hvalues := firstMalformed_valueVisits_eq_none_iff.mp hv
      have hfront : firstMalformed (nodeVisits running kept 0 []) = none := by
        rw [nodeVisits]
        rfl
      exact endsAt_of_firstMalformed_nodes running nodes [] kept name values hvalues hfront h

/-- Where the first malformed name among the children is, the pass ends. -/
private theorem endsAt_of_firstMalformed_nodes (running : Version) :
    ∀ (ns front : List Node) (kept name : Option String) (values : List Value) {x : Visit},
      (∀ w ∈ values, NameFault.of? w.name = none) →
        firstMalformed (nodeVisits running kept 0 front) = none →
          firstMalformed (nodeVisits running kept front.length ns) = some x →
            EndsAt running kept ⟨name, values, front ++ ns⟩ x
  | [], front, kept, name, values, x, _, _, h => by
    rw [nodeVisits] at h
    exact nomatch h
  | n :: ns, front, kept, name, values, x, hvalues, hfront, h => by
    -- A child that the pass goes through joins those in front.
    have hlength : front.length + 1 = (front ++ [n]).length := by simp
    have happend : front ++ n :: ns = (front ++ [n]) ++ ns := by simp
    have hjoin := nodeVisits_append running kept 0 front [n]
    rw [nodeVisits] at h
    by_cases hn : MalformedName n.name
    · rw [firstMalformed_cons_of_malformed hn] at h
      obtain rfl := Option.some.inj h
      exact .atChild hvalues hfront hn
    · -- The name of the child is in order, so what is left of the walk starts below it, or behind
      -- it.
      have hfault := not_malformedName_iff.mp hn
      rw [firstMalformed_cons_of_not hn, firstMalformed_append] at h
      rw [nodeVisits, nodeVisits, Nat.zero_add] at hjoin
      by_cases hex : Excluded running n.name
      · -- an excluded child has no walk of its own
        rw [if_pos hex] at h hjoin
        rw [hlength] at h
        rw [happend]
        refine endsAt_of_firstMalformed_nodes running ns (front ++ [n]) kept name values hvalues
          ?_ h
        rw [hjoin, firstMalformed_append, hfront, List.nil_append,
          firstMalformed_cons_of_not hn]
        rfl
      · rw [if_neg hex, firstMalformed_map_under] at h
        cases hbelow : firstMalformed (visits running (AnnotatedName.stripped n.name) n) with
        | some y =>
          rw [hbelow, Option.map_some, Option.some_or] at h
          obtain rfl := Option.some.inj h
          exact .inChild hvalues hfront hfault hex (endsAt_of_firstMalformed running n _ hbelow)
        | none =>
          rw [hbelow, Option.map_none, Option.none_or, hlength] at h
          rw [happend]
          refine endsAt_of_firstMalformed_nodes running ns (front ++ [n]) kept name values hvalues
            ?_ h
          rw [hjoin, if_neg hex, firstMalformed_append, hfront, Option.none_or, List.append_nil,
            firstMalformed_cons_of_not hn, firstMalformed_map_under, hbelow, Option.map_none]

end

/-- A pass ends at the first malformed name of its walk. -/
theorem endsAt_iff {running : Version} {kept : Option String} {n : Node} {x : Visit} :
    EndsAt running kept n x ↔ firstMalformed (visits running kept n) = some x := by
  constructor
  · -- the walk finds nothing malformed in front of the entry, in each of the three cases
    intro h
    induction h with
    | atValue hfront hv =>
      rw [visits, valueVisits_append, List.append_assoc, firstMalformed_append,
        firstMalformed_valueVisits_eq_none_iff.mpr hfront, Option.none_or, valueVisits_cons,
        List.cons_append, firstMalformed_cons_of_malformed hv, Nat.zero_add]
    | atChild hvalues hfront hn =>
      rw [visits, firstMalformed_append, firstMalformed_valueVisits_eq_none_iff.mpr hvalues,
        Option.none_or, nodeVisits_append, firstMalformed_append, hfront, Option.none_or,
        nodeVisits, firstMalformed_cons_of_malformed hn, Nat.zero_add]
    | inChild hvalues hfront hn hex _ ih =>
      rw [visits, firstMalformed_append, firstMalformed_valueVisits_eq_none_iff.mpr hvalues,
        Option.none_or, nodeVisits_append, firstMalformed_append, hfront, Option.none_or,
        nodeVisits, firstMalformed_cons_of_not (not_malformedName_iff.mpr hn), if_neg hex,
        firstMalformed_append, firstMalformed_map_under, ih, Option.map_some, Option.some_or,
        Nat.zero_add]
  · exact endsAt_of_firstMalformed running n kept

/-! ## What is left around the entry -/

/-- The values in front that can be decided do not matter to what a pass does behind them. -/
theorem pruneNode_values_append {running : Version} {front : List Value}
    (h : ∀ w ∈ front, NameFault.of? w.name = none) (above : List (Option String))
    (kept name : Option String) (vs : List Value) (ns : List Node) :
    pruneNode running above kept ⟨name, front ++ vs, ns⟩ =
      ((pruneNode running above kept ⟨kept, vs, ns⟩).map fun n =>
        { n with values := keptValues running front ++ n.values }).after
          (pruneValues running (pathText (above ++ [kept])) front).notices := by
  rw [pruneNode_eq, pruneNode_eq, pruneValues_append h]
  cases hfault : (pruneValues running (pathText (above ++ [kept])) vs).fault with
  | some fault =>
    simp only [Outcome.map_after, Outcome.map_map, Outcome.andThen, Outcome.fault_after,
      Outcome.fault_map, hfault]
    rfl
  | none =>
    simp [Outcome.andThen, hfault, Outcome.after, Outcome.map]

/-- The values and the children in front that can be decided do not matter to what a pass does
behind them. -/
theorem pruneNode_nodes_append {running : Version} {values : List Value} {front : List Node}
    {kept : Option String} (hvalues : ∀ w ∈ values, NameFault.of? w.name = none)
    (hfront : firstMalformed (nodeVisits running kept 0 front) = none)
    (above : List (Option String)) (name : Option String) (ns : List Node) :
    pruneNode running above kept ⟨name, values, front ++ ns⟩ =
      ((pruneNodes running (above ++ [kept]) ns).map fun nodes =>
        ⟨kept, keptValues running values, keptNodes running front ++ nodes⟩).after
          ((pruneValues running (pathText (above ++ [kept])) values).notices ++
            (pruneNodes running (above ++ [kept]) front).notices) := by
  have hnone : firstMalformed (valueVisits kept 0 values) = none :=
    firstMalformed_valueVisits_eq_none_iff.mpr hvalues
  rw [pruneNode_of_no_fault (pruneValues_no_fault hnone running _),
    pruneValues_result_of_none hnone, pruneNodes_append hfront]
  simp only [Outcome.map_after, Outcome.map_map, Outcome.after_after]
  rfl

/-- What a pass leaves, and has removed, that ends at a value: the values in front are decided, and
all else is as it was. -/
theorem onlyRemovals_pruneNode_at_value {front : List Value} {v : Value} {fault : NameFault}
    (hfront : ∀ w ∈ front, NameFault.of? w.name = none) (hv : NameFault.of? v.name = some fault)
    (running : Version) (above : List (Option String)) (kept name : Option String)
    (back : List Value) (nodes : List Node) :
    (pruneNode running above kept ⟨name, front ++ v :: back, nodes⟩).onlyRemovals =
      ⟨⟨kept, keptValues running front ++ v :: back, nodes⟩,
        (pruneValues running (pathText (above ++ [kept])) front).notices.filter Notice.isRemoval,
        some fault⟩ := by
  have hvalues := pruneValues_cons running (pathText (above ++ [kept])) v back
  rw [Verdict.ofName_of_fault hv] at hvalues
  rw [pruneNode_values_append hfront, pruneNode_of_fault (by rw [hvalues]), hvalues]
  simp [Outcome.after, Notice.isRemoval]

/-- The tree that such a pass leaves. -/
theorem result_pruneNode_at_value {front : List Value} {v : Value}
    (hfront : ∀ w ∈ front, NameFault.of? w.name = none) (hv : MalformedName v.name)
    (running : Version) (above : List (Option String)) (kept name : Option String)
    (back : List Value) (nodes : List Node) :
    (pruneNode running above kept ⟨name, front ++ v :: back, nodes⟩).result =
      ⟨kept, keptValues running front ++ v :: back, nodes⟩ := by
  obtain ⟨fault, hfault⟩ := malformedName_iff.mp hv
  exact congrArg (·.result)
    (onlyRemovals_pruneNode_at_value hfront hfault running above kept name back nodes)

/-- What a pass leaves, and has removed, that ends at a child: the values and the children in front
are decided, and all else is as it was. -/
theorem onlyRemovals_pruneNode_at_child {running : Version} {kept : Option String}
    {values : List Value} {front : List Node} {n : Node} {fault : NameFault}
    (hvalues : ∀ w ∈ values, NameFault.of? w.name = none)
    (hfront : firstMalformed (nodeVisits running kept 0 front) = none)
    (hn : NameFault.of? n.name = some fault) (above : List (Option String)) (name : Option String)
    (back : List Node) :
    (pruneNode running above kept ⟨name, values, front ++ n :: back⟩).onlyRemovals =
      ⟨⟨kept, keptValues running values, keptNodes running front ++ n :: back⟩,
        ((pruneValues running (pathText (above ++ [kept])) values).notices ++
          (pruneNodes running (above ++ [kept]) front).notices).filter Notice.isRemoval,
        some fault⟩ := by
  rw [pruneNode_nodes_append hvalues hfront, pruneNodes_cons, Verdict.ofName_of_fault hn]
  simp [Outcome.after, Outcome.onlyRemovals, Notice.isRemoval]

/-- A pass that ends at a child leaves it and those behind it as they were. -/
theorem result_pruneNode_at_child {running : Version} {kept : Option String}
    {values : List Value} {front : List Node} {n : Node}
    (hvalues : ∀ w ∈ values, NameFault.of? w.name = none)
    (hfront : firstMalformed (nodeVisits running kept 0 front) = none)
    (hn : MalformedName n.name) (above : List (Option String)) (name : Option String)
    (back : List Node) :
    (pruneNode running above kept ⟨name, values, front ++ n :: back⟩).result =
      ⟨kept, keptValues running values, keptNodes running front ++ n :: back⟩ := by
  obtain ⟨fault, hfault⟩ := malformedName_iff.mp hn
  exact congrArg (·.result)
    (onlyRemovals_pruneNode_at_child hvalues hfront hfault above name back)

/-- What a pass leaves, and has removed, that ends below a child: that child is as the pass has left
it, the values and the children in front are decided, and the children behind are as they were. -/
theorem onlyRemovals_pruneNode_in_child {running : Version} {kept : Option String}
    {values : List Value} {front : List Node} {n : Node} {fault : NameFault}
    (hvalues : ∀ w ∈ values, NameFault.of? w.name = none)
    (hfront : firstMalformed (nodeVisits running kept 0 front) = none)
    (hn : NameFault.of? n.name = none) (hex : ¬Excluded running n.name)
    {above : List (Option String)}
    (hbelow : (pruneNode running (above ++ [kept]) (AnnotatedName.stripped n.name) n).fault =
      some fault) (name : Option String) (back : List Node) :
    (pruneNode running above kept ⟨name, values, front ++ n :: back⟩).onlyRemovals =
      let child := pruneNode running (above ++ [kept]) (AnnotatedName.stripped n.name) n
      ⟨⟨kept, keptValues running values, keptNodes running front ++ child.result :: back⟩,
        ((pruneValues running (pathText (above ++ [kept])) values).notices ++
          (pruneNodes running (above ++ [kept]) front).notices).filter Notice.isRemoval ++
            child.onlyRemovals.notices,
        some fault⟩ := by
  rw [pruneNode_nodes_append hvalues hfront, pruneNodes_cons, Verdict.ofName_of_not_excluded hn hex]
  simp only [hbelow]
  simp [Outcome.after, Outcome.onlyRemovals, Outcome.map, hbelow]

/-- A pass ends with a fault. -/
theorem EndsAt.exists_fault {running : Version} {kept : Option String} {n : Node} {x : Visit}
    (h : EndsAt running kept n x) (above : List (Option String)) :
    ∃ fault, (pruneNode running above kept n).fault = some fault :=
  exists_pruneNode_fault (endsAt_iff.mp h) above

/-- A pass that ends in a child leaves those behind it as they were. -/
theorem result_pruneNode_in_child {running : Version} {kept : Option String}
    {values : List Value} {front : List Node} {n : Node} {x : Visit}
    (hvalues : ∀ w ∈ values, NameFault.of? w.name = none)
    (hfront : firstMalformed (nodeVisits running kept 0 front) = none)
    (hn : NameFault.of? n.name = none) (hex : ¬Excluded running n.name)
    (hbelow : EndsAt running (AnnotatedName.stripped n.name) n x) (above : List (Option String))
    (name : Option String) (back : List Node) :
    (pruneNode running above kept ⟨name, values, front ++ n :: back⟩).result =
      let child := pruneNode running (above ++ [kept]) (AnnotatedName.stripped n.name) n
      ⟨kept, keptValues running values, keptNodes running front ++ child.result :: back⟩ := by
  obtain ⟨fault, hfault⟩ := hbelow.exists_fault (above ++ [kept])
  exact congrArg (·.result)
    (onlyRemovals_pruneNode_in_child hvalues hfront hn hex hfault name back)

/-! ## Once more behind what stays -/

/-- What is left of values in front of others is passed over, and nothing of it is removed. -/
theorem pruneNode_keptValues_append {running : Version} {front : List Value}
    (h : ∀ w ∈ front, NameFault.of? w.name = none)
    (hclean : ∀ name ∈ front.map (·.name), AnnotatedName.StripsClean name)
    (above : List (Option String)) (kept name : Option String) (vs : List Value)
    (ns : List Node) :
    pruneNode running above kept ⟨name, keptValues running front ++ vs, ns⟩ =
      (pruneNode running above kept ⟨kept, vs, ns⟩).map fun n =>
        { n with values := keptValues running front ++ n.values } := by
  have hmarker := hasMarker_of_mem_keptValues running h hclean
  rw [pruneNode_values_append (of?_of_mem_keptValues running h hclean),
    keptValues_of_hasMarker hmarker, pruneValues_of_hasMarker hmarker, Outcome.after_nil]

/-- What is left of entries in front of others is passed over, and nothing of it is removed. -/
theorem onlyRemovals_pruneNode_keptNodes_append {running : Version} {values : List Value}
    {front : List Node} {kept : Option String}
    (hvalues : ∀ w ∈ values, NameFault.of? w.name = none)
    (hfront : firstMalformed (nodeVisits running kept 0 front) = none)
    (hcleanValues : ∀ name ∈ values.map (·.name), AnnotatedName.StripsClean name)
    (hcleanFront : ∀ name ∈ childNames front, AnnotatedName.StripsClean name)
    (above : List (Option String)) (name : Option String) (ns : List Node) :
    (pruneNode running above kept
        ⟨name, keptValues running values, keptNodes running front ++ ns⟩).onlyRemovals =
      (pruneNodes running (above ++ [kept]) ns).onlyRemovals.map fun nodes =>
        ⟨kept, keptValues running values, keptNodes running front ++ nodes⟩ := by
  -- No marker is left in what was kept, so it can be decided again, is kept as it is, and nothing
  -- of it is removed.
  have hvaluesMarker := hasMarker_of_mem_keptValues running hvalues hcleanValues
  have hfrontMarker := hasMarker_of_mem_keptNodes running front kept 0 hfront hcleanFront
  have hvaluesFault := of?_of_mem_keptValues running hvalues hcleanValues
  have hfrontFault := firstMalformed_nodeVisits_of_hasMarker hfrontMarker running kept 0
  have hnotices : (pruneNodes running (above ++ [kept]) (keptNodes running front)).notices.filter
      Notice.isRemoval = [] :=
    congrArg (·.notices) (onlyRemovals_pruneNodes_of_hasMarker running _ _ hfrontMarker)
  rw [pruneNode_nodes_append hvaluesFault hfrontFault, keptValues_of_hasMarker hvaluesMarker,
    keptNodes_of_hasMarker hfrontMarker, pruneValues_of_hasMarker hvaluesMarker,
    Outcome.onlyRemovals_after, List.nil_append, hnotices, Outcome.after_nil,
    Outcome.onlyRemovals_map]

end VersionGate.Pruning
