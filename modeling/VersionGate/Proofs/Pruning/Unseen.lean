import VersionGate.Proofs.Pruning.Ending
import VersionGate.Proofs.Pruning.Place
import VersionGate.Proofs.Pruning.Trace

/-!
# What a pass does not see

A pass looks at names only. It does not see the texts of values, and of a child whose annotation
does not hold it does not see what the child contains, be it malformed. Trees that differ in nothing
else have the same outline, and passes over them end in the same way and meet the same things. What
they leave differs in texts alone if they go through, and otherwise also in the contents of such
children behind the entry at which they end.

## Key results

- `pruneNode_blank`: a pass does the same to values without their texts
- `visits_cover`: the walk does not come to the contents of children that go
- `EndsAt.coverBehind_result`: what a pass that ends early leaves without such contents
- `prune_ignores_unseen`: passes over trees with the same outline
-/

namespace VersionGate.Pruning

open Config

/-! ## Outlines -/

/-- A value without its text. -/
def blankValue (v : Value) : Value := { v with text := "" }

mutual

/-- A node in which all values are without their texts. -/
def blank : Node → Node
  | ⟨name, values, nodes⟩ => ⟨name, values.map blankValue, blankNodes nodes⟩

/-- Some children in which all values are without their texts. -/
def blankNodes : List Node → List Node
  | [] => []
  | n :: ns => blank n :: blankNodes ns

end

mutual

/-- A node in which the children whose annotation does not hold are without what they contain. -/
def cover (running : Version) : Node → Node
  | ⟨name, values, nodes⟩ => ⟨name, values, coverNodes running nodes⟩

/-- Some children of which those whose annotation does not hold are without what they contain. -/
def coverNodes (running : Version) : List Node → List Node
  | [] => []
  | n :: ns =>
    (if Excluded running n.name then { name := n.name } else cover running n) ::
      coverNodes running ns

end

/-- What a pass sees of a tree. -/
def outline (running : Version) (tree : Node) : Node := blank (cover running tree)

/-- A node in which only behind the entry at `index` below an address the children whose annotation
does not hold are without what they contain. -/
def coverFrom (running : Version) (entry : Entry) (index : Nat) : List Nat → Node → Node
  | [], n =>
    match entry with
    | .value => cover running n
    | .node => { n with nodes := n.nodes.take index ++ coverNodes running (n.nodes.drop index) }
  | i :: is, n =>
    let onTheWay := n.nodes[i]?.toList.map (coverFrom running entry index is)
    { n with
      nodes := n.nodes.take i ++ onTheWay ++ coverNodes running (n.nodes.drop (i + 1)) }

/-- A tree in which only behind a place the children whose annotation does not hold are without what
they contain. -/
def coverBehind (running : Version) (p : Place) (tree : Node) : Node :=
  coverFrom running p.entry p.index p.address tree

@[simp] theorem name_blankValue (v : Value) : (blankValue v).name = v.name := rfl

@[simp] theorem name_blank (n : Node) : (blank n).name = n.name := by
  obtain ⟨name, values, nodes⟩ := n
  rw [blank]

@[simp] theorem name_cover (running : Version) (n : Node) : (cover running n).name = n.name := by
  obtain ⟨name, values, nodes⟩ := n
  rw [cover]

@[simp] theorem name_outline (running : Version) (n : Node) :
    (outline running n).name = n.name := by
  rw [outline, name_blank, name_cover]

/-- The children are blanked one by one. -/
private theorem blankNodes_eq (ns : List Node) : blankNodes ns = ns.map blank := by
  induction ns with
  | nil => rw [blankNodes, List.map_nil]
  | cons n ns ih => rw [blankNodes, ih, List.map_cons]

/-- Two rows of children are blanked in a row. -/
private theorem blankNodes_append (ms ns : List Node) :
    blankNodes (ms ++ ns) = blankNodes ms ++ blankNodes ns := by
  simp only [blankNodes_eq, List.map_append]

/-- Two rows of children are covered in a row. -/
private theorem coverNodes_append (running : Version) (ms ns : List Node) :
    coverNodes running (ms ++ ns) = coverNodes running ms ++ coverNodes running ns := by
  induction ms with
  | nil => rw [coverNodes, List.nil_append, List.nil_append]
  | cons m ms ih => rw [List.cons_append, coverNodes, coverNodes, ih, List.cons_append]

/-- A child that is not excluded is covered further in. -/
private theorem coverNodes_cons_of_not {running : Version} {n : Node} (h : ¬Excluded running n.name)
    (ns : List Node) : coverNodes running (n :: ns) = cover running n :: coverNodes running ns := by
  rw [coverNodes, if_neg h]

/-- Behind a value of the node itself are all its children. -/
private theorem coverBehind_value (running : Version) (index : Nat) (name : Option String)
    (values : List Value) (nodes : List Node) :
    coverBehind running ⟨[], .value, index⟩ ⟨name, values, nodes⟩ =
      ⟨name, values, coverNodes running nodes⟩ := by
  rw [coverBehind, coverFrom, cover]

/-- Behind a child of the node itself are those from there on. -/
private theorem coverBehind_node (running : Version) (name : Option String) (values : List Value)
    (front back : List Node) :
    coverBehind running ⟨[], .node, front.length⟩ ⟨name, values, front ++ back⟩ =
      ⟨name, values, front ++ coverNodes running back⟩ := by
  simp [coverBehind, coverFrom]

/-- Behind a place below a child are what is behind it there and the children behind that child. -/
private theorem coverBehind_under (running : Version) (p : Place) (name : Option String)
    (values : List Value) (front : List Node) (n : Node) (back : List Node) :
    coverBehind running (p.under front.length) ⟨name, values, front ++ n :: back⟩ =
      ⟨name, values, front ++ coverBehind running p n :: coverNodes running back⟩ := by
  simp [coverBehind, coverFrom, Place.under]

/-! ## Texts -/

/-- What becomes of values does not depend on their texts. -/
private theorem pruneValues_blank (running : Version) (path : String) (vs : List Value) :
    pruneValues running path (vs.map blankValue) =
      (pruneValues running path vs).map (List.map blankValue) := by
  induction vs with
  | nil => rfl
  | cons v vs ih =>
    rw [List.map_cons, pruneValues_cons, pruneValues_cons, name_blankValue, ih]
    cases Verdict.ofName running v.name <;> rfl

mutual

/-- What becomes of a node does not depend on the texts in it. -/
theorem pruneNode_blank (running : Version) :
    ∀ (n : Node) (above : List (Option String)) (kept : Option String),
      pruneNode running above kept (blank n) = (pruneNode running above kept n).map blank
  | ⟨name, values, nodes⟩, above, kept => by
    have hnodes := pruneNodes_blank running nodes (above ++ [kept])
    rw [blank, pruneNode_eq, pruneNode_eq]
    simp only [pruneValues_blank, hnodes, Outcome.map_map]
    rw [Outcome.map_andThen (f := blank)]
    · rfl
    · rintro ⟨name, values, nodes⟩
      rfl

/-- Neither does what becomes of several nodes. -/
private theorem pruneNodes_blank (running : Version) :
    ∀ (ns : List Node) (trail : List (Option String)),
      pruneNodes running trail (blankNodes ns) = (pruneNodes running trail ns).map blankNodes
  | [], trail => rfl
  | n :: ns, trail => by
    have hrest := pruneNodes_blank running ns trail
    rw [blankNodes, pruneNodes_cons, pruneNodes_cons, name_blank, hrest]
    cases Verdict.ofName running n.name with
    | fail fault => rfl
    | remove => rfl
    | keep kept =>
      have hchild := pruneNode_blank running n trail kept
      simp only [hchild, Outcome.fault_map]
      -- A pass that ends in this child leaves the ones behind it as they are.
      cases (pruneNode running trail kept n).fault <;> rfl

end

mutual

/-- The walk does not depend on texts. -/
private theorem visits_blank (running : Version) :
    ∀ (n : Node) (kept : Option String), visits running kept (blank n) = visits running kept n
  | ⟨name, values, nodes⟩, kept => by
    have hvalues : valueVisits kept 0 (values.map blankValue) = valueVisits kept 0 values := by
      simp [valueVisits, List.zipIdx_map, Function.comp_def]
    rw [blank, visits, visits, hvalues, nodeVisits_blank running nodes kept 0]

/-- Neither does the walk through several nodes. -/
private theorem nodeVisits_blank (running : Version) :
    ∀ (ns : List Node) (kept : Option String) (i : Nat),
      nodeVisits running kept i (blankNodes ns) = nodeVisits running kept i ns
  | [], kept, i => by rw [blankNodes]
  | n :: ns, kept, i => by
    rw [blankNodes, nodeVisits, nodeVisits, nodeVisits_blank running ns kept (i + 1), name_blank,
      visits_blank running n]

end

/-! ## What children that go contain -/

mutual

/-- The walk does not come to what is in children that go. -/
theorem visits_cover (running : Version) :
    ∀ (n : Node) (kept : Option String),
      visits running kept (cover running n) = visits running kept n
  | ⟨name, values, nodes⟩, kept => by
    rw [cover, visits, visits, nodeVisits_cover running nodes kept 0]

/-- Neither does the walk through several nodes. -/
private theorem nodeVisits_cover (running : Version) :
    ∀ (ns : List Node) (kept : Option String) (i : Nat),
      nodeVisits running kept i (coverNodes running ns) = nodeVisits running kept i ns
  | [], kept, i => by rw [coverNodes]
  | n :: ns, kept, i => by
    have hrest := nodeVisits_cover running ns kept (i + 1)
    rw [coverNodes, nodeVisits, nodeVisits, hrest]
    by_cases hex : Excluded running n.name
    · simp [hex]
    · simp [hex, visits_cover running n]

end

mutual

/-- Nothing that is in children that go is in what stays. -/
private theorem keptPart_cover (running : Version) :
    ∀ n : Node, keptPart running (cover running n) = keptPart running n
  | ⟨name, values, nodes⟩ => by
    rw [cover, keptPart, keptPart, keptNodes_cover running nodes]

/-- Neither is it in what stays of several nodes. -/
private theorem keptNodes_cover (running : Version) :
    ∀ ns : List Node, keptNodes running (coverNodes running ns) = keptNodes running ns
  | [] => by rw [coverNodes]
  | n :: ns => by
    have hrest := keptNodes_cover running ns
    rw [coverNodes, keptNodes, keptNodes, hrest]
    by_cases hex : Excluded running n.name
    · simp [hex]
    · simp [hex, keptPart_cover running n]

end

/-- Of what a pass leaves that ends early, only the part behind the entry at which it ends can have
anything in it that is in children whose annotation does not hold. -/
theorem EndsAt.coverBehind_result {running : Version} {kept : Option String} {n : Node}
    {x : Visit} (h : EndsAt running kept n x) (above : List (Option String)) :
    coverBehind running (x.place.settled running n) (pruneNode running above kept n).result =
      (pruneNode running above kept (cover running n)).result := by
  -- The induction follows the way down to the entry. All children in front have been decided, so
  -- that none that goes is left there, and the child on the way is none that goes.
  induction h generalizing above with
  | @atValue kept name front back v nodes hfront hv =>
    have hplace : (⟨[kept], [], .value, front.length, v.name⟩ : Visit).place =
        ⟨[], .value, front.length⟩ := rfl
    rw [hplace, settled_value, cover, result_pruneNode_at_value hfront hv,
      result_pruneNode_at_value hfront hv, coverBehind_value]
  | @atChild kept name values front back n hvalues hfront hn =>
    have hplace : (⟨[kept], [], .node, front.length, n.name⟩ : Visit).place =
        ⟨[], .node, front.length⟩ := rfl
    have hback := coverNodes_cons_of_not (hn.not_excluded running) back
    have hfront' :
        firstMalformed (nodeVisits running kept 0 (coverNodes running front)) = none := by
      rw [nodeVisits_cover, hfront]
    have hn' : MalformedName (cover running n).name := by rwa [name_cover]
    rw [hplace, settled_node, cover, coverNodes_append, hback,
      result_pruneNode_at_child hvalues hfront hn, result_pruneNode_at_child hvalues hfront' hn',
      coverBehind_node, keptNodes_cover, hback]
  | @inChild kept name values front back n x hvalues hfront hn hex hbelow ih =>
    have hback := coverNodes_cons_of_not hex back
    have hfront' :
        firstMalformed (nodeVisits running kept 0 (coverNodes running front)) = none := by
      rw [nodeVisits_cover, hfront]
    have hbelow' : EndsAt running (AnnotatedName.stripped (cover running n).name)
        (cover running n) x := by
      rw [name_cover, endsAt_iff, visits_cover]
      exact endsAt_iff.mp hbelow
    rw [place_under, settled_under, cover, coverNodes_append, hback,
      result_pruneNode_in_child hvalues hfront hn hex hbelow,
      result_pruneNode_in_child hvalues hfront' (by rwa [name_cover]) (by rwa [name_cover]) hbelow',
      coverBehind_under, keptNodes_cover, ih (above ++ [kept]), name_cover]

/-! ## The place at which a pass ends -/

/-- The outline has as many children. -/
private theorem length_blankNodes_coverNodes (running : Version) (ns : List Node) :
    (blankNodes (coverNodes running ns)).length = ns.length := by
  induction ns with
  | nil => rw [coverNodes, blankNodes]
  | cons n ns ih => rw [coverNodes, blankNodes, List.length_cons, ih, List.length_cons]

/-- As many values are kept without their texts. -/
private theorem length_keptValues_blank (running : Version) (vs : List Value) :
    (keptValues running (vs.map blankValue)).length = (keptValues running vs).length := by
  rw [keptValues, keptValues, List.length_map, List.length_map, List.filter_map, List.length_map]
  rfl

/-- As many children are kept without the texts in them. -/
private theorem length_keptNodes_blank (running : Version) (ns : List Node) :
    (keptNodes running (blankNodes ns)).length = (keptNodes running ns).length := by
  simp [keptNodes_eq, blankNodes_eq, List.filter_map, Function.comp_def]

/-- The outline of a node with a child behind others that is not covered. -/
private theorem outline_child {running : Version} {n : Node} (h : ¬Excluded running n.name)
    (name : Option String) (values : List Value) (front back : List Node) :
    outline running ⟨name, values, front ++ n :: back⟩ =
      ⟨name, values.map blankValue, blankNodes (coverNodes running front) ++
        outline running n :: blankNodes (coverNodes running back)⟩ := by
  rw [outline, cover, coverNodes_append, coverNodes_cons_of_not h, blank, blankNodes_append,
    blankNodes, outline]

/-- The entry at which a pass ends gets the same place in what is left of the tree and in what is
left of its outline: as many stay in front of it. -/
private theorem EndsAt.settled_outline {running : Version} {kept : Option String} {n : Node}
    {x : Visit} (h : EndsAt running kept n x) :
    x.place.settled running (outline running n) = x.place.settled running n := by
  -- In each case as many entries stay in front, as the outline keeps their names and nothing else
  -- counts.
  induction h with
  | @atValue kept name front back v nodes hfront hv =>
    have hplace : (⟨[kept], [], .value, front.length, v.name⟩ : Visit).place =
        ⟨[], .value, front.length⟩ := rfl
    have hlength : front.length = (front.map blankValue).length := by simp
    rw [hplace, settled_value, outline, cover, blank, List.map_append, hlength, settled_value,
      length_keptValues_blank]
  | @atChild kept name values front back n hvalues hfront hn =>
    have hplace : (⟨[kept], [], .node, front.length, n.name⟩ : Visit).place =
        ⟨[], .node, front.length⟩ := rfl
    have hlength := length_blankNodes_coverNodes running front
    rw [hplace, settled_node, outline_child (hn.not_excluded running), ← hlength, settled_node,
      length_keptNodes_blank, keptNodes_cover]
  | @inChild kept name values front back n x hvalues hfront hn hex hbelow ih =>
    have hlength := length_blankNodes_coverNodes running front
    rw [place_under, settled_under, outline_child hex, ← hlength, settled_under, ih,
      length_keptNodes_blank, keptNodes_cover]

/-! ## Passes over trees with the same outline -/

/-- The walk can be read off the outline. -/
private theorem walk_outline (running : Version) (tree : Node) :
    walk running (outline running tree) = walk running tree := by
  rw [walk, walk, name_outline, outline, visits_blank, visits_cover]

section Tree

variable {running : Version} {tree : Node}

/-- A pass over the outline leaves what one over the covered tree does, without its texts. -/
private theorem prune_outline :
    (prune running (outline running tree)).result =
      blank (prune running (cover running tree)).result := by
  rw [prune, prune, name_outline, name_cover, outline, pruneNode_blank, Outcome.result_map]

/-- What a pass leaves that goes through has the texts of the tree, and nothing that is in children
that go. -/
private theorem result_prune_of_none (h : firstMalformed (walk running tree) = none) :
    (prune running tree).result = keptPart running (cover running tree) := by
  rw [prune, pruneNode_result_of_none running tree [] tree.name h, keptPart_cover, keptPart_eq]

/-- A pass that goes through leaves the same of the outline, apart from texts. -/
private theorem blank_result_prune (h : firstMalformed (walk running tree) = none) :
    blank (prune running tree).result = (prune running (outline running tree)).result := by
  have hcover : firstMalformed (walk running (cover running tree)) = none := by
    rwa [walk, name_cover, visits_cover]
  rw [prune_outline, result_prune_of_none h, result_prune_of_none hcover, keptPart_cover,
    keptPart_cover, keptPart_cover]

/-- A pass that ends early leaves the same of the outline, apart from texts and from what is in
children behind the entry at which it ends. -/
private theorem blank_coverBehind_result_prune {x : Visit}
    (h : firstMalformed (walk running tree) = some x) :
    blank (coverBehind running (x.place.settled running tree) (prune running tree).result) =
      (prune running (outline running tree)).result := by
  have hends : EndsAt running tree.name tree x := endsAt_iff.mpr h
  rw [prune_outline, prune, hends.coverBehind_result, prune, name_cover]

end Tree

/-- What a pass over a tree comes to. Whether it goes through or not, the values that it leaves have
the texts that they had; if it does, nothing is left of what was in children whose annotation does
not hold. -/
structure IsPassOver (running : Version) (tree : Node) (outcome : Outcome Node) : Prop where
  fault_eq : outcome.fault = (firstMalformed (walk running tree)).bind (NameFault.of? ·.name)
  through : outcome.fault = none → outcome.result = keptPart running (cover running tree)
  early : ∀ x, firstMalformed (walk running tree) = some x →
    outcome.result = keptUpTo running x.entry x.index x.address tree

/-- A pass over a tree is one over it. -/
private theorem isPassOver_prune (running : Version) (tree : Node) :
    IsPassOver running tree (prune running tree) where
  fault_eq := by rw [prune, pruneNode_fault, firstFault_eq, walk]
  through h := by
    rw [prune, pruneNode_fault, firstFault_eq_none_iff] at h
    exact result_prune_of_none h
  early x h := by rw [prune, pruneNode_result_of_some running tree [] tree.name h, keptUpTo_self]

/-- Passes over trees that differ in texts, and in what is in children whose annotation does not
hold, come to the same entries, end in the same way, and report and log the same. If they go through
they leave trees that differ in texts alone. If they end early, it is at the same place, and what
they leave may also differ in what is in such children behind it. -/
theorem prune_ignores_unseen (c : Checker) {tree tree' : Node} (source : String)
    (h : outline c.running tree = outline c.running tree') :
    ∃ outcome outcome', c.prune (some tree) (some source) = .ok (source, outcome) ∧
      c.prune (some tree') (some source) = .ok (source, outcome') ∧
      IsPassOver c.running tree outcome ∧ IsPassOver c.running tree' outcome' ∧
      walk c.running tree = walk c.running tree' ∧ outcome.fault = outcome'.fault ∧
      outcome.reports source = outcome'.reports source ∧
      outcome.log source = outcome'.log source ∧
      (outcome.fault = none → blank outcome.result = blank outcome'.result) ∧
      ∀ x, firstMalformed (walk c.running tree) = some x →
        let place := x.place.settled c.running tree
        x.place.settled c.running tree' = place ∧
          blank (coverBehind c.running place outcome.result) =
            blank (coverBehind c.running place outcome'.result) := by
  -- The walk can be read off the outline, and the notices off the walk.
  have hwalk : walk c.running tree = walk c.running tree' := by
    rw [← walk_outline, h, walk_outline]
  have hnotices : (prune c.running tree).notices = (prune c.running tree').notices := by
    rw [prune, prune, pruneNode_notices, pruneNode_notices, ← walk, ← walk, hwalk]
  refine ⟨prune c.running tree, prune c.running tree', rfl, rfl, isPassOver_prune c.running tree,
    isPassOver_prune c.running tree', hwalk, ?_, ?_, ?_, fun hnone => ?_, fun x hx => ?_⟩
  · rw [(isPassOver_prune c.running tree).fault_eq, (isPassOver_prune c.running tree').fault_eq,
      hwalk]
  · rw [Outcome.reports, Outcome.reports, hnotices]
  · rw [Outcome.log, Outcome.log, hnotices]
  · rw [prune, pruneNode_fault, firstFault_eq_none_iff] at hnone
    have hnone' : firstMalformed (walk c.running tree') = none := by rwa [← hwalk]
    rw [blank_result_prune hnone, blank_result_prune hnone', h]
  · have hx' : firstMalformed (walk c.running tree') = some x := by rwa [← hwalk]
    -- Both trees have their places in the outline that they share.
    have hends : EndsAt c.running tree.name tree x := endsAt_iff.mpr hx
    have hends' : EndsAt c.running tree'.name tree' x := endsAt_iff.mpr hx'
    have hplace : x.place.settled c.running tree' = x.place.settled c.running tree := by
      rw [← hends'.settled_outline, ← h, hends.settled_outline]
    have hleft := blank_coverBehind_result_prune hx'
    rw [hplace] at hleft
    exact ⟨hplace, by rw [blank_coverBehind_result_prune hx, hleft, h]⟩

/-- A tree with an open bracket in `OK`, for the texts of two values and the contents of two
children that go. -/
private def concealing (text text' : String) (gone later : List Value) : Node :=
  { name := some "ROOT"
    values := [⟨some "a:KSP_VERSION[1.8]", text⟩]
    nodes := [
      { name := some "GONE:KSP_VERSION[2.0]", values := gone },
      { name := some "OK:KSP_VERSION[1.8]", values := [⟨some "x:KSP_VERSION[1.8", text'⟩] },
      { name := some "LATER:KSP_VERSION[2.0]", values := later }] }

/-- A malformed name in `GONE` does not end the pass, and what is in `LATER` stays as it was. -/
theorem prune_ignores_unseen_malformed :
    let c : Checker := ⟨0, .full 1 8 1, rfl⟩
    let tree := concealing "1" "2" [⟨some "y:KSP_VERSION[", "3"⟩] []
    let tree' := concealing "4" "5" [] [⟨some "z", "6"⟩]
    outline c.running tree = outline c.running tree' ∧
      ∃ outcome outcome', c.prune (some tree) (some "a.cfg") = .ok ("a.cfg", outcome) ∧
        c.prune (some tree') (some "a.cfg") = .ok ("a.cfg", outcome') ∧
        outcome.fault = NameFault.of? (some "x:KSP_VERSION[1.8") ∧
        outcome.fault = outcome'.fault ∧ outcome.reports "a.cfg" = outcome'.reports "a.cfg" ∧
        outcome.result =
          { name := some "ROOT"
            values := [⟨some "a", "1"⟩]
            nodes := [
              { name := some "OK", values := [⟨some "x:KSP_VERSION[1.8", "2"⟩] },
              { name := some "LATER:KSP_VERSION[2.0]" }] } ∧
        outcome'.result =
          { name := some "ROOT"
            values := [⟨some "a", "4"⟩]
            nodes := [
              { name := some "OK", values := [⟨some "x:KSP_VERSION[1.8", "5"⟩] },
              { name := some "LATER:KSP_VERSION[2.0]", values := [⟨some "z", "6"⟩] }] } := by
  intro c tree tree'
  have ha : ¬Excluded c.running (some "a:KSP_VERSION[1.8]") := by decide +kernel
  have hok : ¬Excluded c.running (some "OK:KSP_VERSION[1.8]") := by decide +kernel
  have hgone : Excluded c.running (some "GONE:KSP_VERSION[2.0]") := by decide +kernel
  have hlater : Excluded c.running (some "LATER:KSP_VERSION[2.0]") := by decide +kernel
  have hstripped : AnnotatedName.stripped (some "a:KSP_VERSION[1.8]") = some "a" ∧
      AnnotatedName.stripped (some "OK:KSP_VERSION[1.8]") = some "OK" := by decide +kernel
  -- The trees differ in texts and in what `GONE` and `LATER` contain, and in nothing else.
  have houtline : outline c.running tree = outline c.running tree' := by
    simp [tree, tree', concealing, outline, cover, coverNodes, blank, blankNodes, blankValue, hok,
      hgone, hlater]
  have hx : firstMalformed (walk c.running tree) =
      some ⟨[some "ROOT", some "OK"], [1], .value, 0, some "x:KSP_VERSION[1.8"⟩ := by
    decide +kernel
  obtain ⟨outcome, outcome', hprune, hprune', hpass, hpass', hwalk, hfault, hreports, -⟩ :=
    prune_ignores_unseen c "a.cfg" houtline
  refine ⟨houtline, outcome, outcome', hprune, hprune', ?_, hfault, hreports,
    (hpass.early _ hx).trans ?_, (hpass'.early _ (hwalk ▸ hx)).trans ?_⟩
  · rw [hpass.fault_eq, hx, Option.bind_some]
  · simp [tree, concealing, keptUpTo, keptValues, keptNodes, ha, hgone, hstripped]
  · simp [tree', concealing, keptUpTo, keptValues, keptNodes, ha, hgone, hstripped]

end VersionGate.Pruning
