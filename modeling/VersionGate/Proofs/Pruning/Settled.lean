import VersionGate.Proofs.Pruning.Result

/-!
# Going through what is decided already

A name without a marker stays as it is, so a pass does nothing to entries that have such names but
report the children without a name. What stays of entries that could all be decided is of this kind,
unless taking an annotation out of a name has made a marker of what stood on its two sides.

## Key results

- `hasMarker_of_mem_keptValues`, `hasMarker_of_mem_keptNodes`: there is no marker in what stays
- `pruneValues_append`, `pruneNodes_append`: a pass through entries goes on behind them
- `onlyRemovals_pruneNode_of_hasMarker`: without markers, a pass removes nothing and changes nothing
-/

namespace VersionGate

/-- Whether a report is about an entry that is removed. -/
def Report.isRemoval : Report → Bool
  | .valueRemoved .. | .nodeRemoved .. => true
  | _ => false

namespace Pruning

open Config

/-! ## The names in a tree -/

mutual

/-- The names of all entries of a node, and of all entries of its children. -/
def entryNames : Node → List (Option String)
  | ⟨_, values, nodes⟩ => values.map (·.name) ++ childNames nodes

/-- The names of some children, and of all entries in them. -/
def childNames : List Node → List (Option String)
  | [] => []
  | n :: ns => n.name :: (entryNames n ++ childNames ns)

end

private theorem childNames_append (ms ns : List Node) :
    childNames (ms ++ ns) = childNames ms ++ childNames ns := by
  induction ms with
  | nil => rfl
  | cons m ms ih => simp [childNames, ih]

/-- The names in a node with some values in front of others. -/
theorem forall_mem_entryNames_values {p : Option String → Prop} {name : Option String}
    {front back : List Value} {nodes : List Node} :
    (∀ m ∈ entryNames ⟨name, front ++ back, nodes⟩, p m) ↔
      (∀ m ∈ front.map (·.name), p m) ∧ (∀ m ∈ back.map (·.name), p m) ∧
        ∀ m ∈ childNames nodes, p m := by
  rw [entryNames, List.map_append, List.append_assoc, List.forall_mem_append,
    List.forall_mem_append]

/-- The names in a node with a child behind others. -/
theorem forall_mem_entryNames_child {p : Option String → Prop} {name : Option String}
    {values : List Value} {front back : List Node} {n : Node} :
    (∀ m ∈ entryNames ⟨name, values, front ++ n :: back⟩, p m) ↔
      (∀ m ∈ values.map (·.name), p m) ∧ (∀ m ∈ childNames front, p m) ∧ p n.name ∧
        (∀ m ∈ entryNames n, p m) ∧ ∀ m ∈ childNames back, p m := by
  rw [entryNames, List.forall_mem_append, childNames_append, List.forall_mem_append, childNames,
    List.forall_mem_cons, List.forall_mem_append]

/-- A name counts for the entries of a node and not for the node itself. -/
@[simp] theorem entryNames_with_name (n : Node) (name : Option String) :
    entryNames { n with name } = entryNames n := by
  obtain ⟨_, values, nodes⟩ := n
  rw [entryNames, entryNames]

/-- Values go through when each of their names can be decided. -/
theorem firstMalformed_valueVisits_eq_none_iff {kept : Option String} {i : Nat}
    {vs : List Value} :
    firstMalformed (valueVisits kept i vs) = none ↔ ∀ v ∈ vs, NameFault.of? v.name = none := by
  induction vs generalizing i with
  | nil => simp [valueVisits, firstMalformed]
  | cons v vs ih =>
    rw [valueVisits_cons, firstMalformed_cons_eq_none_iff, ih, List.forall_mem_cons]

/-- There is no marker in the values that stay. -/
theorem hasMarker_of_mem_keptValues (running : Version) {vs : List Value}
    (h : ∀ v ∈ vs, NameFault.of? v.name = none)
    (hclean : ∀ name ∈ vs.map (·.name), AnnotatedName.StripsClean name) :
    ∀ name ∈ (keptValues running vs).map (·.name), AnnotatedName.hasMarker name = false := by
  intro name hname
  simp only [keptValues, List.map_map, List.mem_map, List.mem_filter] at hname
  obtain ⟨v, ⟨hv, -⟩, rfl⟩ := hname
  exact hasMarker_stripped (h v hv) (hclean v.name (List.mem_map_of_mem hv))

/-- The values that stay can be decided once more. -/
theorem of?_of_mem_keptValues (running : Version) {vs : List Value}
    (h : ∀ v ∈ vs, NameFault.of? v.name = none)
    (hclean : ∀ name ∈ vs.map (·.name), AnnotatedName.StripsClean name) :
    ∀ v ∈ keptValues running vs, NameFault.of? v.name = none := by
  intro v hv
  exact of?_of_hasMarker
    (hasMarker_of_mem_keptValues running h hclean v.name (List.mem_map_of_mem hv))

mutual

/-- There is no marker in what stays of a node. -/
theorem hasMarker_of_mem_keptPart (running : Version) :
    ∀ (n : Node) (kept : Option String), firstMalformed (visits running kept n) = none →
      (∀ name ∈ entryNames n, AnnotatedName.StripsClean name) →
        ∀ name ∈ entryNames (keptPart running n), AnnotatedName.hasMarker name = false
  | ⟨name, values, nodes⟩, kept, hnone, hclean => by
    rw [visits, firstMalformed_append_eq_none_iff] at hnone
    rw [entryNames, List.forall_mem_append] at hclean
    rw [keptPart, entryNames, List.forall_mem_append]
    have hvalues := firstMalformed_valueVisits_eq_none_iff.mp hnone.1
    exact ⟨hasMarker_of_mem_keptValues running hvalues hclean.1,
      hasMarker_of_mem_keptNodes running nodes kept 0 hnone.2 hclean.2⟩

/-- There is no marker in what stays of some children. -/
theorem hasMarker_of_mem_keptNodes (running : Version) :
    ∀ (ns : List Node) (kept : Option String) (i : Nat),
      firstMalformed (nodeVisits running kept i ns) = none →
        (∀ name ∈ childNames ns, AnnotatedName.StripsClean name) →
          ∀ name ∈ childNames (keptNodes running ns), AnnotatedName.hasMarker name = false
  | [], kept, i, _, _ => by
    rw [keptNodes, childNames]
    exact fun name h => nomatch h
  | n :: ns, kept, i, hnone, hclean => by
    rw [nodeVisits, firstMalformed_cons_eq_none_iff, firstMalformed_append_eq_none_iff] at hnone
    obtain ⟨hn, hbelow, hbehind⟩ := hnone
    rw [childNames, List.forall_mem_cons, List.forall_mem_append] at hclean
    have hrest := hasMarker_of_mem_keptNodes running ns kept (i + 1) hbehind hclean.2.2
    rw [keptNodes]
    by_cases hex : Excluded running n.name
    · rwa [if_pos hex]
    · rw [if_neg hex, firstMalformed_map_under, Option.map_eq_none_iff] at hbelow
      rw [if_neg hex, childNames, List.forall_mem_cons, List.forall_mem_append,
        entryNames_with_name]
      exact ⟨hasMarker_stripped hn hclean.1,
        hasMarker_of_mem_keptPart running n _ hbelow hclean.2.1, hrest⟩

end

/-! ## Going on behind entries that are decided -/

/-- A pass through values that can all be decided goes on behind them. -/
theorem pruneValues_append {running : Version} {front : List Value}
    (h : ∀ v ∈ front, NameFault.of? v.name = none) (path : String) (vs : List Value) :
    pruneValues running path (front ++ vs) =
      ((pruneValues running path vs).map (keptValues running front ++ ·)).after
        (pruneValues running path front).notices := by
  induction front with
  | nil => rfl
  | cons v front ih =>
    rw [List.forall_mem_cons] at h
    have hrest := ih h.2
    rw [List.cons_append, pruneValues_cons, pruneValues_cons, hrest]
    rcases Verdict.ofName_cases running v.name with ⟨fault, hf, -⟩ | ⟨-, hex, hv⟩ | ⟨-, hex, hv⟩
    · simp [h.1] at hf
    · simp [hv, hex, keptValues, Outcome.after, Outcome.map]
    · simp [hv, hex, keptValues, Outcome.after, Outcome.map]

/-- A pass through children that can all be decided goes on behind them. -/
theorem pruneNodes_append {running : Version} {front : List Node} {kept : Option String} {i : Nat}
    (h : firstMalformed (nodeVisits running kept i front) = none) (trail : List (Option String))
    (ns : List Node) :
    pruneNodes running trail (front ++ ns) =
      ((pruneNodes running trail ns).map (keptNodes running front ++ ·)).after
        (pruneNodes running trail front).notices := by
  -- Each child in front is excluded, or goes through and is kept.
  induction front generalizing i with
  | nil =>
    rw [keptNodes]
    rfl
  | cons n front ih =>
    rw [nodeVisits, firstMalformed_cons_eq_none_iff, firstMalformed_append_eq_none_iff] at h
    obtain ⟨hn, hbelow, hbehind⟩ := h
    have hrest := ih hbehind
    rw [List.cons_append, pruneNodes_cons, pruneNodes_cons, hrest]
    rcases Verdict.ofName_cases running n.name with ⟨fault, hf, -⟩ | ⟨-, hex, hv⟩ | ⟨-, hex, hv⟩
    · simp [hn] at hf
    · simp [hv, hex, keptNodes, Outcome.after, Outcome.map]
    · rw [if_neg hex, firstMalformed_map_under, Option.map_eq_none_iff] at hbelow
      have hfault := pruneNode_no_fault hbelow trail
      have hresult := pruneNode_result_of_none running n trail _ hbelow
      simp [hv, hex, keptNodes, hfault, hresult, Outcome.after, Outcome.map]

/-! ## What a pass removes -/

/-- Whether something is removed. -/
def Notice.isRemoval : Notice → Bool
  | .removed .. => true
  | _ => false

namespace Outcome

variable {α β : Type}

/-- The same outcome when only what is removed counts. -/
def onlyRemovals (o : Outcome α) : Outcome α :=
  { o with notices := o.notices.filter Notice.isRemoval }

@[simp] theorem result_onlyRemovals (o : Outcome α) : o.onlyRemovals.result = o.result := rfl

@[simp] theorem fault_onlyRemovals (o : Outcome α) : o.onlyRemovals.fault = o.fault := rfl

@[simp] theorem onlyRemovals_mk (result : α) (notices : List Notice) (fault : Option NameFault) :
    (mk result notices fault).onlyRemovals = ⟨result, notices.filter Notice.isRemoval, fault⟩ := rfl

@[simp] theorem onlyRemovals_map (f : α → β) (o : Outcome α) :
    (o.map f).onlyRemovals = o.onlyRemovals.map f := rfl

@[simp] theorem onlyRemovals_after (ns : List Notice) (o : Outcome α) :
    (o.after ns).onlyRemovals = o.onlyRemovals.after (ns.filter Notice.isRemoval) := by
  simp [onlyRemovals, after]

@[simp] theorem after_nil (o : Outcome α) : o.after [] = o := rfl

@[simp] theorem after_after (ms ns : List Notice) (o : Outcome α) :
    (o.after ns).after ms = o.after (ms ++ ns) := by
  simp [after]

end Outcome

/-- What is reported as removed is what is removed. -/
theorem filter_reports {α : Type} (source : String) (o : Outcome α) :
    (o.reports source).filter Report.isRemoval = o.onlyRemovals.reports source := by
  have hone : ∀ notice : Notice, (notice.report? source).filter Report.isRemoval =
      if notice.isRemoval then notice.report? source else none := by
    intro notice
    cases notice with
    | removed entry name path => cases entry <;> rfl
    | stripped | nameless | failed => rfl
  rw [Outcome.reports, Outcome.reports, Outcome.onlyRemovals, List.filter_filterMap,
    List.filterMap_filter]
  simp only [hone]

@[simp] theorem filter_strippedNotice (entry : Entry) (before kept : Option String) :
    (strippedNotice entry before kept).filter Notice.isRemoval = [] := by
  rw [strippedNotice]
  split <;> rfl

@[simp] theorem filter_namelessNotice (path : String) (name : Option String) :
    (namelessNotice path name).filter Notice.isRemoval = [] := by
  rw [namelessNotice]
  split <;> rfl

/-! ## Entries without markers -/

/-- A pass goes by values without markers. -/
theorem pruneValues_of_hasMarker {vs : List Value}
    (h : ∀ name ∈ vs.map (·.name), AnnotatedName.hasMarker name = false) (running : Version)
    (path : String) : pruneValues running path vs = ⟨vs, [], none⟩ := by
  induction vs with
  | nil => rfl
  | cons v vs ih =>
    rw [List.map_cons, List.forall_mem_cons] at h
    rw [pruneValues_cons, Verdict.ofName_of_hasMarker h.1, ih h.2]
    simp [strippedNotice, Outcome.after]

mutual

/-- A pass through a node without markers removes nothing and changes nothing but its name. -/
theorem onlyRemovals_pruneNode_of_hasMarker (running : Version) :
    ∀ (n : Node) (above : List (Option String)) (kept : Option String),
      (∀ name ∈ entryNames n, AnnotatedName.hasMarker name = false) →
        (pruneNode running above kept n).onlyRemovals = ⟨{ n with name := kept }, [], none⟩
  | ⟨name, values, nodes⟩, above, kept, h => by
    rw [entryNames, List.forall_mem_append] at h
    have hvalues := pruneValues_of_hasMarker h.1 running (pathText (above ++ [kept]))
    have hnodes := onlyRemovals_pruneNodes_of_hasMarker running nodes (above ++ [kept]) h.2
    rw [pruneNode_of_no_fault (by rw [hvalues]), hvalues]
    simp only [Outcome.after_nil, Outcome.onlyRemovals_map, hnodes, Outcome.map_mk]

/-- A pass through children without markers removes nothing and changes nothing. -/
theorem onlyRemovals_pruneNodes_of_hasMarker (running : Version) :
    ∀ (ns : List Node) (trail : List (Option String)),
      (∀ name ∈ childNames ns, AnnotatedName.hasMarker name = false) →
        (pruneNodes running trail ns).onlyRemovals = ⟨ns, [], none⟩
  | [], trail, _ => rfl
  | n :: ns, trail, h => by
    rw [childNames, List.forall_mem_cons, List.forall_mem_append] at h
    have hchild := onlyRemovals_pruneNode_of_hasMarker running n trail n.name h.2.1
    have hrest := onlyRemovals_pruneNodes_of_hasMarker running ns trail h.2.2
    have hfault : (pruneNode running trail n.name n).fault = none := congrArg (·.fault) hchild
    have hresult : (pruneNode running trail n.name n).result = n :=
      (congrArg (·.result) hchild).trans (by cases n; rfl)
    have hnotices : (pruneNode running trail n.name n).notices.filter Notice.isRemoval = [] :=
      congrArg (·.notices) hchild
    rw [pruneNodes_cons, Verdict.ofName_of_hasMarker h.1]
    simp [hfault, hresult, hnotices, hrest]

end

/-- A pass does not end among children without markers. -/
theorem firstMalformed_nodeVisits_of_hasMarker {ns : List Node}
    (h : ∀ name ∈ childNames ns, AnnotatedName.hasMarker name = false) (running : Version)
    (kept : Option String) (i : Nat) : firstMalformed (nodeVisits running kept i ns) = none := by
  have hself := onlyRemovals_pruneNodes_of_hasMarker running ns [] h
  rw [← firstFault_eq_none_iff, ← pruneNodes_fault running ns []]
  exact congrArg (·.fault) hself

/-- What stays of values without markers is all of them. -/
theorem keptValues_of_hasMarker {vs : List Value}
    (h : ∀ name ∈ vs.map (·.name), AnnotatedName.hasMarker name = false) (running : Version) :
    keptValues running vs = vs := by
  have hfault : ∀ v ∈ vs, NameFault.of? v.name = none := by
    intro v hv
    exact of?_of_hasMarker (h v.name (List.mem_map_of_mem hv))
  have hnone : firstMalformed (valueVisits none 0 vs) = none :=
    firstMalformed_valueVisits_eq_none_iff.mpr hfault
  have hresult : (pruneValues running "" vs).result = keptValues running vs :=
    pruneValues_result_of_none hnone
  rw [← hresult, pruneValues_of_hasMarker h]

/-- What stays of children without markers is all of them. -/
theorem keptNodes_of_hasMarker {ns : List Node}
    (h : ∀ name ∈ childNames ns, AnnotatedName.hasMarker name = false) (running : Version) :
    keptNodes running ns = ns := by
  have hself := onlyRemovals_pruneNodes_of_hasMarker running ns [] h
  have hnone := firstMalformed_nodeVisits_of_hasMarker h running none 0
  rw [← pruneNodes_result_of_none running ns [] none 0 hnone]
  exact congrArg (·.result) hself

end Pruning

end VersionGate
