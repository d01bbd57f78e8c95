import VersionGate.Proofs.Pruning.Settled

/-!
# What a pass detaches

A pass takes entries out of the nodes that stay, each with all that it contains. From the first
entry that it does not decide on, the entries of a node stay as they were. `Detaches` says so of a
tree before and after, and of the parts that are gone; it leaves no choice which parts these are.

## Key results

- `Detaches.length_eq`: the entries that are left and those in the parts that are gone are as many
  as there were
- `Detaches.unique`: a tree before and after determines the parts that are gone
- `exists_detaches_pruneNode`: a pass detaches as many parts as it says that it removes
-/

namespace VersionGate.Pruning

open Config

/-- A value, or a child with all that it contains. -/
inductive Part where
  | value (v : Value)
  | node (n : Node)

/-- The names of the entries that a part consists of. -/
def Part.names : Part → List (Option String)
  | value v => [v.name]
  | node n => n.name :: entryNames n

/-- Every part consists of some entry. -/
private theorem eq_nil_of_names {gone : List Part} (h : (gone.flatMap Part.names).length = 0) :
    gone = [] := by
  cases gone with
  | nil => rfl
  | cons part gone => cases part <;> simp [Part.names] at h

/-! ## Before and after -/

/-- Some values before and after a pass that has detached `gone` from them. -/
inductive DetachesValues (running : Version) : List Value → List Value → List Part → Prop where
  /-- Values that have not been decided stay as they are. -/
  | rest (vs : List Value) : DetachesValues running vs vs []
  | detach {v : Value} {vs left : List Value} {gone : List Part}
      (excluded : Excluded running v.name) (behind : DetachesValues running vs left gone) :
      DetachesValues running (v :: vs) left (.value v :: gone)
  | keep {v kept : Value} {vs left : List Value} {gone : List Part}
      (stays : ¬Excluded running v.name)
      (named : kept = { v with name := AnnotatedName.stripped v.name })
      (behind : DetachesValues running vs left gone) :
      DetachesValues running (v :: vs) (kept :: left) gone

mutual

/-- A node before and after a pass that has detached `gone` from what it contains. -/
inductive Detaches (running : Version) : Node → Node → List Part → Prop where
  | node {name kept : Option String} {values values' : List Value} {nodes nodes' : List Node}
      {gone gone' : List Part} (inValues : DetachesValues running values values' gone)
      (inNodes : DetachesNodes running nodes nodes' gone') :
      Detaches running ⟨name, values, nodes⟩ ⟨kept, values', nodes'⟩ (gone ++ gone')

/-- Some children before and after a pass that has detached `gone` from them and from what they
contain. -/
inductive DetachesNodes (running : Version) : List Node → List Node → List Part → Prop where
  /-- Children that have not been decided stay as they are. -/
  | rest (ns : List Node) : DetachesNodes running ns ns []
  | detach {n : Node} {ns left : List Node} {gone : List Part}
      (excluded : Excluded running n.name) (behind : DetachesNodes running ns left gone) :
      DetachesNodes running (n :: ns) left (.node n :: gone)
  | keep {n child : Node} {ns left : List Node} {below gone : List Part}
      (stays : ¬Excluded running n.name) (named : child.name = AnnotatedName.stripped n.name)
      (inside : Detaches running n child below) (behind : DetachesNodes running ns left gone) :
      DetachesNodes running (n :: ns) (child :: left) (below ++ gone)

end

/-! ## Counting entries -/

/-- The values that are left and those that are gone are as many as there were. -/
theorem DetachesValues.length_eq {running : Version} {vs left : List Value} {gone : List Part}
    (h : DetachesValues running vs left gone) :
    vs.length = left.length + (gone.flatMap Part.names).length := by
  induction h with
  | rest vs => rfl
  | detach excluded behind ih =>
    rw [List.length_cons, ih, List.flatMap_cons, Part.names, List.length_append,
      List.length_singleton]
    omega
  | keep stays named behind ih =>
    rw [List.length_cons, List.length_cons, ih]
    omega

mutual

/-- The entries that are left in a node and those that are gone are as many as there were. -/
theorem Detaches.length_eq {running : Version} {n left : Node} {gone : List Part}
    (h : Detaches running n left gone) :
    (entryNames n).length = (entryNames left).length + (gone.flatMap Part.names).length := by
  cases h with
  | node inValues inNodes =>
    have hvalues := inValues.length_eq
    have hnodes := inNodes.length_eq
    rw [entryNames, entryNames, List.flatMap_append]
    simp only [List.length_append, List.length_map]
    omega

/-- So are those of several nodes. -/
theorem DetachesNodes.length_eq {running : Version} {ns left : List Node} {gone : List Part}
    (h : DetachesNodes running ns left gone) :
    (childNames ns).length = (childNames left).length + (gone.flatMap Part.names).length := by
  cases h with
  | rest ns => rfl
  | detach excluded behind =>
    have hbehind := behind.length_eq
    rw [childNames, List.flatMap_cons, Part.names]
    simp only [List.length_cons, List.length_append]
    omega
  | keep stays named inside behind =>
    have hinside := inside.length_eq
    have hbehind := behind.length_eq
    rw [childNames, childNames, List.flatMap_append]
    simp only [List.length_cons, List.length_append]
    omega

end

/-! ## No choice -/

/-- Nothing is gone from values that are as they were. -/
private theorem DetachesValues.eq_nil {running : Version} {vs : List Value} {gone : List Part}
    (h : DetachesValues running vs vs gone) : gone = [] := by
  have hlength := h.length_eq
  exact eq_nil_of_names (by omega)

/-- Nothing is gone from children that are as they were. -/
private theorem DetachesNodes.eq_nil {running : Version} {ns : List Node} {gone : List Part}
    (h : DetachesNodes running ns ns gone) : gone = [] := by
  have hlength := h.length_eq
  exact eq_nil_of_names (by omega)

/-- Values before and after a pass determine those that are gone. -/
theorem DetachesValues.unique {running : Version} {vs left : List Value} {gone gone' : List Part}
    (h : DetachesValues running vs left gone) (h' : DetachesValues running vs left gone') :
    gone = gone' := by
  -- Whether a value that has been decided goes is a matter of its name. Where one derivation has
  -- stopped deciding and the other has not, all values are left, and nothing is gone.
  induction h generalizing gone' with
  | rest vs => exact h'.eq_nil.symm
  | detach excluded behind ih =>
    cases h' with
    | rest => exact (behind.detach excluded).eq_nil
    | detach _ behind' => rw [ih behind']
    | keep stays _ _ => exact absurd excluded stays
  | keep stays named behind ih =>
    cases h' with
    | rest => exact (DetachesValues.keep stays named behind).eq_nil
    | detach excluded _ => exact absurd excluded stays
    | keep _ _ behind' => exact ih behind'

mutual

/-- A node before and after a pass determines the parts that are gone. -/
theorem Detaches.unique {running : Version} {n left : Node} {gone gone' : List Part}
    (h : Detaches running n left gone) (h' : Detaches running n left gone') : gone = gone' := by
  cases h with
  | node inValues inNodes =>
    cases h' with
    | node inValues' inNodes' => rw [inValues.unique inValues', inNodes.unique inNodes']

/-- So do several nodes. -/
theorem DetachesNodes.unique {running : Version} {ns left : List Node} {gone gone' : List Part}
    (h : DetachesNodes running ns left gone) (h' : DetachesNodes running ns left gone') :
    gone = gone' := by
  cases h with
  | rest ns => exact h'.eq_nil.symm
  | detach excluded behind =>
    cases h' with
    | rest => exact (DetachesNodes.detach excluded behind).eq_nil
    | detach _ behind' => rw [behind.unique behind']
    | keep stays _ _ _ => exact absurd excluded stays
  | keep stays named inside behind =>
    cases h' with
    | rest => exact (DetachesNodes.keep stays named inside behind).eq_nil
    | detach excluded _ => exact absurd excluded stays
    | keep _ _ inside' behind' => rw [inside.unique inside', behind.unique behind']

end

/-! ## What a pass says -/

/-- A pass detaches as many values as it says that it removes. -/
private theorem exists_detaches_pruneValues (running : Version) (path : String) (vs : List Value) :
    ∃ gone, DetachesValues running vs (pruneValues running path vs).result gone ∧
      ((pruneValues running path vs).notices.filter Notice.isRemoval).length = gone.length := by
  induction vs with
  | nil => exact ⟨[], .rest [], rfl⟩
  | cons v vs ih =>
    obtain ⟨gone, hgone, hcount⟩ := ih
    rw [pruneValues_cons]
    rcases Verdict.ofName_cases running v.name with ⟨fault, -, hv⟩ | ⟨-, hex, hv⟩ | ⟨-, hex, hv⟩
    · rw [hv]
      exact ⟨[], .rest (v :: vs), rfl⟩
    · rw [hv]
      exact ⟨.value v :: gone, .detach hex hgone, congrArg (· + 1) hcount⟩
    · rw [hv]
      refine ⟨gone, .keep hex rfl hgone, ?_⟩
      simp [hcount]

mutual

/-- A pass detaches as many parts from a node as it says that it removes. -/
theorem exists_detaches_pruneNode (running : Version) :
    ∀ (n : Node) (above : List (Option String)) (kept : Option String),
      ∃ gone, Detaches running n (pruneNode running above kept n).result gone ∧
        ((pruneNode running above kept n).notices.filter Notice.isRemoval).length = gone.length
  | ⟨name, values, nodes⟩, above, kept => by
    obtain ⟨gone, hgone, hcount⟩ :=
      exists_detaches_pruneValues running (pathText (above ++ [kept])) values
    cases hfault : (pruneValues running (pathText (above ++ [kept])) values).fault with
    | some fault =>
      -- The pass ends among the values, and no child is decided.
      rw [pruneNode_of_fault hfault]
      refine ⟨gone ++ [], .node hgone (.rest nodes), ?_⟩
      rw [List.append_nil]
      exact hcount
    | none =>
      -- What is gone among the children comes behind what is gone among the values.
      obtain ⟨gone', hgone', hcount'⟩ :=
        exists_detaches_pruneNodes running nodes (above ++ [kept])
      rw [pruneNode_of_no_fault hfault]
      refine ⟨gone ++ gone', .node hgone hgone', ?_⟩
      simp [hcount, hcount']

/-- A pass detaches as many parts from some children as it says that it removes. -/
private theorem exists_detaches_pruneNodes (running : Version) :
    ∀ (ns : List Node) (trail : List (Option String)),
      ∃ gone, DetachesNodes running ns (pruneNodes running trail ns).result gone ∧
        ((pruneNodes running trail ns).notices.filter Notice.isRemoval).length = gone.length
  | [], trail => ⟨[], .rest [], rfl⟩
  | n :: ns, trail => by
    obtain ⟨gone, hgone, hcount⟩ := exists_detaches_pruneNodes running ns trail
    rw [pruneNodes_cons]
    -- That a child has no name is no removal.
    simp only [Outcome.result_after, Outcome.notices_after, List.filter_append,
      filter_namelessNotice, List.nil_append]
    rcases Verdict.ofName_cases running n.name with ⟨fault, -, hn⟩ | ⟨-, hex, hn⟩ | ⟨-, hex, hn⟩
    · rw [hn]
      exact ⟨[], .rest (n :: ns), rfl⟩
    · rw [hn]
      exact ⟨.node n :: gone, .detach hex hgone, congrArg (· + 1) hcount⟩
    · obtain ⟨below, hbelow, hinside⟩ :=
        exists_detaches_pruneNode running n trail (AnnotatedName.stripped n.name)
      have hname := name_pruneNode running trail (AnnotatedName.stripped n.name) n
      cases hfault : (pruneNode running trail (AnnotatedName.stripped n.name) n).fault with
      | some fault =>
        -- The children behind the one in which the pass ends are not decided.
        simp only [hn, hfault]
        refine ⟨below ++ [], .keep hex hname hbelow (.rest ns), ?_⟩
        simp [hinside]
      | none =>
        simp only [hn, hfault]
        refine ⟨below ++ gone, .keep hex hname hbelow hgone, ?_⟩
        simp [hinside, hcount]

end

end VersionGate.Pruning
