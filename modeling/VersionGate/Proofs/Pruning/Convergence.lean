import VersionGate.Proofs.Pruning.Settled

/-!
# Pruning again and again

Taking out an annotation can leave a marker behind, put together from what stood on its two sides,
so one pass is not always the last that does something. But a pass that goes through takes something
away as long as there is a marker anywhere below the root: an entry goes, with all that it contains,
or it gets a shorter name. `weight` counts both, and no row of such passes is longer than that.

## Key results

- `Shrinks`: what a pass does to the names of some entries
- `prune_of_hasMarker`: a pass over a tree without markers changes and removes nothing
- `shrinks_keptPart`: a pass that goes through lightens a tree, or there was no marker in it
- `exists_passes`: passes go on until one ends early or no marker is left
- `repeated_passes_settle`: what a pass of a checker does to the weight, and where its passes lead
-/

namespace VersionGate.Pruning

open Config

/-- The number of some names and of the letters in them. A missing name has none. -/
def namesWeight (names : List (Option String)) : Nat :=
  names.length + (names.flatMap fun name => (name.getD "").toList).length

/-- The number of entries of a tree and of the letters in their names. -/
def weight (tree : Node) : Nat := namesWeight (entryNames tree)

/-- A name weighs as much as it has characters, and one more. -/
private theorem namesWeight_cons (name : Option String) (names : List (Option String)) :
    namesWeight (name :: names) = 1 + (name.getD "").length + namesWeight names := by
  simp only [namesWeight, List.length_cons, List.flatMap_cons, List.length_append,
    String.length_toList]
  omega

/-- The names of two lists weigh as much together as one by one. -/
private theorem namesWeight_append (xs ys : List (Option String)) :
    namesWeight (xs ++ ys) = namesWeight xs + namesWeight ys := by
  simp only [namesWeight, List.length_append, List.flatMap_append]
  omega

/-! ## Lighter names -/

/-- The names of some entries after a pass, and before: they have become lighter, or they are the
same and there is no marker in them. -/
def Shrinks (after before : List (Option String)) : Prop :=
  namesWeight after < namesWeight before ∨
    after = before ∧ ∀ name ∈ before, AnnotatedName.hasMarker name = false

namespace Shrinks

variable {after before after' before' : List (Option String)}

theorem nil : Shrinks [] [] := .inr ⟨rfl, by simp⟩

/-- Names get no heavier. -/
private theorem le (h : Shrinks after before) : namesWeight after ≤ namesWeight before := by
  obtain h | ⟨rfl, -⟩ := h
  · exact Nat.le_of_lt h
  · exact Nat.le_refl _

/-- Two lists of names that shrink do so together. -/
theorem append (h : Shrinks after before) (h' : Shrinks after' before') :
    Shrinks (after ++ after') (before ++ before') := by
  have hle := h.le
  have hle' := h'.le
  obtain h | ⟨rfl, hmarker⟩ := h
  · left
    rw [namesWeight_append, namesWeight_append]
    omega
  · obtain h' | ⟨rfl, hmarker'⟩ := h'
    · left
      rw [namesWeight_append, namesWeight_append]
      omega
    · exact .inr ⟨rfl, List.forall_mem_append.mpr ⟨hmarker, hmarker'⟩⟩

/-- An entry that goes takes its name along, and the names of the entries in it. -/
theorem removed (h : Shrinks after before) (name : Option String)
    (inside : List (Option String)) : Shrinks after (name :: (inside ++ before)) := by
  have hle := h.le
  left
  rw [namesWeight_cons, namesWeight_append]
  omega

end Shrinks

/-- A name that can be decided gets lighter, as its annotation goes, or there is no marker in it. -/
private theorem shrinks_stripped {name : Option String} (h : NameFault.of? name = none) :
    Shrinks [AnnotatedName.stripped name] [name] := by
  rw [NameFault.of?] at h
  cases hsplit : AnnotatedName.split name with
  | error fault => simp [hsplit] at h
  | ok annotated =>
    obtain ⟨stripped, requirement⟩ := annotated
    have hstripped : AnnotatedName.stripped name = stripped := by
      rw [AnnotatedName.stripped, hsplit]
    rw [hstripped]
    cases requirement with
    | none =>
      obtain rfl := AnnotatedName.eq_of_split_none hsplit
      have hmarker := AnnotatedName.hasMarker_of_split_none hsplit
      exact .inr ⟨rfl, by simpa using hmarker⟩
    | some requirement =>
      -- the marker is gone, with its brackets and what is in them
      have hlength := AnnotatedName.length_lt_of_split hsplit
      left
      rw [namesWeight_cons, namesWeight_cons]
      omega

/-! ## Lighter trees -/

/-- Values of which all names can be decided get lighter, or there is no marker in them. -/
private theorem shrinks_keptValues (running : Version) {vs : List Value}
    (h : ∀ v ∈ vs, NameFault.of? v.name = none) :
    Shrinks ((keptValues running vs).map (·.name)) (vs.map (·.name)) := by
  induction vs with
  | nil => exact .nil
  | cons v vs ih =>
    rw [List.forall_mem_cons] at h
    have hrest := ih h.2
    by_cases hex : Excluded running v.name
    · have hkept : keptValues running (v :: vs) = keptValues running vs := by
        simp [keptValues, hex]
      rw [hkept, List.map_cons]
      exact hrest.removed v.name []
    · have hkept : keptValues running (v :: vs) =
          { v with name := AnnotatedName.stripped v.name } :: keptValues running vs := by
        simp [keptValues, hex]
      rw [hkept]
      exact (shrinks_stripped h.1).append hrest

mutual

/-- A node in which all names can be decided gets lighter, or there is no marker in it. -/
theorem shrinks_keptPart (running : Version) :
    ∀ (n : Node) (kept : Option String), firstMalformed (visits running kept n) = none →
      Shrinks (entryNames (keptPart running n)) (entryNames n)
  | ⟨name, values, nodes⟩, kept, h => by
    rw [visits, firstMalformed_append_eq_none_iff] at h
    have hvalues := firstMalformed_valueVisits_eq_none_iff.mp h.1
    rw [keptPart, entryNames, entryNames]
    exact (shrinks_keptValues running hvalues).append
      (shrinks_keptNodes running nodes kept 0 h.2)

/-- Children in which all names can be decided get lighter, or there is no marker in them. -/
private theorem shrinks_keptNodes (running : Version) :
    ∀ (ns : List Node) (kept : Option String) (i : Nat),
      firstMalformed (nodeVisits running kept i ns) = none →
        Shrinks (childNames (keptNodes running ns)) (childNames ns)
  | [], kept, i, _ => by
    rw [keptNodes, childNames]
    exact .nil
  | n :: ns, kept, i, h => by
    rw [nodeVisits, firstMalformed_cons_eq_none_iff, firstMalformed_append_eq_none_iff] at h
    obtain ⟨hn, hbelow, hbehind⟩ := h
    have hrest := shrinks_keptNodes running ns kept (i + 1) hbehind
    rw [keptNodes, childNames]
    by_cases hex : Excluded running n.name
    · -- The pass does not look into the child, so it can contain any names.
      rw [if_pos hex]
      exact hrest.removed n.name (entryNames n)
    · rw [if_neg hex, firstMalformed_map_under, Option.map_eq_none_iff] at hbelow
      have hchild := shrinks_keptPart running n _ hbelow
      rw [if_neg hex, childNames, entryNames_with_name]
      exact (shrinks_stripped hn).append (hchild.append hrest)

end

/-- A pass that goes through makes a tree lighter, or there is no marker in it. -/
private theorem shrinks_prune {running : Version} {tree : Node}
    (h : (prune running tree).fault = none) :
    Shrinks (entryNames (prune running tree).result) (entryNames tree) := by
  rw [prune, pruneNode_fault, firstFault_eq_none_iff] at h
  rw [prune, pruneNode_result_of_none running tree [] tree.name h, entryNames_with_name]
  exact shrinks_keptPart running tree tree.name h

/-- A pass over a tree without markers goes through, changes nothing and reports no removal. -/
theorem prune_of_hasMarker {tree : Node}
    (h : ∀ name ∈ entryNames tree, AnnotatedName.hasMarker name = false) (running : Version)
    (source : String) :
    (prune running tree).fault = none ∧ (prune running tree).result = tree ∧
      ((prune running tree).reports source).filter Report.isRemoval = [] := by
  have hself : (prune running tree).onlyRemovals = ⟨tree, [], none⟩ := by
    obtain ⟨name, values, nodes⟩ := tree
    show (pruneNode running [] name ⟨name, values, nodes⟩).onlyRemovals = _
    exact onlyRemovals_pruneNode_of_hasMarker running ⟨name, values, nodes⟩ [] name h
  refine ⟨congrArg (·.fault) hself, congrArg (·.result) hself, ?_⟩
  rw [filter_reports, hself]
  rfl

/-- A pass over a tree with a marker makes it lighter. -/
private theorem weight_prune_lt {running : Version} {tree : Node}
    (h : (prune running tree).fault = none)
    (hmarker : ¬∀ name ∈ entryNames tree, AnnotatedName.hasMarker name = false) :
    weight (prune running tree).result < weight tree := by
  obtain hlt | ⟨-, hnone⟩ := shrinks_prune h
  · exact hlt
  · exact absurd hnone hmarker

/-! ## Many passes -/

/-- The tree after some passes, one after the other, if they all go through. -/
def passes (running : Version) : Nat → Node → Option Node
  | 0, tree => some tree
  | k + 1, tree =>
    match (prune running tree).fault with
    | some _ => none
    | none => passes running k (prune running tree).result

/-- After no more passes than the weight of a tree, the next one ends early or no marker is left. -/
theorem exists_passes (running : Version) (tree : Node) :
    ∃ k last, k ≤ weight tree ∧ passes running k tree = some last ∧
      ((prune running last).fault ≠ none ∨
        ∀ name ∈ entryNames last, AnnotatedName.hasMarker name = false) := by
  -- The weight falls with every pass that goes through and finds a marker.
  induction hw : weight tree using Nat.strong_induction_on generalizing tree with
  | _ w ih =>
    by_cases hmarker : ∀ name ∈ entryNames tree, AnnotatedName.hasMarker name = false
    · exact ⟨0, tree, by omega, rfl, .inr hmarker⟩
    · cases hfault : (prune running tree).fault with
      | some fault => exact ⟨0, tree, by omega, rfl, .inl (by simp [hfault])⟩
      | none =>
        have hlt := weight_prune_lt hfault hmarker
        rw [hw] at hlt
        obtain ⟨k, last, hk, hpasses, hlast⟩ := ih _ hlt (prune running tree).result rfl
        refine ⟨k + 1, last, by omega, ?_, hlast⟩
        rw [passes, hfault]
        exact hpasses

/-- A pass of a checker that goes through leaves a tree as it was and removes nothing exactly if
there is no marker below the root, and otherwise the tree gets lighter. So after no more passes than
the tree weighs, the next pass ends early, or no marker is left below the root, and then no pass of
any checker changes or removes anything any more. -/
theorem repeated_passes_settle (c : Checker) (tree : Node) :
    (∀ source, ∃ outcome, c.prune (some tree) (some source) = .ok (source, outcome) ∧
      (outcome.fault = none →
        ((outcome.result = tree ∧ (outcome.reports source).filter Report.isRemoval = []) ↔
          ∀ name ∈ entryNames tree, AnnotatedName.hasMarker name = false) ∧
        (¬(outcome.result = tree ∧ (outcome.reports source).filter Report.isRemoval = []) →
          weight outcome.result < weight tree))) ∧
    ∃ k last, k ≤ weight tree ∧ passes c.running k tree = some last ∧
      ((prune c.running last).fault ≠ none ∨
        (∀ name ∈ entryNames last, AnnotatedName.hasMarker name = false) ∧
        ∀ (d : Checker) (source : String), ∃ outcome,
          d.prune (some last) (some source) = .ok (source, outcome) ∧ outcome.fault = none ∧
          outcome.result = last ∧ (outcome.reports source).filter Report.isRemoval = []) := by
  refine ⟨fun source => ⟨prune c.running tree, rfl, fun hfault => ?_⟩, ?_⟩
  · have hiff : ((prune c.running tree).result = tree ∧
        ((prune c.running tree).reports source).filter Report.isRemoval = []) ↔
          ∀ name ∈ entryNames tree, AnnotatedName.hasMarker name = false := by
      constructor
      · rintro ⟨hresult, -⟩
        by_contra hmarker
        -- A tree that stays as it was is no lighter, so no marker was in it.
        have hlt := weight_prune_lt hfault hmarker
        rw [hresult] at hlt
        omega
      · intro hmarker
        exact (prune_of_hasMarker hmarker c.running source).2
    exact ⟨hiff, fun hchange => weight_prune_lt hfault (mt hiff.mpr hchange)⟩
  · -- Each pass that goes through takes weight away as long as there is a marker, and there is only
    -- so much of it.
    obtain ⟨k, last, hk, hpasses, hlast⟩ := exists_passes c.running tree
    refine ⟨k, last, hk, hpasses, ?_⟩
    obtain hfault | hmarker := hlast
    · exact .inl hfault
    · right
      refine ⟨hmarker, fun d source => ⟨prune d.running last, rfl, ?_⟩⟩
      exact prune_of_hasMarker hmarker d.running source

/-- Without its annotation, the value has the name `a:KSP_VERSION[1.8]`. -/
private def nested : Node :=
  { name := some "ROOT:KSP_VERSION["
    values := [⟨some "a:KSP_VER:KSP_VERSION[1.8]SION[1.8]", "1"⟩] }

/-- Two passes are needed for two annotations, one inside the other. -/
theorem repeated_passes_settle_nested :
    let c : Checker := ⟨0, .full 1 8 1, rfl⟩
    ∃ outcome, c.prune (some nested) (some "a.cfg") = .ok ("a.cfg", outcome) ∧
      outcome.fault = none ∧ weight outcome.result < weight nested := by
  intro c
  obtain ⟨outcome, hprune, hpass⟩ := (repeated_passes_settle c nested).1 "a.cfg"
  obtain rfl : outcome = prune c.running nested := (Prod.mk.inj (Except.ok.inj hprune)).2.symm
  have hfault : (prune c.running nested).fault = none := by decide +kernel
  refine ⟨_, hprune, hfault, (hpass hfault).2 fun hsame => ?_⟩
  have hmarker := (hpass hfault).1.mp hsame
  have hnot : ¬∀ name ∈ entryNames nested, AnnotatedName.hasMarker name = false := by
    decide +kernel
  exact hnot hmarker

end VersionGate.Pruning
