import VersionGate.Proofs.Pruning.Settled
import VersionGate.Proofs.Requirement.Bounds

/-!
# What a pass depends on

A pass looks at the running version only to judge the names in the tree, and a name is judged by its
annotation. So a pass depends on the running version only through the bounds that are written in the
annotations, and on these only through the side that the version is on: versions that lie on the
same side of every bound prune a tree in the same way, to the last line of the log.

## Key results

- `Verdict.ofName_congr`: the verdict on a name depends on the bounds in its annotation
- `visits_congr`, `pruneNode_congr`: the walk and the pass depend on the verdicts on the names
- `prune_depends_on_comparisons`: the same for checkers and trees, and for versions that differ in
  their revision only
-/

namespace VersionGate

open Config

/-- The bounds in the annotation of a name; there are none if it cannot be read. -/
def AnnotatedName.bounds (name : Option String) : List Version :=
  match split name with
  | .ok ⟨_, some requirement⟩ => Requirement.textBounds requirement
  | _ => []

/-- The verdict on a name depends on the running version only through the bounds in its
annotation. -/
theorem Verdict.ofName_congr {v w : Version} {name : Option String}
    (h : ∀ bound ∈ AnnotatedName.bounds name, v.SameSide w bound) :
    ofName v name = ofName w name := by
  rw [AnnotatedName.bounds] at h
  rw [ofName, ofName]
  cases hsplit : AnnotatedName.split name with
  | error fault => rfl
  | ok annotated =>
    obtain ⟨stripped, requirement⟩ := annotated
    cases requirement with
    | none => rfl
    | some requirement =>
      rw [hsplit] at h
      simp only [Requirement.check_congr h]

namespace Pruning

/-! ## The same verdicts -/

/-- Two versions give the same verdict on a name. -/
def SameVerdict (v w : Version) (name : Option String) : Prop :=
  Verdict.ofName v name = Verdict.ofName w name

variable {v w : Version}

/-- Versions with the same verdict on a name both exclude it, or neither does. -/
private theorem SameVerdict.excluded_iff {name : Option String} (h : SameVerdict v w name) :
    Excluded v name ↔ Excluded w name := by
  rw [← Verdict.ofName_eq_remove_iff, ← Verdict.ofName_eq_remove_iff, h]

mutual

/-- The walk through a node depends on the verdicts on the names in it. -/
theorem visits_congr (kept : Option String) :
    ∀ (n : Node), (∀ name ∈ entryNames n, SameVerdict v w name) →
      visits v kept n = visits w kept n
  | ⟨name, values, nodes⟩, h => by
    rw [entryNames, List.forall_mem_append] at h
    rw [visits, visits, nodeVisits_congr kept nodes 0 h.2]

/-- So does the walk through its children. -/
private theorem nodeVisits_congr (kept : Option String) :
    ∀ (ns : List Node) (i : Nat), (∀ name ∈ childNames ns, SameVerdict v w name) →
      nodeVisits v kept i ns = nodeVisits w kept i ns
  | [], i, _ => by rw [nodeVisits, nodeVisits]
  | n :: ns, i, h => by
    rw [childNames, List.forall_mem_cons, List.forall_mem_append] at h
    rw [nodeVisits, nodeVisits, visits_congr _ n h.2.1, nodeVisits_congr kept ns (i + 1) h.2.2]
    simp only [h.1.excluded_iff]

end

/-- Values are pruned alike if the verdicts on their names are the same. -/
private theorem pruneValues_congr {vs : List Value}
    (h : ∀ name ∈ vs.map (·.name), SameVerdict v w name)
    (path : String) : pruneValues v path vs = pruneValues w path vs := by
  induction vs with
  | nil => rfl
  | cons value vs ih =>
    rw [List.map_cons, List.forall_mem_cons] at h
    have hname : Verdict.ofName v value.name = Verdict.ofName w value.name := h.1
    rw [pruneValues_cons, pruneValues_cons, hname, ih h.2]

mutual

/-- What a pass does to a node depends on the verdicts on the names in it. -/
theorem pruneNode_congr :
    ∀ (n : Node), (∀ name ∈ entryNames n, SameVerdict v w name) →
      ∀ above kept, pruneNode v above kept n = pruneNode w above kept n
  | ⟨name, values, nodes⟩, h, above, kept => by
    rw [entryNames, List.forall_mem_append] at h
    rw [pruneNode_eq, pruneNode_eq, pruneValues_congr h.1, pruneNodes_congr nodes h.2]

/-- So does what it does to the children. -/
private theorem pruneNodes_congr :
    ∀ (ns : List Node), (∀ name ∈ childNames ns, SameVerdict v w name) →
      ∀ trail, pruneNodes v trail ns = pruneNodes w trail ns
  | [], _, trail => rfl
  | n :: ns, h, trail => by
    rw [childNames, List.forall_mem_cons, List.forall_mem_append] at h
    have hname : Verdict.ofName v n.name = Verdict.ofName w n.name := h.1
    have hchild := pruneNode_congr n h.2.1
    rw [pruneNodes_cons, pruneNodes_cons, hname, pruneNodes_congr ns h.2.2 trail]
    -- The name under which a child stays is only known with the verdict on it.
    simp only [hchild]

end

/-! ## The bounds in a tree -/

/-- The bounds in all annotations below the root that can be read. -/
def treeBounds (tree : Node) : List Version := (entryNames tree).flatMap AnnotatedName.bounds

/-- Versions on the same side of all bounds have the same verdict on every name. -/
private theorem sameVerdict_of_treeBounds {tree : Node}
    (h : ∀ bound ∈ treeBounds tree, v.SameSide w bound) :
    ∀ name ∈ entryNames tree, SameVerdict v w name := by
  intro name hname
  refine Verdict.ofName_congr fun bound hbound => h bound ?_
  exact List.mem_flatMap.mpr ⟨name, hname, hbound⟩

/-- Two checkers go through a tree in the same way. -/
structure SamePass (c d : Checker) (tree : Node) (source : String) : Prop where
  /-- They come to the same entries, and to the same malformed name if they come to one. -/
  walk_eq : walk c.running tree = walk d.running tree
  /-- They end in the same way, leave the same tree, and have the same to report. -/
  prune_eq : ∃ outcome, c.prune (some tree) (some source) = .ok (source, outcome) ∧
    d.prune (some tree) (some source) = .ok (source, outcome)

/-- So the passes of two checkers for such versions are the same. -/
private theorem samePass_of_sameSide {c d : Checker} {tree : Node}
    (h : ∀ bound ∈ treeBounds tree, c.running.SameSide d.running bound) (source : String) :
    SamePass c d tree source := by
  have hnames := sameVerdict_of_treeBounds h
  have hprune : prune c.running tree = prune d.running tree := pruneNode_congr tree hnames _ _
  exact ⟨visits_congr tree.name tree hnames,
    prune c.running tree, rfl, by rw [Checker.prune, hprune]⟩

/-- Versions on the same side of every bound in a tree prune it in the same way. Where no annotation
asks for a revision, these are all versions with the same major and minor number. -/
theorem prune_depends_on_comparisons (c d : Checker) (tree : Node) (source : String) :
    ((∀ bound ∈ treeBounds tree, c.running.SameSide d.running bound) →
      SamePass c d tree source) ∧
    ∀ major minor r s, c.running = .full major minor r → d.running = .full major minor s →
      (∀ bound ∈ treeBounds tree, bound.isComplete = false) → SamePass c d tree source := by
  refine ⟨fun h => samePass_of_sameSide h source, fun major minor r s hc hd h => ?_⟩
  refine samePass_of_sameSide (fun bound hbound => ?_) source
  rw [hc, hd]
  exact Version.sameSide_of_incomplete (h bound hbound) major minor r s

end Pruning

end VersionGate
