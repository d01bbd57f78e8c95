import VersionGate.Config.Example
import VersionGate.Proofs.Pruning.Ending
import VersionGate.Proofs.Pruning.Trace
import VersionGate.Proofs.Requirement.Single

/-!
# Variants of an entry

Two entries of a node that have the same name and are annotated with opposite requirements are
variants for different versions. A pass that goes through leaves one of them, whatever the running
version, and reports the other one. To the entries around the two it does what it does to these
entries on their own, so that the variant that stays does so at its place.

## Key results

- `Verdict.ofName_annotate`: the verdict on a name with an annotation at its end
- `fate_pruneValues_flatten`, `fate_pruneNodes_flatten`: rows of entries one after the other
- `prune_selects_variant`: of two variants, one stays and the other one is reported
-/

namespace VersionGate

open Config

/-- A name with an annotation behind it is judged by what is in the brackets. -/
theorem Verdict.ofName_annotate {running : Version} {name requirement : String} {holds : Bool}
    (hname : AnnotatedName.hasMarker (some name) = false) (hclose : ']' ∉ requirement.toList)
    (h : Requirement.check running requirement = .ok holds) :
    ofName running (some (AnnotatedName.annotate name requirement)) =
      if holds then .keep (some name) else .remove := by
  rw [ofName, AnnotatedName.split_annotate hname hclose]
  cases holds <;> simp [h]

/-- Of two names with opposite requirements behind the same name, the one whose requirement holds is
judged to stay and the other one to go. -/
private theorem Requirement.Opposites.verdicts {r r' base : String} (h : Requirement.Opposites r r')
    (hbase : AnnotatedName.hasMarker (some base) = false) (running : Version) :
    ∃ holds, Requirement.check running r = .ok holds ∧
      Requirement.check running r' = .ok (!holds) ∧
      Verdict.ofName running (some (AnnotatedName.annotate base r)) =
        (if holds then .keep (some base) else .remove) ∧
      Verdict.ofName running (some (AnnotatedName.annotate base r')) =
        (if !holds then .keep (some base) else .remove) := by
  obtain ⟨holds, hr, hr'⟩ := h.exists_check running
  obtain ⟨hclose, hclose'⟩ := h.close_not_mem
  exact ⟨holds, hr, hr', Verdict.ofName_annotate hbase hclose hr,
    Verdict.ofName_annotate hbase hclose' hr'⟩

namespace Pruning

/-! ## What becomes of entries -/

/-- What becomes of some entries of a node: those that are left, and all that is reported. -/
structure Fate (α : Type) where
  left : List α
  reports : List Report

namespace Fate

variable {α : Type}

/-- An entry stays, and `inside` is reported about what it contains. -/
def stays (entry : α) (inside : List Report) : Fate α := ⟨[entry], inside⟩

/-- An entry goes, and that is reported. -/
def goes (report : Report) : Fate α := ⟨[], [report]⟩

/-- What becomes of rows of entries one after the other. -/
def concat (fates : List (Fate α)) : Fate α := ⟨fates.flatMap left, fates.flatMap reports⟩

private theorem concat_cons (fate : Fate α) (fates : List (Fate α)) :
    concat (fate :: fates) =
      ⟨fate.left ++ (concat fates).left, fate.reports ++ (concat fates).reports⟩ := rfl

end Fate

/-- What becomes of two entries with the requirements `r` and `r'`, of which one holds: its entry
stays, and the other one goes. -/
inductive Selects {α : Type} (running : Version) (r r' : String)
    (stays goes stays' goes' : Fate α) : Fate α → Fate α → Prop
  | first (holds : Requirement.check running r = .ok true)
      (fails : Requirement.check running r' = .ok false) :
      Selects running r r' stays goes stays' goes' stays goes'
  | second (fails : Requirement.check running r = .ok false)
      (holds : Requirement.check running r' = .ok true) :
      Selects running r r' stays goes stays' goes' goes stays'

/-- What becomes of the entries that a pass goes through. -/
def Outcome.fate {α : Type} (source : String) (o : Outcome (List α)) : Fate α :=
  ⟨o.result, o.reports source⟩

section Rows

variable {running : Version} {path : String} {trail : List (Option String)} {kept : Option String}

/-- Rows of values that can all be decided are gone through one after the other. -/
theorem fate_pruneValues_flatten {rows : List (List Value)}
    (h : ∀ v ∈ rows.flatten, NameFault.of? v.name = none) (source : String) :
    (pruneValues running path rows.flatten).fate source =
      .concat (rows.map fun vs => (pruneValues running path vs).fate source) := by
  induction rows with
  | nil => rfl
  | cons front rows ih =>
    rw [List.flatten_cons, List.forall_mem_append] at h
    -- The front row goes through on its own as well, so what it leaves is what it keeps.
    have hfront : firstMalformed (valueVisits none 0 front) = none :=
      firstMalformed_valueVisits_eq_none_iff.mpr h.1
    rw [List.flatten_cons, pruneValues_append h.1, List.map_cons, Fate.concat_cons, ← ih h.2]
    simp [Outcome.fate, Outcome.reports, pruneValues_result_of_none hfront]

/-- Rows of children that can all be decided are gone through one after the other. -/
theorem fate_pruneNodes_flatten {i : Nat} {rows : List (List Node)}
    (h : firstMalformed (nodeVisits running kept i rows.flatten) = none) (source : String) :
    (pruneNodes running trail rows.flatten).fate source =
      .concat (rows.map fun ns => (pruneNodes running trail ns).fate source) := by
  induction rows generalizing i with
  | nil => rfl
  | cons front rows ih =>
    rw [List.flatten_cons, nodeVisits_append, firstMalformed_append_eq_none_iff] at h
    have hfront := pruneNodes_result_of_none running front trail kept i h.1
    rw [List.flatten_cons, pruneNodes_append h.1, List.map_cons, Fate.concat_cons, ← ih h.2]
    simp [Outcome.fate, Outcome.reports, hfront]

/-- A value that is kept stays, under its new name. -/
private theorem fate_pruneValues_stays {v : Value} {name : Option String}
    (h : Verdict.ofName running v.name = .keep name) (source : String) :
    (pruneValues running path [v]).fate source = .stays { v with name } [] := by
  have hreports := reports_strippedNotice source .value v.name name
  rw [pruneValues_cons, h]
  simp [Outcome.fate, Fate.stays, Outcome.reports, hreports, pruneValues, walkValues,
    Progress.commit]

/-- A value that is removed goes, and that is reported. -/
private theorem fate_pruneValues_goes {v : Value} {name : String} (hname : v.name = some name)
    (h : Verdict.ofName running v.name = .remove) (source : String) :
    (pruneValues running path [v]).fate source =
      .goes (.valueRemoved source (path ++ "/" ++ name)) := by
  rw [pruneValues_cons, h, hname]
  rfl

/-- A child that stays is left with what stays of it, and only what it contains is reported. -/
private theorem fate_pruneNodes_stays {n : Node} {name : String} (hname : n.name = some name)
    (h : Verdict.ofName running n.name = .keep kept)
    (hinside : firstMalformed (visits running kept n) = none) (source : String) :
    (pruneNodes running trail [n]).fate source =
      .stays { keptPart running n with name := kept }
        ((pruneNode running trail kept n).reports source) := by
  have hreports := reports_strippedNotice source .node n.name kept
  have hfault := pruneNode_no_fault hinside trail
  have hresult := pruneNode_result_of_none running n trail kept hinside
  rw [pruneNodes_cons, h]
  rw [hname] at hreports ⊢
  simp [Outcome.fate, Fate.stays, Outcome.reports, hreports, hfault, hresult, namelessNotice,
    pruneNodes, walkNodes, Progress.commit]

/-- A child that is removed goes, and that is reported. -/
private theorem fate_pruneNodes_goes {n : Node} {name : String} (hname : n.name = some name)
    (h : Verdict.ofName running n.name = .remove) (source : String) :
    (pruneNodes running trail [n]).fate source =
      .goes (.nodeRemoved source (pathText trail ++ "/" ++ name)) := by
  rw [pruneNodes_cons, h, hname]
  rfl

/-- Where children can all be decided, so can what a child contains that stays. -/
private theorem firstMalformed_visits_of_mem {i : Nat} {ns : List Node} {n : Node}
    {name : Option String} (h : firstMalformed (nodeVisits running kept i ns) = none) (hn : n ∈ ns)
    (hkeep : Verdict.ofName running n.name = .keep name) :
    firstMalformed (visits running name n) = none := by
  induction ns generalizing i with
  | nil => contradiction
  | cons m ns ih =>
    rw [nodeVisits, firstMalformed_cons_eq_none_iff, firstMalformed_append_eq_none_iff] at h
    obtain ⟨-, hbelow, hbehind⟩ := h
    rcases List.mem_cons.mp hn with rfl | hn
    · rcases Verdict.ofName_cases running n.name with ⟨_, -, hv⟩ | ⟨-, -, hv⟩ | ⟨-, hex, hv⟩
      · exact nomatch hkeep.symm.trans hv
      · exact nomatch hkeep.symm.trans hv
      · rw [Verdict.keep.inj (hkeep.symm.trans hv)]
        rwa [if_neg hex, firstMalformed_map_under, Option.map_eq_none_iff] at hbelow
    · exact ih hbehind hn

end Rows

/-! ## A pass that goes through -/

/-- A pass that goes through a tree goes through the values and the children of the root. -/
private theorem prune_of_no_fault {running : Version} {root : Node}
    (h : (prune running root).fault = none) :
    let values := pruneValues running (pathText [root.name]) root.values
    let nodes := pruneNodes running [root.name] root.nodes
    (∀ v ∈ root.values, NameFault.of? v.name = none) ∧
      firstMalformed (nodeVisits running root.name 0 root.nodes) = none ∧
      (prune running root).result = ⟨root.name, values.result, nodes.result⟩ ∧
      (prune running root).notices = values.notices ++ nodes.notices := by
  obtain ⟨name, vs, ns⟩ := root
  rw [prune, pruneNode_fault, firstFault_eq_none_iff, visits,
    firstMalformed_append_eq_none_iff] at h
  have hvalues : (pruneValues running (pathText ([] ++ [name])) vs).fault = none :=
    pruneValues_no_fault h.1 running _
  have hprune := pruneNode_of_no_fault hvalues name ns
  exact ⟨firstMalformed_valueVisits_eq_none_iff.mp h.1, h.2, congrArg (·.result) hprune,
    congrArg (·.notices) hprune⟩

/-- Of two entries of a node that have the same name and are annotated with opposite requirements, a
pass that goes through leaves exactly the one whose requirement holds, at its place and under that
name, and reports exactly the other one. What else becomes of the values, or of the children, is
what becomes of those in front of the two, between them and behind them on their own. -/
theorem prune_selects_variant (c : Checker) {base r r' : String}
    (hbase : AnnotatedName.hasMarker (some base) = false) (h : Requirement.Opposites r r')
    (root : Node) (source : String) :
    ∃ outcome, c.prune (some root) (some source) = .ok (source, outcome) ∧
      (outcome.fault = none →
        let values := fun vs => (pruneValues c.running (pathText [root.name]) vs).fate source
        let nodes := fun ns => (pruneNodes c.running [root.name] ns).fate source
        let path := fun requirement =>
          pathText [root.name] ++ "/" ++ AnnotatedName.annotate base requirement
        outcome.result = ⟨root.name, (values root.values).left, (nodes root.nodes).left⟩ ∧
        outcome.reports source = (values root.values).reports ++ (nodes root.nodes).reports ∧
        (∀ front v mid w back, root.values = front ++ v :: (mid ++ w :: back) →
          v.name = some (AnnotatedName.annotate base r) →
          w.name = some (AnnotatedName.annotate base r') →
          ∃ first second,
            values root.values = .concat [values front, first, values mid, second, values back] ∧
            Selects c.running r r'
              (.stays { v with name := some base } []) (.goes (.valueRemoved source (path r)))
              (.stays { w with name := some base } []) (.goes (.valueRemoved source (path r')))
              first second) ∧
        ∀ front n mid m back, root.nodes = front ++ n :: (mid ++ m :: back) →
          n.name = some (AnnotatedName.annotate base r) →
          m.name = some (AnnotatedName.annotate base r') →
          let inside := fun k =>
            (pruneNode c.running [root.name] (some base) k).reports source
          ∃ first second,
            nodes root.nodes = .concat [nodes front, first, nodes mid, second, nodes back] ∧
            Selects c.running r r'
              (.stays { keptPart c.running n with name := some base } (inside n))
              (.goes (.nodeRemoved source (path r)))
              (.stays { keptPart c.running m with name := some base } (inside m))
              (.goes (.nodeRemoved source (path r'))) first second) := by
  refine ⟨prune c.running root, rfl, fun hfault => ?_⟩
  intro values nodes path
  -- A pass that goes through deals with the values and with the children apart, and one of the two
  -- requirements holds.
  obtain ⟨hvalues, hnodes, hresult, hnotices⟩ := prune_of_no_fault hfault
  obtain ⟨holds, hr, hr', hverdict, hverdict'⟩ := h.verdicts hbase c.running
  refine ⟨hresult, ?_, ?_, ?_⟩
  · rw [Outcome.reports, hnotices]
    exact List.filterMap_append
  · intro front v mid w back hsplit hv hw
    -- The fate of the row is that of its five pieces, of which each goes through as the row does.
    have hrows : root.values = [front, [v], mid, [w], back].flatten := by simp [hsplit]
    rw [hrows] at hvalues
    refine ⟨values [v], values [w], ?_, ?_⟩
    · rw [hrows]
      exact fate_pruneValues_flatten hvalues source
    · -- On its own, each of the two values is decided by the verdict on its name.
      rw [← hv] at hverdict
      rw [← hw] at hverdict'
      cases holds with
      | true =>
        have hfirst : values [v] = _ := fate_pruneValues_stays hverdict source
        have hsecond : values [w] = _ := fate_pruneValues_goes hw hverdict' source
        rw [hfirst, hsecond]
        exact .first hr hr'
      | false =>
        have hfirst : values [v] = _ := fate_pruneValues_goes hv hverdict source
        have hsecond : values [w] = _ := fate_pruneValues_stays hverdict' source
        rw [hfirst, hsecond]
        exact .second hr hr'
  · intro front n mid m back hsplit hn hm inside
    -- The children are dealt with as the values are.
    have hrows : root.nodes = [front, [n], mid, [m], back].flatten := by simp [hsplit]
    refine ⟨nodes [n], nodes [m], ?_, ?_⟩
    · rw [hrows] at hnodes ⊢
      exact fate_pruneNodes_flatten hnodes source
    · rw [← hn] at hverdict
      rw [← hm] at hverdict'
      -- Only what the child that stays contains is known to be free of faults.
      cases holds with
      | true =>
        have hinside := firstMalformed_visits_of_mem hnodes (by simp [hsplit]) hverdict
        have hfirst : nodes [n] = _ := fate_pruneNodes_stays hn hverdict hinside source
        have hsecond : nodes [m] = _ := fate_pruneNodes_goes hm hverdict' source
        rw [hfirst, hsecond]
        exact .first hr hr'
      | false =>
        have hinside := firstMalformed_visits_of_mem hnodes (by simp [hsplit]) hverdict'
        have hfirst : nodes [n] = _ := fate_pruneNodes_goes hn hverdict source
        have hsecond : nodes [m] = _ := fate_pruneNodes_stays hm hverdict' hinside source
        rw [hfirst, hsecond]
        exact .second hr hr'

/-- Of the variants of a module in the example, the one for newer versions stays. -/
theorem prune_selects_variant_example :
    let c : Checker := ⟨0, .full 1 8 1, rfl⟩
    AnnotatedName.hasMarker (some "MODULE") = false ∧ Requirement.Opposites "<1.8" ">≈1.8" ∧
      ∃ outcome, c.prune (some (examplePart exampleName)) (some "tank.cfg") =
          .ok ("tank.cfg", outcome) ∧
        outcome.fault = none ∧
        outcome.reports "tank.cfg" = [.valueRemoved "tank.cfg" "PART/tags:KSP_VERSION[<1.2]",
          .nodeRemoved "tank.cfg" "PART/MODULE:KSP_VERSION[<1.8]"] ∧
        ∃ front back, outcome.result.nodes = front ++
          { name := "MODULE", values := [⟨"name", "ModulePartVariants"⟩] } :: back := by
  intro c
  have hbase : AnnotatedName.hasMarker (some "MODULE") = false := by decide +kernel
  have hopposites : Requirement.Opposites "<1.8" ">≈1.8" :=
    .less (b := "1.8") (by decide +kernel)
  obtain ⟨outcome, hprune, hselects⟩ :=
    prune_selects_variant c hbase hopposites (examplePart exampleName) "tank.cfg"
  obtain rfl : outcome = prune c.running (examplePart exampleName) :=
    (Prod.mk.inj (Except.ok.inj hprune)).2.symm
  have hfault : (prune c.running (examplePart exampleName)).fault = none := by decide +kernel
  have hreported : (prune c.running (examplePart exampleName)).reports "tank.cfg" =
      [.valueRemoved "tank.cfg" "PART/tags:KSP_VERSION[<1.2]",
        .nodeRemoved "tank.cfg" "PART/MODULE:KSP_VERSION[<1.8]"] := by decide +kernel
  obtain ⟨hresult, -, -, hnodes⟩ := hselects hfault
  obtain ⟨first, second, hfate, hselect⟩ :=
    hnodes [_] _ [] _ [_] rfl (by decide +kernel) (by decide +kernel)
  -- The older requirement does not hold, so it is the second module that stays.
  cases hselect with
  | first holds =>
    have hfails : Requirement.check c.running "<1.8" ≠ .ok true := by decide +kernel
    exact absurd holds hfails
  | second =>
    have hname : ¬Excluded c.running (some "name") := by decide +kernel
    refine ⟨hbase, hopposites, _, hprune, hfault, hreported, ?_⟩
    rw [hresult, hfate]
    simp only [Fate.concat, Fate.stays, Fate.goes, List.flatMap_cons, keptPart, keptValues,
      keptNodes, List.filter_cons, hname]
    exact ⟨_, _, rfl⟩

end Pruning

end VersionGate
