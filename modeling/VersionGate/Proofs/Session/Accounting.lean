import VersionGate.Proofs.Pruning.Detached
import VersionGate.Proofs.Pruning.Trace
import VersionGate.Session

/-!
# What the counters of sinks say

A counter has a number for each tally, and a report counts for one of them. Whatever is done with
the sinks of a session, each number has gone up by the reports that its sink got for it in the
meantime; a checker reports to no sink but its own. For a pass over a tree, the numbers of that sink
say what has become of the tree.

## Key results

- `Counter.get_recordAll`: a number goes up by the reports that count for it
- `Session.getElem?_performAll`: what a sink has received after any deeds
- `Pruning.countFor_removed`, `Pruning.countFor_prune`: what the reports of a pass count for
- `sinks_account`: each sink after any deeds, after deeds of other checkers and after a pass
-/

namespace VersionGate

open Config Pruning

/-! ## Tallies -/

/-- What a counter counts. -/
inductive Tally where
  | warnings
  | errors
  | failures
  | removed
  | needMods
  deriving DecidableEq, Repr

/-- The number of a counter for a tally. -/
def Counter.get (c : Counter) : Tally → Int
  | .warnings => c.warnings
  | .errors => c.errors
  | .failures => c.failures
  | .removed => c.removed
  | .needMods => c.needMods

/-- The tally that a report counts for. -/
def Report.tally : Report → Tally
  | .warning .. => .warnings
  | .error .. => .errors
  | .failed .. => .failures
  | .rootRemoved .. | .nodeRemoved .. | .valueRemoved .. => .removed
  | .rootNeedsMods .. => .needMods

/-- How many of some reports count for a tally. -/
def countFor (t : Tally) (reports : List Report) : Nat := reports.countP fun r => r.tally = t

/-- Reports are counted one after the other. -/
private theorem countFor_append (t : Tally) (rs ss : List Report) :
    countFor t (rs ++ ss) = countFor t rs + countFor t ss := List.countP_append

/-- A report counts for its own tally, and for no other one. -/
private theorem Counter.get_record (c : Counter) (r : Report) (t : Tally) :
    (c.record r).get t = c.get t + if r.tally = t then 1 else 0 := by
  cases r <;> cases t <;> simp [record, get, Report.tally]

/-- A number goes up by the reports that count for it. -/
theorem Counter.get_recordAll (c : Counter) (rs : List Report) (t : Tally) :
    (c.recordAll rs).get t = c.get t + countFor t rs := by
  induction rs generalizing c with
  | nil => simp [recordAll, countFor]
  | cons r rs ih =>
    have hrest : (c.recordAll (r :: rs)).get t = (c.record r).get t + countFor t rs :=
      ih (c.record r)
    rw [hrest, c.get_record, countFor, countFor, List.countP_cons]
    by_cases hr : r.tally = t
    · simp only [hr, decide_true, if_true]
      omega
    · simp only [hr, decide_false, if_false]
      simp

/-- A sink that is told nothing is as it was. -/
private theorem Sink.receive_nil (s : Sink) : s.receive [] = s := by
  simp [receive, Counter.recordAll]

/-! ## Deeds -/

/-- Something done with sinks: one is told something, or a checker checks a patch or prunes a tree.
There can be no tree or no source, and then nothing comes of it. -/
inductive Deed where
  | report (sink : Nat) (report : Report)
  | checkPatch (checker : Checker) (patch : Patch) (mods : List String)
  | prune (checker : Checker) (tree : Option Node) (source : Option String)

namespace Deed

/-- The checker that does it. -/
def checker? : Deed → Option Checker
  | report .. => none
  | checkPatch checker .. | prune checker .. => some checker

/-- The sink that is told something. -/
def sink : Deed → Nat
  | report sink _ => sink
  | checkPatch checker .. | prune checker .. => checker.sink

/-- What the sink is told. -/
def reports : Deed → List Report
  | report _ told => [told]
  | checkPatch checker patch mods => (checker.checkPatch mods patch).reports
  | prune checker tree source =>
    match checker.prune tree source with
    | .error _ => []
    | .ok (source, outcome) => outcome.reports source

end Deed

/-- The sink of a deed is that of the checker that does it. -/
private theorem Deed.sink_of_checker? {deed : Deed} {c : Checker} (h : deed.checker? = some c) :
    deed.sink = c.sink := by
  cases deed with
  | report sink report => contradiction
  | checkPatch checker | prune checker =>
    obtain rfl := Option.some.inj h
    rfl

/-- A checker has the sink that it was made with. -/
private theorem Checker.sink_of_make {k : Nat} {running : Option Version} {c : Checker}
    (h : make (some k) running = .ok c) : c.sink = k := by
  cases running with
  | none => contradiction
  | some running =>
    rw [make] at h
    split at h
    · rw [← Except.ok.inj h]
    · contradiction

/-- What a sink is told by some deeds. -/
def reportsTo (sink : Nat) (deeds : List Deed) : List Report :=
  deeds.flatMap fun deed => if deed.sink = sink then deed.reports else []

namespace Session

/-- Does something as a step of the session, with the sink, the checker and the tree of the deed. -/
def perform (s : Session) : Deed → Session × Reply
  | .report sink report => { s with current := sink }.step (.report report)
  | .checkPatch checker patch mods =>
    { s with checker := some checker }.step (.checkPatch patch mods)
  | .prune checker tree source =>
    { s with checker := some checker, tree := tree.getD s.tree }.step
      (.prune [] tree.isSome source)

/-- Does one thing after the other, whether they succeed or fail. -/
def performAll (s : Session) (deeds : List Deed) : Session :=
  deeds.foldl (fun s deed => (s.perform deed).1) s

/-- A pass over a tree leaves the tree and the sink of its checker as the outcome says. -/
private theorem perform_prune (s : Session) (checker : Checker) (tree : Node) (source : String) :
    let run := s.perform (.prune checker (some tree) (some source))
    let outcome := Pruning.prune checker.running tree
    run.1.tree = outcome.result ∧
      run.1.sinks = s.sinks.modify checker.sink (·.receive (outcome.reports source)) ∧
      run.2.result.isOk = outcome.fault.isNone := by
  have hfind : tree.at? [] = some tree := by rw [Node.at?]
  have hput : tree.modifyAt (fun _ => (Pruning.prune checker.running tree).result) [] =
      (Pruning.prune checker.running tree).result := by rw [Node.modifyAt]
  have hprune : checker.prune (some tree) (some source) =
      .ok (source, Pruning.prune checker.running tree) := rfl
  simp only [perform, step, withChecker, pass, Option.getD_some, Option.isSome_some, hfind,
    if_true, hprune]
  refine ⟨hput, rfl, ?_⟩
  cases (Pruning.prune checker.running tree).fault with
  | none => rfl
  | some fault => rfl

/-- A deed is told to its sink and no other. -/
private theorem sinks_perform (s : Session) (deed : Deed) :
    (s.perform deed).1.sinks = s.sinks.modify deed.sink (·.receive deed.reports) := by
  cases deed with
  | report sink report => rfl
  | checkPatch checker patch mods => rfl
  | prune checker tree source =>
    have hnothing : (fun sink : Sink => sink.receive []) = id := funext Sink.receive_nil
    cases tree with
    | none =>
      have hfind : s.tree.at? [] = some s.tree := by rw [Node.at?]
      simp [Deed.reports, Checker.prune, hnothing, perform, step, withChecker, pass, hfind, fail]
    | some tree =>
      cases source with
      | none =>
        have hfind : tree.at? [] = some tree := by rw [Node.at?]
        simp [Deed.reports, Checker.prune, hnothing, perform, step, withChecker, pass, hfind, fail]
      | some source => exact (s.perform_prune checker tree source).2.1

/-- A deed changes a sink by the reports to it. -/
private theorem getElem?_perform (s : Session) (deed : Deed) (i : Nat) :
    (s.perform deed).1.sinks[i]? = s.sinks[i]?.map (·.receive (reportsTo i [deed])) := by
  rw [sinks_perform, List.getElem?_modify, reportsTo, List.flatMap_singleton]
  by_cases hi : deed.sink = i
  · simp [hi]
  · simp [hi, Sink.receive_nil]

/-- What a sink has received after any deeds is what it was told by each of them, in order. -/
private theorem getElem?_performAll (s : Session) (deeds : List Deed) (i : Nat) :
    (s.performAll deeds).sinks[i]? = s.sinks[i]?.map (·.receive (reportsTo i deeds)) := by
  induction deeds generalizing s with
  | nil => simp [performAll, reportsTo, Sink.receive_nil]
  | cons deed deeds ih =>
    have hrest : (s.performAll (deed :: deeds)).sinks[i]? =
        (s.perform deed).1.sinks[i]?.map (·.receive (reportsTo i deeds)) :=
      ih (s.perform deed).1
    have htold : reportsTo i (deed :: deeds) = reportsTo i [deed] ++ reportsTo i deeds := by
      simp [reportsTo]
    rw [hrest, getElem?_perform, Option.map_map, htold]
    simp only [Sink.receive_append]
    rfl

end Session

/-! ## Passes -/

namespace Pruning

/-- A pass reports what it removes. -/
private theorem countFor_removed {α : Type} (source : String) (o : Outcome α) :
    countFor .removed (o.reports source) = (o.notices.filter Notice.isRemoval).length := by
  have hone : ∀ notice : Notice,
      ((notice.report? source).map fun r => decide (r.tally = .removed)).getD false =
        notice.isRemoval := by
    intro notice
    cases notice with
    | removed entry name path => cases entry <;> rfl
    | stripped | nameless | failed => rfl
  rw [countFor, Outcome.reports, List.countP_filterMap, ← List.countP_eq_length_filter]
  simp only [hone]

variable {t : Tally}

/-- Apart from its removal, all that is reported about an entry that can be decided is an error if
it is a child without a name. -/
private theorem countFor_visit_reports (h : t ≠ .removed) (running : Version) (source : String)
    (x : Visit) :
    countFor t (x.reports running source) =
      if t = .errors ∧ x.entry = .node ∧ x.name = none then 1 else 0 := by
  rw [Visit.reports, countFor_append]
  -- The missing name comes first, and the removal, which counts for another tally, behind it.
  refine (congr_arg₂ (· + ·) ?_ ?_).trans (Nat.add_zero _)
  · by_cases hname : x.entry = .node ∧ x.name = none
    · rw [if_pos hname]
      cases t <;> simp [countFor, Report.tally, hname]
    · simp [countFor, hname]
  · split
    · cases x.entry <;> simp [countFor, Report.tally, h.symm]
    · rfl

/-- Visits count for errors, one for each child without a name. -/
private theorem countFor_flatMap_reports (h : t ≠ .removed) (running : Version) (source : String)
    (xs : List Visit) :
    countFor t (xs.flatMap (·.reports running source)) =
      xs.countP fun x => t = .errors ∧ x.entry = .node ∧ x.name = none := by
  induction xs with
  | nil => rfl
  | cons x xs ih =>
    rw [List.flatMap_cons, countFor_append, countFor_visit_reports h, ih, List.countP_cons,
      Nat.add_comm]
    simp only [decide_eq_true_eq]

/-- Apart from removals, a pass reports an error about each child without a name that it comes to,
and a failure if it ends early. -/
private theorem countFor_prune (h : t ≠ .removed) (running : Version) (source : String)
    (tree : Node) :
    countFor t ((prune running tree).reports source) =
      (reached (walk running tree)).countP
          (fun x => t = .errors ∧ x.entry = .node ∧ x.name = none) +
        if t = .failures ∧ (prune running tree).fault ≠ none then 1 else 0 := by
  rw [reports_prune, countFor_append, countFor_flatMap_reports h, prune, pruneNode_fault,
    firstFault_eq, walk]
  cases hfirst : firstMalformed (visits running tree.name tree) with
  | none => simp [countFor]
  | some x =>
    -- The entry that ends the pass has a fault, which is reported.
    obtain ⟨fault, hfault, -⟩ := exists_firstFault hfirst
    simp only [Option.bind_some, Visit.failure?, hfault, Option.map_some, Option.toList_some]
    cases t <;> simp [countFor, Report.tally]

end Pruning

/-- Whatever is done with the sinks of a session, each has received what it was told, and each of
its numbers has gone up by the reports that count for it. What a checker does is told to the sink
that it was made with and to no other. After a pass over a tree, the sink of the checker knows how
many parts have been detached from the tree, how many children without a name the pass has come to
and whether it has failed; and no entry of the tree is lost but those of the detached parts. -/
theorem sinks_account {s : Session} {i : Nat} {before : Sink} (h : s.sinks[i]? = some before) :
    (∀ deeds, ∃ after, (s.performAll deeds).sinks[i]? = some after ∧
      after.unseen = before.unseen ++ reportsTo i deeds ∧
      ∀ t, after.counter.get t = before.counter.get t + countFor t (reportsTo i deeds)) ∧
    (∀ k running c deed, Checker.make (some k) running = .ok c → deed.checker? = some c →
      k ≠ i → (s.perform deed).1.sinks[i]? = some before) ∧
    ∀ c tree source, c.sink = i →
      let run := s.perform (.prune c (some tree) (some source))
      ∃ after gone, run.1.sinks[i]? = some after ∧
        (∀ parts, Detaches c.running tree run.1.tree parts ↔ parts = gone) ∧
        (entryNames tree).length =
          (entryNames run.1.tree).length + (gone.flatMap Part.names).length ∧
        ∀ t, after.counter.get t = before.counter.get t +
          match t with
          | .removed => gone.length
          | .errors =>
            (reached (walk c.running tree)).countP fun x => x.entry = .node ∧ x.name = none
          | .failures => if run.2.result.isOk then 0 else 1
          | .warnings | .needMods => 0 := by
  refine ⟨fun deeds => ?_, fun k running c deed hmake hdeed hk => ?_,
    fun c tree source hsink => ?_⟩
  · -- A sink receives the reports to it and nothing else, whatever was done in between.
    refine ⟨before.receive (reportsTo i deeds), ?_, rfl, fun t => Counter.get_recordAll ..⟩
    rw [Session.getElem?_performAll, h, Option.map_some]
  · -- A checker only tells the sink that it was made with, so no report goes to another one.
    have hother : deed.sink ≠ i := by
      rw [Deed.sink_of_checker? hdeed, Checker.sink_of_make hmake]
      exact hk
    have htold : reportsTo i [deed] = [] := by simp [reportsTo, hother]
    rw [Session.getElem?_perform, htold, h, Option.map_some, Sink.receive_nil]
  · -- What a pass has detached is found beside the walk, by recursion on the tree.
    obtain ⟨htree, hsinks, hreply⟩ := s.perform_prune c tree source
    obtain ⟨gone, hgone, hcount⟩ := exists_detaches_pruneNode c.running tree [] tree.name
    simp only [htree, hreply]
    refine ⟨before.receive ((prune c.running tree).reports source), gone, ?_, ?_,
      hgone.length_eq, fun t => ?_⟩
    · rw [hsinks, hsink, List.getElem?_modify_eq, h]
      rfl
    · -- the trees before and after the pass say which parts are gone
      exact fun parts => ⟨fun hparts => hparts.unique hgone, fun hparts => hparts ▸ hgone⟩
    · -- Removals are counted with the parts that are gone, and all else with the walk.
      have hget : (before.receive ((prune c.running tree).reports source)).counter.get t =
          before.counter.get t + countFor t ((prune c.running tree).reports source) :=
        Counter.get_recordAll ..
      rw [hget]
      cases t with
      | removed =>
        rw [countFor_removed, prune, hcount]
      | errors => simp [countFor_prune]
      | failures =>
        rw [countFor_prune (by decide)]
        cases (prune c.running tree).fault <;> simp
      | warnings | needMods => simp [countFor_prune]

private def twoSinks : Session := { sinks := [{}, { counter := { warnings := 3 } }] }

/-- A value that goes, a child without a name, and one at which a pass ends. -/
private def openEnded : Node :=
  { name := some "PART"
    values := [⟨some "mass:KSP_VERSION[1.7]", "0.1"⟩]
    nodes := [{ name := none }, { name := some "MODULE:KSP_VERSION[1.8" }] }

/-- A warning goes to the first of two sinks; the second one gets the report that a patch does not
apply, and those of a pass that ends early. -/
theorem sinks_account_second_sink :
    let c : Checker := ⟨1, .full 1 8 1, rfl⟩
    let patch : Patch := ⟨"a.cfg", .edit, "PART", some "<1.8", none⟩
    let deeds : List Deed := [.report 0 (.warning "a.cfg" "odd"), .checkPatch c patch [],
      .prune c (some openEnded) (some "a.cfg")]
    ∃ after, (twoSinks.performAll deeds).sinks[1]? = some after ∧
      ∀ t, after.counter.get t = Counter.get ⟨3, 1, 1, 2, 0⟩ t := by
  intro c patch deeds
  have hsink : twoSinks.sinks[1]? = some { counter := { warnings := 3 } } := rfl
  obtain ⟨after, hafter, -, hcount⟩ := (sinks_account hsink).1 deeds
  refine ⟨after, hafter, fun t => (hcount t).trans ?_⟩
  cases t <;> decide +kernel

end VersionGate
