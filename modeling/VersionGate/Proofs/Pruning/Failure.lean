import VersionGate.Proofs.Pruning.Trace

/-!
# The report of a failure

A pass that ends early says so once, in its last report, however deep in the tree it ends. That
report carries the fault of the pass and names the entry that it is about, and the fault says what
is wrong with the name of that entry: a marker without a closing bracket, brackets with a malformed
requirement in them, or brackets with a numeral that is too long.

## Key results

- `explains_of_of?`: what the fault of a name says about the name
- `isFailure_of_mem_reports`: nothing that is reported about an entry that can be decided is a
  failure
- `prune_reports_failure_last`: the one failure among the reports of a pass
-/

namespace VersionGate

open Config

/-- Whether a report is about a failure. -/
def Report.isFailure : Report → Bool
  | .failed .. => true
  | _ => false

/-- What stands in the brackets of the first annotation of a name. -/
def AnnotatedName.InBrackets (name requirement : String) : Prop :=
  ∃ before rest, cutAtMarker name.toList = some (before, requirement.toList ++ ']' :: rest) ∧
    ']' ∉ requirement.toList

/-- What a fault says about the name that has it. -/
inductive NameFault.Explains : NameFault → Option String → Prop where
  /-- The first marker has no closing bracket behind it. No other fault is the cause. -/
  | unclosed {name : String} {before after : List Char}
      (marked : AnnotatedName.cutAtMarker name.toList = some (before, after))
      (unclosed : ']' ∉ after) : Explains (.unclosed name) (some name)
  /-- What is in the brackets is malformed, for the cause that comes with the fault. -/
  | malformed {name requirement : String} {cause : Malformed}
      (brackets : AnnotatedName.InBrackets name requirement)
      (refused : Requirement.read requirement = .error (.malformed cause)) :
      Explains (.malformed name cause) (some name)
  /-- A numeral in the brackets is too long, and the fault is that of the numeral itself. -/
  | tooLong {name requirement : String} {digits : Nat}
      (brackets : AnnotatedName.InBrackets name requirement)
      (refused : Requirement.read requirement = .error (.tooLong ⟨some digits⟩))
      (long : Decimal.maxDigits < digits) : Explains (.tooLong ⟨some digits⟩) (some name)

/-! ## The fault of a name -/

/-- A name with a marker in it and a closing bracket behind that has what is between the two in
brackets. -/
private theorem AnnotatedName.inBrackets_of_split {name stripped : Option String}
    {requirement : String} (h : split name = .ok ⟨stripped, some requirement⟩) :
    ∃ s, name = some s ∧ InBrackets s requirement := by
  cases name with
  | none => simp [split] at h
  | some s =>
    rw [split, splitChars] at h
    split at h
    · simp at h
    · next before after hmarker =>
      split at h
      · contradiction
      · next inside rest hclose =>
        simp only [Except.ok.injEq, mk.injEq, Option.some.injEq] at h
        obtain ⟨-, rfl⟩ := h
        obtain ⟨rfl, hinside⟩ := Text.eq_of_cutAt hclose
        refine ⟨s, rfl, before, rest, ?_, ?_⟩
        · rw [hmarker, String.toList_ofList]
        · rwa [String.toList_ofList]

/-- A name that cannot be split has a marker with no closing bracket behind it. -/
private theorem AnnotatedName.fault_of_split {name : Option String} {fault : NameFault}
    (h : split name = .error fault) :
    ∃ s before after, name = some s ∧ fault = .unclosed s ∧
      cutAtMarker s.toList = some (before, after) ∧ ']' ∉ after := by
  cases name with
  | none => simp [split] at h
  | some s =>
    rw [split, splitChars] at h
    split at h
    · contradiction
    · next before after hmarker =>
      split at h
      · next hclose =>
        have hfault := (Except.error.inj h).symm
        rw [String.ofList_toList] at hfault
        exact ⟨s, before, after, rfl, hfault, hmarker, Text.cutAt_eq_none_iff.mp hclose⟩
      · contradiction

/-- The fault of a malformed name says what is wrong with it. -/
theorem explains_of_of? {name : Option String} {fault : NameFault}
    (h : NameFault.of? name = some fault) : fault.Explains name := by
  rw [NameFault.of?] at h
  -- The name has no closing bracket, or what stands in its brackets is refused for its form or for
  -- its length.
  split at h
  · next e hsplit =>
    obtain rfl := Option.some.inj h
    obtain ⟨s, before, after, rfl, rfl, marked, unclosed⟩ := AnnotatedName.fault_of_split hsplit
    exact .unclosed marked unclosed
  · contradiction
  · next requirement hsplit =>
    obtain ⟨s, rfl, hbrackets⟩ := AnnotatedName.inBrackets_of_split hsplit
    split at h
    · contradiction
    · next cause hread =>
      obtain rfl := Option.some.inj h
      exact .malformed hbrackets hread
    · next numeral hread =>
      obtain rfl := Option.some.inj h
      obtain ⟨digits, hlong, hdigits⟩ := Requirement.isOverlong_of_read hread
      obtain rfl := ReadFault.tooLong.inj hdigits
      exact .tooLong hbrackets hread hlong

namespace Pruning

/-! ## The failure among the reports -/

/-- What is reported about an entry that can be decided is no failure. -/
theorem isFailure_of_mem_reports {running : Version} {source : String} {x : Visit} {r : Report}
    (h : r ∈ x.reports running source) : r.isFailure = false := by
  rw [Visit.reports, List.mem_append] at h
  rcases h with h | h
  · split at h
    · rw [List.mem_singleton.mp h]
      rfl
    · contradiction
  · split at h
    · split at h <;>
      · rw [List.mem_singleton.mp h]
        rfl
    · contradiction

/-- A pass that goes through reports no failure. One that ends early reports one, last of all, with
the fault that it ends with; the report names the first entry with a malformed name, as what it is
and with the name that it has in the tree, and the fault says what is wrong with this name. -/
theorem prune_reports_failure_last (c : Checker) (tree : Node) (source : String) :
    ∃ outcome, c.prune (some tree) (some source) = .ok (source, outcome) ∧
      (outcome.fault = none → ∀ r ∈ outcome.reports source, r.isFailure = false) ∧
      ∀ fault, outcome.fault = some fault →
        ∃ x front, firstMalformed (walk c.running tree) = some x ∧ x.IsIn tree.name tree ∧
          outcome.reports source = front ++ [.failed ("Exception while checking KSP_VERSION for "
            ++ x.entry.word ++ " \"" ++ plainName x.name ++ "\"") (.name fault)] ∧
          (∀ r ∈ front, r.isFailure = false) ∧ fault.Explains x.name := by
  have hreports := reports_prune c.running source tree
  have hfault : (prune c.running tree).fault = firstFault (walk c.running tree) := by
    rw [prune, pruneNode_fault, walk]
  -- The entries that the pass comes to give rise to no failure but the one at the end.
  have hfront : ∀ r ∈ (reached (walk c.running tree)).flatMap (·.reports c.running source),
      r.isFailure = false := by
    intro r hr
    obtain ⟨x, -, hx⟩ := List.mem_flatMap.mp hr
    exact isFailure_of_mem_reports hx
  refine ⟨prune c.running tree, rfl, ?_, ?_⟩
  · intro hnone r hr
    rw [hfault, firstFault_eq_none_iff] at hnone
    rw [hreports, hnone, Option.bind_none, Option.toList_none, List.append_nil] at hr
    exact hfront r hr
  · intro fault hsome
    rw [hfault] at hsome
    cases hfirst : firstMalformed (walk c.running tree) with
    | none =>
      rw [firstFault_eq_none_iff.mpr hfirst] at hsome
      contradiction
    | some x =>
      obtain ⟨e, hname, hfirstFault⟩ := exists_firstFault hfirst
      -- The fault of the pass is that of the first malformed name.
      obtain rfl := Option.some.inj (hfirstFault.symm.trans hsome)
      have hmem : x ∈ walk c.running tree := List.mem_of_find?_eq_some hfirst
      have hfailure : x.failure? = some (.failed ("Exception while checking KSP_VERSION for "
          ++ x.entry.word ++ " \"" ++ plainName x.name ++ "\"") (.name e)) := by
        rw [Visit.failure?, hname, Option.map_some]
      refine ⟨x, _, rfl, isIn_of_mem_walk hmem, ?_, hfront, explains_of_of? hname⟩
      rw [hreports, hfirst, Option.bind_some, hfailure, Option.toList_some]

end Pruning

end VersionGate
