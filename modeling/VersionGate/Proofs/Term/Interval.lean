import VersionGate.Requirement.Eval
import VersionGate.Proofs.Term.Text
import VersionGate.Proofs.Version.Order

/-!
# What a term means

A term holds for the complete versions of an interval, which its comparator and its bound say.
Below, within and above a bound are the three parts into which the bound cuts the complete versions.

## Key results

- `checkTerm_of_read`: checking a text that is read as a term
- `ordConnected_checkTerm`: a text that holds for two versions holds for all between them
- `checkTerm_selects_interval`: which versions a comparator in front of a bound holds for
-/

namespace VersionGate.Requirement

/-- A text that is read as a term has an answer for a version, which is that of the term. -/
theorem checkTerm_of_read {text : Option String} {t : Term} (h : Term.read text = .ok t)
    (running : Version) : checkTerm (some running) text = .ok (t.holds running) := by
  rw [checkTerm, h]
  show evalRead _ (.ok (.version t)) = _
  rw [evalRead, eval]
  rfl

/-- A term that is not read has no answer. -/
private theorem checkTerm_of_read_error {text : Option String} {fault : ReadFault}
    (h : Term.read text = .error fault) (running : Option Version) :
    checkTerm running text = .error (.read fault) := by
  rw [checkTerm, h]
  rfl

/-- A term holds for the complete versions in its interval. -/
theorem holds_iff (t : Term) (v : Version.Complete) :
    t.holds v.version = true ↔ v ∈ t.comparator.interval t.bound := by
  rw [Term.holds]
  exact t.comparator.accepts_compare_iff v t.bound

/-- A text that holds for two complete versions holds for all between them. -/
theorem ordConnected_checkTerm (text : Option String) :
    {v : Version.Complete | checkTerm (some v.version) text = .ok true}.OrdConnected := by
  cases hread : Term.read text with
  | error fault =>
    -- What is no term holds for no version.
    simp only [checkTerm_of_read_error hread, reduceCtorEq, Set.ofPred_false]
    exact Set.ordConnected_empty
  | ok t =>
    have hset : {v : Version.Complete | checkTerm (some v.version) text = .ok true} =
        t.comparator.interval t.bound := by
      ext v
      rw [Set.mem_ofPred_eq, checkTerm_of_read hread, Except.ok.injEq, holds_iff]
    rw [hset]
    exact t.comparator.ordConnected_interval t.bound

/-- A comparator in front of a bound is a term that has an answer for every complete version. -/
private theorem checkTerm_text {b : Version} (hb : b.IsReadable) (c : Comparator)
    (running : Version) :
    checkTerm (some running) (some (c.symbol ++ b.text)) =
      .ok (c.accepts (running.compare b)) := by
  have hread : Term.read (some (c.symbol ++ b.text)) = .ok ⟨c, b⟩ := Term.read_text (t := ⟨c, b⟩) hb
  exact checkTerm_of_read hread running

/-- A comparator in front of a bound is a term that holds for the complete versions of an interval,
and of those below, within and above the bound, each version is among one. Whatever a text is, it
holds for all versions between two that it holds for. On the way from smaller to greater versions,
the sign of the comparison with a bound never falls. -/
theorem checkTerm_selects_interval :
    (∀ b : Version, (∀ n ∈ b.numbers, n < 10 ^ Decimal.maxDigits) → ∀ v : Version.Complete,
      (∀ c : Comparator, ∃ holds,
        checkTerm (some v.version) (some (c.symbol ++ b.text)) = .ok holds ∧
          (holds = true ↔ v ∈ c.interval b)) ∧
      ∃! c, c ∈ [Comparator.less, .equivalent, .greater] ∧
        checkTerm (some v.version) (some (c.symbol ++ b.text)) = .ok true) ∧
    (∀ text, {v : Version.Complete | checkTerm (some v.version) text = .ok true}.OrdConnected) ∧
    ∀ (b : Version) (v w : Version.Complete), v ≤ w →
      (v.version.compare b).sign ≤ (w.version.compare b).sign := by
  refine ⟨fun b hb v => ⟨fun c => ?_, ?_⟩, ordConnected_checkTerm,
    fun b v w h => b.sign_compare_mono h⟩
  · exact ⟨_, checkTerm_text hb c v.version, c.accepts_compare_iff v b⟩
  · simp only [checkTerm_text hb, Except.ok.injEq]
    exact Comparator.existsUnique_accepts _

/-- The interval of `1.8` ends in front of `1.9.0`, which is the first version above it. -/
theorem checkTerm_selects_interval_next_minor :
    let b := Version.minor 1 8
    let v : Version.Complete := ⟨.full 1 8 1, rfl⟩
    let w : Version.Complete := ⟨.full 1 9 0, rfl⟩
    (∀ n ∈ b.numbers, n < 10 ^ Decimal.maxDigits) ∧ v ≤ w ∧
      checkTerm (some v.version) (some "1.8") = .ok true ∧
      checkTerm (some v.version) (some ">1.8") = .ok false ∧
      checkTerm (some w.version) (some ">1.8") = .ok true ∧
      (v.version.compare b).sign ≤ (w.version.compare b).sign := by
  intro b v w
  have hb : ∀ n ∈ b.numbers, n < 10 ^ Decimal.maxDigits := by decide +kernel
  have hle : v ≤ w := by decide
  -- each of the three answers is whether the version is in the interval
  obtain ⟨hbound, -, hsign⟩ := checkTerm_selects_interval
  obtain ⟨within, hwithin, hv⟩ := (hbound b hb v).1 .bare
  obtain ⟨above, habove, hv'⟩ := (hbound b hb v).1 .greater
  obtain ⟨next, hnext, hw⟩ := (hbound b hb w).1 .greater
  have htext : b.text = "1.8" := by decide +kernel
  rw [htext] at hwithin habove hnext
  refine ⟨hb, hle, ?_, ?_, ?_, hsign b v w hle⟩
  · have hmem : v ∈ Comparator.bare.interval b := ⟨by decide, by decide⟩
    rw [← hv.mpr hmem]
    exact hwithin
  · have hnot : v ∉ Comparator.greater.interval b := by
      show ¬b.beyond ≤ v
      decide
    rw [← Bool.eq_false_iff.mpr (mt hv'.mp hnot)]
    exact habove
  · have hmem : w ∈ Comparator.greater.interval b := by
      show b.beyond ≤ w
      decide
    rw [← hw.mpr hmem]
    exact hnext

end VersionGate.Requirement
