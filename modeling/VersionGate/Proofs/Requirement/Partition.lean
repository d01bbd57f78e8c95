import Mathlib.Data.List.Chain
import VersionGate.Proofs.Requirement.Tokens

/-!
# Partitions of a text

A row of tokens is a partition of a text when nothing is left out or added, each token has the
position that follows from what is in front of it, the separators are tokens of one character, the
atoms hold everything else, and no two atoms stand side by side. Scanning gives a partition, and a
text has no other.

## Key results

- `partition_cons_iff`: partitions token by token
- `partition_scanFrom`: scanning gives a partition
- `isChain_scanFrom`: of two neighbouring tokens, one is a separator
- `Partition.scanFrom_eq`: scanning gives every partition
- `scan_eq_iff_partition`: the tokens of a text are its one partition
-/

namespace VersionGate.Requirement.Token

/-- Two tokens of which at least one is a separator. -/
def Apart (t u : Token) : Prop := ¬(t.kind = .atom ∧ u.kind = .atom)

/-- A token with a text of its kind. No text is of two kinds. -/
structure WellFormed (t : Token) : Prop where
  and_iff : t.kind = .and ↔ t.chars = [','] ∨ t.chars = ['&']
  or_iff : t.kind = .or ↔ t.chars = ['|']
  atom_iff : t.kind = .atom ↔ t.chars ≠ [] ∧ ∀ c ∈ t.chars, c ≠ ',' ∧ c ≠ '&' ∧ c ≠ '|'

/-- Tokens into which a text is cut that starts at the given position. -/
structure Partition (start : Nat) (cs : List Char) (ts : List Token) : Prop where
  /-- The tokens make up the text. -/
  chars : ts.flatMap (·.chars) = cs
  /-- A token stands right behind all tokens in front of it. -/
  position : ∀ front t back, ts = front ++ t :: back →
    t.position = start + (front.flatMap (·.chars)).length
  wellFormed : ∀ t ∈ ts, t.WellFormed
  /-- No two atoms stand side by side. -/
  apart : ts.IsChain Apart

/-! ## Tokens that are well formed -/

/-- A separator makes a token. -/
private theorem wellFormed_separator {s : Char} {kind : TokenKind} (hs : separator? s = some kind)
    (position : Nat) : WellFormed ⟨kind, [s], position⟩ := by
  rcases separator?_eq_some_iff.mp hs with ⟨rfl, rfl | rfl⟩ | ⟨rfl, rfl⟩ <;>
    exact ⟨by simp, by simp, by simp⟩

/-- A run makes a token. -/
private theorem wellFormed_run {w : List Char} (hw : IsRun w) (hne : w ≠ []) (position : Nat) :
    WellFormed ⟨.atom, w, position⟩ := by
  have hchars : ∀ c ∈ w, c ≠ ',' ∧ c ≠ '&' ∧ c ≠ '|' := fun c hc =>
    separator?_eq_none_iff.mp (hw c hc)
  -- It is an atom, so what is left to see is that its text is not that of a separator.
  refine ⟨⟨by simp, ?_⟩, ⟨by simp, ?_⟩, ⟨fun _ => ⟨hne, hchars⟩, fun _ => rfl⟩⟩
  · rintro (rfl | rfl) <;> simp at hchars
  · rintro rfl
    simp at hchars

/-- A token that is well formed is a run, or a separator of its kind. -/
private theorem WellFormed.run_or_separator {t : Token} (h : t.WellFormed) :
    t.kind = .atom ∧ t.chars ≠ [] ∧ IsRun t.chars ∨
      ∃ s, separator? s = some t.kind ∧ t.chars = [s] := by
  cases hk : t.kind with
  | atom =>
    obtain ⟨hne, hchars⟩ := h.atom_iff.mp hk
    exact .inl ⟨rfl, hne, fun c hc => separator?_eq_none_iff.mpr (hchars c hc)⟩
  | and =>
    rcases h.and_iff.mp hk with hs | hs
    · exact .inr ⟨',', rfl, hs⟩
    · exact .inr ⟨'&', rfl, hs⟩
  | or => exact .inr ⟨'|', rfl, h.or_iff.mp hk⟩

/-! ## Partitions token by token -/

private theorem partition_nil_iff {start : Nat} {cs : List Char} :
    Partition start cs [] ↔ cs = [] := by
  constructor
  · intro h
    exact h.chars.symm
  · rintro rfl
    exact ⟨rfl, by simp, by simp, .nil⟩

/-- The first token of a partition is where the text starts, and the others are a partition of what
is left of it. -/
theorem partition_cons_iff {start : Nat} {cs : List Char} {t : Token} {ts : List Token} :
    Partition start cs (t :: ts) ↔
      t.position = start ∧ t.WellFormed ∧ (∀ u ∈ ts.head?, Apart t u) ∧
        ∃ rest, cs = t.chars ++ rest ∧ Partition (start + t.chars.length) rest ts := by
  constructor
  · intro h
    refine ⟨h.position [] t ts rfl, h.wellFormed t (by simp), fun u hu => h.apart.rel_head? hu,
      ts.flatMap (·.chars), ?_, rfl, ?_, ?_, h.apart.tail⟩
    · rw [← h.chars, List.flatMap_cons]
    · -- A token behind the first has the first in front of it, too.
      intro front u back hts
      have hu := h.position (t :: front) u back (by rw [hts, List.cons_append])
      rw [hu, List.flatMap_cons, List.length_append, Nat.add_assoc]
    · intro u hu
      exact h.wellFormed u (by simp [hu])
  · rintro ⟨hpos, ht, hapart, rest, rfl, h⟩
    refine ⟨by rw [List.flatMap_cons, h.chars], ?_, ?_, h.apart.cons hapart⟩
    · intro front u back hts
      -- The token is the first one or it has a place among the others, which is counted from there.
      cases front with
      | nil =>
        obtain ⟨rfl, -⟩ := List.cons.inj hts
        simpa using hpos
      | cons v front =>
        rw [List.cons_append, List.cons.injEq] at hts
        obtain ⟨rfl, hts⟩ := hts
        rw [h.position front u back hts, List.flatMap_cons, List.length_append, Nat.add_assoc]
    · intro u hu
      rcases List.mem_cons.mp hu with rfl | hu
      · exact ht
      · exact h.wellFormed u hu

/-! ## Scanning -/

/-- A run in front of what starts with no atom is a token of its own. -/
private theorem partition_ofRun_append {w : List Char} (hw : IsRun w) {start : Nat} {cs : List Char}
    {ts : List Token} (hts : ∀ u ∈ ts.head?, u.kind ≠ .atom)
    (h : Partition (start + w.length) cs ts) :
    Partition start (w ++ cs) (ofRun w start ++ ts) := by
  rw [ofRun]
  split
  · next hnil => simpa [hnil] using h
  · next hne =>
    exact partition_cons_iff.mpr
      ⟨rfl, wellFormed_run hw hne start, fun u hu hapart => hts u hu hapart.2, cs, rfl, h⟩

/-- Scanning gives a partition. -/
theorem partition_scanFrom (cs : List Char) (start : Nat) :
    Partition start cs (scanFrom start cs) := by
  induction cs using run_induction generalizing start with
  | run w hw =>
    have h : Partition start (w ++ []) (ofRun w start ++ []) :=
      partition_ofRun_append hw (by simp) (partition_nil_iff.mpr rfl)
    rwa [List.append_nil, List.append_nil, ← scanFrom_run hw] at h
  | cut w s kind cs hw hs ih =>
    have hkind := ne_atom_of_separator? hs
    rw [scanFrom_append_cons hw hs]
    refine partition_ofRun_append hw (by simpa using hkind) (partition_cons_iff.mpr ?_)
    exact ⟨rfl, wellFormed_separator hs _, fun u _ hapart => hkind hapart.1, cs, rfl, ih _⟩

/-- Between two atoms of a text stands a separator. -/
theorem isChain_scanFrom (cs : List Char) (position : Nat) :
    (scanFrom position cs).IsChain Apart :=
  (partition_scanFrom cs position).apart

/-- A partition that does not start with an atom is of a text that starts with a separator, if with
anything. -/
private theorem Partition.separator?_head {start : Nat} {cs : List Char} {ts : List Token}
    (h : Partition start cs ts) (hts : ∀ u ∈ ts.head?, u.kind ≠ .atom) :
    ∀ c ∈ cs.head?, separator? c ≠ none := by
  cases ts with
  | nil => simp [partition_nil_iff.mp h]
  | cons u us =>
    obtain ⟨-, hu, -, rest, rfl, -⟩ := partition_cons_iff.mp h
    rcases hu.run_or_separator with ⟨hkind, -⟩ | ⟨s, hs, hchars⟩
    · exact absurd hkind (hts u rfl)
    · simp [hchars, hs]

/-- Scanning gives every partition. -/
theorem Partition.scanFrom_eq {start : Nat} {cs : List Char} {ts : List Token}
    (h : Partition start cs ts) : scanFrom start cs = ts := by
  -- The induction is on the tokens, which say where to cut the text.
  induction ts generalizing start cs with
  | nil =>
    rw [partition_nil_iff.mp h]
    rfl
  | cons t ts ih =>
    obtain ⟨hpos, ht, hapart, rest, rfl, hrest⟩ := partition_cons_iff.mp h
    obtain ⟨kind, chars, position⟩ := t
    obtain rfl : position = start := hpos
    have htail := ih hrest
    rcases ht.run_or_separator with ⟨rfl, hne, hrun⟩ | ⟨s, hs, rfl⟩
    · -- What is behind an atom starts with a separator, so the atom ends there.
      have hends := hrest.separator?_head fun u hu hatom => hapart u hu ⟨rfl, hatom⟩
      rw [scanFrom_run_append hrun hends, htail, ofRun, if_neg hne]
      rfl
    · rw [List.singleton_append, scanFrom_cons_of_separator? hs]
      exact congrArg _ htail

/-- The tokens of a text are a partition of it, and it has no other. -/
theorem scan_eq_iff_partition (text : String) (ts : List Token) :
    scan text.toList = ts ↔ Partition 0 text.toList ts := by
  constructor
  · rintro rfl
    exact partition_scanFrom text.toList 0
  · intro h
    exact h.scanFrom_eq

example : scan "a|,\n!b".toList =
    [⟨.atom, ['a'], 0⟩, ⟨.or, ['|'], 1⟩, ⟨.and, [','], 2⟩, ⟨.atom, ['\n', '!', 'b'], 3⟩] := rfl

end VersionGate.Requirement.Token
