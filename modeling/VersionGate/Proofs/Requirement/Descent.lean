import Mathlib.Data.Nat.Find
import VersionGate.Proofs.Requirement.Grammar

/-!
# The descent on any tokens

In a text no two atoms stand side by side, but the descent can be given any tokens. It then goes on
to the second of the first two atoms that stand side by side (`Token.StopsAt`), and makes of the
tokens in front of that one what it would make of them alone.

## Key results

- `Token.exists_stopsAt`, `Token.StopsAt.unique`: there is one place where it stops
- `readGroup_append`, `readGroups_append`: an atom right behind an atom ends a group and the descent
- `readGroups_eq_of_stopsAt`: what the descent makes of any tokens
- `readGroups_stops`: where the descent stops, and what it has read by then
-/

namespace VersionGate.Requirement

/-! ## Where the descent stops -/

namespace Token

/-- Two atoms stand side by side, the first of them at the given place. -/
def AtomsAt (ts : List Token) (i : Nat) : Prop :=
  ts[i]?.map (·.kind) = some .atom ∧ ts[i + 1]?.map (·.kind) = some .atom

instance (ts : List Token) : DecidablePred (AtomsAt ts) :=
  fun i => inferInstanceAs (Decidable (ts[i]?.map (·.kind) = some .atom ∧ _))

/-- The place of the second of the first two atoms that stand side by side, or the number of tokens
if no two do. -/
inductive StopsAt (ts : List Token) : Nat → Prop
  | pair {i : Nat} (h : AtomsAt ts i) (first : ∀ j < i, ¬AtomsAt ts j) : StopsAt ts (i + 1)
  | all (apart : ∀ i, ¬AtomsAt ts i) : StopsAt ts ts.length

/-- The descent stops somewhere. -/
private theorem exists_stopsAt (ts : List Token) : ∃ p, StopsAt ts p := by
  by_cases h : ∃ i, AtomsAt ts i
  · exact ⟨Nat.find h + 1, .pair (Nat.find_spec h) fun j hj => Nat.find_min h hj⟩
  · exact ⟨ts.length, .all (not_exists.mp h)⟩

/-- The descent stops in one place only. -/
theorem StopsAt.unique {ts : List Token} {p q : Nat} (hp : StopsAt ts p) (hq : StopsAt ts q) :
    p = q := by
  cases hp with
  | @pair i hi hfirst =>
    cases hq with
    | @pair j hj hfirst' =>
      rcases Nat.lt_trichotomy i j with hij | rfl | hij
      · exact absurd hi (hfirst' i hij)
      · rfl
      · exact absurd hj (hfirst j hij)
    | all hapart => exact absurd hi (hapart i)
  | all hapart =>
    cases hq with
    | @pair j hj _ => exact absurd hj (hapart j)
    | all => rfl

/-- No two atoms stand side by side in front of the place. -/
private theorem StopsAt.isChain_take {ts : List Token} {p : Nat} (h : StopsAt ts p) :
    (ts.take p).IsChain Apart := by
  have hnone : ∀ j, j + 1 < p → ¬AtomsAt ts j := by
    intro j hj
    cases h with
    | pair _ hfirst => exact hfirst j (by omega)
    | all hapart => exact hapart j
  -- Two neighbours in front of the place are neighbours among all tokens.
  rw [List.isChain_iff_getElem]
  intro j hj hatoms
  rw [List.length_take] at hj
  rw [List.getElem_take, List.getElem_take] at hatoms
  have hlt : j + 1 < ts.length := by omega
  refine hnone j (by omega) ⟨?_, ?_⟩
  · rw [List.getElem?_eq_getElem (by omega), Option.map_some, hatoms.1]
  · rw [List.getElem?_eq_getElem hlt, Option.map_some, hatoms.2]

/-- Tokens the last of which is an atom. -/
def EndInAtom (ts : List Token) : Prop := ∃ front t, ts = front ++ [t] ∧ t.kind = .atom

/-- Behind a token that is no atom, the same token is the last. -/
private theorem EndInAtom.of_suffix {t : Token} {ts us : List Token} (h : EndInAtom us)
    (ht : t.kind ≠ .atom) (hts : t :: ts <:+ us) : EndInAtom ts := by
  obtain ⟨front, a, rfl, ha⟩ := h
  rcases List.suffix_concat_iff.mp hts with hnil | ⟨w, hw, -⟩
  · contradiction
  · cases w with
    | nil =>
      obtain ⟨rfl, -⟩ := List.cons.inj hw
      exact absurd ha ht
    | cons v w => exact ⟨w, a, (List.cons.inj hw).2, ha⟩

/-- If anything is left at the place, an atom stands there, right behind another one. -/
private theorem StopsAt.cases_drop {ts : List Token} {p : Nat} (h : StopsAt ts p) :
    ts.drop p = [] ∨
      EndInAtom (ts.take p) ∧ ∃ u us, u.kind = .atom ∧ ts.drop p = u :: us := by
  cases h with
  | all => exact .inl List.drop_length
  | @pair i h _ =>
    obtain ⟨t, ht, htatom⟩ := Option.map_eq_some_iff.mp h.1
    obtain ⟨u, hu, huatom⟩ := Option.map_eq_some_iff.mp h.2
    obtain ⟨hlt, rfl⟩ := List.getElem?_eq_some_iff.mp hu
    refine .inr ⟨⟨ts.take i, t, ?_, htatom⟩, _, _, huatom, List.drop_eq_getElem_cons hlt⟩
    rw [List.take_add_one, ht, Option.toList_some]

end Token

/-! ## What is behind two atoms that stand side by side -/

section

variable {ε : Type} (atom : List Char → Except ε Requirement)
variable {ts : List Token} {u : Token}

/-- An atom right behind another one ends a group, and everything from there on is left. -/
theorem readGroup_append (hts : Token.EndInAtom ts) (hu : u.kind = .atom) (us : List Token) :
    readGroup atom (ts ++ u :: us) =
      (readGroup atom ts).map fun (group, rest) => (group, rest ++ u :: us) := by
  -- As the tokens end in an atom, the descent comes to it before it comes to the one behind.
  fun_induction readGroup atom ts with
  | case1 =>
    obtain ⟨front, a, h, -⟩ := hts
    exact absurd h.symm (by simp)
  | case2 t ts hk =>
    rw [List.cons_append, readGroup.eq_def]
    simp only [hk]
    rfl
  | case3 t ts hk ih =>
    have hlast : Token.EndInAtom ts := hts.of_suffix (by simp [hk]) (List.suffix_refl _)
    rw [List.cons_append, readGroup.eq_def]
    simp only [hk]
    exact ih hlast
  | case4 t ts hk fault hf =>
    rw [List.cons_append, readGroup.eq_def]
    simp only [hk, hf]
    rfl
  | case5 t hk term hf =>
    -- The two atoms are right here.
    rw [List.cons_append, List.nil_append, readGroup.eq_def]
    simp [hk, hf, hu, Except.map]
  | case6 t hk term v vs hf hv ih =>
    have hlast : Token.EndInAtom vs := hts.of_suffix (t := v) (by simp [hv]) (List.suffix_cons _ _)
    rw [List.cons_append, List.cons_append, readGroup.eq_def]
    simp only [hk, hf, hv, if_true, ih hlast]
    cases readGroup atom vs <;> rfl
  | case7 t hk term v vs hf hv =>
    rw [List.cons_append, List.cons_append, readGroup.eq_def]
    simp only [hk, hf, hv, if_false]
    rfl

/-- The fault of the first group is that of the whole. -/
private theorem readGroups_of_error {fault : ε} (h : readGroup atom ts = .error fault) :
    readGroups atom ts = .error fault := by
  rw [readGroups]
  split <;> simp_all

/-- Behind a group there are others if an ampersand or a comma follows, and else the end. -/
private theorem readGroups_of_ok {group : List Requirement} {t : Token} {rest : List Token}
    (h : readGroup atom ts = .ok (group, t :: rest)) :
    readGroups atom ts =
      if t.kind = .and then
        (readGroups atom rest).map fun (groups, rest) => (group :: groups, rest)
      else .ok ([group], t :: rest) := by
  rw [readGroups]
  split <;> simp_all

/-- It ends the descent, too. -/
theorem readGroups_append (hts : Token.EndInAtom ts) (hu : u.kind = .atom) (us : List Token) :
    readGroups atom (ts ++ u :: us) =
      (readGroups atom ts).map fun (groups, rest) => (groups, rest ++ u :: us) := by
  -- Each case asks what the first group leaves, now with the second atom behind it.
  fun_induction readGroups atom ts with
  | case1 ts fault hg =>
    have hgroup : readGroup atom (ts ++ u :: us) = .error fault := by
      rw [readGroup_append atom hts hu, hg]
      rfl
    exact readGroups_of_error atom hgroup
  | case2 ts group hg =>
    have hgroup : readGroup atom (ts ++ u :: us) = .ok (group, u :: us) := by
      rw [readGroup_append atom hts hu, hg]
      rfl
    -- All tokens are read, and the atom is no separator that could go on with another group.
    rw [readGroups_of_ok atom hgroup, if_neg (by simp [hu])]
    rfl
  | case3 ts group t rest hg hk ih =>
    have hgroup : readGroup atom (ts ++ u :: us) = .ok (group, t :: (rest ++ u :: us)) := by
      rw [readGroup_append atom hts hu, hg]
      rfl
    have hlast : Token.EndInAtom rest :=
      hts.of_suffix (t := t) (by simp [hk]) (suffix_of_readGroup atom hg)
    rw [readGroups_of_ok atom hgroup, if_pos hk, ih hlast]
    cases readGroups atom rest <;> rfl
  | case4 ts group t rest hg hk =>
    have hgroup : readGroup atom (ts ++ u :: us) = .ok (group, t :: (rest ++ u :: us)) := by
      rw [readGroup_append atom hts hu, hg]
      rfl
    rw [readGroups_of_ok atom hgroup, if_neg hk]
    rfl

/-! ## Reading any tokens -/

/-- The descent reads the groups in front of the place where it stops and leaves the rest. -/
theorem readGroups_eq_of_stopsAt {p : Nat} (h : Token.StopsAt ts p) :
    readGroups atom ts =
      (((Text.pieces Token.endsGroup (ts.take p)).map Token.atoms).mapM
        (List.mapM (readTerm atom))).map (·, ts.drop p) := by
  have hfront := readGroups_eq atom h.isChain_take
  rcases h.cases_drop with hdrop | ⟨hlast, u, us, hu, hdrop⟩
  · have htake : ts.take p = ts := by
      rw [← List.append_nil (ts.take p), ← hdrop, List.take_append_drop]
    rw [htake] at hfront ⊢
    rw [hfront, hdrop]
  · have happend := readGroups_append atom hlast hu us
    rw [← hdrop, List.take_append_drop, hfront] at happend
    rw [happend]
    cases ((Text.pieces Token.endsGroup (ts.take p)).map Token.atoms).mapM
      (List.mapM (readTerm atom)) <;> rfl

/-- The atoms of the groups, one group after the other, are the atoms of the tokens. -/
private theorem flatten_map_atoms_pieces (ts : List Token) :
    ((Text.pieces Token.endsGroup ts).map Token.atoms).flatten = Token.atoms ts := by
  have hatoms : ∀ t : Token, (t.kind == .atom && !t.endsGroup) = (t.kind == .atom) := by
    intro t
    cases hk : t.kind <;> simp [Token.endsGroup, hk]
  calc ((Text.pieces Token.endsGroup ts).map Token.atoms).flatten
      = Token.atoms (Text.pieces Token.endsGroup ts).flatten := by
        rw [Token.atoms, List.filter_flatten, List.map_flatten, List.map_map]
        rfl
    _ = Token.atoms (ts.filter (!·.endsGroup)) := by rw [Text.flatten_pieces]
    _ = Token.atoms ts := by simp only [Token.atoms, List.filter_filter, hatoms]

/-- If the atoms can be read, the descent comes to the second of the first two atoms that stand side
by side, or to the end. It has then read one group more than there are separators of groups in front
of this place, and the terms of the groups are those of the atoms in front of it, in order. -/
theorem readGroups_stops (ts : List Token)
    (hatoms : ∀ t ∈ ts, t.kind = .atom → ∃ r, atom (atomText t.chars) = .ok r) :
    ∃ p groups, Token.StopsAt ts p ∧ readGroups atom ts = .ok (groups, ts.drop p) ∧
      groups.length = (ts.take p).countP (·.kind == .and) + 1 ∧
      List.Forall₂ (fun piece r => termOf atom piece = .ok r) (Token.atoms (ts.take p))
        groups.flatten := by
  obtain ⟨p, hp⟩ := Token.exists_stopsAt ts
  have hread := readGroups_eq_of_stopsAt atom hp
  rw [funext (readTerm_eq_termOf atom)] at hread
  -- The terms can be read in one row, hence group by group.
  have hterms : ∃ terms, (Token.atoms (ts.take p)).mapM (termOf atom) = .ok terms := by
    rw [List.exists_mapM_eq_ok_iff]
    intro piece hpiece
    obtain ⟨t, ht, rfl⟩ := List.mem_map.mp hpiece
    obtain ⟨ht, hk⟩ := List.mem_filter.mp ht
    obtain ⟨r, hr⟩ := hatoms t (List.mem_of_mem_take ht) (eq_of_beq hk)
    exact ⟨_, by rw [termOf, hr, Except.map]⟩
  obtain ⟨terms, hterms⟩ := hterms
  rw [← flatten_map_atoms_pieces, List.mapM_flatten_except] at hterms
  cases hgroups : ((Text.pieces Token.endsGroup (ts.take p)).map Token.atoms).mapM
      (List.mapM (termOf atom)) with
  | error fault => simp [hgroups, Except.map] at hterms
  | ok groups =>
    refine ⟨p, groups, hp, by rw [hread, hgroups]; rfl, ?_, ?_⟩
    · have hlength := (List.mapM_eq_ok_iff.mp hgroups).length_eq
      rw [List.length_map, Text.length_pieces] at hlength
      exact hlength.symm
    · rw [← List.mapM_eq_ok_iff, ← flatten_map_atoms_pieces, List.mapM_flatten_except, hgroups]
      rfl

end

/-- Tokens of no text: two atoms stand side by side. -/
def strayTokens : List Token :=
  [⟨.or, ['|'], 0⟩, ⟨.atom, ['!', 'a'], 1⟩, ⟨.and, [','], 3⟩, ⟨.and, ['&'], 4⟩, ⟨.atom, ['b'], 5⟩,
    ⟨.atom, ['!', 'c'], 6⟩, ⟨.and, [','], 8⟩]

/-- The third group ends in front of the last of three atoms, and the separator behind it makes no
fourth one. -/
theorem readGroups_stops_at_stray_atom :
    (∀ t ∈ strayTokens, t.kind = .atom → ∃ r, modAtom (atomText t.chars) = .ok r) ∧
      ∃ groups, readGroups modAtom strayTokens = .ok (groups, strayTokens.drop 5) ∧
        groups.length = 3 ∧ groups.flatten = [.negation (.mod "a"), .mod "b"] := by
  have hatoms : ∀ t ∈ strayTokens, t.kind = .atom → ∃ r, modAtom (atomText t.chars) = .ok r := by
    simp only [strayTokens, List.forall_mem_cons]
    exact ⟨nofun, fun _ => ⟨.mod "a", rfl⟩, nofun, nofun, fun _ => ⟨.mod "b", rfl⟩,
      fun _ => ⟨.mod "c", rfl⟩, nofun, nofun⟩
  have hstop : Token.StopsAt strayTokens 5 := .pair (by decide) (by decide)
  obtain ⟨p, groups, hp, hread, hlength, hterms⟩ := readGroups_stops modAtom strayTokens hatoms
  obtain rfl := hp.unique hstop
  refine ⟨hatoms, groups, hread, hlength, ?_⟩
  have hread' : List.Forall₂ (fun piece r => termOf modAtom piece = .ok r) [['!', 'a'], ['b']]
      groups.flatten := hterms
  rw [← List.mapM_eq_ok_iff] at hread'
  exact (Except.ok.inj hread').symm

end VersionGate.Requirement
