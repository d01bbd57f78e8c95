import VersionGate.Proofs.Hex
import VersionGate.Proofs.Yaml.Text
import VersionGate.Yaml.Printer

/-!
# The characters of a written document

Whatever a tree holds, its document is made of characters that need no escape. So it can be read at
all: none of its letters is half of a character, and all of its characters may stand in a document.

## Key results

- `writable_write`: the characters that a text is written with
- `wholes?_render`: the document of a tree can be read
-/

namespace VersionGate.Yaml

open Config

/-- Whether a text is made of characters that need no escape. -/
def Writable (cs : List Char) : Prop := ∀ c ∈ cs, Scalar.isSpecial c = false

instance (cs : List Char) : Decidable (Writable cs) :=
  decidable_of_iff (cs.all (!Scalar.isSpecial ·) = true) (by simp [Writable])

section Writable

variable {cs cs' : List Char} {c : Char}

private theorem writable_nil : Writable [] := by decide

/-- Two texts without special characters have none together. -/
theorem Writable.append (h : Writable cs) (h' : Writable cs') : Writable (cs ++ cs') :=
  List.forall_mem_append.mpr ⟨h, h'⟩

/-- A character more is allowed if it is not special. -/
theorem Writable.cons (h : Writable cs) (hc : Scalar.isSpecial c = false) : Writable (c :: cs) :=
  List.forall_mem_cons.mpr ⟨hc, h⟩

/-- Texts without special characters have none in a row. -/
private theorem writable_flatMap {α : Type} {f : α → List Char} {xs : List α}
    (h : ∀ x ∈ xs, Writable (f x)) : Writable (xs.flatMap f) := by
  intro c hc
  obtain ⟨x, hx, hmem⟩ := List.mem_flatMap.mp hc
  exact h x hx c hmem

private theorem writable_spaces (n : Nat) : Writable (List.replicate n ' ') := by
  intro c hc
  rw [List.eq_of_mem_replicate hc]
  decide

private theorem writable_newLine (indent : Nat) : Writable (Scalar.newLine indent) :=
  (writable_spaces indent).cons (by decide)

/-- A character that needs no escape may stand in a document. -/
private theorem isAllowed_of_not_special (h : Scalar.isSpecial c = false) : isAllowed c = true := by
  simp only [Scalar.isSpecial, Bool.not_eq_false', Bool.or_eq_true, Bool.and_eq_true,
    decide_eq_true_eq] at h
  simp only [isAllowed, Bool.or_eq_true, Bool.and_eq_true, decide_eq_true_eq]
  tauto

end Writable

namespace Scalar

open Text (Letter)

/-! ## Texts without escapes -/

/-- Runs are written with characters that need no escape if theirs do not. -/
private theorem writable_writeRuns {write : Char → List Char}
    (hwrite : ∀ c, isSpecial c = false → Writable (write c)) (indent : Nat) {rs : List Run}
    (hrs : ∀ r ∈ rs, Writable r.chars) (mayBreak : Bool) (column : Nat) :
    Writable (writeRuns indent mayBreak column write rs) := by
  induction rs generalizing mayBreak column with
  | nil => exact writable_nil
  | cons r rs ih =>
    have hr := hrs r (by simp)
    have hmore := ih fun r' hr' => hrs r' (by simp [hr'])
    -- A run is of spaces, of line breaks or of text, and a line break is added or not.
    rw [writeRuns]
    split
    · split
      · exact (writable_newLine indent).append (hmore _ _)
      · exact hr.append (hmore _ _)
    · split
      · have hfeed : Writable (if r.first = '\n' then ['\n'] else []) := by
          split
          · exact by decide
          · exact writable_nil
        exact ((hfeed.append hr).append (writable_spaces indent)).append (hmore _ _)
      · exact (writable_flatMap fun c hc => hwrite c (hr c hc)).append (hmore _ _)

/-- The characters of the runs of a text are those of the text. -/
private theorem writable_runs {cs : List Char} (h : allowsSingleQuotes cs = true) :
    ∀ r ∈ runs cs, Writable r.chars := by
  intro r hr c hc
  have hmem : c ∈ cs := by
    rw [← flatMap_chars_runs cs]
    exact List.mem_flatMap.mpr ⟨r, hr, hc⟩
  simp only [allowsSingleQuotes, Bool.and_eq_true, Bool.not_eq_true', List.any_eq_false] at h
  simpa using h.1.1 c hmem

/-- A quote is doubled, and other characters are written as they are. -/
private theorem writable_singleQuotedChar (c : Char) (h : isSpecial c = false) :
    Writable (singleQuotedChar c) := by
  unfold singleQuotedChar
  split
  · simp [Writable]
    decide
  · simpa [Writable] using h

/-! ## Texts with escapes -/

/-- The characters of ASCII that are shown as themselves need no escape. -/
private theorem not_special_of_printable {c : Char} (hlow : ' ' ≤ c) (hhigh : c ≤ '~') :
    isSpecial c = false := by
  simp [isSpecial, hlow, hhigh]

/-- Digits are not special. -/
private theorem not_special_of_isHexDigit {c : Char} (h : Text.isHexDigit c = true) :
    isSpecial c = false := by
  simp only [Text.isHexDigit, Char.isDigit, Bool.or_eq_true, Bool.and_eq_true, decide_eq_true_eq,
    ge_iff_le] at h
  have hrange : ∀ low high : Char, ' ' ≤ low → high ≤ '~' → low ≤ c → c ≤ high →
      isSpecial c = false := fun low high hlow hhigh h h' =>
    not_special_of_printable (Char.le_trans hlow h) (Char.le_trans h' hhigh)
  obtain (⟨hlow, hhigh⟩ | ⟨hlow, hhigh⟩) | ⟨hlow, hhigh⟩ := h
  · exact hrange '0' '9' (by decide) (by decide) hlow hhigh
  · exact hrange 'a' 'f' (by decide) (by decide) hlow hhigh
  · exact hrange 'A' 'F' (by decide) (by decide) hlow hhigh

/-- What is literal between double quotes is not special. -/
private theorem not_special_of_isLiteral {c : Char} (h : isLiteral c = true) :
    isSpecial c = false := by
  simp only [isLiteral, Bool.and_eq_true, Bool.or_eq_true, decide_eq_true_eq, bne_iff_ne] at h
  obtain ⟨⟨⟨⟨⟨h | h, -⟩, -⟩, -⟩, -⟩, hmark⟩ := h
  · exact not_special_of_printable h.1 h.2
  · simp [isSpecial, h.1, h.2, hmark]

/-- An escape with a code has no special characters. -/
private theorem writable_escapeCode (n : Nat) : Writable (escapeCode n) := by
  have hhex : ∀ width, Writable ((Text.hexDigits width n).map Char.toUpper) := fun width c hc =>
    not_special_of_isHexDigit (Text.isHexDigit_of_mem_map_toUpper hc)
  unfold escapeCode
  split
  · exact ((hhex 2).cons (by decide)).cons (by decide)
  · split
    · exact ((hhex 4).cons (by decide)).cons (by decide)
    · exact ((hhex 8).cons (by decide)).cons (by decide)

/-- No escape has special characters. -/
private theorem writable_escape (l : Letter) : Writable (escape l) := by
  unfold escape
  split
  · next sign h =>
    obtain ⟨ch, -, hlookup⟩ := Option.bind_eq_some_iff.mp h
    have hall : ∀ pair ∈ shortEscapes, isSpecial pair.2 = false := by decide
    obtain ⟨front, back, heq, -⟩ := List.lookup_eq_some_iff.mp hlookup
    have hsign : isSpecial sign = false := hall (ch, sign) (by simp [heq])
    exact (writable_nil.cons hsign).cons (by decide)
  · exact writable_escapeCode l.code

/-- A line break has none, with its indentation. -/
private theorem writable_foldLine (indent : Nat) (next : Option Letter) :
    Writable (foldLine indent next).1 := by
  unfold foldLine
  split
  · exact ((writable_newLine indent).cons (by decide)).append (by decide)
  · exact (writable_newLine indent).cons (by decide)

/-- A text between double quotes has none. -/
private theorem writable_writeEscaped (indent : Nat) (first : Bool) (pending column : Nat)
    (ls : List Letter) : Writable (writeEscaped indent first pending column ls) := by
  induction ls generalizing first pending column with
  | nil => exact writable_nil
  | cons l ls ih =>
    rw [writeEscaped]
    split
    · next c hc =>
      have hliteral : isSpecial c = false :=
        not_special_of_isLiteral (Option.filter_eq_some_iff.mp hc).2
      dsimp only
      split
      · exact (writable_foldLine indent _).append ((ih _ _ _).cons hliteral)
      · exact (ih _ _ _).cons hliteral
    · dsimp only
      split
      · exact ((writable_escape l).append (writable_foldLine indent _)).append (ih _ _ _)
      · exact (writable_escape l).append (ih _ _ _)

/-- The characters that a text is written with. -/
theorem writable_write (indent column : Nat) (cs : List Char) :
    Writable (write indent column cs) := by
  unfold write
  cases hstyle : style cs with
  | plain =>
    have hruns := writable_runs (allowsSingleQuotes_of_allowsPlain (of_style_plain hstyle).2)
    exact writable_writeRuns (fun c hc => writable_nil.cons hc) indent hruns _ _
  | singleQuoted =>
    have hruns := writable_runs (of_style_singleQuoted hstyle)
    have hinside := writable_writeRuns writable_singleQuotedChar indent hruns false (column + 1)
    exact (hinside.cons (by decide)).append (by decide)
  | doubleQuoted =>
    have hinside := writable_writeEscaped indent true 0 (column + 1) (Text.letters cs)
    exact (hinside.cons (by decide)).append (by decide)

end Scalar

/-! ## Trees -/

private theorem writable_renderText {key : String} (hkey : Writable key.toList) (indent : Nat)
    (s : String) : Writable (renderText indent key s) := by
  have hcolon : Writable [':', ' '] := by decide
  exact (hkey.append hcolon).append (Scalar.writable_write _ _ _)

/-- A name is written without special characters. -/
private theorem writable_renderName (indent : Nat) (name : Option String) :
    Writable (renderName indent name) := by
  cases name with
  | none => exact (by decide : Writable "name: null".toList)
  | some name => exact writable_renderText (by decide) _ _

/-- So is a value. -/
private theorem writable_renderValue (indent : Nat) (v : Value) : Writable (renderValue indent v) :=
  ((writable_renderName indent v.name).append (writable_newLine indent)).append
    (writable_renderText (by decide) _ _)

/-- So is a list if its items are. -/
private theorem writable_renderList {key : String} (hkey : Writable key.toList) (indent : Nat)
    {items : List (List Char)} (hitems : ∀ item ∈ items, Writable item) :
    Writable (renderList indent key items) := by
  have hitem : ∀ item ∈ items, Writable (Scalar.newLine indent ++ '-' :: ' ' :: item) := by
    intro item hitem
    have hdash := ((hitems item hitem).cons (by decide : Scalar.isSpecial ' ' = false)).cons
      (by decide : Scalar.isSpecial '-' = false)
    exact (writable_newLine indent).append hdash
  have hnone : Writable [' ', '[', ']'] := by decide
  unfold renderList
  refine hkey.append (Writable.cons ?_ (by decide))
  split
  · exact hnone
  · exact writable_flatMap hitem

mutual

/-- So is a node. -/
private theorem writable_renderNode (indent : Nat) :
    ∀ n : Config.Node, Writable (renderNode indent n)
  | ⟨name, values, nodes⟩ => by
    have hvalues : ∀ item ∈ values.map (renderValue (indent + 2)), Writable item := by
      intro item hitem
      obtain ⟨v, -, rfl⟩ := List.mem_map.mp hitem
      exact writable_renderValue _ _
    have hname := (writable_renderName indent name).append (writable_newLine indent)
    have hlist := writable_renderList (by decide : Writable "values".toList) indent hvalues
    have hnodes := writable_renderList (by decide : Writable "nodes".toList) indent
      (writable_renderNodes (indent + 2) nodes)
    rw [renderNode]
    exact ((hname.append hlist).append (writable_newLine indent)).append hnodes

/-- So are its children. -/
private theorem writable_renderNodes (indent : Nat) :
    ∀ nodes : List Config.Node, ∀ item ∈ renderNodes indent nodes, Writable item
  | [] => by simp [renderNodes]
  | n :: ns => by
    rw [renderNodes]
    exact List.forall_mem_cons.mpr ⟨writable_renderNode indent n, writable_renderNodes indent ns⟩

end

/-- The document of a tree can be read. -/
theorem wholes?_render (n : Config.Node) :
    (Text.wholes? (renderNode 0 n ++ ['\n'])).filter (·.all isAllowed) =
      some (renderNode 0 n ++ ['\n']) := by
  have hwritable : Writable (renderNode 0 n ++ ['\n']) :=
    (writable_renderNode 0 n).append (by decide)
  have hmark : Text.mark ∉ renderNode 0 n ++ ['\n'] := fun h => absurd (hwritable _ h) (by decide)
  have hall : (renderNode 0 n ++ ['\n']).all isAllowed = true :=
    List.all_eq_true.mpr fun c hc => isAllowed_of_not_special (hwritable c hc)
  rw [Text.wholes?_eq_self hmark, Option.filter_some, if_pos hall]

end VersionGate.Yaml
