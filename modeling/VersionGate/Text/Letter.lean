/-!
# Letters

A letter of a text is a character or half of one: an escape in a document can name a code from D800
to DFFF, which is no character but half of one beyond the first plane. Two halves in a text are two
letters, also if they would make a character together.

Texts are strings all the same, because halves can be spelled. One character, the `mark`, is set
apart: a half is spelled as the mark and a character for its number, the mark itself is spelled
twice, and every other character is spelled as itself. `letters` takes a spelling apart; by
`letters_spell` no letter is lost on the way.
-/

namespace VersionGate.Text

/-- A letter of a text. -/
inductive Letter where
  | char (c : Char)
  /-- Half of a character, by its number among the halves. -/
  | half (n : Fin 0x800)
  deriving DecidableEq, Repr

/-- The character that is set apart, the last one of all. -/
def mark : Char := Char.ofNat 0x10ffff

/-- The code of the first half. -/
def firstHalf : Nat := 0xd800

/-- The code of the character for the first half. -/
def firstSign : Nat := 0xe000

namespace Letter

/-- The code of a letter. -/
def code : Letter → Nat
  | char c => c.toNat
  | half n => firstHalf + n

/-- The half with the code `n` if the codes of all halves start at `first`. -/
def half? (first n : Nat) : Option Letter :=
  if first ≤ n && n < first + 0x800 then some (half (Fin.ofNat 0x800 (n - first))) else none

/-- The letter with a code. -/
def ofCode (n : Nat) : Letter := (half? firstHalf n).getD (char (Char.ofNat n))

/-- The character that a letter is, none for half of one. -/
def char? : Letter → Option Char
  | char c => some c
  | half _ => none

/-- The number of bytes of a letter. -/
def byteSize : Letter → Nat
  | char c => c.utf8Size
  | half _ => 3

/-- How a letter is spelled. -/
def spell : Letter → List Char
  | char c => if c = mark then [mark, mark] else [c]
  | half n => [mark, Char.ofNat (firstSign + n)]

/-- The letter that is spelled with two characters, if there is one. -/
def ofPair? (c d : Char) : Option Letter :=
  if c ≠ mark then none
  else if d = mark then some (char mark)
  else half? firstSign d.toNat

end Letter

/-- The letters of a text. A mark that spells nothing is a letter of its own. -/
def letters : List Char → List Letter
  | c :: d :: cs =>
    match Letter.ofPair? c d with
    | some letter => letter :: letters cs
    | none => .char c :: letters (d :: cs)
  | [c] => [.char c]
  | [] => []

/-- A character other than the mark is a letter of its own. -/
theorem letters_cons {c : Char} (h : c ≠ mark) (cs : List Char) :
    letters (c :: cs) = .char c :: letters cs := by
  cases cs <;> simp [letters, Letter.ofPair?, h]

/-- A letter that is spelled is found again. -/
theorem letters_spell_append (l : Letter) (cs : List Char) :
    letters (l.spell ++ cs) = l :: letters cs := by
  cases l with
  | char c =>
    by_cases h : c = mark
    · simp [Letter.spell, letters, Letter.ofPair?, h]
    · simp [Letter.spell, letters_cons h, h]
  | half n =>
    -- A half is spelled with the mark and a sign of its own, which is not the mark again.
    have valid : (firstSign + n).isValidChar := by
      right
      simp only [firstSign]
      omega
    have sign : (Char.ofNat (firstSign + n)).toNat = firstSign + n := by
      rw [Char.ofNat, dif_pos valid]
      rfl
    have other : Char.ofNat (firstSign + n) ≠ mark := by
      intro h
      have := congrArg Char.toNat h
      rw [sign] at this
      have : firstSign + n.val = 0x10ffff := this
      simp only [firstSign] at this
      omega
    simp [Letter.spell, letters, Letter.ofPair?, Letter.half?, other, sign]

/-- A text that is spelled has the letters that were spelled. -/
theorem letters_spell (ls : List Letter) : letters (ls.flatMap Letter.spell) = ls := by
  induction ls with
  | nil => rfl
  | cons l ls ih => rw [List.flatMap_cons, letters_spell_append, ih]

/-- How a text of characters is spelled. -/
def spell (cs : List Char) : List Char := cs.flatMap fun c => (Letter.char c).spell

/-- The characters of a text, none if there is half of one in it. -/
def wholes? (cs : List Char) : Option (List Char) := (letters cs).mapM Letter.char?

/-- How a text of characters is spelled. -/
def spelled (s : String) : String := String.ofList (spell s.toList)

/-- The text of characters that is spelled, if there is no half of one in it. -/
def whole? (s : String) : Option String := (wholes? s.toList).map String.ofList

/-- The number of bytes of a text. Half a character would take as many as one with its code. -/
def byteSize (s : String) : Nat := (letters s.toList).foldl (fun n l => n + l.byteSize) 0

end VersionGate.Text
