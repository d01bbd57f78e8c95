import VersionGate.Text.Hex
import VersionGate.Text.Letter
import VersionGate.Yaml.Char
import VersionGate.Yaml.Tag

/-!
# Writing scalars

A text is written plain if it reads back as the same text, else between single quotes, and between
double quotes if it holds letters or spaces that only escapes can keep. Long lines are broken at a
single space once they are longer than `lineWidth`; a line break in a text between single quotes is
written as itself, a line feed once more than that.

The mark that halves of characters are spelled with is one of the characters that only escapes can
keep. So the letters of a text matter between double quotes alone.
-/

namespace VersionGate.Yaml

open Text (Letter)

/-- The column after which a line is broken. -/
def lineWidth : Nat := 80

/-- How a text is written. -/
inductive Style where
  | plain
  | singleQuoted
  | doubleQuoted
  deriving DecidableEq, Repr

namespace Scalar

/-- Whether a character breaks a line inside a scalar that is written. -/
def breaksLine (c : Char) : Bool := isBreak c && c != '\r'

/-- Whether a character can only be written as an escape. The mark of a half is one of these. -/
def isSpecial (c : Char) : Bool :=
  !(c = '\n' || (' ' ≤ c && c ≤ '~') || c = '\u0085'
    || ('\u00a0' ≤ c && c.toNat ≤ 0xfffd && c != byteOrderMark)
    || (0x10000 ≤ c.toNat && c.toNat < 0x10ffff))

/-- Whether the two characters occur next to each other, the first satisfying `p` and the second
satisfying `q`. -/
def hasPair (p q : Char → Bool) : List Char → Bool
  | c :: d :: cs => (p c && q d) || hasPair p q (d :: cs)
  | _ => false

/-- Whether a text can be written between single quotes: no escapes, and no space next to a line
break. -/
def allowsSingleQuotes (cs : List Char) : Bool :=
  !cs.any isSpecial && !hasPair breaksLine (· == ' ') cs && !hasPair (· == ' ') breaksLine cs

/-- The characters that mean something at the start of a plain scalar. -/
def indicators : List Char := "#,[]\x7b\x7d&*!|>'\"%@`".toList

/-- Whether a plain scalar may start like this. -/
def startsPlain : List Char → Bool
  | '-' :: '-' :: '-' :: _ | '.' :: '.' :: '.' :: _ => false
  | c :: cs =>
    !indicators.contains c
      && !((c = '-' || c = '?' || c = ':') && endsOr isSeparator cs)
  | [] => true

/-- Whether a colon before a separator or the end, or a number sign after a separator, would end a
plain scalar early. -/
def endsPlain : List Char → Bool
  | [] => false
  | c :: cs =>
    (match cs with
      | ':' :: rest => endsOr isSeparator rest
      | '#' :: _ => isSeparator c
      | _ => false) || endsPlain cs

/-- Whether a text can be written plain. -/
def allowsPlain (cs : List Char) : Bool :=
  allowsSingleQuotes cs && !cs.any breaksLine && cs.head? != some ' ' && cs.getLast? != some ' '
    && startsPlain cs && !endsPlain cs

/-- How a text is written. -/
def style (cs : List Char) : Style :=
  if Tag.resolve cs = .text && allowsPlain cs then .plain
  else if allowsSingleQuotes cs then .singleQuoted
  else .doubleQuoted

/-- A line break and the blanks of the next line. -/
def newLine (indent : Nat) : List Char := '\n' :: List.replicate indent ' '

/-- A maximal run of spaces, of line breaks, or of other characters. -/
structure Run where
  first : Char
  rest : List Char

/-- The characters of a run. -/
def Run.chars (r : Run) : List Char := r.first :: r.rest

/-- Whether two characters belong to one run. -/
def sameRun (c d : Char) : Bool :=
  (c == ' ') == (d == ' ') && breaksLine c == breaksLine d

/-- The runs of a text. -/
def runs : List Char → List Run
  | [] => []
  | c :: cs =>
    match runs cs with
    | [] => [⟨c, []⟩]
    | r :: rs => if sameRun c r.first then ⟨c, r.chars⟩ :: rs else ⟨c, []⟩ :: r :: rs

/-- Writes runs from `column` on, where lines after the first start with `indent` blanks. `mayBreak`
says whether a space may be written as a line break, which needs text on both sides. -/
def writeRuns (indent : Nat) (mayBreak : Bool) (column : Nat) (write : Char → List Char) :
    List Run → List Char
  | [] => []
  | r :: rs =>
    if r.first = ' ' then
      if r.rest.isEmpty && mayBreak && !rs.isEmpty && lineWidth < column then
        newLine indent ++ writeRuns indent true indent write rs
      else r.chars ++ writeRuns indent true (column + r.chars.length) write rs
    else if breaksLine r.first then
      (if r.first = '\n' then ['\n'] else []) ++ r.chars ++ List.replicate indent ' '
        ++ writeRuns indent true indent write rs
    else
      let out := r.chars.flatMap write
      out ++ writeRuns indent true (column + out.length) write rs

/-- A single quote is written twice between single quotes. -/
def singleQuotedChar (c : Char) : List Char := if c = '\'' then ['\'', '\''] else [c]

/-- The signs of short escapes. -/
def shortEscapes : List (Char × Char) :=
  [('\x00', '0'), ('\x07', 'a'), ('\x08', 'b'), ('\t', 't'), ('\n', 'n'), ('\x0b', 'v'),
   ('\x0c', 'f'), ('\r', 'r'), ('\x1b', 'e'), ('"', '"'), ('\\', '\\'), ('\u0085', 'N'),
   ('\u00a0', '_'), ('\u2028', 'L'), ('\u2029', 'P')]

/-- Whether a character stands for itself between double quotes. -/
def isLiteral (c : Char) : Bool :=
  ((' ' ≤ c && c ≤ '~') || ('\u00a0' ≤ c && c.toNat ≤ 0xfffd))
    && c != '"' && c != '\\' && c != '\u2028' && c != '\u2029' && c != byteOrderMark

/-- The character that a letter is if that stands for itself between double quotes. -/
def literal? (l : Letter) : Option Char := l.char?.filter isLiteral

/-- The escape by the code of a letter: the shortest of the three widths that fits. -/
def escapeCode (n : Nat) : List Char :=
  let hex (width : Nat) := (Text.hexDigits width n).map Char.toUpper
  if n ≤ 0xff then '\\' :: 'x' :: hex 2
  else if n ≤ 0xffff then '\\' :: 'u' :: hex 4
  else '\\' :: 'U' :: hex 8

/-- The escape of a letter between double quotes. -/
def escape (l : Letter) : List Char :=
  match l.char?.bind (shortEscapes.lookup ·) with
  | some sign => ['\\', sign]
  | none => escapeCode l.code

/-- What ends a line between double quotes, and how many characters then start the next one. A space
at the start of the next line has to be escaped. -/
def foldLine (indent : Nat) (next : Option Letter) : List Char × Nat :=
  if next = some (.char ' ') then ('\\' :: newLine indent ++ ['\\'], indent + 1)
  else ('\\' :: newLine indent, indent)

/-- Writes a text between double quotes from `column` on, where `pending` counts the characters
since the last escape or line break and `column` does not include them. A line that is too long is
broken before a space, and before or after an escape, but neither in front of the first nor of the
last letter. -/
def writeEscaped (indent : Nat) (first : Bool) (pending column : Nat) : List Letter → List Char
  | [] => []
  | l :: ls =>
    let inner := !first && !ls.isEmpty
    match literal? l with
    | some c =>
      if inner && (c = ' ' || pending = 0) && lineWidth < column + pending then
        let (fold, column) := foldLine indent (some l)
        fold ++ c :: writeEscaped indent false 1 column ls
      else c :: writeEscaped indent false (pending + 1) column ls
    | none =>
      let out := escape l
      let column := column + pending + out.length
      if inner && lineWidth + 1 < column then
        let (fold, column) := foldLine indent ls.head?
        out ++ fold ++ writeEscaped indent false 0 column ls
      else out ++ writeEscaped indent false 0 column ls

/-- Writes a text from `column` on, where lines after the first start with `indent` blanks. -/
def write (indent column : Nat) (cs : List Char) : List Char :=
  match style cs with
  | .plain => writeRuns indent true column (fun c => [c]) (runs cs)
  | .singleQuoted =>
    '\'' :: writeRuns indent false (column + 1) singleQuotedChar (runs cs) ++ ['\'']
  | .doubleQuoted => '"' :: writeEscaped indent true 0 (column + 1) (Text.letters cs) ++ ['"']

end Scalar

end VersionGate.Yaml
