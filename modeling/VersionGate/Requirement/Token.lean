/-!
# Tokens of requirements

A requirement text is cut into tokens: a comma or an ampersand each, a bar each, and the longest
runs of anything else, the atoms. Nothing of the text is dropped.
-/

namespace VersionGate.Requirement

/-- What a token is. -/
inductive TokenKind where
  | and
  | or
  | atom
  deriving DecidableEq, Repr

/-- A token, with the number of characters in front of it. -/
structure Token where
  kind : TokenKind
  chars : List Char
  position : Nat
  deriving DecidableEq, Repr

/-- The text of a token. -/
def Token.text (t : Token) : String := String.ofList t.chars

/-- The kind of separator that a character is, if it is one. -/
def separator? (c : Char) : Option TokenKind :=
  if c = ',' || c = '&' then some .and
  else if c = '|' then some .or
  else none

/-- Puts a character that is no separator in front of some tokens, growing a leading atom. -/
def Token.consAtom (c : Char) (position : Nat) : List Token → List Token
  | [] => [⟨.atom, [c], position⟩]
  | t :: ts =>
    if t.kind = .atom then ⟨.atom, c :: t.chars, position⟩ :: ts
    else ⟨.atom, [c], position⟩ :: t :: ts

/-- The tokens of a text that starts at the given position. -/
def Token.scanFrom (position : Nat) : List Char → List Token
  | [] => []
  | c :: cs =>
    match separator? c with
    | some kind => ⟨kind, [c], position⟩ :: scanFrom (position + 1) cs
    | none => consAtom c position (scanFrom (position + 1) cs)

/-- The tokens of a text. -/
def Token.scan (cs : List Char) : List Token := scanFrom 0 cs

end VersionGate.Requirement
