/-!
# Base64

Bytes as letters, three of them as four letters of six bits each. Letters that stand for nothing are
passed over. The sign for padding ends the text once it makes a group of four with the letters in
front of it, of which there have to be two; what is behind it does not matter then.
-/

namespace VersionGate.Text.Base64

/-- The six bits that a letter stands for. -/
def bits? (c : Char) : Option Nat :=
  if 'A' ≤ c && c ≤ 'Z' then some (c.toNat - 'A'.toNat)
  else if 'a' ≤ c && c ≤ 'z' then some (c.toNat - 'a'.toNat + 26)
  else if c.isDigit then some (c.toNat - '0'.toNat + 52)
  else if c = '+' then some 62
  else if c = '/' then some 63
  else none

/-- The whole bytes in a group of at most four letters. -/
def groupBytes : List Nat → List UInt8
  | a :: b :: rest =>
    UInt8.ofNat (4 * a + b / 16) :: match rest with
      | [] => []
      | c :: rest =>
        UInt8.ofNat (16 * (b % 16) + c / 4) :: match rest with
          | [] => []
          | d :: _ => [UInt8.ofNat (64 * (c % 4) + d)]
  | _ => []

/-- Reads bytes behind the letters of a group that is not complete and the padding behind them. -/
def decodeFrom (group : List Nat) (padding : Nat) : List Char → Option (List UInt8)
  | [] => if group.isEmpty then some [] else none
  | '=' :: cs =>
    if group.length < 2 then decodeFrom group padding cs
    else if group.length + padding + 1 < 4 then decodeFrom group (padding + 1) cs
    else some (groupBytes group)
  | c :: cs =>
    match bits? c with
    | none => decodeFrom group padding cs
    | some n =>
      let group := group ++ [n]
      if group.length < 4 then decodeFrom group 0 cs
      else (decodeFrom [] 0 cs).map (groupBytes group ++ ·)

/-- The bytes in a text. -/
def decode (cs : List Char) : Option (List UInt8) := decodeFrom [] 0 cs

end VersionGate.Text.Base64
