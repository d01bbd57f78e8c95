import VersionGate.Yaml.Token
import VersionGate.Yaml.Tree

/-!
# The structure of a document

Reads the tree of a document off its tokens. Blocks are lists of entries with a dash each, or maps
of keys and values; inside a map a list may go without a block of its own. Between brackets there
are lists and maps with commas, and in a list also single fields. A key, a value or an item that is
left out is null.

A text holds at most one document, with directives in front of it if it is marked.

An alias may not come before its anchor, and an anchor is given only once. Of several faults the
first one counts, where the tokens are looked at from left to right and only as far as is needed.
-/

namespace VersionGate.Yaml

/-- What the handles of tags stand for. -/
abbrev Handles := List (String × String)

namespace Handles

/-- What handles stand for if no directive says otherwise. -/
def standard : Handles := [("!", "!"), ("!!", Tag.standardRoot)]

/-- The text of a tag. -/
def expand? (handles : Handles) (name : TagName) : Option String :=
  match name.handle with
  | none => some name.suffix
  | some handle => (handles.lookup handle).map (· ++ name.suffix)

end Handles

/-- What stands in front of a node. -/
structure Properties where
  anchor : Option String := none
  tag : Option String := none

namespace Properties

/-- Whether nothing stands in front of the node. -/
def isEmpty (p : Properties) : Bool := p.anchor.isNone && p.tag.isNone

/-- Whether the tag is left open, by there being none or by an exclamation mark. -/
def isOpen (p : Properties) : Bool := p.tag.isNone || p.tag == some "!"

/-- The tag of a node, `otherwise` if it is left open. -/
def tagOr (p : Properties) (otherwise : Tag) : Tag :=
  if p.isOpen then otherwise else (p.tag.map Tag.ofText).getD otherwise

/-- A scalar with these properties. Only a plain one is resolved by its text, and any with an
exclamation mark. -/
def scalar (p : Properties) (text : String) (plain : Bool) : Tree :=
  let resolved := if plain || p.tag.isSome then Tag.resolve text.toList else .text
  .scalar p.anchor (p.tagOr resolved) text

end Properties

namespace Structure

variable (handles : Handles)

/-- Reads a tag. -/
def readTag (name : TagName) : Except Fault String :=
  match handles.expand? name with
  | some tag => .ok tag
  | none => .error .form

/-- Reads what stands in front of a node: an anchor, a tag, or both in either order. Behind a tag
that comes first the next token is looked at before the tag is. -/
def readProperties : List Token → Except Fault (Properties × List Token)
  | .tag _ :: .broken fault :: _ => .error fault
  | .anchor a :: .tag t :: rest | .tag t :: .anchor a :: rest => do
    .ok (⟨some a, some (← readTag handles t)⟩, rest)
  | .anchor a :: rest => .ok (⟨some a, none⟩, rest)
  | .tag t :: rest => do .ok (⟨none, some (← readTag handles t)⟩, rest)
  | tokens => .ok ({}, tokens)

/-- What is wrong with tokens that should go on differently. -/
def unexpected : List Token → Fault
  | .broken fault :: _ => fault
  | _ => .form

/-- Whether the next token is one of the given ones. -/
def sees (options : List Token) (tokens : List Token) : Bool := tokens.head?.any options.contains

/-- Passes over the comma in front of all but the first part between brackets. -/
def skipComma (first : Bool) : List Token → Except Fault (List Token)
  | .flowEntry :: rest => if first then .ok (.flowEntry :: rest) else .ok rest
  | tokens => if first then .ok tokens else .error (unexpected tokens)

mutual

/-- Reads a node. Blocks are possible if `inBlock` says so, and a list without one if `bareList`
does. -/
def node (inBlock bareList : Bool) : Nat → List Token → Except Fault (Tree × List Token)
  | 0, _ => .error .form
  | _ + 1, .reference name :: rest => .ok (.reference name, rest)
  | fuel + 1, tokens => do
    let (p, tokens) ← readProperties handles tokens
    match tokens with
    | .scalar text plain :: rest => .ok (p.scalar text plain, rest)
    | .flowListStart :: rest => do
      let (items, rest) ← flowItems true fuel rest
      .ok (.list p.anchor (p.tagOr .list) items, rest)
    | .flowMapStart :: rest => do
      let (fields, rest) ← flowFields true fuel rest
      .ok (.map p.anchor (p.tagOr .map) fields, rest)
    | .blockEntry :: rest =>
      if bareList then do
        let (items, rest) ← bareItems fuel (.blockEntry :: rest)
        .ok (.list p.anchor (p.tagOr .list) items, rest)
      else if p.isEmpty then .error .form
      else .ok (p.scalar "" true, tokens)
    | .blockListStart :: rest =>
      if inBlock then do
        let (items, rest) ← blockItems fuel rest
        .ok (.list p.anchor (p.tagOr .list) items, rest)
      else if p.isEmpty then .error .form
      else .ok (p.scalar "" true, tokens)
    | .blockMapStart :: rest =>
      if inBlock then do
        let (fields, rest) ← blockFields fuel rest
        .ok (.map p.anchor (p.tagOr .map) fields, rest)
      else if p.isEmpty then .error .form
      else .ok (p.scalar "" true, tokens)
    | .broken fault :: _ => .error fault
    | _ => if p.isEmpty then .error .form else .ok (p.scalar "" true, tokens)

/-- Reads a node, or the empty one if one of the given tokens comes next. -/
def nodeUnless (stops : List Token) (inBlock bareList : Bool) :
    Nat → List Token → Except Fault (Tree × List Token)
  | 0, _ => .error .form
  | fuel + 1, tokens =>
    if sees stops tokens then .ok (.empty, tokens) else node inBlock bareList fuel tokens

/-- Reads a value with the colon in front of it, which may both be left out. -/
def valueUnless (stops : List Token) (inBlock : Bool) :
    Nat → List Token → Except Fault (Tree × List Token)
  | 0, _ => .error .form
  | fuel + 1, .value :: rest => nodeUnless stops inBlock inBlock fuel rest
  | _ + 1, tokens => .ok (.empty, tokens)

/-- Reads the items of a block list up to its end. -/
def blockItems : Nat → List Token → Except Fault (List Tree × List Token)
  | 0, _ => .error .form
  | fuel + 1, .blockEntry :: rest => do
    let (item, rest) ← nodeUnless [.blockEntry, .blockEnd] true false fuel rest
    let (items, rest) ← blockItems fuel rest
    .ok (item :: items, rest)
  | _ + 1, .blockEnd :: rest => .ok ([], rest)
  | _ + 1, tokens => .error (unexpected tokens)

/-- Reads the items of a list without a block of its own, as far as there are any. -/
def bareItems : Nat → List Token → Except Fault (List Tree × List Token)
  | 0, _ => .error .form
  | fuel + 1, .blockEntry :: rest => do
    let (item, rest) ← nodeUnless [.blockEntry, .key, .value, .blockEnd] true false fuel rest
    let (items, rest) ← bareItems fuel rest
    .ok (item :: items, rest)
  | _ + 1, tokens => .ok ([], tokens)

/-- Reads the fields of a block map up to its end. -/
def blockFields : Nat → List Token → Except Fault (List (Tree × Tree) × List Token)
  | 0, _ => .error .form
  | fuel + 1, .key :: rest => do
    let stops := [.key, .value, .blockEnd]
    let (k, rest) ← nodeUnless stops true true fuel rest
    let (v, rest) ← valueUnless stops true fuel rest
    let (fields, rest) ← blockFields fuel rest
    .ok ((k, v) :: fields, rest)
  | _ + 1, .blockEnd :: rest => .ok ([], rest)
  | _ + 1, tokens => .error (unexpected tokens)

/-- Reads the items of a list between brackets up to its end. -/
def flowItems (first : Bool) : Nat → List Token → Except Fault (List Tree × List Token)
  | 0, _ => .error .form
  | _ + 1, .flowListEnd :: rest => .ok ([], rest)
  | fuel + 1, tokens => do
    let tokens ← skipComma first tokens
    match tokens with
    | .flowListEnd :: rest => .ok ([], rest)
    | .key :: rest => do
      let (k, rest) ← nodeUnless [.value, .flowEntry, .flowListEnd] false false fuel rest
      let (v, rest) ← valueUnless [.flowEntry, .flowListEnd] false fuel rest
      let (items, rest) ← flowItems false fuel rest
      .ok (.map none .map [(k, v)] :: items, rest)
    | tokens => do
      let (item, rest) ← node false false fuel tokens
      let (items, rest) ← flowItems false fuel rest
      .ok (item :: items, rest)

/-- Reads the fields of a map between brackets up to its end. -/
def flowFields (first : Bool) : Nat → List Token → Except Fault (List (Tree × Tree) × List Token)
  | 0, _ => .error .form
  | _ + 1, .flowMapEnd :: rest => .ok ([], rest)
  | fuel + 1, tokens => do
    let tokens ← skipComma first tokens
    match tokens with
    | .flowMapEnd :: rest => .ok ([], rest)
    | .key :: rest => do
      let (k, rest) ← nodeUnless [.value, .flowEntry, .flowMapEnd] false false fuel rest
      let (v, rest) ← valueUnless [.flowEntry, .flowMapEnd] false fuel rest
      let (fields, rest) ← flowFields false fuel rest
      .ok ((k, v) :: fields, rest)
    | tokens => do
      let (k, rest) ← node false false fuel tokens
      let (fields, rest) ← flowFields false fuel rest
      .ok ((k, .empty) :: fields, rest)

end

/-- Reads the node of a document. Between two steps of one kind a token is taken. -/
def root (tokens : List Token) : Except Fault (Tree × List Token) :=
  node handles true false (4 * tokens.length + 4) tokens

/-- Reads the directives in front of a document: at most one version, which has to be a first one,
and each handle at most once. -/
def readDirectives (versioned : Bool) (given : Handles) :
    List Token → Except Fault (Handles × List Token)
  | .directive (.version major _) :: rest =>
    if versioned || major != 1 then .error .form else readDirectives true given rest
  | .directive (.handle handle tagRoot) :: rest =>
    if (given.lookup handle).isSome then .error .form
    else readDirectives versioned ((handle, tagRoot) :: given) rest
  | .directive .other :: rest => readDirectives versioned given rest
  | tokens => .ok (given ++ Handles.standard, tokens)

/-- Reads a document that is marked, with its directives. -/
def markedDocument (tokens : List Token) : Except Fault (Tree × List Token) := do
  let (handles, tokens) ← readDirectives false [] tokens
  match tokens with
  | .documentStart :: rest =>
    match rest with
    | [] | .directive _ :: _ | .documentStart :: _ | .documentEnd :: _ => .ok (.empty, rest)
    | rest => root handles rest
  | tokens => .error (unexpected tokens)

/-- Passes over the end of a document, behind which there must not be another one. -/
def skipEnd (tokens : List Token) : Except Fault Unit :=
  match tokens.dropWhile (· == .documentEnd) with
  | [] => .ok ()
  | tokens => do
    let (_, tokens) ← readDirectives false [] tokens
    .error (unexpected tokens)

/-- Breaks tokens off where a node comes whose anchor was given before. -/
def breakNode : List Token → List Token
  | .tag t :: .broken fault :: _ => [.tag t, .broken fault]
  | .tag t :: _ => [.tag t, .broken .form]
  | tokens => [.broken (unexpected tokens)]

/-- Breaks tokens off where an alias comes before its anchor or an anchor is given again. -/
def checkAnchors (given : List String) : List Token → List Token
  | [] => []
  | .reference name :: rest =>
    if given.contains name then .reference name :: checkAnchors given rest else [.broken .form]
  | .anchor name :: rest =>
    .anchor name ::
      (if given.contains name then breakNode rest else checkAnchors (name :: given) rest)
  | t :: rest => t :: checkAnchors given rest

/-- Reads the document in some tokens, if there is one. -/
def document (tokens : List Token) : Except Fault (Option Tree) :=
  match checkAnchors [] tokens with
  | [] => .ok none
  | tokens => do
    let (tree, rest) ← match tokens with
      | .directive _ :: _ | .documentStart :: _ => markedDocument tokens
      | tokens => root Handles.standard tokens
    skipEnd rest
    .ok (some tree)

end Structure

end VersionGate.Yaml
