import VersionGate.Config.Node
import VersionGate.Report

/-!
# Pruning

A pass walks a tree from its root, whose own name is not looked at: first the values of a node in
order, then its children in order, each with everything below it. An entry whose requirement holds
loses its annotation and stays; one whose requirement does not hold is removed, with all it contains
and without a look inside. A child without a name is reported and stays.

The first name that cannot be decided ends the pass. Everything decided before it keeps its outcome;
the entry itself and all that the walk has not reached stay as they were.
-/

namespace VersionGate.Pruning

open Config

/-- The two kinds of entries of a node. -/
inductive Entry where
  | value
  | node
  deriving DecidableEq, Repr

/-- The word for a kind of entry. -/
def Entry.word : Entry → String
  | value => "value"
  | node => "node"

/-- Something that a pass meets, in the order in which it does. -/
inductive Notice where
  /-- An entry lost its annotation; `name` is its name before. -/
  | stripped (entry : Entry) (name : Option String)
  /-- An entry with this name was removed from the node at `path`. -/
  | removed (entry : Entry) (name : Option String) (path : String)
  /-- The node at `path` has a child without a name. -/
  | nameless (path : String)
  /-- The name of an entry cannot be decided. -/
  | failed (entry : Entry) (name : Option String) (fault : NameFault)
  deriving DecidableEq, Repr

/-- A name as it shows between quotes. -/
def quotedName : Option String → String
  | none => "None"
  | some name => Text.quoted name

/-- A name as it shows inside a line. -/
def plainName : Option String → String
  | none => "None"
  | some name => name

/-- The report that a notice gives rise to, when the tree comes from `source`. -/
def Notice.report? (source : String) : Notice → Option Report
  | stripped .. => none
  | removed .value name path => some (.valueRemoved source (path ++ "/" ++ plainName name))
  | removed .node name path => some (.nodeRemoved source (path ++ "/" ++ plainName name))
  | nameless path =>
    some (.error source
      ("Error - Node in file " ++ source ++ " subnode: " ++ path ++ " has config.name == None"))
  | failed entry name fault =>
    some (.failed
      ("Exception while checking KSP_VERSION for " ++ entry.word ++ " \"" ++ plainName name ++ "\"")
      (.name fault))

/-- The log line of a notice itself, beside that of its report. -/
def Notice.logLine? : Notice → Option LogLine
  | stripped entry name =>
    some ⟨.debug, .pruning,
      "Stripped KSP_VERSION from " ++ entry.word ++ " " ++ quotedName name, none⟩
  | removed entry name path =>
    some ⟨.debug, .pruning,
      "Removing " ++ entry.word ++ " " ++ quotedName name ++ " under " ++ path, none⟩
  | nameless .. | failed .. => none

/-- All log lines of a notice. -/
def Notice.logLines (source : String) (n : Notice) : List LogLine :=
  n.logLine?.toList ++ ((n.report? source).map Report.logLine).toList

/-- How a pass over part of a tree ends: what has become of the part, what was met on the way, and
the fault that ended the pass early, if one did. -/
structure Outcome (α : Type) where
  result : α
  notices : List Notice
  fault : Option NameFault

namespace Outcome

variable {α β : Type}

/-- The same outcome after something else was met. -/
def after (notices : List Notice) (o : Outcome α) : Outcome α :=
  { o with notices := notices ++ o.notices }

/-- The same outcome about a larger part. -/
def map (f : α → β) (o : Outcome α) : Outcome β :=
  { result := f o.result, notices := o.notices, fault := o.fault }

/-- Goes on with `next` unless the pass has ended. -/
def andThen (o : Outcome α) (next : α → Outcome α) : Outcome α :=
  match o.fault with
  | some _ => o
  | none => (next o.result).after o.notices

@[simp] theorem result_after (ns : List Notice) (o : Outcome α) :
    (o.after ns).result = o.result := rfl

@[simp] theorem notices_after (ns : List Notice) (o : Outcome α) :
    (o.after ns).notices = ns ++ o.notices := rfl

@[simp] theorem fault_after (ns : List Notice) (o : Outcome α) : (o.after ns).fault = o.fault := rfl

@[simp] theorem result_map (f : α → β) (o : Outcome α) : (o.map f).result = f o.result := rfl

@[simp] theorem notices_map (f : α → β) (o : Outcome α) : (o.map f).notices = o.notices := rfl

@[simp] theorem fault_map (f : α → β) (o : Outcome α) : (o.map f).fault = o.fault := rfl

/-- Once a pass has ended, nothing more is met. -/
theorem andThen_of_fault {o : Outcome α} {fault : NameFault} (h : o.fault = some fault)
    (next : α → Outcome α) : o.andThen next = o := by
  simp [andThen, h]

/-- What follows a step without a fault goes on from its result, behind its notices. -/
theorem andThen_of_no_fault {o : Outcome α} (h : o.fault = none) (next : α → Outcome α) :
    o.andThen next = (next o.result).after o.notices := by
  simp [andThen, h]

/-- The reports of a pass over a tree from `source`, in order. -/
def reports (source : String) (o : Outcome α) : List Report :=
  o.notices.filterMap (·.report? source)

/-- The log of a pass over a tree from `source`. -/
def log (source : String) (o : Outcome α) : List LogLine :=
  o.notices.flatMap (·.logLines source)

end Outcome

/-- Says that an entry lost its annotation, if it did. -/
def strippedNotice (entry : Entry) (before kept : Option String) : List Notice :=
  if kept = before then [] else [.stripped entry before]

/-- Says that a child has no name, if it has none. -/
def namelessNotice (path : String) (name : Option String) : List Notice :=
  if name.isNone then [.nameless path] else []

/-- How far the walk through the entries of a node has come: those that stay so far, and how many
have been decided. -/
structure Progress (α : Type) where
  kept : List α := []
  decided : Nat := 0

namespace Progress

variable {α : Type}

/-- One more entry is decided, and stays. -/
def keep (p : Progress α) (entry : α) : Progress α := ⟨p.kept ++ [entry], p.decided + 1⟩

/-- One more entry is decided, and goes. -/
def remove (p : Progress α) : Progress α := { p with decided := p.decided + 1 }

/-- The entries of the node when the walk through them ends: those that have not been decided follow
the ones that stay, as they were. -/
def commit (p : Progress α) (entries : List α) : List α := p.kept ++ entries.drop p.decided

end Progress

/-- Walks through the values of the node at `path` that come next. -/
def walkValues (running : Version) (path : String) :
    List Value → Progress Value → Outcome (Progress Value)
  | [], p => ⟨p, [], none⟩
  | v :: vs, p =>
    match Verdict.ofName running v.name with
    | .fail fault => ⟨p, [.failed .value v.name fault], some fault⟩
    | .remove => (walkValues running path vs p.remove).after [.removed .value v.name path]
    | .keep name =>
      (walkValues running path vs (p.keep { v with name })).after
        (strippedNotice .value v.name name)

/-- Prunes the values of the node at `path`. -/
def pruneValues (running : Version) (path : String) (values : List Value) :
    Outcome (List Value) :=
  (walkValues running path values {}).map (·.commit values)

mutual

/-- Prunes what a node contains, when the node stays under the name `kept` and `above` leads to the
node that it is in, root first. -/
def pruneNode (running : Version) (above : List (Option String)) (kept : Option String) :
    Node → Outcome Node
  | ⟨_, values, nodes⟩ =>
    let trail := above ++ [kept]
    ((pruneValues running (pathText trail) values).map fun values => ⟨kept, values, nodes⟩).andThen
      fun node =>
        (walkNodes running trail nodes {}).map fun p => { node with nodes := p.commit nodes }

/-- Walks through the children that come next in the node that `trail` leads to, root first. A child
that stays is decided before the pass goes through what it contains. -/
def walkNodes (running : Version) (trail : List (Option String)) :
    List Node → Progress Node → Outcome (Progress Node)
  | [], p => ⟨p, [], none⟩
  | n :: ns, p =>
    let outcome : Outcome (Progress Node) :=
      match Verdict.ofName running n.name with
      | .fail fault => ⟨p, [.failed .node n.name fault], some fault⟩
      | .remove =>
        (walkNodes running trail ns p.remove).after [.removed .node n.name (pathText trail)]
      | .keep kept =>
        (((pruneNode running trail kept n).map p.keep).andThen (walkNodes running trail ns)).after
          (strippedNotice .node n.name kept)
    outcome.after (namelessNotice (pathText trail) n.name)

end

/-- Prunes a tree. The name of its root stays. -/
def prune (running : Version) (root : Node) : Outcome Node :=
  pruneNode running [] root.name root

end VersionGate.Pruning
