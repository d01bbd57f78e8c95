import VersionGate.Checker
import VersionGate.Config.Example
import VersionGate.Config.Format

/-!
# Sessions

A session is one tree worked on step by step, with the sinks made so far, of which one is in use,
and a checker once there is one. A checker keeps its sink when another comes into use. Every step
gives a result and lines of the log. A step that fails leaves the tree as it was, except for a pass
over it, which leaves behind what it has decided.
-/

namespace VersionGate

open Config

/-- One step of a session. Addresses are child indices on the way from the root. -/
inductive Step where
  /-- Starts over with a single node. -/
  | begin (name : Option String)
  /-- Takes the tree that data describes. -/
  | load (data : Data.Datum)
  /-- Takes the tree in a text. -/
  | loadText (format : Format) (text : String)
  /-- Takes the example part. -/
  | loadExample (name : String)
  | addValue (address : List Nat) (value : Value)
  | addNode (address : List Nat) (name : Option String)
  /-- Adds the tree that data describes. -/
  | addTree (address : List Nat) (data : Data.Datum)
  | getValue (address : List Nat) (name : Option String)
  | getNode (address : List Nat) (name : Option String)
  | getNodes (address : List Nat) (name : Option String)
  /-- Asks for the names on the way to a node. -/
  | trail (address : List Nat)
  /-- Makes a checker with the sink in use, or with none. -/
  | makeChecker (withSink : Bool) (running : Option Version)
  | checkTerm (term : Option String)
  | check (requirement : Option String)
  | checkPatch (patch : Patch) (mods : List String)
  /-- Prunes the tree at an address, or none. -/
  | prune (address : List Nat) (withTree : Bool) (source : Option String)
  /-- Puts a new sink to use. -/
  | makeSink (counter : Counter)
  /-- Tells the sink in use something. -/
  | report (report : Report)
  /-- Asks for the tree at an address. -/
  | subtree (address : List Nat)
  | render (address : List Nat) (format : Format)
  /-- Asks for the summary of the sink in use. -/
  | summary

/-- What a step finds out. -/
inductive Answer where
  | nothing
  | truth (b : Bool)
  | text (s : Option String)
  | value (v : Value)
  | tree (n : Node)
  | child (found : Option (Nat × Node))
  | indices (is : List Nat)
  /-- Names from the root on. -/
  | trail (names : List (Option String))

/-- Why a step fails. -/
inductive StepFault where
  | argument (fault : ArgumentFault)
  | text (fault : TextFault)
  | check (fault : Requirement.CheckFault)
  | name (fault : NameFault)
  /-- There is no node at the address. -/
  | noNode
  /-- No checker has been made. -/
  | noChecker
  deriving DecidableEq, Repr

/-- What comes of a step. -/
structure Reply where
  result : Except StepFault Answer
  log : List LogLine := []

/-- The state of a session. -/
structure Session where
  tree : Node := { name := some "ROOT" }
  sinks : List Sink := [{}]
  /-- The place of the sink in use. -/
  current : Nat := 0
  checker : Option Checker := none

namespace Session

/-- The sink in use. -/
def sink (s : Session) : Sink := (s.sinks[s.current]?).getD {}

/-- Tells a sink something. -/
def tell (s : Session) (sink : Nat) (reports : List Report) : Session :=
  { s with sinks := s.sinks.modify sink (·.receive reports) }

/-- The same session once all reports of the sink in use have been seen. -/
def seen (s : Session) : Session := { s with sinks := s.sinks.modify s.current Sink.seen }

/-- A step that changes nothing and finds something out. -/
def answer (s : Session) (a : Answer) : Session × Reply := (s, { result := .ok a })

/-- A step that changes nothing and fails. -/
def fail (s : Session) (fault : StepFault) : Session × Reply := (s, { result := .error fault })

/-- A step that asks the node at an address. -/
def ask (s : Session) (address : List Nat) (f : Node → Answer) : Session × Reply :=
  match s.tree.at? address with
  | none => s.fail .noNode
  | some node => s.answer (f node)

/-- A step that changes the node at an address. -/
def change (s : Session) (address : List Nat) (f : Node → Node) (a : Answer) : Session × Reply :=
  match s.tree.at? address with
  | none => s.fail .noNode
  | some _ => { s with tree := s.tree.modifyAt f address }.answer a

/-- A step that replaces the tree. -/
def replace (s : Session) : Except TextFault Node → Session × Reply
  | .error fault => s.fail (.text fault)
  | .ok tree => { s with tree }.answer .nothing

/-- A step for which there has to be a checker. -/
def withChecker (s : Session) (f : Checker → Session × Reply) : Session × Reply :=
  match s.checker with
  | none => s.fail .noChecker
  | some checker => f checker

/-- A step that finds out whether something holds, and tells a sink about it. -/
def decided (s : Session) (sink : Nat) (result : Except Requirement.CheckFault Bool)
    (reports : List Report) : Session × Reply :=
  (s.tell sink reports,
    { result := (result.map .truth).mapError .check, log := reports.map Report.logLine })

/-- A pass over the tree at an address, which comes back as far as it has been pruned. -/
def pass (s : Session) (checker : Checker) (address : List Nat) (withTree : Bool)
    (source : Option String) : Session × Reply :=
  match s.tree.at? address with
  | none => s.fail .noNode
  | some node =>
    match checker.prune (if withTree then some node else none) source with
    | .error fault => s.fail (.argument fault)
    | .ok (source, outcome) =>
      let pruned := { s with tree := s.tree.modifyAt (fun _ => outcome.result) address }
      (pruned.tell checker.sink (outcome.reports source),
        { result := match outcome.fault with
            | none => .ok .nothing
            | some fault => .error (.name fault)
          log := outcome.log source })

/-- Takes one step. -/
def step (s : Session) : Step → Session × Reply
  | .begin name => s.replace (.ok { name })
  | .load data => s.replace ((Node.ofDatum data).mapError .load)
  | .loadText format text => s.replace (format.read text)
  | .loadExample name => s.replace (.ok (examplePart name))
  | .addValue address value => s.change address (·.addValue value) (.value value)
  | .addNode address name =>
    let child : Node := { name }
    s.change address (·.addNode child) (.tree child)
  | .addTree address data =>
    match Node.ofDatum data with
    | .error fault => s.fail (.text (.load fault))
    | .ok child => s.change address (·.addNode child) (.tree child)
  | .getValue address name => s.ask address fun node => .text (node.getValue? name)
  | .getNode address name => s.ask address fun node => .child (node.getNode? name)
  | .getNodes address name => s.ask address fun node => .indices (node.indicesOf name)
  | .trail address => s.ask address fun _ => .trail (s.tree.namesTo address)
  | .makeChecker withSink running =>
    match Checker.make (if withSink then some s.current else none) running with
    | .error fault => s.fail (.argument fault)
    | .ok checker => { s with checker := some checker }.answer .nothing
  | .checkTerm term => s.withChecker fun c => s.decided c.sink (c.checkTerm term) []
  | .check requirement => s.withChecker fun c => s.decided c.sink (c.check requirement) []
  | .checkPatch patch mods =>
    s.withChecker fun c =>
      let outcome := c.checkPatch mods patch
      s.decided c.sink outcome.applies outcome.reports
  | .prune address withTree source =>
    s.withChecker fun c => s.pass c address withTree source
  | .makeSink counter =>
    let sink : Sink := { counter }
    { s with sinks := s.sinks ++ [sink], current := s.sinks.length }.answer .nothing
  | .report report =>
    (s.tell s.current [report], { result := .ok .nothing, log := [report.logLine] })
  | .subtree address => s.ask address .tree
  | .render address format => s.ask address fun node => .text (some (format.render node))
  | .summary => s.answer (.text (some s.sink.counter.summary))

end Session

end VersionGate
