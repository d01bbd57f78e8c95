import VersionGate.Patch
import VersionGate.Pruning

/-!
# Checkers

A checker is bound to a running version, which is complete, and to the sink that its reports go to.
Sinks are known by their place in a list, so that several checkers can share one; what a checker
does to the sinks is what its own sink receives.
-/

namespace VersionGate

open Config

/-- Where reports go: how many there have been of each kind, and those that nobody has seen yet. -/
structure Sink where
  counter : Counter := {}
  unseen : List Report := []
  deriving DecidableEq, Repr

namespace Sink

/-- Takes in reports. -/
def receive (s : Sink) (reports : List Report) : Sink :=
  ⟨s.counter.recordAll reports, s.unseen ++ reports⟩

/-- Reports are received one after the other. -/
theorem receive_append (s : Sink) (rs ss : List Report) :
    s.receive (rs ++ ss) = (s.receive rs).receive ss := by
  simp [receive, Counter.recordAll_append]

/-- The same sink once all reports have been seen. -/
def seen (s : Sink) : Sink := { s with unseen := [] }

end Sink

/-- What is missing for a checker to be made or to go through a tree. -/
inductive ArgumentFault where
  | noSink
  /-- The running version is missing or not complete. -/
  | incomplete (running : Option Version)
  | noTree
  | noSource
  deriving DecidableEq, Repr

/-- The wording of a missing argument. -/
def ArgumentFault.message : ArgumentFault → String
  | noSink => "progress cannot be None"
  | incomplete running =>
    "game_version must be major.minor.revision, got " ++ (running.map Version.text).getD "None"
  | noTree => "node cannot be None"
  | noSource => "source cannot be None"

/-- A running version and the sink for what is found out about it. -/
structure Checker where
  sink : Nat
  running : Version
  complete : running.isComplete = true
  deriving DecidableEq, Repr

namespace Checker

/-- Makes a checker. The sink is asked for first. -/
def make (sink : Option Nat) (running : Option Version) : Except ArgumentFault Checker :=
  match sink, running with
  | none, _ => .error .noSink
  | some _, none => .error (.incomplete none)
  | some sink, some running =>
    if complete : running.isComplete then .ok ⟨sink, running, complete⟩
    else .error (.incomplete (some running))

/-- Whether a single term holds. -/
def checkTerm (c : Checker) (term : Option String) : Except Requirement.CheckFault Bool :=
  Requirement.checkTerm c.running term

/-- Whether a requirement holds. -/
def check (c : Checker) (requirement : Option String) : Except Requirement.CheckFault Bool :=
  Requirement.check c.running requirement

/-- Checks a patch. -/
def checkPatch (c : Checker) (mods : List String) (p : Patch) : Patch.Outcome :=
  p.check c.running mods

/-- Prunes a tree, for which there have to be one and a source, in this order. The outcome comes
with the source. -/
def prune (c : Checker) (tree : Option Node) (source : Option String) :
    Except ArgumentFault (String × Pruning.Outcome Node) :=
  match tree, source with
  | none, _ => .error .noTree
  | some _, none => .error .noSource
  | some tree, some source => .ok (source, Pruning.prune c.running tree)

end Checker

end VersionGate
