import VersionGate.Annotation

/-!
# Reports

What checking tells its user goes to a sink as reports, in the order in which things are found. A
sink counts the reports by kind, removals for an annotation together wherever they happen, and every
report has a line in the log.
-/

namespace VersionGate

/-- What a report of a failure carries. -/
inductive Failure where
  | read (fault : ReadFault)
  | name (fault : NameFault)
  /-- A failure known by its text alone. -/
  | stated (text : String)
  deriving DecidableEq, Repr

/-- The wording of a failure. -/
def Failure.message : Failure → String
  | read fault => fault.message
  | name fault => fault.message
  | stated text => text

/-- Something that a user is told. -/
inductive Report where
  | warning (source message : String)
  | error (source message : String)
  | failed (message : String) (cause : Failure)
  /-- A tree is dropped as a whole for its version requirement. -/
  | rootRemoved (source : String)
  | nodeRemoved (source path : String)
  | valueRemoved (source path : String)
  /-- A tree is dropped as a whole for its requirement on mods. -/
  | rootNeedsMods (source : String)
  deriving DecidableEq, Repr

/-- How much a log line matters. -/
inductive Level where
  | debug
  | info
  | warning
  | error
  deriving DecidableEq, Repr

/-- The part of the program that a log line comes from. -/
inductive Channel where
  | pruning
  | progress
  | commandLine
  deriving DecidableEq, Repr

/-- A line of the log, with the failure that it is about. -/
structure LogLine where
  level : Level
  channel : Channel
  message : String
  cause : Option Failure := none
  deriving DecidableEq, Repr

/-- The log line of a report. -/
def Report.logLine : Report → LogLine
  | warning source message => ⟨.warning, .progress, source ++ ": " ++ message, none⟩
  | error source message => ⟨.error, .progress, source ++ ": " ++ message, none⟩
  | failed message cause => ⟨.error, .progress, message, some cause⟩
  | rootRemoved source =>
    ⟨.info, .progress,
      "Deleting root node in file " ++ source ++ " as it can't satisfy its KSP_VERSION", none⟩
  | nodeRemoved source path =>
    ⟨.info, .progress,
      "Deleting node in file " ++ source ++ " subnode: " ++ path
        ++ " as it can't satisfy its KSP_VERSION", none⟩
  | valueRemoved source path =>
    ⟨.info, .progress,
      "Deleting value in file " ++ source ++ " value: " ++ path
        ++ " as it can't satisfy its KSP_VERSION", none⟩
  | rootNeedsMods source =>
    ⟨.info, .progress,
      "Deleting root node in file " ++ source ++ " as it can't satisfy its NEEDS", none⟩

/-- How many reports of each kind a sink has had, on top of any numbers that it started from. -/
structure Counter where
  warnings : Int := 0
  errors : Int := 0
  failures : Int := 0
  removed : Int := 0
  needMods : Int := 0
  deriving DecidableEq, Repr

namespace Counter

/-- Counts a report. -/
def record (c : Counter) : Report → Counter
  | .warning .. => { c with warnings := c.warnings + 1 }
  | .error .. => { c with errors := c.errors + 1 }
  | .failed .. => { c with failures := c.failures + 1 }
  | .rootRemoved .. | .nodeRemoved .. | .valueRemoved .. => { c with removed := c.removed + 1 }
  | .rootNeedsMods .. => { c with needMods := c.needMods + 1 }

/-- Counts reports in order. -/
def recordAll (c : Counter) (reports : List Report) : Counter := reports.foldl record c

/-- Reports are recorded one after the other. -/
theorem recordAll_append (c : Counter) (rs ss : List Report) :
    c.recordAll (rs ++ ss) = (c.recordAll rs).recordAll ss := List.foldl_append ..

/-- The counts in one line. -/
def summary (c : Counter) : String :=
  Decimal.intText c.removed ++ " removed by KSP_VERSION, "
    ++ Decimal.intText c.needMods ++ " removed by NEEDS, "
    ++ Decimal.intText c.warnings ++ " warning(s), "
    ++ Decimal.intText c.errors ++ " error(s), "
    ++ Decimal.intText c.failures ++ " exception(s)"

end Counter

end VersionGate
