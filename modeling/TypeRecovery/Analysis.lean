import TypeRecovery.Arena.Congruence
import TypeRecovery.Collection
import TypeRecovery.Listing.Basic
import TypeRecovery.Resolution.Resolver

/-!
# The analysis of a function

Evidence is collected from a trace, classes are merged as it demands, every class gets a type, and
the result is listed.
-/

namespace TypeRecovery

namespace ArenaM

/-- Collect the evidence of a trace. A failure leaves what was collected before it. -/
def collect (memory : MemoryMap) (t : Trace) : ArenaM Collection :=
  fun arena =>
    match CollectM.trace memory t (.start arena) with
    | .ok _ s => .ok s s.arena
    | .error e s => .error e s.arena

end ArenaM

namespace Analysis

/-- Whether no member of a class is named storage. -/
def isNameless (a : Arena) (c : ClassRecord) : Bool :=
  c.members.all fun v =>
    match a.var? v with
    | some found => !found.site.isStorage
    | none => false

/-- Remarks on the classes that have no evidence and no named member; storage that is never used in
earnest needs no remark. -/
def unassigned (a : Arena) : List Remark :=
  a.liveClasses.filterMap fun c =>
    if a.hasNoEvidence c.id && isNameless a c then
      c.members.head?.map fun v => .unassigned v c.id
    else none

/-- Analyze a trace, from an empty arena on. -/
def run (memory : MemoryMap) (config : Config) (function : String) (t : Trace) :
    ArenaM Listing := do
  ArenaM.reset
  let _ ← ArenaM.collect memory t
  let _ ← ArenaM.close
  let remarks ← ArenaM.resolveAll config
  ArenaM.emit function (remarks ++ unassigned (← get))

/-- Check records and analyze them; records that are flawed leave the arena alone. -/
def runRecords (memory : MemoryMap) (config : Config) (function : String)
    (records : List TraceRecord) : ArenaM Listing :=
  match Trace.ingest records with
  | .ok t => run memory config function t
  | .error e => throw (.trace (.flawed e))

/-- Read a JSON trace and analyze it; a text that is no trace leaves the arena alone. -/
def runText (memory : MemoryMap) (config : Config) (function : String) (text : String) :
    ArenaM Listing :=
  match Trace.ofText text with
  | .ok t => run memory config function t
  | .error e => throw (.trace e)

/-- The listing of a trace, in an arena of its own. -/
def listing (memory : MemoryMap) (config : Config) (function : String) (t : Trace) :
    Except AnalysisError Listing :=
  match run memory config function t .empty with
  | .ok l _ => .ok l
  | .error e _ => .error e

end Analysis

end TypeRecovery
