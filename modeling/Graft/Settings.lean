import Graft.Closure.Run
import Graft.Extraction
import Graft.Resolve.Report

/-!
This module contains the settings of a project, all of them optional, and what applies where nothing is
set. Settings of a project take precedence over those of its user, one by one.
-/

namespace Graft

structure TreeSettings where
  donor : Option Path := none
  target : Option Path := none
  deriving DecidableEq, Repr, Inhabited

structure BuildSettings where
  /-- The build command with its arguments. It runs in the target tree. -/
  command : List String := []
  environment : Environment := .empty
  deriving DecidableEq, Repr, Inhabited

structure LinkSettings where
  /-- The link command with its arguments. It runs in the target tree. -/
  command : List String := []
  /-- Patterns for the object files of the donor tree. -/
  objects : List String := []
  /-- The program that lists the symbols of an object file. -/
  nm : Option Path := none
  /-- The extension of the source file that an object file belongs to. -/
  sourceExtension : Option String := none
  /-- A listing that replaces the scan of object files. -/
  symbols : Option Path := none
  /-- The files with these endings do not define symbols. -/
  headerSuffixes : Option (List String) := none
  deriving DecidableEq, Repr, Inhabited

structure ClosureSettings where
  stallThreshold : Option Nat := none
  namePrefix : Option String := none
  allowOverwrite : Option Bool := none
  /-- The place of the audit log inside the target tree. -/
  log : Option Path := none
  deriving DecidableEq, Repr, Inhabited

structure GrammarSettings where
  errorMarkers : Option (List String) := none
  missingIncludeSuffixes : Option (List String) := none
  undefinedTokens : Option (List String) := none
  blankSeparatedSymbols : Option Bool := none
  deriving DecidableEq, Repr, Inhabited

structure ExtractionSettings where
  /-- The extraction command; the file comes as its last argument. -/
  command : List String := []
  /-- The endings of the files that definitions are taken from. -/
  suffixes : Option (List String) := none
  strip : List StripRule := []
  deriving DecidableEq, Repr, Inhabited

structure Settings where
  trees : TreeSettings := {}
  build : BuildSettings := {}
  link : LinkSettings := {}
  closure : ClosureSettings := {}
  grammar : GrammarSettings := {}
  extraction : ExtractionSettings := {}
  deriving DecidableEq, Repr, Inhabited

def laterList (earlier later : List α) : List α :=
  if later.isEmpty then earlier else later

namespace Settings

/--
Settings of which the later ones win. The environment of the build holds the variables of both.
-/
def merge (earlier later : Settings) : Settings where
  trees := {
    donor := later.trees.donor.or earlier.trees.donor
    target := later.trees.target.or earlier.trees.target }
  build := {
    command := laterList earlier.build.command later.build.command
    environment := earlier.build.environment.union later.build.environment }
  link := {
    command := laterList earlier.link.command later.link.command
    objects := laterList earlier.link.objects later.link.objects
    nm := later.link.nm.or earlier.link.nm
    sourceExtension := later.link.sourceExtension.or earlier.link.sourceExtension
    symbols := later.link.symbols.or earlier.link.symbols
    headerSuffixes := later.link.headerSuffixes.or earlier.link.headerSuffixes }
  closure := {
    stallThreshold := later.closure.stallThreshold.or earlier.closure.stallThreshold
    namePrefix := later.closure.namePrefix.or earlier.closure.namePrefix
    allowOverwrite := later.closure.allowOverwrite.or earlier.closure.allowOverwrite
    log := later.closure.log.or earlier.closure.log }
  grammar := {
    errorMarkers := later.grammar.errorMarkers.or earlier.grammar.errorMarkers
    missingIncludeSuffixes :=
      later.grammar.missingIncludeSuffixes.or earlier.grammar.missingIncludeSuffixes
    undefinedTokens := later.grammar.undefinedTokens.or earlier.grammar.undefinedTokens
    blankSeparatedSymbols :=
      later.grammar.blankSeparatedSymbols.or earlier.grammar.blankSeparatedSymbols }
  extraction := {
    command := laterList earlier.extraction.command later.extraction.command
    suffixes := later.extraction.suffixes.or earlier.extraction.suffixes
    strip := laterList earlier.extraction.strip later.extraction.strip }

def wording (s : Settings) : Grammar where
  errorMarkers := s.grammar.errorMarkers.getD Grammar.default.errorMarkers
  missingIncludeSuffixes :=
    s.grammar.missingIncludeSuffixes.getD Grammar.default.missingIncludeSuffixes
  undefinedTokens := s.grammar.undefinedTokens.getD Grammar.default.undefinedTokens
  blankSeparatedSymbols :=
    s.grammar.blankSeparatedSymbols.getD Grammar.default.blankSeparatedSymbols

def stallThreshold (s : Settings) : Nat :=
  s.closure.stallThreshold.getD Closure.defaultStallThreshold

def materializePolicy (s : Settings) : MaterializePolicy where
  namePrefix := s.closure.namePrefix
  allowOverwrite := s.closure.allowOverwrite.getD false

def headerSuffixes (s : Settings) : List String :=
  s.link.headerSuffixes.getD Resolver.defaultHeaderSuffixes

def sourceExtension (s : Settings) : String :=
  s.link.sourceExtension.getD "c"

def sourceSuffixes (s : Settings) : List String :=
  s.extraction.suffixes.getD [".c", ".h"]

def defaultAuditLog : Path := ⟨".kport/materialized.log"⟩

def auditLog (s : Settings) : Except Fault Path :=
  let log := s.closure.log.getD defaultAuditLog
  if log.text.isEmpty || !log.isContained then .error (.auditLogPath log) else .ok log

end Settings
end Graft
