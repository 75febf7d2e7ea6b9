import Graft.Notice
import Graft.Path
import Graft.Text.Quoted

/-!
This module contains the conditions that end the resolution of symbols, and how a user is told about
them.
-/

namespace Graft

inductive ResolveError where
  /-- The link tool does not run. -/
  | linkTool (message : String)
  /-- The symbols of an object file cannot be listed. -/
  | symbolScan (path : Path) (message : String)
  /-- No object file matches the patterns. -/
  | noSymbolSources (patterns : List String)
  deriving DecidableEq, Repr

namespace ResolveError

def kind : ResolveError → String
  | .linkTool _ => "LinkTool"
  | .symbolScan .. => "SymbolScan"
  | .noSymbolSources _ => "NoSymbolSources"

def message : ResolveError → String
  | .linkTool message => "link tool failed: " ++ message
  | .symbolScan path message => "could not read symbols from `" ++ path.text ++ "`: " ++ message
  | .noSymbolSources patterns => "no symbol sources matched " ++ Text.quotedList patterns

def notice : ResolveError → Notice
  | .linkTool message => {
      severity := .error
      message := "link tool failed"
      context := [message]
      suggestions := [Advice.linkCommand, Advice.fromLog] }
  | .symbolScan path message => {
      severity := .error
      message := "could not read symbols: " ++ message
      location := some path.text
      suggestions := [Advice.nm] }
  | .noSymbolSources patterns => {
      severity := .error
      message := "no object files to scan for symbols"
      context := patterns.map fun pattern => "pattern `" ++ pattern ++ "` matched nothing"
      suggestions := [Advice.objects] }

end ResolveError
end Graft
