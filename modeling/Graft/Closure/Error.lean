import Graft.Notice
import Graft.Tree

/-!
This module contains the conditions that end a closure run, and how a user is told about them.
-/

namespace Graft

inductive ClosureError where
  /-- A requested header is not in the donor tree. -/
  | donorMissing (header requestedBy : String) (donorPath : Path) (iteration : Nat)
  /-- The build keeps asking for headers that it has. -/
  | stalled (header requestedBy : String) (iterations repeatPasses : Nat)
  /-- The target holds another file under the header's name. -/
  | alreadyExistsDiffers (header : String) (targetPath : Path)
  /-- The header's path would lead out of the tree. -/
  | unsafeHeaderPath (header requestedBy : String)
  /-- The build tool does not run. -/
  | tool (iteration : Nat) (message : String)
  | fileError (path : Path) (cause : FileError)
  deriving DecidableEq, Repr

namespace ClosureError

def kind : ClosureError → String
  | .donorMissing .. => "DonorMissing"
  | .stalled .. => "Stalled"
  | .alreadyExistsDiffers .. => "AlreadyExistsDiffers"
  | .unsafeHeaderPath .. => "UnsafeHeaderPath"
  | .tool .. => "Tool"
  | .fileError .. => "Io"

def summary : ClosureError → String
  | .donorMissing header requestedBy _ _ =>
    "`" ++ header ++ "` requested by `" ++ requestedBy ++ "` is not in the donor tree"
  | .stalled header _ iterations _ =>
    "closure stalled on `" ++ header ++ "` after " ++ toString iterations ++ " passes"
  | .alreadyExistsDiffers _ targetPath =>
    "`" ++ targetPath.text ++ "` already exists with different content"
  | .unsafeHeaderPath header _ =>
    "refusing to materialize `" ++ header ++ "` outside the target tree"
  | .tool iteration message =>
    "build tool failed on pass " ++ toString iteration ++ ": " ++ message
  | .fileError path _ => "I/O error on `" ++ path.text ++ "`"

def message : ClosureError → String
  | e@(.fileError _ cause) => e.summary ++ ": " ++ cause.message
  | e => e.summary

def code : ClosureError → String
  | .donorMissing .. => "kport::closure::donor_missing"
  | .stalled .. => "kport::closure::stalled"
  | .alreadyExistsDiffers .. => "kport::closure::already_exists"
  | .unsafeHeaderPath .. => "kport::closure::unsafe_path"
  | .tool .. => "kport::closure::tool"
  | .fileError .. => "kport::closure::io"

def help? : ClosureError → Option String
  | .donorMissing header .. =>
    some ("check the donor root, or provide `" ++ header ++ "` in the target tree by hand")
  | .stalled header .. => some ("`" ++ header ++ "` was copied but the build still cannot use it")
  | .alreadyExistsDiffers .. =>
    some "set `closure.allow_overwrite = true` or a `closure.prefix` to avoid shadowing"
  | _ => none

def notice : ClosureError → Notice
  | .donorMissing header requestedBy donorPath iteration => {
      severity := .error
      message := "donor tree has no `" ++ header ++ "`"
      location := some donorPath.text
      context := ["requested by `" ++ requestedBy ++ "` on pass " ++ toString iteration]
      suggestions := [
        Advice.donorRoot,
        "Provide `" ++ header ++ "` under the target tree manually"] }
  | .stalled header requestedBy iterations repeatPasses => {
      severity := .error
      message := "non-resolvable dependency `" ++ header ++ "`"
      context := [
        "requested by `" ++ requestedBy ++ "`",
        "still missing after " ++ toString iterations ++ " passes ("
          ++ toString repeatPasses ++ " without progress)"]
      suggestions := [Advice.stalled, Advice.verbose] }
  | .alreadyExistsDiffers header targetPath => {
      severity := .error
      message := "cannot materialize `" ++ header ++ "`: target differs from donor"
      location := some targetPath.text
      suggestions := [Advice.overwrite, Advice.namePrefix] }
  | .unsafeHeaderPath header requestedBy => {
      severity := .error
      message := "unsafe header path `" ++ header ++ "`"
      context := [
        "requested by `" ++ requestedBy ++ "`",
        "absolute paths and `..` cannot be materialized"] }
  | .tool iteration message => {
      severity := .error
      message := "build tool failed on pass " ++ toString iteration
      context := [message]
      suggestions := [Advice.buildCommand] }
  | .fileError path cause => {
      severity := .error
      message := cause.message
      location := some path.text }

end ClosureError
end Graft
