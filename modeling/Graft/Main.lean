import Graft.CommandLine.Run
import Graft.Shell.Host

/-!
This module contains the program. The names of the files it works on come from standard input, one on
each line, and a name with a slash at its end is a directory; the user's configuration is always looked
at. The commands of the configuration run inside the tree of these files, and every file that they or
the program change is written back.
-/

namespace Graft
namespace CommandLine

partial def readNames (input : IO.FS.Stream) : IO (List String) := do
  let line ← input.getLine
  if line.isEmpty then return []
  else return (.ofList (line.toList.filter (· != '\n'))) :: (← readNames input)

/--
Take a file or directory into the tree. One that cannot be read is left out.
-/
def takeIn (t : Tree) (name : String) : IO Tree := do
  let p : Path := ⟨name⟩
  if name.toList.getLast? = some '/' then return (t.makeDirectories p).2
  try
    let content ← IO.FS.readBinFile name
    let below := (t.makeDirectories (p.parent?.getD ⟨""⟩)).2
    return (below.write p content).toOption.getD below
  catch _ => return t

def putBack (place : Location) (content : ByteArray) : IO Unit := do
  IO.FS.createDirAll (Tree.pathOf place.dropLast).text
  IO.FS.writeBinFile (Tree.pathOf place).text content

def readEnvironment : IO Environment := do
  let mut e := Environment.empty
  for name in ["HOME", "KPORT_CONFIG", "NM", "PWD"] do
    match ← IO.getEnv name with
    | some value => e := e.set name value
    | none => pure ()
  return e

def serve (args : List String) : IO UInt32 := do
  let environment ← readEnvironment
  let here : Path := ⟨(environment.get? "PWD").getD "/"⟩
  let current := here.components.filterMap fun
    | .name name => some (.ofText name)
    | _ => none
  let home := ((environment.get? "HOME").filter (!·.isEmpty)).map Path.mk
  let root : Tree := ⟨.empty, []⟩
  let start : Tree := { (root.makeDirectories here).2 with current }
  let input ← IO.getStdin
  let names ← if ← input.isTty then pure [] else readNames input
  let config := (home.map fun home => (userConfig home).text).toList
  let before ← (names ++ config).foldlM takeIn start
  let setting : Setting :=
    { Shell.host environment with home, terminal := ← (← IO.getStderr).isTty }
  let (printed, after) := run setting args before
  for (place, content) in after.changesSince before do
    putBack place content
  IO.print printed.stdout
  IO.eprint printed.stderr
  return printed.status.toUInt32

end CommandLine
end Graft

def main (args : List String) : IO UInt32 :=
  Graft.CommandLine.serve args
