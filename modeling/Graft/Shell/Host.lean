import Graft.Job.Basic
import Graft.Shell.Run

/-!
This module contains the surroundings of jobs whose commands run inside the tree. Jobs themselves take
any launcher: a shell reaches them through these surroundings alone, which only the program chooses.
-/

namespace Graft
namespace Shell

/--
Jobs with an environment. The programs they find are those of this library.
-/
def host (environment : Environment) : Host where
  launch := launcher environment
  findProgram name := if provides name then some ⟨name⟩ else none
  environment := environment

end Shell
end Graft
