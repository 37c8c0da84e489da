import Cuesheet.Invocation.Fault

/-!
# The surroundings of the runner

What the runner asks of the operating system: about files, environment variables, and whether a
program can be launched. A `Host` is a set of answers, so everything that depends on them is a
function of it.
-/

namespace Cuesheet

structure Host where
  isFile : Bytes → Bool
  /-- Whether a path names a regular file that may be run as a program. -/
  isProgram : Bytes → Bool
  isPresent : Bytes → Bool
  read : Bytes → Except OsFault Bytes
  environment : String → Option Bytes
  /-- The directory of the running program. -/
  programDirectory : Option Bytes
  /-- The directory from which paths without a leading slash are seen. -/
  workingDirectory : Bytes
  /-- Why a program cannot be launched with given words, if it cannot. -/
  launchFault : Bytes → List Bytes → Option OsFault

end Cuesheet
