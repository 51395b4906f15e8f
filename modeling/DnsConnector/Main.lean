import DnsConnector.Startup
import DnsConnector.Udp

/-!
# DnsConnector.Main

The program: it reads its arguments and settings, and serves.
-/

namespace DnsConnector

/-- Reads a file. -/
def readPath (path : String) : IO (Except FileFault Octets) := do
  try
    return .ok (← IO.FS.readBinFile path).toList
  catch
    | .noFileOrDirectory .. => return .error .missing
    | .inappropriateType .. => return .error .directory
    | e => return .error (.system (toString e))

/-- The files that a request may need. -/
def readPlaces : CommandLine.Request → IO FileSystem
  | .run choice => do
    let places ← (choice.config.elim Settings.usualPlaces ([·])).mapM fun p =>
      return (p, ← readPath p)
    return fun p => (places.lookup p).getD (.error .missing)
  | _ => return fun _ => .error .missing

/-- Carries out a reaction. -/
def carryOut (r : CommandLine.Reaction) : IO UInt32 := do
  match r with
  | .serve startup =>
    try
      Udp.serve startup.services startup.address
      return r.exitCode
    catch e =>
      IO.eprintln ("Error: " ++ toString e)
      return CommandLine.exitFailure
  | .print text => IO.println text
  | _ => IO.eprintln r.report
  return r.exitCode

end DnsConnector

open DnsConnector in
/-- Does what the arguments ask for. -/
def main (args : List String) : IO UInt32 := do
  match CommandLine.Request.ofArguments args with
  | .error fault => carryOut (.refuse fault)
  | .ok request => carryOut (.ofRequest (← readPlaces request) request)
