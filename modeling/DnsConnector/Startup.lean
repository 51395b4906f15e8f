import DnsConnector.CommandLine
import DnsConnector.Settings.File

/-!
# DnsConnector.Startup

What comes before serving: the arguments of the program are read, then its
settings, and from them its services and the address to listen on.  Everything
that can be wrong is found here, before a socket is opened.
-/

namespace DnsConnector

/-- Why the program does not begin to serve. -/
inductive StartupFault where
  | settings (fault : SettingsFault)
  | services (fault : ServiceFault)
  | address (fault : Settings.BindFault)
deriving DecidableEq, Repr

/-- The wording of a fault. -/
def StartupFault.message : StartupFault → String
  | .settings fault => fault.message
  | .services fault => fault.message
  | .address fault => fault.message

/-- All that serving takes: the services and the address to listen on. -/
structure Startup where
  services : Services
  address : SocketAddress

namespace Startup

/-- What follows from the settings that were chosen. -/
def ofChoice (fs : FileSystem) (choice : CommandLine.Choice) : Except StartupFault Startup := do
  let settings ← (Settings.load fs choice.config choice.overrides).mapError .settings
  let services ← (Services.ofSettings settings).mapError .services
  let address ← (settings.listenAddress services.plan.dnsAddress).mapError .address
  return { services, address }

end Startup

namespace CommandLine

/-- What the program does about its arguments. -/
inductive Reaction where
  /-- It says why the arguments make no sense. -/
  | refuse (fault : UsageFault)
  /-- It prints a text. -/
  | print (text : String)
  /-- It says why it does not begin to serve. -/
  | fail (fault : StartupFault)
  | serve (startup : Startup)

namespace Reaction

/-- The reaction to a request. -/
def ofRequest (fs : FileSystem) : Request → Reaction
  | .help => .print helpText
  | .version => .print versionLine
  | .run choice =>
    match Startup.ofChoice fs choice with
    | .ok startup => .serve startup
    | .error fault => .fail fault

/-- The reaction to the arguments. -/
def ofArguments (fs : FileSystem) (args : List String) : Reaction :=
  match Request.ofArguments args with
  | .ok request => ofRequest fs request
  | .error fault => .refuse fault

/-- The exit code; serving ends with success when it is asked to end. -/
def exitCode : Reaction → UInt32
  | .refuse _ => exitUsage
  | .print _ => exitSuccess
  | .fail _ => exitFailure
  | .serve _ => exitSuccess

/-- What is written to the standard output. -/
def output : Reaction → String
  | .print text => text
  | _ => ""

/-- What is written about a failure. -/
def report : Reaction → String
  | .refuse fault => "Error: " ++ fault.message
  | .fail fault => "Error: " ++ fault.message
  | _ => ""

end Reaction

end CommandLine

end DnsConnector
