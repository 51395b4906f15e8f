import DnsConnector.Settings
import DnsConnector.Text.Numeral

/-!
# DnsConnector.CommandLine

What the arguments of the program ask for.  Arguments are read from left to
right; the first one that is wrong, or that asks for help or the version,
decides.  The value of an option stands behind it, attached or as an argument
of its own, and a value of its own does not look like an option.
-/

namespace DnsConnector.CommandLine

/-! ## Options -/

/-- The options that have a value. -/
inductive ValueOption where
  | config
  | dnsPort
  | bind
  | siteId
  | logLevel
deriving DecidableEq, Repr

namespace ValueOption

/-- The name of the option. -/
def name : ValueOption → String
  | .config => "--config"
  | .dnsPort => "--dns-port"
  | .bind => "--bind"
  | .siteId => "--site-id"
  | .logLevel => "--log-level"

end ValueOption

/-- Why arguments make no sense. -/
inductive UsageFault where
  | unknownArgument (argument : String)
  | missingValue (option : ValueOption)
  | surplusValue (argument : String)
  | invalidValue (option : ValueOption) (value : String)
  | repeated (option : ValueOption)
deriving DecidableEq, Repr

/-- The wording of a fault. -/
def UsageFault.message : UsageFault → String
  | .unknownArgument argument => "unexpected argument '" ++ argument ++ "'"
  | .missingValue option => "a value is required for '" ++ option.name ++ "'"
  | .surplusValue argument => "unexpected value in '" ++ argument ++ "'"
  | .invalidValue option value => "invalid value '" ++ value ++ "' for '" ++ option.name ++ "'"
  | .repeated option => "the option '" ++ option.name ++ "' cannot be used more than once"

/-! ## Single arguments -/

/-- What an argument says. -/
inductive Argument where
  | option (option : ValueOption) (value : Option String)
  | help
  | version
  /-- There are no options behind this. -/
  | endOfOptions
deriving DecidableEq, Repr

namespace Argument

/-- The meaning of the name of an option. -/
def ofName? (name : String) (value : Option String) : Option Argument :=
  match name with
  | "config" => some (.option .config value)
  | "dns-port" => some (.option .dnsPort value)
  | "bind" => some (.option .bind value)
  | "site-id" => some (.option .siteId value)
  | "log-level" => some (.option .logLevel value)
  | "help" => some .help
  | "version" => some .version
  | _ => none

/-- The meaning of the letter of an option. -/
def ofLetter? (letter : Char) (value : Option String) : Option Argument :=
  match letter with
  | 'c' => some (.option .config value)
  | 'd' => some (.option .dnsPort value)
  | 'b' => some (.option .bind value)
  | 'h' => some .help
  | 'V' => some .version
  | _ => none

/-- The value that is attached to a name. -/
def valueAfterName : List Char → Option String
  | [] => none
  | _ :: cs => some (String.ofList cs)

/-- The value that is attached to a letter, with or without an equals sign. -/
def valueAfterLetter : List Char → Option String
  | [] => none
  | '=' :: cs => some (String.ofList cs)
  | cs => some (String.ofList cs)

/-- The meaning of an argument.  Behind the letter for help or the version
anything may stand; their names take no value. -/
def ofText (argument : String) : Except UsageFault Argument :=
  let found : Option Argument :=
    match argument.toList with
    | ['-', '-'] => some .endOfOptions
    | '-' :: '-' :: cs =>
      ofName? (String.ofList (cs.takeWhile (· ≠ '='))) (valueAfterName (cs.dropWhile (· ≠ '=')))
    | '-' :: c :: cs => ofLetter? c (valueAfterLetter cs)
    | _ => none
  match found with
  | none => .error (.unknownArgument argument)
  | some (.option o value) => .ok (.option o value)
  | some .endOfOptions => .ok .endOfOptions
  | some found =>
    if argument.startsWith "--" && argument.contains '=' then .error (.surplusValue argument)
    else .ok found

/-- Whether an argument can be the value of the option before it. -/
def isValue (argument : String) : Bool := argument = "-" || !argument.startsWith "-"

end Argument

/-! ## Requests -/

/-- The settings that were chosen. -/
structure Choice where
  config : Option String := none
  overrides : Overrides := {}
deriving DecidableEq, Repr

namespace Choice

/-- A whole number from 0 to 65535, which may have a sign. -/
def word16? (text : String) : Option UInt16 :=
  let value :=
    match text.toList with
    | '+' :: ds => Text.numeralUpTo? 10 65535 ds
    | '-' :: ds => Text.numeralUpTo? 10 0 ds
    | ds => Text.numeralUpTo? 10 65535 ds
  value.map UInt16.ofNat

/-- Whether an option has been set. -/
def has (c : Choice) : ValueOption → Bool
  | .config => c.config.isSome
  | .dnsPort => c.overrides.dnsPort.isSome
  | .bind => c.overrides.bindAddress.isSome
  | .siteId => c.overrides.siteId.isSome
  | .logLevel => c.overrides.logLevel.isSome

/-- The choice with one more option, if the value suits it. -/
def put? (c : Choice) (o : ValueOption) (value : String) : Option Choice :=
  match o with
  | .config => some { c with config := some value }
  | .dnsPort => (word16? value).map fun n =>
      { c with overrides := { c.overrides with dnsPort := some n } }
  | .bind => some { c with overrides := { c.overrides with bindAddress := some value } }
  | .siteId => (word16? value).map fun n =>
      { c with overrides := { c.overrides with siteId := some n } }
  | .logLevel => some { c with overrides := { c.overrides with logLevel := some value } }

/-- Sets an option, which must not be set before. -/
def set (c : Choice) (o : ValueOption) (value : String) : Except UsageFault Choice :=
  if c.has o then .error (.repeated o)
  else
    match c.put? o value with
    | some c => .ok c
    | none => .error (.invalidValue o value)

/-- What was put is there. -/
theorem has_of_put? {c d : Choice} {o : ValueOption} {value : String}
    (h : c.put? o value = some d) : d.has o = true := by
  cases o <;> simp only [put?, Option.some.injEq, Option.map_eq_some_iff] at h
  case dnsPort | siteId => obtain ⟨_, _, rfl⟩ := h; rfl
  all_goals subst h; rfl

/-- An option is set at most once. -/
theorem set_of_has {c : Choice} {o : ValueOption} (h : c.has o = true) (value : String) :
    c.set o value = .error (.repeated o) := by
  simp [set, h]

end Choice

/-- What the arguments ask for. -/
inductive Request where
  | run (choice : Choice)
  | help
  | version
deriving DecidableEq, Repr

namespace Request

/-- Reads arguments after some that were read; `awaiting` is the option that
still lacks its value. -/
def ofArgumentsAfter (c : Choice) (awaiting : Option ValueOption) :
    List String → Except UsageFault Request
  | [] =>
    match awaiting with
    | none => .ok (.run c)
    | some o => .error (.missingValue o)
  | arg :: args =>
    match awaiting with
    | some o =>
      if Argument.isValue arg then
        match c.set o arg with
        | .ok c => ofArgumentsAfter c none args
        | .error fault => .error fault
      else
        .error (.missingValue o)
    | none =>
      match Argument.ofText arg with
      | .error fault => .error fault
      | .ok .help => .ok .help
      | .ok .version => .ok .version
      | .ok .endOfOptions =>
        match args with
        | [] => .ok (.run c)
        | arg :: _ => .error (.unknownArgument arg)
      | .ok (.option o none) => ofArgumentsAfter c (some o) args
      | .ok (.option o (some value)) =>
        match c.set o value with
        | .ok c => ofArgumentsAfter c none args
        | .error fault => .error fault

/-- Reads the arguments of the program. -/
def ofArguments (args : List String) : Except UsageFault Request :=
  ofArgumentsAfter {} none args

end Request

/-! ## Answers -/

/-- The line that names the program and its version. -/
def versionLine : String := "natc 0.3.0"

/-- How the program is used. -/
def helpText : String :=
  String.intercalate "\n" [
    "natc - DNS-driven NAT connector for overlay networks",
    "",
    "Usage: natc [OPTIONS]",
    "",
    "Options:",
    "  -c, --config <FILE>          Configuration file path",
    "  -d, --dns-port <DNS_PORT>    DNS server port",
    "  -b, --bind <BIND>            Bind address (IP or IP:port), defaults to the connector DNS address",
    "      --site-id <SITE_ID>      Site identifier used to derive the IPv6 prefix",
    "      --log-level <LOG_LEVEL>  Log level (trace, debug, info, warn, error)",
    "  -h, --help                   Print help",
    "  -V, --version                Print version"]

/-- The exit code after a request was answered. -/
def exitSuccess : UInt32 := 0

/-- The exit code if the program cannot do what it is asked for. -/
def exitFailure : UInt32 := 1

/-- The exit code if the arguments make no sense. -/
def exitUsage : UInt32 := 2

end DnsConnector.CommandLine
