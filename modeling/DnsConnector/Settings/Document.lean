import DnsConnector.Settings
import DnsConnector.Toml.Document

/-!
# DnsConnector.Settings.Document

Settings read from a TOML document.  Whatever a document leaves out keeps its
default, and keys without a meaning are ignored.  A section, and an entry of
the peer directory, may also be written as an array of its fields in their
order; surplus items are not looked at, not even whether they can be read.
-/

namespace DnsConnector.Settings

open Toml

/-! ## Single fields -/

/-- A text. -/
def text? : Value → Option String
  | .text s => some s
  | _ => none

/-- A truth value. -/
def boolean? : Value → Option Bool
  | .boolean b => some b
  | _ => none

/-- An integer from 0 to `most`. -/
def integerUpTo? (most : Nat) : Value → Option Nat
  | .integer n => if 0 ≤ n ∧ n ≤ most then some n.toNat else none
  | _ => none

/-- An integer of 16 bits without sign. -/
def word16? (v : Value) : Option UInt16 := (integerUpTo? (UInt16.size - 1) v).map UInt16.ofNat

/-- An integer of 64 bits without sign. -/
def word64? (v : Value) : Option UInt64 := (integerUpTo? (UInt64.size - 1) v).map UInt64.ofNat

/-- A list of which every item can be read. -/
def list? (item? : Value → Option α) : Value → Option (List α)
  | .array _ items => items.mapM item?
  | _ => none

/-- A field that keeps a default if it is missing. -/
def fieldD (read? : Value → Option α) (default : α) : Option Value → Option α
  | none => some default
  | some v => read? v

/-! ## Sections -/

/-- The fields of a section in the order of their names, each if it is there.
A date or a time counts as a section without any field. -/
def fields? (names : List String) : Value → Option (List (Option Value))
  | .table _ es =>
    if Value.entriesReadable (es.filter (·.1 ∉ names)) then
      some (names.map (Value.find? · es))
    else
      none
  | .array _ items => some ((List.range names.length).map (items[·]?))
  | .datetime _ => some (names.map fun _ => none)
  | _ => none

/-- The section on where to listen. -/
def server? (v : Value) : Option ServerSettings := do
  match ← fields? ["dns_port", "bind_address", "write_timeout_ms"] v with
  | [port, bind, timeout] =>
    let dnsPort ← fieldD word16? 53 port
    let bindAddress ← fieldD (fun v => (text? v).map some) none bind
    let writeTimeout ← fieldD word64? 1000 timeout
    some { dnsPort, bindAddress, writeTimeout }
  | _ => none

/-- The section on what is serviced. -/
def connector? (v : Value) : Option ConnectorSettings := do
  let defaults : ConnectorSettings := {}
  match ← fields? ["site_id", "v4_prefixes", "ignore_destinations", "reclaim_idle_secs"] v with
  | [site, nets, ignore, idle] =>
    let siteId ← fieldD word16? defaults.siteId site
    let networks ← fieldD (list? text?) defaults.networks nets
    let ignored ← fieldD (list? text?) defaults.ignored ignore
    let reclaimIdle ← fieldD word64? defaults.reclaimIdle idle
    some { siteId, networks, ignored, reclaimIdle }
  | _ => none

/-- The section on name servers. -/
def resolver? (v : Value) : Option ResolverSettings := do
  let defaults : ResolverSettings := {}
  match ← fields? ["servers", "query_timeout_ms"] v with
  | [list, timeout] =>
    let servers ← fieldD (list? text?) defaults.servers list
    let queryTimeout ← fieldD word64? defaults.queryTimeout timeout
    some { servers, queryTimeout }
  | _ => none

/-- An entry of the peer directory, which has no defaults. -/
def peerEntry? (v : Value) : Option PeerEntry := do
  match ← fields? ["address", "id"] v with
  | [some address, some id] => some ⟨← text? address, ← text? id⟩
  | _ => none

/-- The section on peers. -/
def identity? (v : Value) : Option IdentitySettings := do
  match ← fields? ["whois_timeout_ms", "peers"] v with
  | [timeout, list] =>
    let whoIsTimeout ← fieldD word64? 1000 timeout
    let peers ← fieldD (list? peerEntry?) [] list
    some { whoIsTimeout, peers }
  | _ => none

/-- The section on logging. -/
def logging? (v : Value) : Option LoggingSettings := do
  match ← fields? ["level", "json"] v with
  | [name, form] =>
    let level ← fieldD text? "info" name
    let json ← fieldD boolean? false form
    some { level, json }
  | _ => none

/-! ## Documents -/

/-- The settings of a document's entries. -/
def ofEntries? (es : Entries) : Option Settings := do
  match ← fields? ["server", "connector", "upstream", "identity", "logging"] (.table .header es) with
  | [srv, con, res, idn, log] =>
    let server ← fieldD server? {} srv
    let connector ← fieldD connector? {} con
    let resolver ← fieldD resolver? {} res
    let identity ← fieldD identity? {} idn
    let logging ← fieldD logging? {} log
    some { server, connector, resolver, identity, logging }
  | _ => none

/-- The settings in the text of a document. -/
def ofToml? (document : String) : Option Settings :=
  (Toml.parse? document).bind ofEntries?

end DnsConnector.Settings
