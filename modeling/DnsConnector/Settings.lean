import DnsConnector.Peer

/-!
# DnsConnector.Settings

What can be configured, section by section, with the values that hold unless
something else is said.
-/

namespace DnsConnector

/-- Where the connector listens. -/
structure ServerSettings where
  dnsPort : UInt16 := 53
  /-- An address, with or without a port; unset, the planned DNS address. -/
  bindAddress : Option String := none
  /-- How long a response may take to be written, in milliseconds. -/
  writeTimeout : UInt64 := 1000
deriving DecidableEq, Repr

/-- What the connector services. -/
structure ConnectorSettings where
  /-- Different for all connectors that share an address space. -/
  siteId : UInt16 := 0
  /-- The serviced IPv4 networks. -/
  networks : List String := ["100.64.1.0/24"]
  /-- Destinations that are answered with their real addresses. -/
  ignored : List String := []
  /-- After how many idle seconds an IPv4 address may be taken back. -/
  reclaimIdle : UInt64 := 3600
deriving DecidableEq, Repr

/-- Whom the connector asks for real addresses. -/
structure ResolverSettings where
  servers : List String := ["1.1.1.1:53", "8.8.8.8:53"]
  /-- How long a look-up may take, in milliseconds. -/
  queryTimeout : UInt64 := 2000
deriving DecidableEq, Repr

/-- Who the peers are. -/
structure IdentitySettings where
  /-- How long a peer's identification may take, in milliseconds. -/
  whoIsTimeout : UInt64 := 1000
  peers : List PeerEntry := []
deriving DecidableEq, Repr

/-- What is logged, and how. -/
structure LoggingSettings where
  level : String := "info"
  json : Bool := false
deriving DecidableEq, Repr

/-- All settings. -/
structure Settings where
  server : ServerSettings := {}
  connector : ConnectorSettings := {}
  resolver : ResolverSettings := {}
  identity : IdentitySettings := {}
  logging : LoggingSettings := {}
deriving DecidableEq, Repr

/-- What the command line may set in place of the configuration. -/
structure Overrides where
  dnsPort : Option UInt16 := none
  bindAddress : Option String := none
  siteId : Option UInt16 := none
  logLevel : Option String := none
deriving DecidableEq, Repr

namespace Settings

/-- The settings with everything replaced that the overrides set. -/
def override (s : Settings) (o : Overrides) : Settings :=
  { s with
    server :=
      { s.server with
        dnsPort := o.dnsPort.getD s.server.dnsPort
        bindAddress := o.bindAddress.or s.server.bindAddress }
    connector := { s.connector with siteId := o.siteId.getD s.connector.siteId }
    logging := { s.logging with level := o.logLevel.getD s.logging.level } }

end Settings

end DnsConnector
