import DnsConnector.Main
import DnsConnector.Proofs.AddressBook.Discriminators
import DnsConnector.Proofs.AddressBook.Exhaustion
import DnsConnector.Proofs.AddressBook.Recency
import DnsConnector.Proofs.AddressBook.Recovery
import DnsConnector.Proofs.AddressBook.Refusal
import DnsConnector.Proofs.AddressBook.Rotation
import DnsConnector.Proofs.AddressBook.Stability
import DnsConnector.Proofs.AllocationKey
import DnsConnector.Proofs.Attribution
import DnsConnector.Proofs.Deadline
import DnsConnector.Proofs.DecisionTable
import DnsConnector.Proofs.DestinationFilter
import DnsConnector.Proofs.Failover
import DnsConnector.Proofs.Forwarding
import DnsConnector.Proofs.HostName
import DnsConnector.Proofs.IdleTime
import DnsConnector.Proofs.IgnoreList
import DnsConnector.Proofs.Items
import DnsConnector.Proofs.Listener
import DnsConnector.Proofs.Noninterference
import DnsConnector.Proofs.NormalForm
import DnsConnector.Proofs.PlanAcceptance
import DnsConnector.Proofs.PlannedPool
import DnsConnector.Proofs.Responder
import DnsConnector.Proofs.Services
import DnsConnector.Proofs.Validation
import DnsConnector.Proofs.Wire.Echo
import DnsConnector.Proofs.Wire.Surplus
import DnsConnector.Simulation
