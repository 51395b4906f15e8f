import DnsConnector.Proofs.Items
import DnsConnector.Services

/-!
# DnsConnector.Proofs.Services

What is read from settings, part by part, and the services that the parts add up
to.  Everything that services owe to their settings is in `ReadFrom`, so that no
other module has to follow the steps of `ofSettings`.
-/

namespace DnsConnector

namespace Settings

variable {s : Settings}

/-- A serviced network, read from its text. -/
def readNetwork (text : String) : Except SettingFault (Network 32) :=
  (Network.ofText4 text).mapError (.network text)

/-- A name server, read from its text. -/
def readServer (text : String) : Except SettingFault SocketAddress :=
  match SocketAddress.ofText? text with
  | some a => .ok a
  | none => .error (.server text)

theorem networks_eq_ok_iff {ns : List (Network 32)} :
    s.networks = .ok ns ↔ List.Forall₂ (Network.ofText4 · = .ok ·) s.connector.networks ns := by
  have hread : s.networks = s.connector.networks.mapM readNetwork := by
    refine congrArg (s.connector.networks.mapM ·) (funext fun text => ?_)
    rw [readNetwork]
    cases Network.ofText4 text with
    | ok n => rfl
    | error fault => rfl
  simp only [hread, mapM_eq_ok_iff, readNetwork, mapError_eq_ok_iff]

theorem plan_eq_ok_iff {plan : AddressPlan} : s.plan = .ok plan ↔
    ∃ ns, List.Forall₂ (Network.ofText4 · = .ok ·) s.connector.networks ns ∧
      AddressPlan.ofNetworks ns = .ok plan := by
  simp only [← networks_eq_ok_iff]
  rw [Settings.plan]
  cases s.networks with
  | error fault => exact iff_of_false nofun fun ⟨_, h, _⟩ => nomatch h
  | ok ns =>
      simp only [Except.ok.injEq, exists_eq_left']
      cases AddressPlan.ofNetworks ns with
      | error fault => exact iff_of_false nofun nofun
      | ok plan => simp only [Except.ok.injEq]

theorem filter_eq_ok_iff {f : DestinationFilter} :
    s.filter = .ok f ↔ DestinationFilter.ofTexts s.connector.ignored = .ok f := by
  rw [Settings.filter]
  cases DestinationFilter.ofTexts s.connector.ignored with
  | ok f => simp only [Except.ok.injEq]
  | error fault => exact iff_of_false nofun nofun

theorem exists_nameServers_eq_ok_iff : (∃ as, s.nameServers = .ok as) ↔
    ∀ text ∈ s.resolver.servers, SocketAddress.ofText? text ≠ none := by
  have hread : s.nameServers = s.resolver.servers.mapM readServer := rfl
  rw [hread, exists_mapM_eq_ok_iff]
  refine forall₂_congr fun text _ => ?_
  rw [readServer]
  cases SocketAddress.ofText? text with
  | none => exact iff_of_false nofun (· rfl)
  | some a => exact iff_of_true ⟨a, rfl⟩ nofun

theorem checkPeer_eq_ok_iff {e : PeerEntry} :
    checkPeer e = .ok () ↔ IpAddress.ofText? e.address ≠ none ∧ e.id ≠ "" := by
  rw [checkPeer]
  cases IpAddress.ofText? e.address with
  | none => exact iff_of_false nofun fun h => h.1 rfl
  | some a =>
      rw [and_iff_right nofun, if_neg (by simp)]
      rw [ne_eq, ← String.isEmpty_iff]
      split
      · exact iff_of_false nofun (absurd ‹_›)
      · exact iff_of_true rfl ‹_›

end Settings

namespace Services

variable {s : Settings} {v : Services}

/-- Services with all their parts read from settings. -/
structure ReadFrom (v : Services) (s : Settings) : Prop where
  plan : s.plan = .ok v.plan
  directory : PeerDirectory.ofEntries s.identity.peers = .ok v.directory
  nameServers : s.nameServers = .ok v.nameServers
  ignored : s.filter = .ok v.ignored
  book_eq : v.book = AddressBook.empty v.plan.pool (SiteNetwork.ofSite s.connector.siteId)
    (s.connector.reclaimIdle.toNat * 1000)
  queryTimeout_eq : v.queryTimeout = s.resolver.queryTimeout.toNat
  whoIsTimeout_eq : v.whoIsTimeout = s.identity.whoIsTimeout.toNat
  writeTimeout_eq : v.writeTimeout = s.server.writeTimeout.toNat

theorem ofSettings_eq_ok_iff : ofSettings s = .ok v ↔ v.ReadFrom s := by
  simp only [ofSettings, bind_eq_ok_iff, mapError_eq_ok_iff]
  constructor
  · rintro ⟨plan, hplan, directory, hdirectory, nameServers, hservers, ignored, hignored, hv⟩
    obtain rfl := Except.ok.inj hv
    exact ⟨hplan, hdirectory, hservers, hignored, rfl, rfl, rfl, rfl⟩
  · intro h
    refine ⟨v.plan, h.plan, v.directory, h.directory, v.nameServers, h.nameServers, v.ignored,
      h.ignored, ?_⟩
    rw [← h.book_eq, ← h.queryTimeout_eq, ← h.whoIsTimeout_eq, ← h.writeTimeout_eq]
    rfl

/-- There are services iff there are all parts that have to be read. -/
theorem exists_ofSettings_eq_ok_iff : (∃ v, ofSettings s = .ok v) ↔
    (∃ plan, s.plan = .ok plan) ∧
      (∃ directory, PeerDirectory.ofEntries s.identity.peers = .ok directory) ∧
      (∃ nameServers, s.nameServers = .ok nameServers) ∧ ∃ ignored, s.filter = .ok ignored := by
  constructor
  · rintro ⟨v, hv⟩
    have h := ofSettings_eq_ok_iff.1 hv
    exact ⟨⟨_, h.plan⟩, ⟨_, h.directory⟩, ⟨_, h.nameServers⟩, ⟨_, h.ignored⟩⟩
  · rintro ⟨⟨plan, hplan⟩, ⟨directory, hdirectory⟩, ⟨nameServers, hservers⟩, ⟨ignored, hignored⟩⟩
    simp only [ofSettings, bind_eq_ok_iff, mapError_eq_ok_iff]
    exact ⟨_, plan, hplan, directory, hdirectory, nameServers, hservers, ignored, hignored, rfl⟩

end Services

end DnsConnector
