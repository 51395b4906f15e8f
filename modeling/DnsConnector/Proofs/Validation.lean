import DnsConnector.Proofs.Attribution
import DnsConnector.Proofs.IgnoreList
import DnsConnector.Proofs.PlannedPool
import DnsConnector.Proofs.Services
import DnsConnector.Startup

/-!
# DnsConnector.Proofs.Validation

Settings that pass validation and settings that can be put into service.  The
texts in the settings are read twice, by `validate` and by `ofSettings`, in
different orders and with different faults.  Both come down to one condition on
the texts (`Serviceable`), to which validation adds three of its own; so what
was validated is never refused later (`validate_agrees`).
-/

namespace DnsConnector

namespace Settings

variable {s : Settings}

/-- All texts that a connector is made of make sense. -/
structure Serviceable (s : Settings) : Prop where
  /-- The networks can be serviced together. -/
  networks : ∃ ns, List.Forall₂ (Network.ofText4 · = .ok ·) s.connector.networks ns ∧
    ns ≠ [] ∧ AddressPlan.Compatible ns
  peers : ∀ e ∈ s.identity.peers, IpAddress.ofText? e.address ≠ none
  servers : ∀ text ∈ s.resolver.servers, SocketAddress.ofText? text ≠ none
  ignored : ∀ text ∈ s.connector.ignored, ∃ n, IpNetwork.ofText text = .ok n

theorem exists_plan_eq_ok_iff : (∃ plan, s.plan = .ok plan) ↔
    ∃ ns, List.Forall₂ (Network.ofText4 · = .ok ·) s.connector.networks ns ∧
      ns ≠ [] ∧ AddressPlan.Compatible ns := by
  simp only [plan_eq_ok_iff, ← AddressPlan.exists_ofNetworks_eq_ok_iff]
  constructor
  · rintro ⟨plan, ns, hread, hplan⟩
    exact ⟨ns, hread, plan, hplan⟩
  · rintro ⟨ns, hread, plan, hplan⟩
    exact ⟨plan, ns, hread, hplan⟩

theorem exists_ofEntries_eq_ok_iff {es : List PeerEntry} :
    (∃ d, PeerDirectory.ofEntries es = .ok d) ↔
      ∀ e ∈ es, IpAddress.ofText? e.address ≠ none := by
  simp only [PeerDirectory.ofEntries, exists_foldlM_eq_ok_iff PeerDirectory.addEntry_eq,
    PeerEntry.exists_read_eq_ok_iff]

/-- What it takes to put settings into service. -/
theorem exists_ofSettings_iff_serviceable :
    (∃ v, Services.ofSettings s = .ok v) ↔ s.Serviceable := by
  rw [Services.exists_ofSettings_eq_ok_iff, exists_plan_eq_ok_iff, exists_ofEntries_eq_ok_iff,
    exists_nameServers_eq_ok_iff]
  simp only [filter_eq_ok_iff, DestinationFilter.exists_ofTexts_eq_ok_iff]
  exact ⟨fun ⟨hn, hp, hs, hi⟩ => ⟨hn, hp, hs, hi⟩, fun ⟨hn, hp, hs, hi⟩ => ⟨hn, hp, hs, hi⟩⟩

/-- What it takes to pass validation. -/
theorem validate_eq_ok_iff : s.validate = .ok () ↔ s.server.dnsPort ≠ 0 ∧
    s.resolver.servers ≠ [] ∧ (∀ e ∈ s.identity.peers, e.id ≠ "") ∧ s.Serviceable := by
  rw [validate, check_eq_ok_iff]
  simp only [bind_eq_ok_iff, check_eq_ok_iff, forM_eq_ok_iff, checkPeer_eq_ok_iff,
    List.isEmpty_iff]
  constructor
  · rintro ⟨hport, plan, hplan, f, hfilter, hlisted, as, hservers, hpeers⟩
    exact ⟨hport, hlisted, fun e he => (hpeers e he).2,
      { networks := exists_plan_eq_ok_iff.1 ⟨plan, hplan⟩
        peers := fun e he => (hpeers e he).1
        servers := exists_nameServers_eq_ok_iff.1 ⟨as, hservers⟩
        ignored := DestinationFilter.exists_ofTexts_eq_ok_iff.1 ⟨f, filter_eq_ok_iff.1 hfilter⟩ }⟩
  · rintro ⟨hport, hlisted, hids, h⟩
    obtain ⟨plan, hplan⟩ := exists_plan_eq_ok_iff.2 h.networks
    obtain ⟨f, hfilter⟩ := DestinationFilter.exists_ofTexts_eq_ok_iff.2 h.ignored
    obtain ⟨as, hservers⟩ := exists_nameServers_eq_ok_iff.2 h.servers
    exact ⟨hport, plan, hplan, f, filter_eq_ok_iff.2 hfilter, hlisted, as, hservers,
      fun e he => ⟨h.peers e he, hids e he⟩⟩

theorem validate_of_load {fs : FileSystem} {path : Option String} {o : Overrides}
    (h : load fs path o = .ok s) : s.validate = .ok () := by
  rw [load] at h
  split at h
  · contradiction
  · split at h
    · contradiction
    next hvalid =>
      obtain rfl := Except.ok.inj h
      exact hvalid

/-- Settings that were loaded have services. -/
theorem exists_services_of_load {fs : FileSystem} {path : Option String} {o : Overrides}
    (h : load fs path o = .ok s) : ∃ v, Services.ofSettings s = .ok v :=
  exists_ofSettings_iff_serviceable.2 (validate_eq_ok_iff.1 (validate_of_load h)).2.2.2

end Settings

namespace Services

variable {s : Settings} {v : Services}

/-- Services have addresses to hand out, and the DNS address is not among them. -/
theorem pool_of_ofSettings (h : ofSettings s = .ok v) :
    v.plan.pool.toList ≠ [] ∧ v.plan.dnsAddress ∉ v.plan.pool.toList := by
  obtain ⟨ns, -, hplan⟩ := Settings.plan_eq_ok_iff.1 (ofSettings_eq_ok_iff.1 h).plan
  refine ⟨List.ne_nil_of_length_pos ?_, AddressPlan.dnsAddress_not_mem_pool hplan⟩
  rw [HostPool.length_toList]
  exact AddressPlan.size_pool_pos hplan

end Services

/-- No program ends because settings that were loaded have no services. -/
theorem Startup.ofChoice_ne_services (fs : FileSystem) (choice : CommandLine.Choice)
    (fault : ServiceFault) : ofChoice fs choice ≠ .error (.services fault) := by
  intro hfault
  simp only [ofChoice, bind_eq_error_iff, mapError_eq_error_iff, mapError_eq_ok_iff] at hfault
  rcases hfault with ⟨_, -, h⟩ | ⟨s, hload, ⟨fault, hservices, -⟩ | ⟨v, -, h⟩⟩
  · contradiction
  · obtain ⟨v, hv⟩ := Settings.exists_services_of_load hload
    rw [hservices] at hv
    contradiction
  · rcases h with ⟨_, -, h⟩ | ⟨_, -, h⟩ <;> contradiction

namespace Settings

/-- How validation and the services of settings go together. -/
structure ValidateAgrees (s : Settings) : Prop where
  validate_iff : s.validate = .ok () ↔ s.server.dnsPort ≠ 0 ∧ s.resolver.servers ≠ [] ∧
    (∀ e ∈ s.identity.peers, e.id ≠ "") ∧ ∃ v, Services.ofSettings s = .ok v
  /-- All parts that are read have to be there. -/
  services_iff : (∃ v, Services.ofSettings s = .ok v) ↔
    (∃ plan, s.plan = .ok plan) ∧
      (∃ directory, PeerDirectory.ofEntries s.identity.peers = .ok directory) ∧
      (∃ nameServers, s.nameServers = .ok nameServers) ∧ ∃ ignored, s.filter = .ok ignored
  serviceable_iff : (∃ v, Services.ofSettings s = .ok v) ↔ s.Serviceable
  /-- Wherever the settings were read from and whatever the overrides are. -/
  of_load : ∀ fs path o, load fs path o = .ok s → ∃ v, Services.ofSettings s = .ok v ∧
    v.plan.pool.toList ≠ [] ∧ v.plan.dnsAddress ∉ v.plan.pool.toList

/-- **Validation.**  Settings pass validation exactly if the DNS port is not 0, a
name server is listed, no peer has an empty identifier and they can be put into
service, for which the plan, the directory, the name servers and the filter have
to be there.  So settings that were loaded, from whatever file and with whatever
overrides, can be put into service, with a pool that is not empty and does not
contain the DNS address. -/
theorem validate_agrees (s : Settings) : s.ValidateAgrees where
  validate_iff := by rw [validate_eq_ok_iff, exists_ofSettings_iff_serviceable]
  services_iff := Services.exists_ofSettings_eq_ok_iff
  serviceable_iff := exists_ofSettings_iff_serviceable
  of_load _ _ _ hload := by
    obtain ⟨v, hv⟩ := exists_services_of_load hload
    exact ⟨v, hv, Services.pool_of_ofSettings hv⟩

/-- Without any file, and with a port of the command line, the default settings
are put into service. -/
theorem validate_agrees_of_defaults : ∃ s v,
    load (fun _ => .error .missing) none { dnsPort := some 5353 } = .ok s ∧
      s.server.dnsPort = 5353 ∧ Services.ofSettings s = .ok v ∧ v.plan.pool.toList ≠ [] ∧
      v.plan.dnsAddress ∉ v.plan.pool.toList := by
  have hload : load (fun _ => .error .missing) none { dnsPort := some 5353 } =
      .ok { server := { dnsPort := 5353 } } := rfl
  obtain ⟨v, hv, hpool⟩ := (validate_agrees _).of_load _ _ _ hload
  exact ⟨_, v, hload, rfl, hv, hpool⟩

end Settings

end DnsConnector
