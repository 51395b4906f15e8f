import DnsConnector.Proofs.AddressBook.Reclaim
import DnsConnector.Proofs.Services

/-!
# DnsConnector.Proofs.IdleTime

What the idle time of a book decides: how the search for an idle holder ends,
and nothing else about a request (`answer_withIdle`).  A holder that is found is
found with any shorter limit too, so a request that takes the address of a
record takes it in the same way if records need not be idle for that long
(`loses_of_reclaimIdle_le`).

The limit is compared as a number of milliseconds in 64 bits.  A setting of more
seconds than that holds is cut to these bits and may come out shorter than a
setting of fewer seconds (`loses_not_of_reclaimIdle_le`).
-/

namespace DnsConnector

namespace AddressBook

variable {b b' : AddressBook} {k : AllocationKey} {i idle now : Nat} {family : AddressFamily}
  {c : Call} {a : Ipv4}

/-! ## The same book with another idle time -/

/-- The same book with another idle time. -/
def withIdle (b : AddressBook) (idle : Nat) : AddressBook := { b with reclaimIdle := idle }

/-- The outcome of a step, with another idle time of the book. -/
def outcomeWithIdle {α : Type} (idle : Nat) (r : AddressBook × α) : AddressBook × α :=
  (r.1.withIdle idle, r.2)

@[simp] theorem v4?_withIdle (b : AddressBook) (idle : Nat) (k : AllocationKey) :
    (b.withIdle idle).v4? k = b.v4? k := rfl

theorem Coherent.withIdle (hb : Coherent b) (idle : Nat) : Coherent (b.withIdle idle) where
  leased := ⟨hb.leased.nodup_pool, hb.leased.recycled_eq, hb.leased.handedOut_le, hb.leased.perm,
    hb.leased.v4At_iff, hb.leased.owner_iff⟩
  filed := ⟨hb.filed.lt_length, hb.filed.injective, hb.filed.own_key⟩
  nodup_keys := hb.nodup_keys

theorem takeFree_withIdle (b : AddressBook) (idle : Nat) :
    (b.withIdle idle).takeFree = outcomeWithIdle idle b.takeFree := by
  have hrecycled : (b.withIdle idle).recycled = b.recycled := rfl
  have hfresh : (b.withIdle idle).pool.get? (b.withIdle idle).handedOut =
      b.pool.get? b.handedOut := rfl
  rw [takeFree, takeFree, hrecycled, hfresh]
  cases b.recycled with
  | cons a rest => rfl
  | nil => cases b.pool.get? b.handedOut <;> rfl

/-- Where nothing is free, nothing is taken. -/
theorem eq_of_takeFree_eq_none (h : b.takeFree = (b', none)) : b' = b := by
  rw [takeFree] at h
  split at h
  · exact absurd (congrArg Prod.snd h) (by simp)
  · split at h
    · exact absurd (congrArg Prod.snd h) (by simp)
    · exact (congrArg Prod.fst h).symm

theorem reclaim_withIdle (hfind : (b.withIdle idle).findIdle now = b.findIdle now) :
    (b.withIdle idle).reclaim now = outcomeWithIdle idle (b.reclaim now) := by
  rw [reclaim, reclaim, hfind]
  rcases b.findIdle now with ⟨queue, _ | x⟩ <;> rfl

theorem obtainV4_withIdle (hfind : (b.withIdle idle).findIdle now = b.findIdle now) :
    (b.withIdle idle).obtainV4 now = outcomeWithIdle idle (b.obtainV4 now) := by
  rw [obtainV4, obtainV4, takeFree_withIdle]
  rcases htake : b.takeFree with ⟨b', _ | a⟩
  · obtain rfl := eq_of_takeFree_eq_none htake
    exact reclaim_withIdle hfind
  · rfl

theorem assignV4_withIdle
    (hfind : b.v4At i = none → (b.withIdle idle).findIdle now = b.findIdle now) :
    (b.withIdle idle).assignV4 k i now = outcomeWithIdle idle (b.assignV4 k i now) := by
  have hsame : (b.withIdle idle).v4At i = b.v4At i := rfl
  rw [assignV4, assignV4, hsame]
  cases hv4 : b.v4At i with
  | some a => rfl
  | none =>
      simp only [obtainV4_withIdle (hfind hv4)]
      rcases b.obtainV4 now with ⟨b', _ | a⟩ <;> rfl

theorem create_withIdle (hb : Coherent b)
    (hfind : (b.withIdle idle).findIdle now = b.findIdle now) :
    (b.withIdle idle).create k family now = outcomeWithIdle idle (b.create k family now) := by
  have hsite : SiteNetwork.address? (b.withIdle idle).draw.site (b.withIdle idle).draw.drawn =
      SiteNetwork.address? b.draw.site b.draw.drawn := rfl
  simp only [create, hsite]
  cases SiteNetwork.address? b.draw.site b.draw.drawn with
  | none => rfl
  | some v6 =>
      have hassign : ((b.withIdle idle).draw.add ⟨none, v6, now⟩).assignV4 k
          (b.withIdle idle).draw.allocations.length now =
            outcomeWithIdle idle
              ((b.draw.add ⟨none, v6, now⟩).assignV4 k b.draw.allocations.length now) := by
        refine assignV4_withIdle (b := b.prepared v6 now) fun _ => ?_
        exact (findIdle_prepared (hb.withIdle idle) v6).trans
          (hfind.trans (findIdle_prepared hb v6).symm)
      simp only [hassign]
      split
      · rcases (b.draw.add ⟨none, v6, now⟩).assignV4 k b.draw.allocations.length now with
          ⟨b', _ | a⟩ <;> rfl
      · rfl

theorem renew_withIdle (hb : Coherent b) (hkey : b.records.get? k = some i)
    (hfind : (b.withIdle idle).findIdle now = b.findIdle now) :
    (b.withIdle idle).renew k i family now = outcomeWithIdle idle (b.renew k i family now) := by
  have hassign : ((b.withIdle idle).touch i now).assignV4 k i now =
      outcomeWithIdle idle ((b.touch i now).assignV4 k i now) := by
    refine assignV4_withIdle (b := b.touch i now) fun hv4 => ?_
    rw [v4At_touch] at hv4
    exact (findIdle_touch (hb.withIdle idle) hkey hv4).trans
      (hfind.trans (findIdle_touch hb hkey hv4).symm)
  simp only [renew, hassign]
  split
  · rcases (b.touch i now).assignV4 k i now with ⟨b', _ | a⟩ <;> rfl
  · rfl

/-- If the search comes to the same with another idle time, the request does. -/
theorem answer_withIdle (hb : Coherent b)
    (hfind : (b.withIdle idle).findIdle c.time = b.findIdle c.time) :
    (b.withIdle idle).answer c = outcomeWithIdle idle (b.answer c) := by
  have hrecords : (b.withIdle idle).records = b.records := rfl
  rw [answer, answer, request, request, hrecords]
  cases AllocationKey.ofText c.peer c.domain with
  | error fault => rfl
  | ok k =>
      cases hkey : b.records.get? k with
      | none =>
          simp only [hkey]
          exact create_withIdle hb hfind
      | some i =>
          simp only [hkey]
          exact renew_withIdle hb hkey hfind

/-! ## Shorter limits -/

/-- What is found with one limit is found with any shorter one. -/
theorem findIdle_withIdle (hle : (b.withIdle idle).idleLimit ≤ b.idleLimit) {queue : List Holder}
    {x : Holder} (h : b.findIdle now = (queue, some x)) :
    (b.withIdle idle).findIdle now = (queue, some x) := by
  obtain ⟨front, rest, hqueue, hleft, htouched, huntouched, hidle⟩ :=
    Holder.search_eq_some_iff.1 h
  exact Holder.search_eq_some_iff.2
    ⟨front, rest, hqueue, hleft, htouched, huntouched, Nat.le_trans hle hidle⟩

/-- A request that takes an address does the same with any shorter limit. -/
theorem Loses.answer_withIdle (h : Loses b c k a) (hb : Coherent b)
    (hle : (b.withIdle idle).idleLimit ≤ b.idleLimit) :
    (b.withIdle idle).answer c = outcomeWithIdle idle (b.answer c) := by
  obtain ⟨_, x, _, -, hreclaims, -⟩ := h.exists_reclaims hb
  obtain ⟨queue, hfind⟩ := hreclaims.find
  exact AddressBook.answer_withIdle hb ((findIdle_withIdle hle hfind).trans hfind.symm)

theorem Loses.withIdle (h : Loses b c k a) (hb : Coherent b)
    (hle : (b.withIdle idle).idleLimit ≤ b.idleLimit) : Loses (b.withIdle idle) c k a where
  key_ne := h.key_ne
  before := h.before
  after := by
    rw [h.answer_withIdle hb hle]
    simpa only [outcomeWithIdle, v4?_withIdle] using h.after

end AddressBook

/-! ## A connector -/

namespace Settings

/-- The same settings with another idle time. -/
def withReclaimIdle (s : Settings) (seconds : UInt64) : Settings :=
  { s with connector := { s.connector with reclaimIdle := seconds } }

@[simp] theorem reclaimIdle_withReclaimIdle (s : Settings) (seconds : UInt64) :
    (s.withReclaimIdle seconds).connector.reclaimIdle = seconds := rfl

end Settings

namespace Services

open AddressBook

variable {s : Settings} {v v₁ v₂ : Services} {t₁ t₂ : UInt64} {c : Call} {k : AllocationKey}
  {a : Ipv4}

/-- A connector starts with an empty book over the pool of its plan. -/
theorem exists_book_eq (hv : ofSettings s = .ok v) :
    ∃ ns plan, AddressPlan.ofNetworks ns = .ok plan ∧
      v.book = AddressBook.empty plan.pool (SiteNetwork.ofSite s.connector.siteId)
        (s.connector.reclaimIdle.toNat * 1000) := by
  have h := ofSettings_eq_ok_iff.1 hv
  obtain ⟨ns, -, hplan⟩ := Settings.plan_eq_ok_iff.1 h.plan
  exact ⟨ns, v.plan, hplan, h.book_eq⟩

theorem reclaimIdle_of_ofSettings (hv : ofSettings s = .ok v) :
    v.book.reclaimIdle = s.connector.reclaimIdle.toNat * 1000 := by
  obtain ⟨ns, plan, -, hbook⟩ := exists_book_eq hv
  rw [hbook]
  rfl

theorem coherent_run (hv : ofSettings s = .ok v) (calls : List Call) :
    Coherent (v.book.run calls) := by
  obtain ⟨ns, plan, hplan, hbook⟩ := exists_book_eq hv
  rw [hbook]
  exact (Coherent.empty (AddressPlan.nodup_pool hplan) _ _).run calls

/-- **Idle times.**  Whatever requests a connector has seen, if it would take the
IPv4 address of a record with a longer idle time, it takes the same one with a
shorter one and does the same in every other respect, as long as the longer
idle time is less than 2^64 milliseconds. -/
theorem loses_of_reclaimIdle_le (hv : ofSettings s = .ok v)
    (hv₁ : ofSettings (s.withReclaimIdle t₁) = .ok v₁)
    (hv₂ : ofSettings (s.withReclaimIdle t₂) = .ok v₂) (hle : t₁ ≤ t₂)
    (hfits : t₂.toNat * 1000 < UInt64.size) (calls : List Call)
    (h : Loses ((v.book.run calls).withIdle v₂.book.reclaimIdle) c k a) :
    Loses ((v.book.run calls).withIdle v₁.book.reclaimIdle) c k a ∧
      ((v.book.run calls).withIdle v₁.book.reclaimIdle).answer c =
        outcomeWithIdle v₁.book.reclaimIdle
          (((v.book.run calls).withIdle v₂.book.reclaimIdle).answer c) := by
  have hb := (coherent_run hv calls).withIdle v₂.book.reclaimIdle
  have hmillis : t₁.toNat * 1000 ≤ t₂.toNat * 1000 :=
    Nat.mul_le_mul_right 1000 (UInt64.le_iff_toNat_le.1 hle)
  have hidle₁ := reclaimIdle_of_ofSettings hv₁
  have hidle₂ := reclaimIdle_of_ofSettings hv₂
  rw [Settings.reclaimIdle_withReclaimIdle] at hidle₁ hidle₂
  have hlimit₁ : ((v.book.run calls).withIdle v₁.book.reclaimIdle).idleLimit = t₁.toNat * 1000 :=
    idleLimit_eq hidle₁ (Nat.lt_of_le_of_lt hmillis hfits)
  have hlimit₂ : ((v.book.run calls).withIdle v₂.book.reclaimIdle).idleLimit = t₂.toNat * 1000 :=
    idleLimit_eq hidle₂ hfits
  have hshorter : ((v.book.run calls).withIdle v₁.book.reclaimIdle).idleLimit ≤
      ((v.book.run calls).withIdle v₂.book.reclaimIdle).idleLimit := by
    rw [hlimit₁, hlimit₂]
    exact hmillis
  exact ⟨h.withIdle hb hshorter, h.answer_withIdle hb hshorter⟩

/-- A connector for a network with one host to give away. -/
def oneHost (seconds : UInt64) : Settings where
  connector := { networks := ["10.0.0.0/30"], reclaimIdle := seconds }

theorem exists_services_oneHost (seconds : UInt64) :
    ∃ v, ofSettings (oneHost seconds) = .ok v ∧
      v.book = AddressBook.empty
        (AddressPlan.ofRoutes ⟨0x0a000000#32, 30, by decide⟩ []).pool (SiteNetwork.ofSite 0)
        (seconds.toNat * 1000) :=
  ⟨_, rfl, rfl⟩

/-- After two seconds a name loses its address with an idle time of two seconds,
and with one of a second. -/
theorem loses_of_reclaimIdle_le_of_oneHost : ∃ v v₁ v₂, ofSettings (oneHost 3600) = .ok v ∧
    ofSettings (oneHost 1) = .ok v₁ ∧ ofSettings (oneHost 2) = .ok v₂ ∧
    Loses ((v.book.run [⟨⟨"p"⟩, "a", .both, 0⟩]).withIdle v₂.book.reclaimIdle)
      ⟨⟨"q"⟩, "b", .v4, 2000⟩ ⟨⟨"p"⟩, ⟨"a."⟩⟩ 0x0a000002#32 ∧
    Loses ((v.book.run [⟨⟨"p"⟩, "a", .both, 0⟩]).withIdle v₁.book.reclaimIdle)
      ⟨⟨"q"⟩, "b", .v4, 2000⟩ ⟨⟨"p"⟩, ⟨"a."⟩⟩ 0x0a000002#32 := by
  obtain ⟨v, hv, hbook⟩ := exists_services_oneHost 3600
  obtain ⟨v₁, hv₁, -⟩ := exists_services_oneHost 1
  obtain ⟨v₂, hv₂, hbook₂⟩ := exists_services_oneHost 2
  have hloses : Loses ((v.book.run [⟨⟨"p"⟩, "a", .both, 0⟩]).withIdle v₂.book.reclaimIdle)
      ⟨⟨"q"⟩, "b", .v4, 2000⟩ ⟨⟨"p"⟩, ⟨"a."⟩⟩ 0x0a000002#32 := by
    rw [hbook, hbook₂]
    exact ⟨by decide, by decide, by decide⟩
  exact ⟨v, v₁, v₂, hv, hv₁, hv₂, hloses,
    (loses_of_reclaimIdle_le hv hv₁ hv₂ (by decide) (by decide) _ hloses).1⟩

/-- A longer idle time does not always protect longer: 18446744073709552 seconds
are 384 milliseconds more than 64 bits hold, and with this setting a name loses
its address after a second, which it keeps with a setting of an hour. -/
theorem loses_not_of_reclaimIdle_le :
    ¬∀ (s : Settings) (v v₁ v₂ : Services) (t₁ t₂ : UInt64) (calls : List Call) (c : Call)
      (k : AllocationKey) (a : Ipv4), ofSettings s = .ok v →
      ofSettings (s.withReclaimIdle t₁) = .ok v₁ → ofSettings (s.withReclaimIdle t₂) = .ok v₂ →
      t₁ ≤ t₂ → Loses ((v.book.run calls).withIdle v₂.book.reclaimIdle) c k a →
      Loses ((v.book.run calls).withIdle v₁.book.reclaimIdle) c k a := by
  intro h
  obtain ⟨v, hv, hbook⟩ := exists_services_oneHost 3600
  obtain ⟨v₂, hv₂, hbook₂⟩ := exists_services_oneHost 18446744073709552
  have hloses := h (oneHost 3600) v v v₂ 3600 18446744073709552 [⟨⟨"p"⟩, "a", .both, 0⟩]
    ⟨⟨"q"⟩, "b", .v4, 1000⟩ ⟨⟨"p"⟩, ⟨"a."⟩⟩ 0x0a000002#32 hv hv hv₂ (by decide) (by
      rw [hbook, hbook₂]
      exact ⟨by decide, by decide, by decide⟩)
  rw [hbook] at hloses
  exact hloses.after (by decide)

end Services

end DnsConnector
