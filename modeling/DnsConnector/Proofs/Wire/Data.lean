import DnsConnector.Wire.Message
import Mathlib.Data.List.Basic

/-!
# DnsConnector.Proofs.Wire.Data

What the readers of a message look at.  A reader that succeeds looks at nothing
behind what it has read: octets may be put behind the message (`Persists`), and
those behind its end may be taken away (`Bounded`).

Readers of data are not stopped by the end of the data, so this is shown of each
of them by the way it is put together.  What leads a reader too far is refused
in the end, whether or not there are octets to be read.  So the data of a record
depends on nothing behind its own end (`dataAt_append`).
-/

namespace DnsConnector.Wire

variable {α β : Type}

/-! ## Readers -/

/-- A reader gives the same result when there are more octets behind. -/
def Persists (read : Array UInt8 → Option α) : Prop :=
  ∀ msg more r, read msg = some r → read (msg ++ more) = some r

namespace Persists

variable {f g : Array UInt8 → Option α}

theorem const (o : Option α) : Persists fun _ => o := fun _ _ _ h => h

theorem bind {next : α → Array UInt8 → Option β} (hf : Persists f)
    (hnext : ∀ a, Persists (next a)) : Persists fun msg => f msg >>= fun a => next a msg := by
  intro msg more r h
  obtain ⟨a, ha, hr⟩ := Option.bind_eq_some_iff.1 h
  exact Option.bind_eq_some_iff.2 ⟨a, hf msg more a ha, hnext a msg more r hr⟩

theorem map (hf : Persists f) (φ : α → β) : Persists fun msg => (f msg).map φ := by
  intro msg more r h
  obtain ⟨a, ha, rfl⟩ := Option.map_eq_some_iff.1 h
  exact Option.map_eq_some_iff.2 ⟨a, hf msg more a ha, rfl⟩

theorem ite {c : Prop} [Decidable c] (hf : Persists f) (hg : Persists g) :
    Persists fun msg => if c then f msg else g msg := by
  by_cases hc : c
  · simpa only [if_pos hc] using hf
  · simpa only [if_neg hc] using hg

/-- What follows once something else has been read in a certain way. -/
theorem guard [DecidableEq α] (hf : Persists f) (a : α) (o : Option β) :
    Persists fun msg => if f msg = some a then o else none := by
  intro msg more r h
  rw [Option.ite_none_right_eq_some] at h ⊢
  exact ⟨hf msg more a h.1, h.2⟩

end Persists

/-- A reader keeps to what it reads.  It does not go back, and neither the octets
behind its end nor their absence make a difference. -/
structure Bounded (start : Nat) (stop : α → Nat) (read : Array UInt8 → Option α) : Prop where
  le_stop : ∀ msg r, read msg = some r → start ≤ stop r
  persists : Persists read
  cut : ∀ msg more r, read (msg ++ more) = some r → stop r ≤ msg.size → read msg = some r

namespace Bounded

variable {start : Nat} {stop : α → Nat} {stop' : β → Nat} {f g : Array UInt8 → Option α}

theorem none : Bounded start stop fun _ => none where
  le_stop _ _ := nofun
  persists := .const _
  cut _ _ _ := nofun

theorem some {a : α} (h : start ≤ stop a) : Bounded start stop fun _ => some a where
  le_stop _ _ hr := Option.some.inj hr ▸ h
  persists := .const _
  cut _ _ _ h _ := h

theorem congr (h : ∀ msg, f msg = g msg) (hg : Bounded start stop g) : Bounded start stop f :=
  (funext h : f = g) ▸ hg

theorem mono {start' : Nat} (hf : Bounded start stop f) (h : start' ≤ start) :
    Bounded start' stop f where
  le_stop msg r hr := Nat.le_trans h (hf.le_stop msg r hr)
  persists := hf.persists
  cut := hf.cut

theorem bind {next : α → Array UInt8 → Option β} (hf : Bounded start stop f)
    (hnext : ∀ a, (∃ msg, f msg = .some a) → Bounded (stop a) stop' (next a)) :
    Bounded start stop' fun msg => f msg >>= fun a => next a msg where
  le_stop msg r h := by
    obtain ⟨a, ha, hr⟩ := Option.bind_eq_some_iff.1 h
    exact Nat.le_trans (hf.le_stop msg a ha) ((hnext a ⟨msg, ha⟩).le_stop msg r hr)
  persists msg more r h := by
    obtain ⟨a, ha, hr⟩ := Option.bind_eq_some_iff.1 h
    exact Option.bind_eq_some_iff.2
      ⟨a, hf.persists msg more a ha, (hnext a ⟨msg, ha⟩).persists msg more r hr⟩
  cut msg more r h hstop := by
    obtain ⟨a, ha, hr⟩ := Option.bind_eq_some_iff.1 h
    have hbounded := hnext a ⟨_, ha⟩
    -- the first reader ends where the second one starts, so it ends within the message too
    have hfirst := Nat.le_trans (hbounded.le_stop _ r hr) hstop
    exact Option.bind_eq_some_iff.2
      ⟨a, hf.cut msg more a ha hfirst, hbounded.cut msg more r hr hstop⟩

theorem map {φ : α → β} (hf : Bounded start stop f) (hφ : ∀ a, stop a ≤ stop' (φ a)) :
    Bounded start stop' fun msg => (f msg).map φ where
  le_stop msg r h := by
    obtain ⟨a, ha, rfl⟩ := Option.map_eq_some_iff.1 h
    exact Nat.le_trans (hf.le_stop msg a ha) (hφ a)
  persists := hf.persists.map φ
  cut msg more r h hstop := by
    obtain ⟨a, ha, rfl⟩ := Option.map_eq_some_iff.1 h
    exact Option.map_eq_some_iff.2 ⟨a, hf.cut msg more a ha (Nat.le_trans (hφ a) hstop), rfl⟩

theorem ite {c : Prop} [Decidable c] (hf : c → Bounded start stop f)
    (hg : ¬c → Bounded start stop g) :
    Bounded start stop fun msg => if c then f msg else g msg := by
  by_cases hc : c
  · simpa only [if_pos hc] using hf hc
  · simpa only [if_neg hc] using hg hc

/-- What follows once something else was found to end at a certain place. -/
theorem guard [DecidableEq α] (hf : Bounded start stop f) {a : α} {o : Option β}
    (ho : Bounded (stop a) stop' fun _ => o) :
    Bounded (stop a) stop' fun msg => if f msg = .some a then o else .none where
  le_stop msg r h := ho.le_stop msg r (Option.ite_none_right_eq_some.1 h).2
  persists := hf.persists.guard a o
  cut msg more r h hstop := by
    rw [Option.ite_none_right_eq_some] at h ⊢
    exact ⟨hf.cut msg more a h.1 (Nat.le_trans (ho.le_stop msg r h.2) hstop), h.2⟩

end Bounded

/-! ## Fields -/

namespace Message

/-- What lies within a message is cut out of a longer one. -/
theorem extract_append {msg : Array UInt8} {start stop : Nat} (h : stop ≤ msg.size)
    (more : Array UInt8) : (msg ++ more).extract start stop = msg.extract start stop := by
  rw [Array.extract_append, Nat.sub_eq_zero_of_le h]
  simp

theorem bounded_getElem? (pos : Nat) : Bounded pos (fun _ => pos + 1) fun msg => msg[pos]? where
  le_stop _ _ _ := Nat.le_succ pos
  persists msg more b h := by
    obtain ⟨hpos, rfl⟩ := Array.getElem?_eq_some_iff.1 h
    exact (Array.getElem?_append_left hpos).trans h
  cut msg more b h hstop := (Array.getElem?_append_left hstop).symm.trans h

theorem bounded_octetsAt (pos n : Nat) : Bounded pos Prod.snd (octetsAt · pos n) where
  le_stop msg r h := by
    rw [snd_of_octetsAt h]
    exact Nat.le_add_right pos n
  persists msg more r h := by
    simp only [octetsAt, Option.ite_none_right_eq_some] at h ⊢
    rw [extract_append h.1, Array.size_append]
    exact ⟨Nat.le_add_right_of_le h.1, h.2⟩
  cut msg more r h hstop := by
    have hend := snd_of_octetsAt h
    simp only [octetsAt, Option.ite_none_right_eq_some] at h ⊢
    rw [hend] at hstop
    rw [extract_append hstop] at h
    exact ⟨hstop, h.2⟩

theorem bounded_octetAt (pos : Nat) : Bounded pos Prod.snd (octetAt · pos) :=
  (bounded_getElem? pos).map fun _ => Nat.le_refl _

theorem bounded_word16At (pos : Nat) : Bounded pos Prod.snd (word16At · pos) :=
  (bounded_octetsAt pos 2).map fun _ => Nat.le_refl _

theorem bounded_word32At (pos : Nat) : Bounded pos Prod.snd (word32At · pos) :=
  (bounded_octetsAt pos 4).map fun _ => Nat.le_refl _

theorem bounded_stringAt (pos : Nat) : Bounded pos Prod.snd (stringAt · pos) :=
  (bounded_octetAt pos).bind fun _ _ => bounded_octetsAt _ _

end Message

/-! ## Names -/

namespace Name

open Message

variable {msg : Array UInt8} {start pos : Nat} {limit : Option Nat} {r : List Label × Nat}

/-- A run of labels does not go back. -/
theorem le_of_readRun (h : readRun msg start limit pos = some r) : pos ≤ r.2 := by
  fun_induction readRun msg start limit pos generalizing r
  case case2 => exact Option.some.inj h ▸ Nat.le_succ _
  case case3 ih =>
      obtain ⟨rest, hrest, rfl⟩ := Option.map_eq_some_iff.1 h
      have hle := ih hrest
      exact Nat.le_trans (Nat.le_add_right_of_le (Nat.le_succ _)) hle
  case case6 =>
      obtain ⟨rest, -, rfl⟩ := Option.map_eq_some_iff.1 h
      exact Nat.le_add_right _ 2
  all_goals contradiction

/-- A run of labels below a limit ends there at the latest, except that the second
octet of a pointer may stand at the limit. -/
theorem le_limit_of_readRun {n : Nat} (h : readRun msg start (some n) pos = some r) :
    r.2 ≤ n + 1 := by
  generalize hlimit : some n = limit at h
  fun_induction readRun msg start limit pos generalizing r
  case case2 hbelow _ _ _ =>
      obtain rfl := Option.some.inj h
      simp only [← hlimit, Option.any_some, decide_eq_true_eq] at hbelow
      omega
  case case3 ih =>
      obtain ⟨rest, hrest, rfl⟩ := Option.map_eq_some_iff.1 h
      have hle := ih hlimit hrest
      exact hle
  case case6 hbelow _ _ _ _ _ _ _ _ _ =>
      obtain ⟨rest, -, rfl⟩ := Option.map_eq_some_iff.1 h
      simp only [← hlimit, Option.any_some, decide_eq_true_eq] at hbelow
      change _ + 2 ≤ n + 1
      omega
  all_goals contradiction

/-- A run of labels ends before anything that is put behind the message. -/
theorem persists_readRun (start : Nat) (limit : Option Nat) (pos : Nat) :
    Persists (readRun · start limit pos) := by
  intro msg more r (h : readRun msg start limit pos = some r)
  change readRun (msg ++ more) start limit pos = some r
  -- the reader succeeds in three cases only: a zero octet, a label and a pointer
  fun_induction readRun msg start limit pos generalizing r
  case case2 start limit pos hlimit hpos b hzero =>
      have hpos' : pos < (msg ++ more).size := Nat.lt_of_lt_of_le hpos (by simp)
      have hb : (msg ++ more)[pos] = 0 := (Array.getElem_append_left hpos).trans hzero
      rw [readRun, if_neg hlimit, dif_pos hpos']
      simp only [hb, if_true]
      exact h
  case case3 start limit pos hlimit hpos b hne hlt hend ih =>
      have hpos' : pos < (msg ++ more).size := Nat.lt_of_lt_of_le hpos (by simp)
      have hb : (msg ++ more)[pos] = b := Array.getElem_append_left hpos
      have hend' : pos + 1 + b.toNat ≤ (msg ++ more).size := Nat.le_trans hend (by simp)
      obtain ⟨rest, hrest, rfl⟩ := Option.map_eq_some_iff.1 h
      rw [readRun, if_neg hlimit, dif_pos hpos']
      simp only [hb, hne, if_false, hlt, if_true, hend', extract_append hend, ih rest hrest]
      rfl
  case case6 start limit pos hlimit hpos b hne hnlabel hhigh low hlow htarget ih =>
      have hpos' : pos < (msg ++ more).size := Nat.lt_of_lt_of_le hpos (by simp)
      have hb : (msg ++ more)[pos] = b := Array.getElem_append_left hpos
      have hlow' : (msg ++ more)[pos + 1]? = some low :=
        (bounded_getElem? _).persists msg more low hlow
      obtain ⟨rest, hrest, rfl⟩ := Option.map_eq_some_iff.1 h
      rw [readRun, if_neg hlimit, dif_pos hpos']
      simp only [hb, hne, if_false, hnlabel, hhigh, if_true, hlow', htarget, dif_pos, ih rest hrest]
      rfl
  all_goals contradiction

/-- A run of labels that ends within the message is read without what stands
behind it. -/
theorem readRun_cut {more : Array UInt8} (h : readRun (msg ++ more) start limit pos = some r)
    (hstart : start ≤ pos) (hstop : r.2 ≤ msg.size) : readRun msg start limit pos = some r := by
  generalize hwhole : msg ++ more = whole at h
  fun_induction readRun whole start limit pos generalizing r
  case case2 start limit pos hlimit hpos b hzero =>
      obtain rfl := Option.some.inj h
      subst hwhole
      have hpos' : pos < msg.size := hstop
      have hb : msg[pos] = 0 := (Array.getElem_append_left hpos').symm.trans hzero
      rw [readRun, if_neg hlimit, dif_pos hpos']
      simp only [hb, if_true]
  case case3 start limit pos hlimit hpos b hne hlt hend ih =>
      obtain ⟨rest, hrest, rfl⟩ := Option.map_eq_some_iff.1 h
      subst hwhole
      have hle := le_of_readRun hrest
      have hend' : pos + 1 + b.toNat ≤ msg.size := Nat.le_trans hle hstop
      have hpos' : pos < msg.size := by omega
      have hb : msg[pos] = b := (Array.getElem_append_left hpos').symm
      have hpos : start ≤ pos + 1 + b.toNat := by omega
      have hrest' := ih (r := rest) hpos hstop hrest
      rw [readRun, if_neg hlimit, dif_pos hpos']
      simp only [hb, hne, if_false, hlt, if_true, hend', extract_append hend', hrest']
      rfl
  case case6 start limit pos hlimit hpos b hne hnlabel hhigh low hlow htarget ih =>
      obtain ⟨rest, hrest, rfl⟩ := Option.map_eq_some_iff.1 h
      subst hwhole
      have hend : pos + 2 ≤ msg.size := hstop
      have hpos' : pos < msg.size := Nat.lt_of_succ_lt hend
      have hb : msg[pos] = b := (Array.getElem_append_left hpos').symm
      have hlow' : msg[pos + 1]? = some low := (bounded_getElem? _).cut msg more low hlow hend
      -- the run that is pointed to stays below the one with the pointer
      have hbelow : rest.2 ≤ msg.size := by
        have hle := le_limit_of_readRun hrest
        omega
      have hrest' := ih (Nat.le_refl _) hbelow hrest
      rw [readRun, if_neg hlimit, dif_pos hpos']
      simp only [hb, hne, if_false, hnlabel, hhigh, if_true, hlow', htarget, dif_pos, hrest']
      rfl
  all_goals contradiction

theorem bounded_read (pos : Nat) : Bounded pos Prod.snd (read · pos) where
  le_stop msg r h := le_of_readRun (Option.filter_eq_some_iff.1 h).1
  persists msg more r h := by
    obtain ⟨hrun, hlength⟩ := Option.filter_eq_some_iff.1 h
    exact Option.filter_eq_some_iff.2 ⟨persists_readRun pos none pos msg more r hrun, hlength⟩
  cut msg more r h hstop := by
    obtain ⟨hrun, hlength⟩ := Option.filter_eq_some_iff.1 h
    exact Option.filter_eq_some_iff.2 ⟨readRun_cut hrun (Nat.le_refl _) hstop, hlength⟩

end Name

/-! ## Data -/

namespace Message

theorem bounded_skipString (pos : Nat) : Bounded pos (fun next => next) (skipString · pos) :=
  (bounded_stringAt pos).map fun _ => Nat.le_refl _

theorem bounded_skipStrings (pos stop : Nat) :
    Bounded pos (fun next => next) (skipStrings · pos stop) := by
  induction hrest : stop - pos using Nat.strongRecOn generalizing pos with
  | ind rest ih =>
      have hunfold : ∀ msg, skipStrings msg pos stop =
          if pos < stop then skipString msg pos >>= fun next => skipStrings msg next stop
          else some pos := by
        intro msg
        rw [skipStrings]
        split
        · cases skipString msg pos <;> rfl
        · rfl
      refine .congr hunfold (.ite (fun hlt => ?_) fun _ => .some (Nat.le_refl _))
      refine (bounded_skipString pos).bind fun next ⟨msg, hnext⟩ => ?_
      have hpos := lt_of_skipString hnext
      exact ih (stop - next) (by omega) next rfl

theorem bounded_skipNames (n pos : Nat) : Bounded pos (fun next => next) (skipNames · n pos) := by
  induction n generalizing pos with
  | zero => exact .some (Nat.le_refl _)
  | succ n ih => exact (Name.bounded_read pos).bind fun _ _ => ih _

theorem bounded_skipAtLeast (n pos len : Nat) :
    Bounded pos (fun next => next) (skipAtLeast · n pos len) := by
  refine (bounded_octetsAt pos n).bind fun _ _ => ?_
  exact .ite (fun _ => .none) fun _ => (bounded_octetsAt _ _).map fun _ => Nat.le_refl _

theorem bounded_skipRewriting (pos : Nat) :
    Bounded pos (fun next => next) (skipRewriting · pos) := by
  refine (bounded_octetsAt pos 4).bind fun _ _ => ?_
  refine (bounded_stringAt _).bind fun _ _ => ?_
  refine .ite (fun _ => ?_) fun _ => .none
  refine (bounded_skipString _).bind fun _ _ => ?_
  exact (bounded_skipString _).bind fun _ _ => bounded_skipNames 1 _

theorem bounded_skipProperty (pos len : Nat) :
    Bounded pos (fun next => next) (skipProperty · pos len) := by
  refine (bounded_octetAt pos).bind fun _ _ => ?_
  refine (bounded_octetAt _).bind fun _ _ => ?_
  refine .ite (fun _ => .none) fun _ => ?_
  refine (bounded_octetsAt _ _).bind fun _ _ => ?_
  exact .ite (fun _ => (bounded_octetsAt _ _).map fun _ => Nat.le_refl _) fun _ => .none

theorem bounded_skipTypes (n : Nat) (state : TypeListState) (pos : Nat) :
    Bounded pos (fun next => next) (skipTypes · n state pos) := by
  induction n generalizing state pos with
  | zero => exact .some (Nat.le_refl _)
  | succ n ih =>
      refine (bounded_octetAt pos).bind fun ⟨b, next⟩ _ => ?_
      cases hstate : state.next? b with
      | none => exact .congr (fun _ => by simp [hstate]) .none
      | some state' => exact .congr (fun _ => by simp [hstate]) (ih state' next)

theorem bounded_skipSynchronization (pos len : Nat) :
    Bounded pos (fun next => next) (skipSynchronization · pos len) := by
  refine (bounded_word32At pos).bind fun _ _ => ?_
  refine (bounded_word16At _).bind fun _ _ => ?_
  exact .ite (fun _ => .none) fun _ => bounded_skipTypes _ _ _

theorem bounded_skipParameters (last : Option UInt16) (pos stop : Nat) :
    Bounded pos (fun next => next) (skipParameters · last pos stop) := by
  induction hrest : stop - pos using Nat.strongRecOn generalizing last pos with
  | ind rest ih =>
      refine .congr (fun msg => skipParameters.eq_def msg last pos stop) ?_
      refine .ite (fun _ => .none) fun _ => .ite (fun _ => .some (Nat.le_refl _)) fun hroom => ?_
      refine (bounded_word16At pos).bind fun ⟨key, _⟩ ⟨_, hkey⟩ => ?_
      obtain rfl := snd_of_word16At hkey
      refine (bounded_word16At (pos + 2)).bind fun ⟨n, _⟩ ⟨_, hn⟩ => ?_
      obtain rfl := snd_of_word16At hn
      refine (bounded_octetsAt (pos + 4) n.toNat).bind fun ⟨value, _⟩ ⟨_, hvalue⟩ => ?_
      obtain rfl := snd_of_octetsAt hvalue
      refine .ite (fun _ => ?_) fun _ => .none
      exact ih (stop - (pos + 4 + n.toNat)) (by omega) (some key) (pos + 4 + n.toNat) rfl

theorem bounded_skipService (pos len : Nat) :
    Bounded pos (fun next => next) (skipService · pos len) := by
  refine (bounded_word16At pos).bind fun _ _ => ?_
  exact (bounded_skipNames 1 _).bind fun _ _ => bounded_skipParameters _ _ _

theorem bounded_skipOptions (len pos stop : Nat) :
    Bounded pos (fun next => next) (skipOptions · len pos stop) := by
  induction hrest : stop - pos using Nat.strongRecOn generalizing pos with
  | ind rest ih =>
      refine .congr (fun msg => skipOptions.eq_def msg len pos stop) ?_
      refine .ite (fun hlt => ?_) fun _ => .some (Nat.le_refl _)
      refine .ite (fun _ => .some (Nat.le_of_lt hlt)) fun _ => ?_
      refine (bounded_word16At pos).bind fun ⟨code, _⟩ ⟨_, hcode⟩ => ?_
      obtain rfl := snd_of_word16At hcode
      refine (bounded_word16At (pos + 2)).bind fun ⟨n, _⟩ ⟨_, hn⟩ => ?_
      obtain rfl := snd_of_word16At hn
      refine .ite (fun _ => .none) fun hroom => ?_
      refine .ite (fun _ => .some (Nat.not_lt.1 (not_or.1 hroom).2)) fun _ => ?_
      refine (bounded_octetsAt (pos + 4) n.toNat).bind fun ⟨value, _⟩ ⟨_, hvalue⟩ => ?_
      obtain rfl := snd_of_octetsAt hvalue
      refine .ite (fun _ => ?_) fun _ => .none
      exact ih (stop - (pos + 4 + n.toNat)) (by omega) (pos + 4 + n.toNat) rfl

/-- Every shape of data is read without looking behind what is read. -/
theorem bounded_skipData (shape : DataShape) (pos len : Nat) :
    Bounded pos (fun next => next) (skipData · shape pos len) := by
  cases shape with
  | fields before names after =>
      have hnames := (bounded_skipNames names (pos + before)).mono (Nat.le_add_right pos before)
      exact hnames.map fun _ => Nat.le_add_right _ after
  | strings => exact bounded_skipStrings pos (pos + len)
  | twoStrings => exact (bounded_skipString pos).bind fun _ _ => bounded_skipString _
  | atLeast n => exact bounded_skipAtLeast n pos len
  | rewriting => exact bounded_skipRewriting pos
  | synchronization => exact bounded_skipSynchronization pos len
  | service => exact bounded_skipService pos len
  | property => exact bounded_skipProperty pos len
  | options => exact bounded_skipOptions len pos (pos + len)
  | opaqueOctets => exact .some (Nat.le_add_right pos len)
  | unreadable => exact .none

theorem snd_of_dataAt {msg : Array UInt8} {type : UInt16} {pos len : Nat} {r : RecordData × Nat}
    (h : dataAt msg type pos len = some r) : r.2 = pos + len := by
  obtain ⟨⟨bs, stop⟩, hoctets, hdata⟩ := Option.bind_eq_some_iff.1 h
  obtain rfl := snd_of_octetsAt hoctets
  dsimp only at hdata
  -- whatever the data is, it ends where its octets do
  split at hdata
  · exact Option.some.inj hdata ▸ rfl
  · split at hdata
    · split at hdata
      · exact Option.some.inj hdata ▸ rfl
      · split at hdata <;> exact Option.some.inj hdata ▸ rfl
    · contradiction

theorem bounded_dataAt (type : UInt16) (pos len : Nat) :
    Bounded pos Prod.snd (dataAt · type pos len) := by
  refine (bounded_octetsAt pos len).bind fun ⟨bs, stop⟩ _ => ?_
  refine .ite (fun _ => .some (Nat.le_refl _)) fun _ => ?_
  refine (bounded_skipData (DataShape.ofCode type) pos len).guard ?_
  refine .ite (fun _ => .some (Nat.le_refl _)) fun _ => ?_
  exact .ite (fun _ => .some (Nat.le_refl _)) fun _ => .some (Nat.le_refl _)

/-- **Data of its own.**  The data of a record is read alike, or refused alike,
whatever stands behind it. -/
theorem dataAt_append {msg : Array UInt8} {pos len : Nat} (h : pos + len ≤ msg.size)
    (type : UInt16) (more : Array UInt8) :
    dataAt (msg ++ more) type pos len = dataAt msg type pos len := by
  apply Option.ext
  intro r
  constructor
  · intro hr
    exact (bounded_dataAt type pos len).cut msg more r hr (snd_of_dataAt hr ▸ h)
  · exact (bounded_dataAt type pos len).persists msg more r

end Message

end DnsConnector.Wire
