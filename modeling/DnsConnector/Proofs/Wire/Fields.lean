import DnsConnector.Wire.Message
import Mathlib.Data.List.Induction

/-!
# DnsConnector.Proofs.Wire.Fields

Reading what stands at a position of a message.  That octets stand there
(`Holds`) is all that a reader of a field needs to know about the message, and
it splits along with the octets (`holds_append`), so that an encoder is read
back field by field.
-/

namespace DnsConnector.Wire

/-- Octets stand in a message from a position on. -/
def Holds (msg : Array UInt8) (pos : Nat) (bs : Octets) : Prop := bs <+: msg.toList.drop pos

variable {msg : Array UInt8} {pos : Nat} {bs : Octets}

/-! ## What stands where -/

theorem holds_self (bs : Octets) : Holds bs.toArray 0 bs := List.prefix_rfl

/-- Two pieces stand one behind the other. -/
theorem holds_append {xs ys : Octets} :
    Holds msg pos (xs ++ ys) ↔ Holds msg pos xs ∧ Holds msg (pos + xs.length) ys := by
  simp only [Holds, ← List.drop_drop]
  constructor
  · rintro ⟨rest, h⟩
    rw [← h, List.append_assoc]
    exact ⟨List.prefix_append _ _, by rw [List.drop_left]; exact List.prefix_append _ _⟩
  · rintro ⟨⟨rest, h⟩, hys⟩
    rw [← h, List.drop_left] at hys
    rw [← h]
    exact (List.prefix_append_right_inj xs).2 hys

theorem Holds.left {xs ys : Octets} (h : Holds msg pos (xs ++ ys)) : Holds msg pos xs :=
  (holds_append.1 h).1

theorem Holds.right {xs ys : Octets} (h : Holds msg pos (xs ++ ys)) :
    Holds msg (pos + xs.length) ys :=
  (holds_append.1 h).2

theorem Holds.getElem? {b : UInt8} (h : Holds msg pos (b :: bs)) : msg[pos]? = some b := by
  obtain ⟨rest, h⟩ := h
  have hget : (msg.toList.drop pos)[0]? = some b := by rw [← h]; rfl
  rwa [List.getElem?_drop, Nat.add_zero, Array.getElem?_toList] at hget

theorem Holds.tail {b : UInt8} (h : Holds msg pos (b :: bs)) : Holds msg (pos + 1) bs := by
  rw [← List.singleton_append] at h
  exact h.right

/-- What stands at a position is an octet and what stands behind it. -/
theorem holds_cons {b : UInt8} :
    Holds msg pos (b :: bs) ↔ msg[pos]? = some b ∧ Holds msg (pos + 1) bs := by
  refine ⟨fun h => ⟨h.getElem?, h.tail⟩, fun ⟨hb, h⟩ => ?_⟩
  obtain ⟨hpos, rfl⟩ := Array.getElem?_eq_some_iff.1 hb
  rw [Holds, List.drop_eq_getElem_cons (by simpa using hpos), Array.getElem_toList]
  exact List.cons_prefix_cons.2 ⟨rfl, h⟩

/-- What is cut out of a message stands in it. -/
theorem holds_extract {n : Nat} : Holds msg pos (msg.extract pos (pos + n)).toList := by
  rw [Holds, Array.toList_extract, List.extract_eq_take_drop, Nat.add_sub_cancel_left]
  exact List.take_prefix _ _

/-- Octets that stand somewhere end within the message. -/
theorem Holds.add_length_le (h : Holds msg pos bs) (hne : bs ≠ []) :
    pos + bs.length ≤ msg.size := by
  have hle := List.IsPrefix.length_le h
  have hpos := List.length_pos_iff.2 hne
  rw [List.length_drop] at hle
  have hsize : msg.toList.length = msg.size := Array.length_toList
  omega

/-! ## Reading them -/

/-- Writing the number that octets spell gives them back. -/
theorem bigEndian_ofBigEndian (bs : Octets) :
    Octets.bigEndian bs.length (Octets.ofBigEndian bs) = bs := by
  induction bs using List.reverseRecOn with
  | nil => rfl
  | append_singleton bs b ih =>
      have hhigh : (Octets.ofBigEndian bs * 256 + b.toNat) / 256 = Octets.ofBigEndian bs := by
        have hb := b.toNat_lt
        omega
      have hlow : UInt8.ofNat (Octets.ofBigEndian bs * 256 + b.toNat) = b := by
        have hb := b.toNat_lt
        rw [← UInt8.toNat_inj, UInt8.toNat_ofNat']
        omega
      rw [Octets.ofBigEndian_append_singleton, List.length_append, List.length_singleton,
        Octets.bigEndian, hhigh, hlow, ih]

namespace Message

/-- What was read stands there. -/
theorem holds_of_octetsAt {n next : Nat} (h : octetsAt msg pos n = some (bs, next)) :
    Holds msg pos bs ∧ bs.length = n ∧ next = pos + n := by
  rw [octetsAt, Option.ite_none_right_eq_some, Option.some.injEq, Prod.mk.injEq] at h
  obtain ⟨hfits, rfl, rfl⟩ := h
  refine ⟨holds_extract, ?_, rfl⟩
  rw [Array.length_toList, Array.size_extract]
  omega

/-- A field of two octets that was read stands there as it is written. -/
theorem holds_of_word16At {w : UInt16} {next : Nat} (h : word16At msg pos = some (w, next)) :
    Holds msg pos (Octets.word16 w) ∧ next = pos + 2 := by
  obtain ⟨⟨field, stop⟩, hread, hw⟩ := Option.map_eq_some_iff.1 h
  obtain ⟨rfl, rfl⟩ := Prod.mk.inj hw
  obtain ⟨hholds, hlength, hstop⟩ := holds_of_octetsAt hread
  have hwrite := bigEndian_ofBigEndian field
  have hfits : Octets.ofBigEndian field < 65536 := by
    have hmod := Octets.ofBigEndian_bigEndian_mod field.length (Octets.ofBigEndian field)
    rw [hwrite, hlength] at hmod
    rw [hmod]
    exact Nat.mod_lt _ (by decide)
  refine ⟨?_, hstop⟩
  rw [Octets.word16, UInt16.toNat_ofNat', Nat.mod_eq_of_lt hfits, ← hlength, hwrite]
  exact hholds

theorem octetsAt_of_holds (h : Holds msg pos bs) (hne : bs ≠ []) :
    octetsAt msg pos bs.length = some (bs, pos + bs.length) := by
  have htake : (msg.extract pos (pos + bs.length)).toList = bs := by
    rw [Array.toList_extract, List.extract_eq_take_drop, Nat.add_sub_cancel_left]
    exact (List.prefix_iff_eq_take.1 h).symm
  rw [octetsAt, if_pos (h.add_length_le hne), htake]

/-- A field of two octets is read modulo 2^16. -/
theorem word16At_of_holds {n : Nat} (h : Holds msg pos (Octets.bigEndian 2 n)) :
    word16At msg pos = some (UInt16.ofNat n, pos + 2) := by
  have hread := octetsAt_of_holds h (by simp [Octets.bigEndian])
  rw [Octets.length_bigEndian] at hread
  have hvalue : UInt16.ofNat (n % Nat.pow 256 2) = UInt16.ofNat n := by
    apply UInt16.toNat.inj
    rw [UInt16.toNat_ofNat', UInt16.toNat_ofNat']
    exact Nat.mod_mod n 65536
  simp only [word16At, hread, Option.map_some, Octets.ofBigEndian_bigEndian_mod, hvalue]

theorem word16At_of_holds_word16 {w : UInt16} (h : Holds msg pos (Octets.word16 w)) :
    word16At msg pos = some (w, pos + 2) := by
  rw [word16At_of_holds h, UInt16.ofNat_toNat]

theorem word32At_of_holds_word32 {w : UInt32} (h : Holds msg pos (Octets.word32 w)) :
    word32At msg pos = some (w, pos + 4) := by
  have hread := octetsAt_of_holds h (by simp [Octets.word32, Octets.bigEndian])
  rw [Octets.length_word32] at hread
  have hfits : w.toNat < Nat.pow 256 4 := w.toNat_lt
  simp only [word32At, hread, Option.map_some, Octets.word32,
    Octets.ofBigEndian_bigEndian hfits, UInt32.ofNat_toNat]

/-- A field of two octets, given one by one. -/
theorem word16At_of_holds_pair {x y : UInt8} (h : Holds msg pos [x, y]) :
    word16At msg pos = some (UInt16.ofNat (x.toNat * 256 + y.toNat), pos + 2) := by
  have hread := octetsAt_of_holds h (by simp)
  rw [List.length_cons, List.length_singleton] at hread
  simp only [word16At, hread, Option.map_some, Octets.ofBigEndian, List.foldl_cons,
    List.foldl_nil, Nat.zero_mul, Nat.zero_add]

/-- Items that can be read from some position on are read one after the other. -/
theorem itemsAt_of_forall {α β : Type} {item : Nat → Option (β × Nat)} {encode : α → Octets}
    {value : α → β} {start : Nat}
    (hitem : ∀ x pos, start ≤ pos → Holds msg pos (encode x) →
      item pos = some (value x, pos + (encode x).length))
    (xs : List α) (hpos : start ≤ pos) (h : Holds msg pos (xs.flatMap encode)) :
    itemsAt item xs.length pos = some (xs.map value, pos + (xs.flatMap encode).length) := by
  induction xs generalizing pos with
  | nil => rfl
  | cons x xs ih =>
      rw [List.flatMap_cons] at h
      have hfirst := hitem x pos hpos h.left
      have hrest := ih (Nat.le_add_right_of_le hpos) h.right
      simp only [List.length_cons, itemsAt, hfirst, hrest, Option.bind_eq_bind, Option.bind_some,
        List.map_cons, List.flatMap_cons, List.length_append, Nat.add_assoc]

end Message

end DnsConnector.Wire
