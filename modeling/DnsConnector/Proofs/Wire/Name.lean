import DnsConnector.Proofs.Wire.Fields

/-!
# DnsConnector.Proofs.Wire.Name

Names that were read have labels of 1 to 63 octets and at most 255 octets in
all (`valid_of_read`).  Such a name is read back from where it was written
(`read_of_holds`), also through a pointer to an earlier place
(`read_of_holds_pointer`).
-/

namespace DnsConnector.Wire.Name

/-- A name that fits into a message. -/
structure Valid (ls : List Label) : Prop where
  label : ∀ l ∈ ls, 0 < l.length ∧ l.length ≤ maxLabel
  length_le : encodedLength ls ≤ maxLength

variable {msg : Array UInt8} {pos : Nat} {ls : List Label}

/-! ## What was read -/

/-- Labels that were read are neither empty nor too long. -/
theorem label_of_readRun {start : Nat} {limit : Option Nat} {r : List Label × Nat}
    (h : readRun msg start limit pos = some r) : ∀ l ∈ r.1, 0 < l.length ∧ l.length ≤ maxLabel := by
  fun_induction readRun msg start limit pos generalizing r
  case case2 =>
      obtain rfl := Option.some.inj h
      simp
  case case3 pos _ hpos b hne hlt hend ih =>
      obtain ⟨⟨ls, stop⟩, hrest, rfl⟩ := Option.map_eq_some_iff.1 h
      have hlength : (msg.extract (pos + 1) (pos + 1 + b.toNat)).toList.length = b.toNat := by
        rw [Array.length_toList, Array.size_extract]
        omega
      have hb : 0 < b.toNat := Nat.pos_of_ne_zero fun h0 => hne (UInt8.toNat.inj h0)
      have hmax : maxLabel = 63 := rfl
      intro l hl
      rcases List.mem_cons.1 hl with rfl | hl
      · omega
      · exact ih hrest l hl
  case case6 ih =>
      obtain ⟨⟨ls, stop⟩, hrest, rfl⟩ := Option.map_eq_some_iff.1 h
      exact fun l hl => ih hrest l hl
  all_goals contradiction

/-- A name that was read fits into a message. -/
theorem valid_of_read {stop : Nat} (h : read msg pos = some (ls, stop)) : Valid ls := by
  obtain ⟨hrun, hlength⟩ := Option.filter_eq_some_iff.1 h
  exact ⟨label_of_readRun hrun, of_decide_eq_true hlength⟩

/-! ## What is written -/

theorem encode_cons (l : Label) (ls : List Label) :
    encode (l :: ls) = UInt8.ofNat l.length :: (l ++ encode ls) := by
  simp [encode, encodeLabel]

theorem encodedLength_pos (ls : List Label) : 0 < encodedLength ls := by
  rw [← length_encode]
  simp [encode]

theorem length_lt_encodedLength (ls : List Label) : ls.length < encodedLength ls := by
  induction ls with
  | nil => exact Nat.one_pos
  | cons l ls ih =>
      rw [List.length_cons, encodedLength]
      omega

/-- The octet before a label is its length, and does not end the name. -/
theorem lengthOctet {l : Label} (hnonempty : 0 < l.length) (hshort : l.length ≤ maxLabel) :
    (UInt8.ofNat l.length).toNat = l.length ∧ ¬UInt8.ofNat l.length = 0 := by
  have hmax : maxLabel = 63 := rfl
  have hb : (UInt8.ofNat l.length).toNat = l.length := by
    rw [UInt8.toNat_ofNat', Nat.mod_eq_of_lt (by omega)]
  refine ⟨hb, fun h0 => ?_⟩
  rw [h0, UInt8.toNat_zero] at hb
  omega

/-- A limit behind a position does not end a run there. -/
theorem not_any_le {limit : Option Nat} (h : ∀ n ∈ limit, pos < n) :
    ¬limit.any (fun n => decide (n ≤ pos)) = true := by
  rw [Option.any_eq_true]
  rintro ⟨n, hn, hle⟩
  exact Nat.not_le.2 (h n hn) (of_decide_eq_true hle)

/-- A run of labels is read back below any limit behind it. -/
theorem readRun_of_holds {start : Nat} {limit : Option Nat}
    (hlabel : ∀ l ∈ ls, 0 < l.length ∧ l.length ≤ maxLabel) (h : Holds msg pos (encode ls))
    (hlimit : ∀ n ∈ limit, pos + encodedLength ls ≤ n) :
    readRun msg start limit pos = some (ls, pos + encodedLength ls) := by
  have hmax : maxLabel = 63 := rfl
  induction ls generalizing pos with
  | nil =>
      obtain ⟨hpos, hget⟩ := Array.getElem?_eq_some_iff.1 h.getElem?
      rw [readRun, if_neg (not_any_le hlimit), dif_pos hpos]
      simp only [hget, if_true, encodedLength]
  | cons l ls ih =>
      obtain ⟨hnonempty, hshort⟩ := hlabel l List.mem_cons_self
      have hlength : encodedLength (l :: ls) = l.length + 1 + encodedLength ls := rfl
      obtain ⟨hb, hne⟩ := lengthOctet hnonempty hshort
      have hlt : l.length < 64 := by omega
      have hbelow : ∀ n ∈ limit, pos < n := by
        intro n hn
        have hle := hlimit n hn
        omega
      have hlimit' : ∀ n ∈ limit, pos + 1 + l.length + encodedLength ls ≤ n := by
        intro n hn
        have hle := hlimit n hn
        omega
      rw [encode_cons] at h
      obtain ⟨hpos, hget⟩ := Array.getElem?_eq_some_iff.1 h.getElem?
      have hbody : Holds msg (pos + 1) (l ++ encode ls) := h.tail
      have hread := Message.octetsAt_of_holds hbody.left (List.length_pos_iff.1 hnonempty)
      have hend : pos + 1 + l.length ≤ msg.size :=
        hbody.left.add_length_le (List.length_pos_iff.1 hnonempty)
      have hextract : (msg.extract (pos + 1) (pos + 1 + l.length)).toList = l := by
        rw [Message.octetsAt, if_pos hend] at hread
        exact congrArg Prod.fst (Option.some.inj hread)
      have hmore := ih (fun l' hl' => hlabel l' (List.mem_cons_of_mem l hl')) hbody.right hlimit'
      have hstop : pos + 1 + l.length + encodedLength ls =
          pos + (l.length + 1 + encodedLength ls) := by omega
      rw [readRun, if_neg (not_any_le hbelow), dif_pos hpos]
      simp only [hget, hb, hne, if_false, hlt, if_true, hend, hmore, hextract, Option.map_some,
        hlength, hstop]

/-- A name is read back from where it stands. -/
theorem read_of_holds (hls : Valid ls) (h : Holds msg pos (encode ls)) :
    read msg pos = some (ls, pos + encodedLength ls) := by
  rw [read, readRun_of_holds hls.label h (by simp), Option.filter_some,
    if_pos (decide_eq_true hls.length_le)]

/-- A name is read through a pointer to where it stands, further up. -/
theorem read_of_holds_pointer (hls : Valid ls) {low : UInt8} (h : Holds msg pos [0xc0, low])
    (hname : Holds msg low.toNat (encode ls)) (hup : low.toNat + encodedLength ls ≤ pos) :
    read msg pos = some (ls, pos + 2) := by
  obtain ⟨hpos, hget⟩ := Array.getElem?_eq_some_iff.1 h.getElem?
  have hlow : msg[pos + 1]? = some low := h.tail.getElem?
  have htarget : pointerTarget 0xc0 low = low.toNat := by
    simp [pointerTarget]
  have hlt : low.toNat < pos := Nat.lt_of_lt_of_le
    (Nat.lt_add_of_pos_right (encodedLength_pos ls)) hup
  have hrun : readRun msg pos none pos = some (ls, pos + 2) := by
    have hmore : readRun msg low.toNat (some pos) low.toNat =
        some (ls, low.toNat + encodedLength ls) :=
      readRun_of_holds hls.label hname (by simpa using hup)
    rw [readRun, if_neg (not_any_le (by simp)), dif_pos hpos]
    simp only [hget, hlow, htarget, hlt, hmore]
    rfl
  rw [read, hrun, Option.filter_some, if_pos (decide_eq_true hls.length_le)]

end DnsConnector.Wire.Name
