import DnsConnector.Proofs.Wire.Name
import DnsConnector.Wire.Reply
import DnsConnector.Wire.Response

/-!
# DnsConnector.Proofs.Wire.Response

What a response says once it is decoded: the identifier of its query, one
question and one record for each address (`decode_encode`).  The count of the
answers is a field of 16 bits; of more addresses than it can tell only as many
are read as it says.
-/

namespace DnsConnector.Wire.Response

open Message

variable {msg : Array UInt8} {pos : Nat} {q : Question}

/-! ## What a response says -/

/-- The record that answers a question with an address. -/
def answerRecord (q : Question) (a : IpAddress) : Record :=
  ⟨q.name, addressCode a, internetClass, answerTtl, .address a⟩

/-- The flags of a response. -/
def flags (query : Query) (rcode : Nat) : UInt16 :=
  UInt16.ofNat ((if query.recursionDesired then 0x85 else 0x84) * 256 + rcode % 256)

/-- The response to a query that asked `q`, as a message. -/
def message (query : Query) (q : Question) (rcode : Nat) (answers : List IpAddress) : Message :=
  { id := query.id, flags := flags query rcode, questions := [q]
    answers := answers.map (answerRecord q), authorities := [], additionals := [] }

/-! ## Reading it part by part -/

theorem questionAt_of_holds (hq : Name.Valid q.name) (h : Holds msg pos (encodeQuestion q)) :
    questionAt msg pos = some (q, pos + (encodeQuestion q).length) := by
  have htype := word16At_of_holds_word16 h.left.right
  have hclass := word16At_of_holds_word16 h.right
  rw [Name.length_encode] at htype
  rw [List.length_append, Name.length_encode, Octets.length_word16, ← Nat.add_assoc] at hclass
  simp only [questionAt, Name.read_of_holds hq h.left.left, htype, hclass, Option.bind_eq_bind,
    Option.bind_some, encodeQuestion, List.length_append, Name.length_encode,
    Octets.length_word16, ← Nat.add_assoc]

/-- The owner of an answer is read as the name of the question. -/
theorem read_owner_of_holds (hq : Name.Valid q.name)
    (hname : Holds msg headerLength (Name.encode q.name))
    (hpos : headerLength + Name.encodedLength q.name ≤ pos) (h : Holds msg pos (encodeOwner q)) :
    Name.read msg pos = some (q.name, pos + (encodeOwner q).length) := by
  rw [encodeOwner] at h ⊢
  cases hroot : q.name with
  | nil =>
      rw [hroot] at h hq
      exact Name.read_of_holds hq h
  | cons l ls =>
      rw [hroot] at h hq hname hpos
      exact Name.read_of_holds_pointer hq h hname hpos

/-- The data of an answer is read as its address. -/
theorem dataAt_of_holds {a : IpAddress} (h : Holds msg pos a.octets) :
    dataAt msg (addressCode a) pos a.octets.length =
      some (.address a, pos + a.octets.length) := by
  have hne : a.octets ≠ [] := by
    cases a <;> exact List.ne_nil_of_length_pos (by simp [IpAddress.octets])
  have hread := octetsAt_of_holds h hne
  have hlength : ¬a.octets.length = 0 := by simpa using hne
  simp only [dataAt, hread, Option.bind_eq_bind, Option.bind_some, hlength, if_false]
  cases a with
  | v4 a =>
      simp [addressCode, RecordCode.a, DataShape.ofCode, skipData, skipNames, IpAddress.octets]
  | v6 a =>
      simp [addressCode, RecordCode.aaaa, RecordCode.a, DataShape.ofCode, skipData, skipNames,
        IpAddress.octets]

/-- An answer behind the question is read as its record. -/
theorem recordAt_of_holds (hq : Name.Valid q.name)
    (hname : Holds msg headerLength (Name.encode q.name)) {a : IpAddress}
    (hpos : headerLength + Name.encodedLength q.name ≤ pos) (h : Holds msg pos (encodeAnswer q a)) :
    recordAt msg pos = some (answerRecord q a, pos + (encodeAnswer q a).length) := by
  have howner := read_owner_of_holds hq hname hpos h.left.left.left.left.left
  have htype := word16At_of_holds_word16 h.left.left.left.left.right
  have hclass := word16At_of_holds_word16 h.left.left.left.right
  have httl := word32At_of_holds_word32 h.left.left.right
  have hlen := word16At_of_holds h.left.right
  have hdata := dataAt_of_holds h.right
  simp only [List.length_append, Octets.length_word16, Octets.length_word32,
    Octets.length_bigEndian, ← Nat.add_assoc] at htype hclass httl hlen hdata
  have hcode : ¬(addressCode a = RecordCode.opt ∧ q.name ≠ []) := by
    cases a <;> simp [addressCode, RecordCode.a, RecordCode.aaaa, RecordCode.opt]
  have hcount : (UInt16.ofNat a.octets.length).toNat = a.octets.length := by
    cases a <;> simp [IpAddress.octets]
  simp only [recordAt, howner, htype, hclass, httl, hlen, hcount, hdata, hcode, if_false,
    Option.bind_eq_bind, Option.bind_some, encodeAnswer, List.length_append,
    Octets.length_word16, Octets.length_word32, Octets.length_bigEndian, ← Nat.add_assoc]
  rfl

/-! ## Reading all of it -/

@[simp] theorem length_encodeHeader (query : Query) (rcode n : Nat) :
    (encodeHeader query rcode n).length = headerLength := by
  simp [encodeHeader, headerLength]

/-- Nothing but addresses is in the answer section. -/
theorem isSection_map_answerRecord (answers : List IpAddress) :
    isSection (answers.map (answerRecord q)) = true := by
  rw [isSection, List.all_map, List.all_eq_true]
  intro a _
  cases a <;> rfl

/-- The header, field by field. -/
theorem header_of_holds {query : Query} {rcode n : Nat}
    (h : Holds msg 0 (encodeHeader query rcode n)) :
    word16At msg 0 = some (query.id, 2) ∧ word16At msg 2 = some (flags query rcode, 4) ∧
      word16At msg 4 = some (1, 6) ∧ word16At msg 6 = some (UInt16.ofNat n, 8) ∧
      word16At msg 8 = some (0, 10) ∧ word16At msg 10 = some (0, 12) := by
  have hid := word16At_of_holds_word16 h.left.left.left.left.left
  have hflags := word16At_of_holds_pair h.left.left.left.left.right
  have hone := word16At_of_holds h.left.left.left.right
  have hcount := word16At_of_holds h.left.left.right
  have hnone := word16At_of_holds h.left.right
  have hnone' := word16At_of_holds h.right
  simp only [List.length_append, Octets.length_word16, Octets.length_bigEndian, List.length_cons,
    List.length_nil, Nat.zero_add] at hid hflags hone hcount hnone hnone'
  have hbits : UInt16.ofNat ((if query.recursionDesired = true then (0x85 : UInt8) else 0x84).toNat
      * 256 + (UInt8.ofNat rcode).toNat) = flags query rcode := by
    rw [flags, UInt8.toNat_ofNat']
    cases query.recursionDesired <;> rfl
  rw [hbits] at hflags
  exact ⟨hid, hflags, hone, hcount, hnone, hnone'⟩

/-- As many answers as there are, modulo 2^16, are read behind the question. -/
theorem itemsAt_of_holds (hq : Name.Valid q.name)
    (hquestion : Holds msg headerLength (encodeQuestion q))
    {answers : List IpAddress}
    (h : Holds msg (headerLength + (encodeQuestion q).length) (answers.flatMap (encodeAnswer q))) :
    ∃ stop, itemsAt (recordAt msg) (answers.length % 65536)
        (headerLength + (encodeQuestion q).length) =
      some ((answers.take (answers.length % 65536)).map (answerRecord q), stop) := by
  have hlength : answers.length % 65536 = (answers.take (answers.length % 65536)).length := by
    rw [List.length_take, Nat.min_eq_left (Nat.mod_le _ _)]
  have hfront : Holds msg (headerLength + (encodeQuestion q).length)
      ((answers.take (answers.length % 65536)).flatMap (encodeAnswer q)) := by
    rw [← List.take_append_drop (answers.length % 65536) answers, List.flatMap_append] at h
    exact h.left
  have hname : Name.encodedLength q.name ≤ (encodeQuestion q).length := by
    rw [encodeQuestion, List.length_append, List.length_append, Name.length_encode]
    omega
  have hitem : ∀ a pos, headerLength + (encodeQuestion q).length ≤ pos →
      Holds msg pos (encodeAnswer q a) →
      recordAt msg pos = some (answerRecord q a, pos + (encodeAnswer q a).length) :=
    fun a pos hpos ha => recordAt_of_holds hq hquestion.left.left (by omega) ha
  have hread := itemsAt_of_forall hitem _ (Nat.le_refl _) hfront
  rw [← hlength] at hread
  exact ⟨_, hread⟩

/-- **Round trip.**  A response is decoded to what it was to say. -/
theorem decode_encode (hq : Name.Valid q.name) (query : Query) (rcode : Nat)
    (answers : List IpAddress) :
    decode (encode query q rcode answers) =
      some (message query q rcode (answers.take (answers.length % 65536))) := by
  have hself := holds_self (encode query q rcode answers)
  rw [decode]
  generalize (encode query q rcode answers).toArray = msg at hself
  have hquestion := hself.left.right
  have hanswers := hself.right
  simp only [List.length_append, length_encodeHeader, Nat.zero_add] at hquestion hanswers
  obtain ⟨hid, hflags, hone, hcount, hnone, hnone'⟩ := header_of_holds hself.left.left
  obtain ⟨stop, hrecords⟩ := itemsAt_of_holds hq hquestion hanswers
  have hasked : questionAt msg 12 = some (q, 12 + (encodeQuestion q).length) :=
    questionAt_of_holds hq hquestion
  have hcount' : (UInt16.ofNat answers.length).toNat = answers.length % 65536 :=
    UInt16.toNat_ofNat'
  have hsection := isSection_map_answerRecord (q := q) (answers.take (answers.length % 65536))
  rw [headerLength] at hrecords
  simp only [decodeArray, hid, hflags, hone, hcount, hnone, hnone', hcount', UInt16.toNat_one,
    UInt16.toNat_zero, hasked, hrecords, itemsAt, hsection, Option.bind_eq_bind,
    Option.bind_some]
  rfl

/-- A response read as the reply of a server. -/
theorem parse_reply_encode (hq : Name.Valid q.name) (query : Query) (rcode : Nat)
    (answers : List IpAddress) :
    let m := message query q rcode (answers.take (answers.length % 65536))
    Reply.parse (encode query q rcode answers) = .ok ⟨query.id, m.responseCode, m.addresses⟩ := by
  rw [Reply.parse, decode_encode hq]
  rfl

end DnsConnector.Wire.Response
