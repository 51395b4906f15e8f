import DnsConnector.Proofs.Wire.Response
import DnsConnector.Wire.Lookup

/-!
# DnsConnector.Proofs.Wire.Lookup

The queries that the connector sends, seen by a server: each is decoded to its
question (`decode_encode`), and would be accepted by the connector itself if
the name has a text (`parse_encode`).
-/

namespace DnsConnector.Wire

/-- Labels are followed one by one. -/
theorem followName_of_labels {msg : Array UInt8} {pos steps : Nat} {ls : List Label}
    (hlabel : ∀ l ∈ ls, 0 < l.length ∧ l.length ≤ Name.maxLabel)
    (h : Holds msg pos (ls.flatMap Name.encodeLabel)) :
    followName msg (ls.length + steps) pos =
      followName msg steps (pos + (ls.flatMap Name.encodeLabel).length) := by
  induction ls generalizing pos with
  | nil => simp
  | cons l ls ih =>
      obtain ⟨hnonempty, hshort⟩ := hlabel l List.mem_cons_self
      obtain ⟨hb, hne⟩ := Name.lengthOctet hnonempty hshort
      have hmax : Name.maxLabel = 63 := rfl
      have hplain : ¬192 ≤ l.length := by omega
      rw [List.flatMap_cons, Name.encodeLabel, List.cons_append] at h
      have hmore := ih (fun l' hl' => hlabel l' (List.mem_cons_of_mem l hl')) h.tail.right
      have hsteps : (l :: ls).length + steps = ls.length + steps + 1 := by
        rw [List.length_cons, Nat.add_right_comm]
      have hstop : pos + ((l :: ls).flatMap Name.encodeLabel).length =
          pos + 1 + l.length + (ls.flatMap Name.encodeLabel).length := by
        rw [List.flatMap_cons, List.length_append, Name.encodeLabel, List.length_cons]
        omega
      rw [hsteps, hstop]
      simp only [followName, h.getElem?, hb, hne, hplain, if_false, hmore]

/-- A name without pointers is followed up to its end. -/
theorem followName_of_holds {msg : Array UInt8} {pos steps : Nat} {ls : List Label}
    (hlabel : ∀ l ∈ ls, 0 < l.length ∧ l.length ≤ Name.maxLabel)
    (h : Holds msg pos (Name.encode ls)) (hsteps : ls.length < steps) :
    followName msg steps pos = .root := by
  obtain ⟨n, rfl⟩ := Nat.exists_eq_add_of_lt hsteps
  rw [Nat.add_assoc, followName_of_labels hlabel h.left]
  simp only [followName, h.right.getElem?, if_true]

namespace Lookup

open Message

variable {q : Question}

/-- **Round trip.**  A query is decoded to its question. -/
theorem decode_encode (hq : Name.Valid q.name) (id : UInt16) :
    decode (encode id q) = some ⟨id, flags, [q], [], [], []⟩ := by
  have hself := holds_self (encode id q)
  rw [decode]
  generalize (encode id q).toArray = msg at hself
  have hid := word16At_of_holds_word16 hself.left.left.left.left.left.left
  have hflags := word16At_of_holds_word16 hself.left.left.left.left.left.right
  have hone := word16At_of_holds hself.left.left.left.left.right
  have hnone := word16At_of_holds hself.left.left.left.right
  have hnone' := word16At_of_holds hself.left.left.right
  have hnone'' := word16At_of_holds hself.left.right
  have hquestion := Response.questionAt_of_holds hq hself.right
  simp only [List.length_append, Octets.length_word16, Octets.length_bigEndian,
    Nat.zero_add] at hid hflags hone hnone hnone' hnone'' hquestion
  have hcount : (UInt16.ofNat 1).toNat = 1 := rfl
  have hcount' : (UInt16.ofNat 0).toNat = 0 := rfl
  simp only [decodeArray, hid, hflags, hone, hnone, hnone', hnone'', hquestion, hcount, hcount',
    itemsAt, Option.bind_eq_bind, Option.bind_some]
  rfl

/-- A query for a name with a text is accepted, and asks its question. -/
theorem parse_encode (hq : Name.Valid q.name) {domain : String}
    (htext : Name.text? q.name = some domain) (id : UInt16) :
    Query.parse (encode id q) = .ok ⟨id, true, some ⟨q, domain⟩⟩ := by
  have hself := holds_self (encode id q)
  have hname : Holds (encode id q).toArray headerLength (Name.encode q.name) := hself.right.left.left
  have hsteps : q.name.length < (encode id q).toArray.size := by
    have hle := hname.add_length_le (by simp [Name.encode])
    have hlt := Name.length_lt_encodedLength q.name
    rw [Name.length_encode] at hle
    omega
  rw [Query.parse, decode_encode hq]
  simp only [isResponse, opcode, recursionDesired, flags, Query.askedQuestion,
    followName_of_holds hq.label hname hsteps, htext]
  rfl

end Lookup

end DnsConnector.Wire
