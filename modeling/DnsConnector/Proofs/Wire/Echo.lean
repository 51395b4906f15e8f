import DnsConnector.Proofs.Wire.Acceptance
import DnsConnector.Responder
import Mathlib

/-!
# DnsConnector.Proofs.Wire.Echo

What a response has to do with its query.  An accepted question stands in its
datagram exactly as it is written into the response (`Query.holds_of_parse`),
so the response repeats it octet for octet.  Read by a resolver, the response
says what it was given to say; read by the connector itself, it is no query
(`echoes_of_parse`).
-/

namespace DnsConnector.Wire

open Message

variable {bs : Octets} {query : Query} {asked : AskedQuestion} {rcode : Nat}
  {answers : List IpAddress}

/-! ## What the datagram of a query holds -/

/-- Octets that stand at a position are what is cut out of the datagram there. -/
theorem Holds.take_drop {xs : Octets} {pos : Nat} (h : Holds bs.toArray pos xs) :
    (bs.take (pos + xs.length)).drop pos = xs := by
  rw [List.drop_take, Nat.add_sub_cancel_left]
  exact (List.prefix_iff_eq_take.1 h).symm

/-- A question without pointers that was read stands there as it is written. -/
theorem holds_of_questionAt {msg : Array UInt8} {pos next : Nat} {q : Question}
    (hname : Holds msg pos (Name.encode q.name)) (h : questionAt msg pos = some (q, next)) :
    Holds msg pos (Response.encodeQuestion q) := by
  have hvalid := valid_of_questionAt h
  simp only [questionAt, Option.bind_eq_bind, Option.bind_eq_some_iff, Prod.exists,
    Option.some.injEq, Prod.mk.injEq] at h
  obtain ⟨name, stop, hread, type, stop', htype, qclass, stop'', hclass, rfl, -⟩ := h
  rw [Name.read_of_holds hvalid hname, Option.some.injEq, Prod.mk.injEq] at hread
  obtain ⟨-, rfl⟩ := hread
  obtain ⟨htype', rfl⟩ := holds_of_word16At htype
  obtain ⟨hclass', -⟩ := holds_of_word16At hclass
  rw [← Name.length_encode] at htype' hclass'
  refine holds_append.2 ⟨holds_append.2 ⟨hname, htype'⟩, ?_⟩
  rwa [List.length_append, Octets.length_word16, ← Nat.add_assoc]

/-- The identifier and the question of an accepted query stand in its datagram
as they are written into a response. -/
theorem Query.holds_of_parse (hparse : parse bs = .ok query) (hasked : query.asked = some asked) :
    Holds bs.toArray 0 (Octets.word16 query.id) ∧
      Holds bs.toArray headerLength (Response.encodeQuestion asked.question) := by
  obtain ⟨hstandard, hcount, ls, hls, rfl, rfl⟩ := parse_asked_iff.1 ⟨hparse, hasked⟩
  obtain ⟨m, hm⟩ := Option.isSome_iff_exists.1 hstandard.decodes
  obtain ⟨hlength, -⟩ := header_of_decode hm
  constructor
  · refine (holds_of_word16At (word16At_eq_some_iff.2 ⟨?_, ?_, rfl⟩)).1
    · exact Nat.le_trans (by decide) hlength
    · exact UInt16.toNat_ofNat_of_lt' (bs.wordAt_lt 0)
  · obtain ⟨hnone, hfirst⟩ := questions_of_decode hm
    have hne : m.questions ≠ [] := fun h => Nat.ne_of_gt hcount (hnone.1 h)
    obtain ⟨q, rest, hquestions⟩ := List.exists_cons_of_ne_nil hne
    obtain ⟨next, hq⟩ := hfirst q rest hquestions
    obtain ⟨rfl, -⟩ := text_of_askedQuestion ((askedQuestion_eq_ok_iff hq).2 ⟨ls, hls, rfl⟩)
    exact holds_of_questionAt hls.holds hq

/-! ## What the response holds -/

namespace Response

/-- There are fewer answers than octets. -/
theorem length_lt_length_encode {q : Question} :
    answers.length < (encode query q rcode answers).length := by
  have hanswers : answers.length ≤ (answers.flatMap (encodeAnswer q)).length := by
    induction answers with
    | nil => exact Nat.le_refl _
    | cons a answers ih =>
        rw [List.flatMap_cons, List.length_append, List.length_cons, encodeAnswer]
        simp only [List.length_append, Octets.length_word16]
        omega
  have hheader : headerLength = 12 := rfl
  rw [encode, List.length_append, List.length_append, length_encodeHeader]
  omega

/-- The third and the fourth octet, and the four counts. -/
theorem header_encode (query : Query) (q : Question) (hcount : answers.length < 65536)
    (hrcode : rcode < 16) :
    (encode query q rcode answers).octetAt 2 = 0x84 + query.recursionDesired.toNat ∧
      (encode query q rcode answers).octetAt 3 = rcode ∧
      (encode query q rcode answers).wordAt 4 = 1 ∧
      (encode query q rcode answers).wordAt 6 = answers.length ∧
      (encode query q rcode answers).wordAt 8 = 0 ∧
      (encode query q rcode answers).wordAt 10 = 0 := by
  simp only [Octets.wordAt, Octets.octetAt, encode, encodeHeader, Octets.word16, Octets.bigEndian,
    List.cons_append, List.nil_append, List.getElem?_cons_succ,
    List.getElem?_cons_zero, Option.getD_some, UInt8.toNat_ofNat']
  refine ⟨?_, by omega, trivial, by omega, trivial, trivial⟩
  cases query.recursionDesired <;> rfl

/-- The message of a response says what the response was to say. -/
theorem message_says (query : Query) (q : Question) (answers : List IpAddress)
    (hrcode : rcode < 16) :
    (message query q rcode answers).isResponse = true ∧
      (message query q rcode answers).responseCode = rcode ∧
      (message query q rcode answers).addresses = answers := by
  have hflags : (flags query rcode).toNat =
      (0x84 + query.recursionDesired.toNat) * 256 + rcode := by
    rw [flags, UInt16.toNat_ofNat']
    cases query.recursionDesired <;> simp <;> omega
  have hbit : query.recursionDesired.toNat ≤ 1 := Bool.toNat_le _
  refine ⟨?_, ?_, ?_⟩
  · change decide (0x8000 ≤ (flags query rcode).toNat) = true
    rw [hflags, decide_eq_true_eq]
    omega
  · change (flags query rcode).toNat % 16 = rcode
    rw [hflags]
    omega
  · change (answers.map (answerRecord q)).filterMap _ = answers
    rw [List.filterMap_map]
    exact List.filterMap_some

end Response

/-! ## Query and response -/

/-- What a response has to do with its query. -/
structure Echoes (bs : Octets) (asked : AskedQuestion) (rcode : Nat) (answers : List IpAddress)
    (response : Octets) : Prop where
  id_eq : response.take 2 = bs.take 2
  /-- The question section, up to the end of the first question's class. -/
  question_eq : ∃ stop, questionAt bs.toArray headerLength = some (asked.question, stop) ∧
    questionAt response.toArray headerLength = some (asked.question, stop) ∧
    (response.take stop).drop headerLength = (bs.take stop).drop headerLength
  /-- A response, of the standard kind, authoritative and not cut; the bit that
  asks for recursion is that of the query. -/
  flags_eq : response.octetAt 2 = 0x84 + bs.octetAt 2 % 2
  code_eq : response.octetAt 3 = rcode
  counts_eq : response.wordAt 4 = 1 ∧ response.wordAt 6 = answers.length ∧
    response.wordAt 8 = 0 ∧ response.wordAt 10 = 0
  /-- What a resolver reads. -/
  reply_eq : Reply.parse response = .ok ⟨UInt16.ofNat (bs.wordAt 0), rcode, answers⟩
  /-- The answers, one by one. -/
  records_eq : ∃ m, decode response = some m ∧ m.answers = answers.map fun a =>
    ⟨asked.question.name, Response.addressCode a, 1, 5, .address a⟩
  rejected : Query.parse response = .error .response
  /-- No policy answers it. -/
  unanswered : ∀ (ε : Type) (p : Policy ε) (source : SocketAddress) (book : AddressBook)
    (now : Nat), p.respond response source book now = (book, none)

/-- **Echo.**  The response to an accepted question that fits a datagram repeats
its identifier and its question octet for octet, says what it was given to say,
and would not be answered itself. -/
theorem echoes_of_parse (hparse : Query.parse bs = .ok query) (hasked : query.asked = some asked)
    (hrcode : rcode < 16)
    (hfits : (Response.encode query asked.question rcode answers).length ≤ 65535) :
    Echoes bs asked rcode answers (Response.encode query asked.question rcode answers) := by
  have hvalid := Query.valid_of_parse hparse hasked
  obtain ⟨hid, hquestion⟩ := Query.holds_of_parse hparse hasked
  obtain ⟨-, -, -, -, -, hquery⟩ := Query.parse_asked_iff.1 ⟨hparse, hasked⟩
  have hcount : answers.length < 65536 :=
    Nat.lt_of_lt_of_le Response.length_lt_length_encode (Nat.le_succ_of_le hfits)
  have hall : answers.take (answers.length % 65536) = answers := by
    rw [Nat.mod_eq_of_lt hcount, List.take_length]
  obtain ⟨hflags, hcode, hcounts⟩ := Response.header_encode query asked.question hcount hrcode
  obtain ⟨hresponse, hrcode', haddresses⟩ :=
    Response.message_says query asked.question answers hrcode
  have hdecode := Response.decode_encode hvalid query rcode answers
  have hreply := Response.parse_reply_encode hvalid query rcode answers
  rw [hall] at hdecode
  simp only [hall, hrcode', haddresses] at hreply
  have hself := holds_self (Response.encode query asked.question rcode answers)
  have hid' := hself.left.left.left.left.left.left.left
  have hquestion' := hself.left.right
  rw [Response.length_encodeHeader, Nat.zero_add] at hquestion'
  have hparse' : Query.parse (Response.encode query asked.question rcode answers) =
      .error .response := by
    rw [Query.parse, hdecode]
    exact if_pos hresponse
  refine ⟨?_, ⟨_, Response.questionAt_of_holds hvalid hquestion,
    Response.questionAt_of_holds hvalid hquestion', ?_⟩, ?_, hcode, hcounts, ?_,
    ⟨_, hdecode, rfl⟩, hparse', ?_⟩
  · exact (hid'.take_drop).trans hid.take_drop.symm
  · exact hquestion'.take_drop.trans hquestion.take_drop.symm
  · rw [hflags, hquery]
    rcases Nat.mod_two_eq_zero_or_one (bs.octetAt 2) with hbit | hbit <;> simp [Query.ofHeader, hbit]
  · rw [hreply, hquery]
    rfl
  · intro ε p source book now
    rw [Policy.respond, Policy.draft, hparse']
    rfl

/-- A question for the IPv4 addresses of a name with a capital letter. -/
def capital : AskedQuestion := ⟨⟨[[0x41]], 1, 1⟩, "A."⟩

/-- The response to a query with two questions repeats the first one. -/
theorem echoes_of_parse_of_repeating :
    Query.parse Query.repeating = .ok ⟨0x1234, true, some capital⟩ ∧
      Response.encode ⟨0x1234, true, some capital⟩ capital.question 3
          [.v4 0x0a000002#32, .v6 0xfd7a115ca1e0a99c0001000000000001#128] =
        [0x12, 0x34, 0x85, 3, 0, 1, 0, 2, 0, 0, 0, 0, 1, 0x41, 0, 0, 1, 0, 1,
          0xc0, 12, 0, 1, 0, 1, 0, 0, 0, 5, 0, 4, 10, 0, 0, 2,
          0xc0, 12, 0, 28, 0, 1, 0, 0, 0, 5, 0, 16,
          0xfd, 0x7a, 0x11, 0x5c, 0xa1, 0xe0, 0xa9, 0x9c, 0, 1, 0, 0, 0, 0, 0, 1] ∧
      Echoes Query.repeating capital 3
        [.v4 0x0a000002#32, .v6 0xfd7a115ca1e0a99c0001000000000001#128]
        (Response.encode ⟨0x1234, true, some capital⟩ capital.question 3
          [.v4 0x0a000002#32, .v6 0xfd7a115ca1e0a99c0001000000000001#128]) := by
  have hparse : Query.parse Query.repeating = .ok ⟨0x1234, true, some capital⟩ := by cbv
  exact ⟨hparse, by decide, echoes_of_parse hparse rfl (by decide) (by decide)⟩

end DnsConnector.Wire
