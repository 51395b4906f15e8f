import DnsConnector.Proofs.Listener
import DnsConnector.Proofs.Wire.Acceptance
import DnsConnector.Proofs.Wire.Data
import DnsConnector.Wire.Reply
import Mathlib

/-!
# DnsConnector.Proofs.Wire.Surplus

Octets behind a message.  The readers of its fields, names and data give the
same result when octets are put behind it, so this is the case of its records
and of the whole message, and then of the walk along the first question's name,
which takes as many steps as the message is long.

So a datagram that was cut off is read as the whole one is or not at all
(`readsLike_append`).
-/

namespace DnsConnector.Wire

namespace Message

/-! ## Questions and records -/

theorem persists_questionAt (pos : Nat) : Persists (questionAt · pos) := by
  refine (Name.bounded_read pos).persists.bind fun ⟨name, pos⟩ => ?_
  refine (bounded_word16At pos).persists.bind fun ⟨type, pos⟩ => ?_
  exact (bounded_word16At pos).persists.bind fun ⟨qclass, pos⟩ => .const _

theorem persists_recordAt (pos : Nat) : Persists (recordAt · pos) := by
  refine (Name.bounded_read pos).persists.bind fun ⟨name, pos⟩ => ?_
  refine (bounded_word16At pos).persists.bind fun ⟨type, pos⟩ => ?_
  refine .ite (.const none) ?_
  refine (bounded_word16At pos).persists.bind fun ⟨rclass, pos⟩ => ?_
  refine (bounded_word32At pos).persists.bind fun ⟨ttl, pos⟩ => ?_
  refine (bounded_word16At pos).persists.bind fun ⟨len, pos⟩ => ?_
  exact (bounded_dataAt type pos len.toNat).persists.bind fun ⟨data, pos⟩ => .const _

theorem persists_itemsAt {α : Type} {item : Array UInt8 → Nat → Option (α × Nat)}
    (hitem : ∀ pos, Persists (item · pos)) (n pos : Nat) :
    Persists fun msg => itemsAt (item msg) n pos := by
  induction n generalizing pos with
  | zero => exact .const _
  | succ n ih => 
      refine (hitem pos).bind fun ⟨x, pos⟩ => ?_
      exact (ih pos).bind fun ⟨xs, pos⟩ => .const _

theorem persists_decodeArray : Persists decodeArray := by
  refine (bounded_word16At 0).persists.bind fun ⟨id, pos⟩ => ?_
  refine (bounded_word16At pos).persists.bind fun ⟨flags, pos⟩ => ?_
  refine (bounded_word16At pos).persists.bind fun ⟨questionCount, pos⟩ => ?_
  refine (bounded_word16At pos).persists.bind fun ⟨answerCount, pos⟩ => ?_
  refine (bounded_word16At pos).persists.bind fun ⟨authorityCount, pos⟩ => ?_
  refine (bounded_word16At pos).persists.bind fun ⟨additionalCount, pos⟩ => ?_
  refine (persists_itemsAt persists_questionAt _ pos).bind fun ⟨questions, pos⟩ => ?_
  refine (persists_itemsAt persists_recordAt _ pos).bind fun ⟨answers, pos⟩ => ?_
  refine (persists_itemsAt persists_recordAt _ pos).bind fun ⟨authorities, pos⟩ => ?_
  exact (persists_itemsAt persists_recordAt _ pos).bind fun ⟨additionals, pos⟩ => .const _

variable {bs : Octets} {m : Message}

/-- What stands behind a message is not looked at. -/
theorem decode_append (h : decode bs = some m) (more : Octets) : decode (bs ++ more) = some m := by
  have hmore := persists_decodeArray bs.toArray more.toArray m h
  rwa [List.append_toArray] at hmore

end Message

/-! ## Queries and replies -/

theorem Holds.append {msg : Array UInt8} {pos : Nat} {bs : Octets} (h : Holds msg pos bs)
    (more : Array UInt8) : Holds (msg ++ more) pos bs := by
  rw [Holds, Array.toList_append, List.drop_append]
  exact h.trans (List.prefix_append _ _)

variable {bs : Octets}

/-- The walk along the name of the first question ends where it ended. -/
theorem followName_append {name : List Label} {stop : Nat}
    (hread : Name.read bs.toArray headerLength = some (name, stop))
    (hroot : followName bs.toArray bs.toArray.size headerLength = .root) (more : Octets) :
    followName (bs ++ more).toArray (bs ++ more).toArray.size headerLength = .root := by
  rw [← List.append_toArray]
  have hread' : Name.read (bs.toArray ++ more.toArray) headerLength = some (name, stop) :=
    (Name.bounded_read headerLength).persists _ _ _ hread
  have hvalid := Name.valid_of_read hread
  rcases followName_cases hread with ⟨-, -, hholds, -⟩ | ⟨hpointer, -⟩
  · rcases followName_cases hread' with ⟨hroot', -⟩ | ⟨-, hpointer⟩
    · exact hroot'
    · exact absurd hpointer
        (Name.not_hasPointer_of_holds hvalid.label (hholds.append more.toArray))
  · rw [hroot] at hpointer
    contradiction

namespace Query

variable {query : Query} {asked : AskedQuestion}

theorem askedQuestion_append {q : Question} {next : Nat}
    (hq : Message.questionAt bs.toArray headerLength = some (q, next))
    (h : askedQuestion bs.toArray q = .ok asked) (more : Octets) :
    askedQuestion (bs ++ more).toArray q = .ok asked := by
  obtain ⟨stop, hread, -⟩ := Message.questionAt_eq_some_iff.1 hq
  rw [askedQuestion] at h
  split at h
  case h_4 hroot =>
      rw [askedQuestion, followName_append hread hroot more]
      exact h
  all_goals contradiction

/-- An accepted query stays the same query. -/
theorem parse_append (h : parse bs = .ok query) (more : Octets) :
    parse (bs ++ more) = .ok query := by
  obtain ⟨m, hm⟩ := exists_decode_of_parse h
  have hfirst := (Message.questions_of_decode hm).2
  simp only [parse, hm] at h
  simp only [parse, Message.decode_append hm more]
  split at h
  · contradiction
  next hresponse =>
    rw [if_neg hresponse]
    split at h
    · contradiction
    next hopcode =>
      rw [if_neg hopcode]
      cases hquestions : m.questions with
      | nil =>
          rw [hquestions] at h
          exact h
      | cons q rest =>
          obtain ⟨next, hq⟩ := hfirst q rest hquestions
          simp only [hquestions] at h ⊢
          cases hasked : askedQuestion bs.toArray q with
          | error fault =>
              rw [hasked] at h
              contradiction
          | ok asked =>
              rw [hasked] at h
              rw [askedQuestion_append hq hasked more]
              exact h

end Query

namespace Reply

variable {reply : Reply}

/-- An accepted reply stays the same reply. -/
theorem parse_append (h : parse bs = .ok reply) (more : Octets) :
    parse (bs ++ more) = .ok reply := by
  rw [parse] at h ⊢
  cases hm : Message.decode bs with
  | none =>
      rw [hm] at h
      contradiction
  | some m =>
      rw [hm] at h
      rw [Message.decode_append hm more]
      exact h

end Reply

/-! ## Whole datagrams and cut ones -/

/-- What can be read of the first octets is read in the same way of the others. -/
structure ReadsLike (bs whole : Octets) : Prop where
  /-- All fields of the message, its operation and its response code included. -/
  message : ∀ m, Message.decode bs = some m → Message.decode whole = some m
  query : ∀ query, Query.parse bs = .ok query → Query.parse whole = .ok query
  reply : ∀ reply, Reply.parse bs = .ok reply → Reply.parse whole = .ok reply

/-- The first octets are rejected, or are the same query or reply as the others. -/
structure SameOrRejected (cut whole : Octets) : Prop where
  query : (∃ fault, Query.parse cut = .error fault) ∨ Query.parse cut = Query.parse whole
  reply : Reply.parse cut = .error Reply.undecodable ∨ Reply.parse cut = Reply.parse whole

theorem ReadsLike.sameOrRejected {cut whole : Octets} (h : ReadsLike cut whole) :
    SameOrRejected cut whole where
  query := by
    cases hquery : Query.parse cut with
    | error fault => exact .inl ⟨fault, rfl⟩
    | ok query => exact .inr (h.query query hquery).symm
  reply := by
    cases hm : Message.decode cut with
    | none => exact .inl (by rw [Reply.parse, hm])
    | some m => exact .inr (by rw [Reply.parse, Reply.parse, hm, h.message m hm])

theorem ReadsLike.append (bs more : Octets) : ReadsLike bs (bs ++ more) where
  message _ h := Message.decode_append h more
  query _ h := Query.parse_append h more
  reply _ h := Reply.parse_append h more

/-- A datagram that was cut off is rejected or read as the whole one. -/
theorem SameOrRejected.take (bs : Octets) (limit : Nat) : SameOrRejected (bs.take limit) bs := by
  have hlike := ReadsLike.append (bs.take limit) (bs.drop limit)
  rw [List.take_append_drop] at hlike
  exact hlike.sameOrRejected

/-- **Surplus octets.**  Whatever octets stand behind a message, it is the same
message, the same query and the same reply.  So a datagram that is cut to what a
buffer has room for is rejected or read as the whole datagram is, and that is so
of everything a listener asks for a response to. -/
theorem readsLike_append (bs : Octets) :
    (∀ more, ReadsLike bs (bs ++ more)) ∧
      (∀ limit, SameOrRejected (bs.take limit) bs) ∧
      ∀ (addressFault : Option SocketFault) (events : List Listener.Event) (task : Nat)
        (received : Octets) (source : SocketAddress),
        .handle task received source ∈ ((Listener.start addressFault).run events).2 →
          ∃ octets, .datagram octets source ∈ events ∧ received = octets.take 4096 ∧
            SameOrRejected received octets := by
  refine ⟨ReadsLike.append bs, SameOrRejected.take bs, fun addressFault events _ _ _ h => ?_⟩
  obtain hfresh | ⟨octets, hmem, rfl⟩ := (Listener.Ready.start addressFault).datagram_of_handle h
  · contradiction
  · exact ⟨octets, hmem, rfl, SameOrRejected.take octets 4096⟩

/-- A query whose second question points to the name of the first is the same
one with another octet behind it, and none without its last octet. -/
theorem readsLike_append_of_repeating :
    Query.parse (Query.repeating ++ [0xc0]) =
        .ok ⟨0x1234, true, some ⟨⟨[[0x41]], 1, 1⟩, "A."⟩⟩ ∧
      (∃ fault, Query.parse (Query.repeating.take 24) = .error fault) ∧
      SameOrRejected (Query.repeating.take 24) Query.repeating ∧
      .handle 0 Query.repeating default ∈
        ((Listener.start none).run [.datagram Query.repeating default, .started 0]).2 ∧
      ∃ octets, .datagram octets default ∈
          [Listener.Event.datagram Query.repeating default, .started 0] ∧
        Query.repeating = octets.take 4096 ∧ SameOrRejected Query.repeating octets := by
  have hparse : Query.parse Query.repeating =
      .ok ⟨0x1234, true, some ⟨⟨[[0x41]], 1, 1⟩, "A."⟩⟩ := by cbv
  have hhandle : .handle 0 Query.repeating default ∈
      ((Listener.start none).run [.datagram Query.repeating default, .started 0]).2 := by
    decide +kernel
  obtain ⟨hmore, hcut, hlistener⟩ := readsLike_append Query.repeating
  exact ⟨(hmore [0xc0]).query _ hparse, ⟨.undecodable, by cbv⟩, hcut 24, hhandle,
    hlistener none _ 0 _ default hhandle⟩

end DnsConnector.Wire
