import DnsConnector.Proofs.Wire.Name
import DnsConnector.Wire.Query

/-!
# DnsConnector.Proofs.Wire.Query

What is known about an accepted query: its message is decoded, and the question
asked is the first one of the message, with a name that fits into a message and
whose text is the domain (`asks_of_parse`).
-/

namespace DnsConnector.Wire

namespace Message

/-- Every item that was read was read at some position. -/
theorem exists_of_mem_itemsAt {α : Type} {item : Nat → Option (α × Nat)} {n pos stop : Nat}
    {xs : List α} (h : itemsAt item n pos = some (xs, stop)) {x : α} (hx : x ∈ xs) :
    ∃ start next, item start = some (x, next) := by
  induction n generalizing pos xs stop with
  | zero =>
      simp only [itemsAt, Option.some.injEq, Prod.mk.injEq] at h
      rw [← h.1] at hx
      contradiction
  | succ n ih =>
      simp only [itemsAt, Option.bind_eq_bind, Option.bind_eq_some_iff, Option.some.injEq,
        Prod.mk.injEq] at h
      obtain ⟨⟨y, next⟩, hy, ⟨ys, stop'⟩, hys, rfl, -⟩ := h
      rcases List.mem_cons.1 hx with rfl | hx
      · exact ⟨pos, next, hy⟩
      · exact ih hys hx

theorem valid_of_questionAt {msg : Array UInt8} {pos stop : Nat} {q : Question}
    (h : questionAt msg pos = some (q, stop)) : Name.Valid q.name := by
  simp only [questionAt, Option.bind_eq_bind, Option.bind_eq_some_iff, Option.some.injEq,
    Prod.mk.injEq] at h
  obtain ⟨⟨name, next⟩, hname, _, -, _, -, rfl, -⟩ := h
  exact Name.valid_of_read hname

/-- The names asked for in a decoded message fit into a message. -/
theorem valid_of_decode {bs : Octets} {m : Message} (h : decode bs = some m) {q : Question}
    (hq : q ∈ m.questions) : Name.Valid q.name := by
  simp only [decode, decodeArray, Option.bind_eq_bind, Option.bind_eq_some_iff] at h
  obtain ⟨_, -, _, -, _, -, _, -, _, -, _, -, ⟨questions, stop⟩, hquestions, _, -, _, -, _, -, h⟩ :=
    h
  rw [Option.ite_none_right_eq_some, Option.some.injEq] at h
  obtain ⟨-, rfl⟩ := h
  obtain ⟨start, next, hread⟩ := exists_of_mem_itemsAt hquestions hq
  exact valid_of_questionAt hread

end Message

namespace Query

/-- The first question of a datagram, and the text of its name. -/
def Asks (bs : Octets) (asked : AskedQuestion) : Prop :=
  ∃ m rest, Message.decode bs = some m ∧ m.questions = asked.question :: rest ∧
    Name.text? asked.question.name = some asked.domain

theorem text_of_askedQuestion {msg : Array UInt8} {q : Question} {asked : AskedQuestion}
    (h : askedQuestion msg q = .ok asked) :
    asked.question = q ∧ Name.text? q.name = some asked.domain := by
  rw [askedQuestion] at h
  split at h
  case h_4 =>
      split at h
      next domain htext =>
        obtain rfl := Except.ok.inj h
        exact ⟨rfl, htext⟩
      next => contradiction
  all_goals contradiction

/-- The question of an accepted query is the first one of its message. -/
theorem asks_of_parse {bs : Octets} {query : Query} {asked : AskedQuestion}
    (h : parse bs = .ok query) (hasked : query.asked = some asked) : Asks bs asked := by
  rw [parse] at h
  cases hm : Message.decode bs with
  | none => rw [hm] at h; contradiction
  | some m =>
      simp only [hm] at h
      split at h
      · contradiction
      · split at h
        · contradiction
        · cases hquestions : m.questions with
          | nil =>
              rw [hquestions] at h
              obtain rfl := Except.ok.inj h
              contradiction
          | cons q rest =>
              simp only [hquestions] at h
              cases hq : askedQuestion bs.toArray q with
              | error f => rw [hq] at h; contradiction
              | ok asked' =>
                  rw [hq] at h
                  obtain rfl := Except.ok.inj h
                  obtain rfl : asked' = asked := Option.some.inj hasked
                  obtain ⟨rfl, htext⟩ := text_of_askedQuestion hq
                  exact ⟨m, rest, hm, hquestions, htext⟩

/-- The name of an accepted question fits into a message. -/
theorem valid_of_parse {bs : Octets} {query : Query} {asked : AskedQuestion}
    (h : parse bs = .ok query) (hasked : query.asked = some asked) :
    Name.Valid asked.question.name := by
  obtain ⟨m, rest, hm, hquestions, -⟩ := asks_of_parse h hasked
  exact Message.valid_of_decode hm (by rw [hquestions]; exact List.mem_cons_self)

end Query

end DnsConnector.Wire
