import DnsConnector.Proofs.Wire.Lookup
import DnsConnector.Proofs.Wire.NameText
import DnsConnector.Proofs.Wire.Query

/-!
# DnsConnector.Proofs.Wire.Acceptance

Which datagrams are accepted as queries, in terms of their octets.  The first
question's name is read twice: by the decoder, which follows pointers and keeps
the labels, and octet by octet, which looks for pointers into the header.  The
name starts where the header ends, so a pointer in it that the decoder accepts
always aims into the header (`holds_or_pointer_of_readRun`): what is accepted
has no pointer at all, and the second reading ends in no other way
(`followName_cases`).

The result is a grammar for queries (`accepts_iff`).
-/

namespace DnsConnector

/-! ## Octets of a datagram -/

namespace Octets

/-- The octet at a position, zero behind the end. -/
def octetAt (bs : Octets) (pos : Nat) : Nat := (bs[pos]?.getD 0).toNat

/-- The number that two octets from a position on spell. -/
def wordAt (bs : Octets) (pos : Nat) : Nat := bs.octetAt pos * 256 + bs.octetAt (pos + 1)

theorem octetAt_lt (bs : Octets) (pos : Nat) : bs.octetAt pos < 256 := UInt8.toNat_lt _

theorem wordAt_lt (bs : Octets) (pos : Nat) : bs.wordAt pos < 65536 := by
  have hhigh := octetAt_lt bs pos
  have hlow := octetAt_lt bs (pos + 1)
  unfold wordAt
  omega

end Octets

namespace Wire

namespace Message

variable {bs : Octets} {m : Message}

/-- A field of two octets is read where there are two octets. -/
theorem word16At_eq_some_iff {pos next : Nat} {w : UInt16} :
    word16At bs.toArray pos = some (w, next) ↔
      pos + 2 ≤ bs.length ∧ w.toNat = bs.wordAt pos ∧ next = pos + 2 := by
  simp only [word16At, octetsAt, List.size_toArray]
  by_cases hfits : pos + 2 ≤ bs.length
  · have hpair : (bs.toArray.extract pos (pos + 2)).toList = [bs[pos], bs[pos + 1]] := by
      rw [Array.toList_extract, List.extract_eq_take_drop, Nat.add_sub_cancel_left]
      change (bs.drop pos).take 2 = _
      rw [List.drop_eq_getElem_cons (show pos < bs.length by omega),
        List.drop_eq_getElem_cons (show pos + 1 < bs.length by omega)]
      rfl
    have hword : bs.wordAt pos = bs[pos].toNat * 256 + bs[pos + 1].toNat := by
      simp [Octets.wordAt, Octets.octetAt, List.getElem?_eq_getElem (show pos < bs.length by omega),
        List.getElem?_eq_getElem (show pos + 1 < bs.length by omega)]
    have hlt := bs.wordAt_lt pos
    rw [if_pos hfits, hpair, Option.map_some, Option.some.injEq, Prod.mk.injEq, hword]
    simp only [Octets.ofBigEndian, List.foldl_cons, List.foldl_nil, Nat.zero_mul, Nat.zero_add,
      ← hword, hfits, true_and]
    constructor
    · rintro ⟨rfl, rfl⟩
      exact ⟨by rw [UInt16.toNat_ofNat', Nat.mod_eq_of_lt hlt], rfl⟩
    · rintro ⟨hw, rfl⟩
      exact ⟨by rw [← hw, UInt16.ofNat_toNat], rfl⟩
  · simp [hfits]

/-- The fields of the header, and where the questions stand. -/
theorem header_of_decode (h : decode bs = some m) :
    headerLength ≤ bs.length ∧ m.id.toNat = bs.wordAt 0 ∧ m.flags.toNat = bs.wordAt 2 ∧
      ∃ stop, itemsAt (questionAt bs.toArray) (bs.wordAt 4) headerLength =
        some (m.questions, stop) := by
  simp only [decode, decodeArray, Option.bind_eq_bind, Option.bind_eq_some_iff, Prod.exists,
    word16At_eq_some_iff, Option.ite_none_right_eq_some, Option.some.injEq] at h
  obtain ⟨id, _, ⟨-, hid, rfl⟩, flags, _, ⟨-, hflags, rfl⟩, count, _, ⟨-, hcount, rfl⟩, _, _,
    ⟨-, -, rfl⟩, _, _, ⟨-, -, rfl⟩, _, _, ⟨hlength, -, rfl⟩, questions, stop, hquestions, _, _, -, _, _,
    -, _, _, -, -, rfl⟩ := h
  rw [hcount] at hquestions
  exact ⟨hlength, hid, hflags, stop, hquestions⟩

/-- The flags of a decoded message, by its third octet. -/
theorem flags_of_decode (h : decode bs = some m) :
    (m.isResponse = true ↔ 128 ≤ bs.octetAt 2) ∧ m.opcode = bs.octetAt 2 / 8 % 16 ∧
      m.recursionDesired = (bs.octetAt 2 % 2 == 1) := by
  obtain ⟨-, -, hflags, -⟩ := header_of_decode h
  have hlow : bs.octetAt (2 + 1) < 256 := bs.octetAt_lt 3
  unfold Octets.wordAt at hflags
  refine ⟨?_, ?_, ?_⟩
  · rw [isResponse, decide_eq_true_eq, hflags]
    omega
  · rw [opcode, hflags]
    omega
  · have hbit : (bs.octetAt 2 * 256 + bs.octetAt (2 + 1)) / 256 % 2 = bs.octetAt 2 % 2 := by omega
    rw [recursionDesired, hflags, hbit]

/-- There is a first question exactly if the header counts any, and it stands
behind the header. -/
theorem questions_of_decode (h : decode bs = some m) :
    (m.questions = [] ↔ bs.wordAt 4 = 0) ∧
      ∀ q rest, m.questions = q :: rest →
        ∃ next, questionAt bs.toArray headerLength = some (q, next) := by
  obtain ⟨-, -, -, stop, hquestions⟩ := header_of_decode h
  cases hn : bs.wordAt 4 with
  | zero =>
      rw [hn, itemsAt, Option.some.injEq, Prod.mk.injEq] at hquestions
      simp [← hquestions.1]
  | succ n =>
      rw [hn] at hquestions
      simp only [itemsAt, Option.bind_eq_bind, Option.bind_eq_some_iff, Prod.exists,
        Option.some.injEq, Prod.mk.injEq] at hquestions
      obtain ⟨q, next, hq, qs, -, -, hcons, -⟩ := hquestions
      rw [← hcons]
      refine ⟨by simp, fun q' rest heq => ?_⟩
      obtain ⟨rfl, -⟩ := List.cons.inj heq
      exact ⟨next, hq⟩

/-- The type and the class of a question follow its name. -/
theorem questionAt_eq_some_iff {pos next : Nat} {q : Question} :
    questionAt bs.toArray pos = some (q, next) ↔
      ∃ stop, Name.read bs.toArray pos = some (q.name, stop) ∧ stop + 4 ≤ bs.length ∧
        q.type.toNat = bs.wordAt stop ∧ q.qclass.toNat = bs.wordAt (stop + 2) ∧
        next = stop + 4 := by
  simp only [questionAt, Option.bind_eq_bind, Option.bind_eq_some_iff, Prod.exists,
    word16At_eq_some_iff, Option.some.injEq, Prod.mk.injEq]
  constructor
  · rintro ⟨name, stop, hname, type, _, ⟨-, htype, rfl⟩, qclass, _, ⟨hend, hclass, rfl⟩, rfl, rfl⟩
    exact ⟨stop, hname, hend, htype, hclass, rfl⟩
  · rintro ⟨stop, hname, hend, htype, hclass, rfl⟩
    exact ⟨q.name, stop, hname, q.type, stop + 2, ⟨by omega, htype, rfl⟩, q.qclass, stop + 4,
      ⟨hend, hclass, rfl⟩, rfl, rfl⟩

end Message

/-! ## Two readings of one name -/

namespace Name

variable {msg : Array UInt8} {pos : Nat} {ls : List Label}

/-- Behind some labels of the name at a position there is a pointer. -/
def HasPointer (msg : Array UInt8) (pos : Nat) : Prop :=
  ∃ (front : List Label) (high : UInt8),
    (∀ l ∈ front, 0 < l.length ∧ l.length ≤ maxLabel) ∧ 192 ≤ high.toNat ∧
      Holds msg pos (front.flatMap encodeLabel ++ [high])

/-- A run of labels that was read stands there as it is written, or a pointer
to before the start of the run stands behind some of its labels. -/
theorem holds_or_pointer_of_readRun {start : Nat} {limit : Option Nat} {r : List Label × Nat}
    (h : readRun msg start limit pos = some r) :
    Holds msg pos (encode r.1) ∧ r.2 = pos + encodedLength r.1 ∨
      ∃ (front : List Label) (high low : UInt8),
        (∀ l ∈ front, 0 < l.length ∧ l.length ≤ maxLabel) ∧ 192 ≤ high.toNat ∧
          pointerTarget high low < start ∧
          Holds msg pos (front.flatMap encodeLabel ++ [high, low]) := by
  have hrun := label_of_readRun h
  -- the reader goes on in three cases only: a zero octet, a label and a pointer
  fun_induction readRun msg start limit pos generalizing r
  case case2 start limit pos _ hpos b hzero =>
      obtain rfl := Option.some.inj h
      have hb : msg[pos]? = some 0 := (Array.getElem?_eq_getElem hpos).trans (congrArg some hzero)
      exact .inl ⟨holds_cons.2 ⟨hb, List.nil_prefix⟩, rfl⟩
  case case3 start limit pos _ hpos b hne hlt hend ih =>
      obtain ⟨⟨ls, stop⟩, hrest, rfl⟩ := Option.map_eq_some_iff.1 h
      generalize hl : (msg.extract (pos + 1) (pos + 1 + b.toNat)).toList = l at *
      have hlength : l.length = b.toNat := by
        rw [← hl, Array.length_toList, Array.size_extract]
        omega
      have hoctet : UInt8.ofNat l.length = b := by rw [hlength, UInt8.ofNat_toNat]
      have hb : msg[pos]? = some (UInt8.ofNat l.length) := by
        rw [hoctet]
        exact Array.getElem?_eq_getElem hpos
      have hbody : Holds msg (pos + 1) l := hl ▸ holds_extract
      have hfirst := hrun l List.mem_cons_self
      rw [← hlength] at hrest ih
      rcases ih hrest (fun l' hl' => hrun l' (List.mem_cons_of_mem l hl')) with
        ⟨hholds, hstop⟩ | ⟨front, high, low, hfront, hhigh, htarget, hholds⟩
      · refine .inl ⟨?_, ?_⟩
        · rw [encode_cons]
          exact holds_cons.2 ⟨hb, holds_append.2 ⟨hbody, hholds⟩⟩
        · change stop = pos + (l.length + 1 + encodedLength ls)
          have hstop' : stop = pos + 1 + l.length + encodedLength ls := hstop
          omega
      · refine .inr ⟨l :: front, high, low, ?_, hhigh, htarget, ?_⟩
        · exact List.forall_mem_cons.2 ⟨hfirst, hfront⟩
        · rw [List.flatMap_cons, encodeLabel, List.cons_append, List.cons_append,
            List.append_assoc]
          exact holds_cons.2 ⟨hb, holds_append.2 ⟨hbody, hholds⟩⟩
  case case6 start limit pos _ hpos b _ _ hhigh low hlow htarget ih =>
      have hb : msg[pos]? = some b := Array.getElem?_eq_getElem hpos
      exact .inr ⟨[], b, low, List.forall_mem_nil _, hhigh, htarget,
        holds_cons.2 ⟨hb, holds_cons.2 ⟨hlow, List.nil_prefix⟩⟩⟩
  all_goals contradiction

/-- A name that stands somewhere without pointers has none. -/
theorem not_hasPointer_of_holds (hlabel : ∀ l ∈ ls, 0 < l.length ∧ l.length ≤ maxLabel)
    (h : Holds msg pos (encode ls)) : ¬HasPointer msg pos := by
  rintro ⟨front, high, hfront, hhigh, hpointer⟩
  have hmax : maxLabel = 63 := rfl
  -- both stand at one place, so the labels before the pointer are labels of the name
  induction front generalizing pos ls with
  | nil =>
      have hoctet := hpointer.getElem?
      cases ls with
      | nil =>
          rw [h.getElem?, Option.some.injEq] at hoctet
          rw [← hoctet] at hhigh
          contradiction
      | cons l ls =>
          obtain ⟨hnonempty, hshort⟩ := hlabel l List.mem_cons_self
          rw [encode_cons] at h
          rw [h.getElem?, Option.some.injEq] at hoctet
          rw [← hoctet, (lengthOctet hnonempty hshort).1] at hhigh
          omega
  | cons l' front ih =>
      obtain ⟨hfirst, hfront⟩ := List.forall_mem_cons.1 hfront
      obtain ⟨hb', hne'⟩ := lengthOctet hfirst.1 hfirst.2
      rw [List.flatMap_cons, encodeLabel, List.cons_append, List.cons_append, List.append_assoc]
        at hpointer
      have hoctet := hpointer.getElem?
      cases ls with
      | nil =>
          rw [h.getElem?, Option.some.injEq] at hoctet
          exact hne' hoctet.symm
      | cons l ls =>
          obtain ⟨hlabel₁, hlabel⟩ := List.forall_mem_cons.1 hlabel
          rw [encode_cons] at h
          rw [h.getElem?, Option.some.injEq] at hoctet
          have hlength : l.length = l'.length := by
            rw [← (lengthOctet hlabel₁.1 hlabel₁.2).1, hoctet, hb']
          have hrest := hpointer.tail.right
          rw [← hlength] at hrest
          exact ih hlabel h.tail.right hfront hrest

/-- An octet before more than 63 printable ones makes no label, and no pointer
to an early place either. -/
theorem label_of_legible {start : Nat} {limit : Option Nat} {r : List Label × Nat}
    (hstart : start ≤ 0x21) (hls : Legible ls) (hfits : ∀ l ∈ ls, l.length < 256)
    (h : Holds msg pos (encode ls)) (hread : readRun msg start limit pos = some r) :
    ∀ l ∈ ls, 0 < l.length ∧ l.length ≤ maxLabel := by
  induction ls generalizing pos r with
  | nil => nofun
  | cons l ls ih =>
      have hnonempty := List.length_pos_iff.2 (hls.ne_nil l List.mem_cons_self)
      have hlength := hfits l List.mem_cons_self
      have hoctet : (UInt8.ofNat l.length).toNat = l.length := by
        rw [UInt8.toNat_ofNat', Nat.mod_eq_of_lt hlength]
      have hne : ¬UInt8.ofNat l.length = 0 := by
        rw [← UInt8.toNat_inj, hoctet, UInt8.toNat_zero]
        omega
      rw [encode_cons] at h
      obtain ⟨hpos, hb⟩ := Array.getElem?_eq_some_iff.1 h.getElem?
      rw [readRun] at hread
      by_cases hshort : l.length < 64
      · simp only [hpos, hb, hoctet, hne, hshort, dif_pos, if_true, if_false] at hread
        split at hread
        · contradiction
        · split at hread
          · obtain ⟨r', hrest, -⟩ := Option.map_eq_some_iff.1 hread
            refine List.forall_mem_cons.2 ⟨⟨hnonempty, Nat.le_of_lt_succ hshort⟩, ?_⟩
            exact ih hls.of_cons (fun l' hl' => hfits l' (List.mem_cons_of_mem l hl'))
              h.tail.right hrest
          · contradiction
      · -- a length of 192 or more is a pointer whose low octet is a printable character
        obtain ⟨low, l', rfl⟩ := List.exists_cons_of_length_pos hnonempty
        have hlow := h.tail.left.getElem?
        have hplain := isPlain_iff.1 (hls.plain _ List.mem_cons_self low List.mem_cons_self)
        have htarget : ¬pointerTarget (UInt8.ofNat (low :: l').length) low < start := by
          unfold pointerTarget
          omega
        simp only [hpos, hb, hoctet, hne, hshort, hlow, htarget, dif_pos, dif_neg, if_false,
          not_false_eq_true] at hread
        split at hread
        · contradiction
        · split at hread <;> contradiction

end Name

/-! ## The question's name -/

/-- A name stands behind the header, without pointers and in octets that can
all stand in its text. -/
structure Spelled (bs : Octets) (ls : List Label) : Prop where
  legible : Name.Legible ls
  /-- The length of a label is an octet. -/
  fits : ∀ l ∈ ls, l.length < 256
  holds : Holds bs.toArray headerLength (Name.encode ls)

section FirstName

variable {msg : Array UInt8} {name : List Label} {stop : Nat}

/-- The two readings of the name behind the header: what the decoder reads has
no pointer and is followed up to its end, or has one that aims into the header. -/
theorem followName_cases (h : Name.read msg headerLength = some (name, stop)) :
    (followName msg msg.size headerLength = .root ∧ ¬Name.HasPointer msg headerLength ∧
        Holds msg headerLength (Name.encode name) ∧
        stop = headerLength + Name.encodedLength name) ∨
      followName msg msg.size headerLength = .headerPointer ∧
        Name.HasPointer msg headerLength := by
  obtain ⟨hrun, -⟩ := Option.filter_eq_some_iff.1 h
  have hlabel := Name.label_of_readRun hrun
  rcases Name.holds_or_pointer_of_readRun hrun with
    ⟨hholds, hstop⟩ | ⟨front, high, low, hfront, hhigh, htarget, hholds⟩
  · have hsteps : name.length < msg.size := by
      have hle := hholds.add_length_le (by simp [Name.encode])
      have hlt := Name.length_lt_encodedLength name
      rw [Name.length_encode] at hle
      dsimp only at hle
      omega
    exact .inl ⟨followName_of_holds hlabel hholds hsteps,
      Name.not_hasPointer_of_holds hlabel hholds, hholds, hstop⟩
  · have hpointer := hholds
    rw [← List.singleton_append, ← List.append_assoc] at hpointer
    refine .inr ⟨?_, front, high, hfront, hhigh, hpointer.left⟩
    have hle := hholds.add_length_le (by simp)
    have hlt := Name.length_lt_encodedLength front
    rw [← Name.length_encode, Name.encode, List.length_append, List.length_singleton] at hlt
    rw [List.length_append, List.length_cons, List.length_singleton] at hle
    obtain ⟨n, hn⟩ := Nat.exists_eq_add_of_lt (show front.length < msg.size by omega)
    rw [hn, Nat.add_assoc, followName_of_labels hfront hholds.left]
    simp only [followName, hholds.right.getElem?, hholds.right.tail.getElem?, Option.getD_some]
    have hne : ¬high = 0 := by
      rintro rfl
      contradiction
    rw [if_neg hne, if_pos hhigh, if_pos htarget]

/-- Without pointers, the name that the decoder reads is the one that stands there. -/
theorem Spelled.eq_of_read {bs : Octets} {ls : List Label} (hls : Spelled bs ls)
    (h : Name.read bs.toArray headerLength = some (name, stop)) :
    name = ls ∧ ¬Name.HasPointer bs.toArray headerLength := by
  obtain ⟨hrun, -⟩ := Option.filter_eq_some_iff.1 h
  have hlabel := Name.label_of_legible (by decide) hls.legible hls.fits hls.holds hrun
  have hsame : Name.readRun bs.toArray headerLength none headerLength = _ :=
    Name.readRun_of_holds hlabel hls.holds (by simp)
  rw [hrun, Option.some.injEq, Prod.mk.injEq] at hsame
  exact ⟨hsame.1, Name.not_hasPointer_of_holds hlabel hls.holds⟩

end FirstName

/-! ## Queries -/

namespace Query

variable {bs : Octets} {m : Message} {query : Query} {asked : AskedQuestion}

/-- A datagram that decodes and says that it is a query, of the standard kind. -/
structure IsStandard (bs : Octets) : Prop where
  decodes : (Message.decode bs).isSome = true
  /-- The bit that marks a response is clear. -/
  query : bs.octetAt 2 / 128 = 0
  opcode : bs.octetAt 2 / 8 % 16 = 0

/-- What a query says besides its question. -/
def ofHeader (bs : Octets) (asked : Option AskedQuestion) : Query :=
  ⟨UInt16.ofNat (bs.wordAt 0), bs.octetAt 2 % 2 == 1, asked⟩

/-- The question about a name without pointers: its type and its class follow it. -/
def ofName (bs : Octets) (ls : List Label) : AskedQuestion :=
  let stop := headerLength + Name.encodedLength ls
  ⟨⟨ls, UInt16.ofNat (bs.wordAt stop), UInt16.ofNat (bs.wordAt (stop + 2))⟩,
    String.ofList (Name.textOf ls)⟩

/-- Only what decodes is accepted. -/
theorem exists_decode_of_parse (h : parse bs = .ok query) : ∃ m, Message.decode bs = some m := by
  cases hm : Message.decode bs with
  | none =>
      rw [parse, hm] at h
      contradiction
  | some m => exact ⟨m, rfl⟩

/-- Only standard queries are accepted, and of these the first question decides. -/
theorem parse_eq_ok_iff_of_decode (hm : Message.decode bs = some m) :
    parse bs = .ok query ↔ IsStandard bs ∧
      ((m.questions = [] ∧ query = ofHeader bs none) ∨
        ∃ q rest asked, m.questions = q :: rest ∧ askedQuestion bs.toArray q = .ok asked ∧
          query = ofHeader bs (some asked)) := by
  obtain ⟨-, hid, -, -⟩ := Message.header_of_decode hm
  obtain ⟨hresponse, hopcode, hrecursion⟩ := Message.flags_of_decode hm
  have hid' : m.id = UInt16.ofNat (bs.wordAt 0) := by rw [← hid, UInt16.ofNat_toNat]
  have hstandard : IsStandard bs ↔ ¬m.isResponse = true ∧ m.opcode = 0 := by
    rw [hresponse, hopcode]
    refine ⟨fun h => ⟨?_, h.opcode⟩, fun h => ⟨by rw [hm]; rfl, ?_, h.2⟩⟩
    · have hquery := h.query
      omega
    · omega
  rw [hstandard]
  simp only [parse, hm, ofHeader, ← hid', ← hrecursion]
  by_cases hr : m.isResponse = true
  · simp [hr]
  · by_cases ho : m.opcode = 0
    · cases hquestions : m.questions with
      | nil => simp [hr, ho, eq_comm]
      | cons q rest =>
          cases hq : askedQuestion bs.toArray q <;> simp [hr, ho, hq, eq_comm]
    · simp [hr, ho]

/-- The first question is accepted exactly if its name stands there without
pointers, in printable octets. -/
theorem askedQuestion_eq_ok_iff {q : Question} {next : Nat}
    (hq : Message.questionAt bs.toArray headerLength = some (q, next)) :
    askedQuestion bs.toArray q = .ok asked ↔ ∃ ls, Spelled bs ls ∧ asked = ofName bs ls := by
  obtain ⟨stop, hread, -, htype, hclass, -⟩ := Message.questionAt_eq_some_iff.1 hq
  have hvalid := Name.valid_of_read hread
  have hname : stop = headerLength + Name.encodedLength q.name →
      ⟨q, String.ofList (Name.textOf q.name)⟩ = ofName bs q.name := by
    rintro rfl
    simp only [ofName, ← htype, ← hclass, UInt16.ofNat_toNat]
  constructor
  · intro h
    obtain ⟨rfl, htext⟩ := text_of_askedQuestion h
    obtain ⟨hlegible, hdomain⟩ := Name.legible_of_text? hvalid htext
    rw [← hdomain] at hname
    rcases followName_cases hread with ⟨-, -, hholds, hstop⟩ | ⟨hpointer, -⟩
    · refine ⟨_, ⟨hlegible, fun l hl => ?_, hholds⟩, hname hstop⟩
      exact Nat.lt_of_le_of_lt (hvalid.label l hl).2 (by decide)
    · rw [askedQuestion, hpointer] at h
      contradiction
  · rintro ⟨ls, hls, rfl⟩
    obtain ⟨rfl, hnone⟩ := hls.eq_of_read hread
    rcases followName_cases hread with ⟨hroot, -, -, hstop⟩ | ⟨-, hpointer⟩
    · have htext : Name.text? q.name = some (String.ofList (Name.textOf q.name)) := by
        refine if_pos (List.all_eq_true.2 fun l hl => List.all_eq_true.2 fun b hb => ?_)
        exact hls.legible.plain l hl b hb
      rw [askedQuestion, hroot, htext]
      exact congrArg Except.ok (hname hstop)
    · exact absurd hpointer hnone

/-- The name behind the header of a decoded message is followed up to its end,
or into the header if there is a pointer in it. -/
theorem followName_of_decode (hm : Message.decode bs = some m) (hne : m.questions ≠ []) :
    followName bs.toArray bs.length headerLength ≠ .cutOff ∧
      followName bs.toArray bs.length headerLength ≠ .endless ∧
      (followName bs.toArray bs.length headerLength ≠ .root ↔
        Name.HasPointer bs.toArray headerLength) := by
  obtain ⟨q, rest, hquestions⟩ := List.exists_cons_of_ne_nil hne
  obtain ⟨next, hq⟩ := (Message.questions_of_decode hm).2 q rest hquestions
  obtain ⟨stop, hread, -⟩ := Message.questionAt_eq_some_iff.1 hq
  have hcases := followName_cases hread
  rw [List.size_toArray] at hcases
  rcases hcases with ⟨hroot, hnone, -⟩ | ⟨hheader, hpointer⟩
  · simp [hroot, hnone]
  · simp [hheader, hpointer]

/-- The name of a question never ends the reading of a datagram in the middle
of nowhere. -/
theorem parse_ne_error (bs : Octets) :
    parse bs ≠ .error .cutOff ∧ parse bs ≠ .error .endless := by
  cases hm : Message.decode bs with
  | none => simp [parse, hm]
  | some m =>
      cases hquestions : m.questions with
      | nil => grind [parse]
      | cons q rest =>
          obtain ⟨hcut, hendless, -⟩ := followName_of_decode hm (by simp [hquestions])
          rw [← List.size_toArray] at hcut hendless
          grind [parse, askedQuestion]

/-- What is accepted with a question, and how it is read. -/
theorem parse_asked_iff :
    parse bs = .ok query ∧ query.asked = some asked ↔
      IsStandard bs ∧ 1 ≤ bs.wordAt 4 ∧
        ∃ ls, Spelled bs ls ∧ asked = ofName bs ls ∧ query = ofHeader bs (some asked) := by
  constructor
  · rintro ⟨hparse, hasked⟩
    obtain ⟨m, hm⟩ := exists_decode_of_parse hparse
    obtain ⟨hnone, hfirst⟩ := Message.questions_of_decode hm
    obtain ⟨hstandard, ⟨-, rfl⟩ | ⟨q, rest, asked', hquestions, hok, rfl⟩⟩ :=
      (parse_eq_ok_iff_of_decode hm).1 hparse
    · contradiction
    · obtain rfl := Option.some.inj hasked
      obtain ⟨next, hq⟩ := hfirst q rest hquestions
      obtain ⟨ls, hls, hname⟩ := (askedQuestion_eq_ok_iff hq).1 hok
      have hcount : bs.wordAt 4 ≠ 0 := by simp [← hnone, hquestions]
      exact ⟨hstandard, Nat.pos_of_ne_zero hcount, ls, hls, hname, rfl⟩
  · rintro ⟨hstandard, hcount, ls, hls, hname, rfl⟩
    obtain ⟨m, hm⟩ := Option.isSome_iff_exists.1 hstandard.decodes
    obtain ⟨hnone, hfirst⟩ := Message.questions_of_decode hm
    have hne : m.questions ≠ [] := fun h => Nat.ne_of_gt hcount (hnone.1 h)
    obtain ⟨q, rest, hquestions⟩ := List.exists_cons_of_ne_nil hne
    obtain ⟨next, hq⟩ := hfirst q rest hquestions
    have hok := (askedQuestion_eq_ok_iff hq).2 ⟨ls, hls, hname⟩
    exact ⟨(parse_eq_ok_iff_of_decode hm).2
      ⟨hstandard, .inr ⟨q, rest, asked, hquestions, hok, rfl⟩⟩, rfl⟩

/-- What is accepted without a question, and how it is read. -/
theorem parse_unasked_iff :
    parse bs = .ok query ∧ query.asked = none ↔
      IsStandard bs ∧ bs.wordAt 4 = 0 ∧ query = ofHeader bs none := by
  constructor
  · rintro ⟨hparse, hasked⟩
    obtain ⟨m, hm⟩ := exists_decode_of_parse hparse
    obtain ⟨hstandard, ⟨hquestions, rfl⟩ | ⟨q, rest, asked, -, -, rfl⟩⟩ :=
      (parse_eq_ok_iff_of_decode hm).1 hparse
    · exact ⟨hstandard, (Message.questions_of_decode hm).1.1 hquestions, rfl⟩
    · contradiction
  · rintro ⟨hstandard, hcount, rfl⟩
    obtain ⟨m, hm⟩ := Option.isSome_iff_exists.1 hstandard.decodes
    have hquestions := (Message.questions_of_decode hm).1.2 hcount
    exact ⟨(parse_eq_ok_iff_of_decode hm).2 ⟨hstandard, .inl ⟨hquestions, rfl⟩⟩, rfl⟩

/-- **Acceptance.**  A datagram is accepted with a question exactly if it
decodes, is a standard query, has a question, and the first one's name stands
behind the header without pointers and in printable octets; it is accepted
without one exactly if it has none.  What is then read are the octets that
stand there.  The name of a first question that was decoded is never followed
to nowhere, and into the header exactly if there is a pointer in it. -/
theorem accepts_iff (bs : Octets) :
    (∀ query asked, parse bs = .ok query ∧ query.asked = some asked ↔
        IsStandard bs ∧ 1 ≤ bs.wordAt 4 ∧
          ∃ ls, Spelled bs ls ∧ asked = ofName bs ls ∧ query = ofHeader bs (some asked)) ∧
      (∀ query, parse bs = .ok query ∧ query.asked = none ↔
        IsStandard bs ∧ bs.wordAt 4 = 0 ∧ query = ofHeader bs none) ∧
      (∀ m, Message.decode bs = some m → m.questions ≠ [] →
        followName bs.toArray bs.length headerLength ≠ .cutOff ∧
          followName bs.toArray bs.length headerLength ≠ .endless ∧
          (followName bs.toArray bs.length headerLength ≠ .root ↔
            Name.HasPointer bs.toArray headerLength)) ∧
      parse bs ≠ .error .cutOff ∧ parse bs ≠ .error .endless :=
  ⟨fun _ _ => parse_asked_iff, fun _ => parse_unasked_iff, fun _ => followName_of_decode,
    parse_ne_error bs⟩

/-- A query for a name, whose second question points to the name of the first. -/
def repeating : Octets :=
  [0x12, 0x34, 1, 0, 0, 2, 0, 0, 0, 0, 0, 0, 1, 0x41, 0, 0, 1, 0, 1, 0xc0, 12, 0, 28, 0, 1]

/-- A query for a name that ends with a zero octet of the header. -/
def pointing : Octets :=
  [0, 7, 0, 0, 0, 1, 0, 0, 0, 0, 0, 0, 1, 0x61, 0xc0, 2, 0, 1, 0, 1]

/-- A pointer in the second question does no harm; one in the first is found,
although the message decodes. -/
theorem accepts_iff_of_pointers :
    parse repeating = .ok ⟨0x1234, true, some ⟨⟨[[0x41]], 1, 1⟩, "A."⟩⟩ ∧
      (Message.decode pointing).isSome = true ∧
      Name.HasPointer pointing.toArray headerLength ∧
      parse pointing = .error .headerPointer := by
  have hstandard : IsStandard repeating := ⟨by cbv, by decide, by decide⟩
  have hspelled : Spelled repeating [[0x41]] :=
    ⟨⟨by simp, by simp [Name.isPlain]⟩, by simp, ⟨_, rfl⟩⟩
  have hparse := ((accepts_iff repeating).1 _ _).2 ⟨hstandard, by decide, _, hspelled, rfl, rfl⟩
  have hdecode : (Message.decode pointing).isSome = true := by cbv
  obtain ⟨m, hm⟩ := Option.isSome_iff_exists.1 hdecode
  have hne : m.questions ≠ [] := mt (Message.questions_of_decode hm).1.1 (by decide)
  have hpointer := ((accepts_iff pointing).2.2.1 m hm hne).2.2.1 (by decide)
  exact ⟨hparse.1, hdecode, hpointer, by cbv⟩

end Query

end Wire

end DnsConnector
