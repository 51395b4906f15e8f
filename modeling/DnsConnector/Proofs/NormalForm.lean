import DnsConnector.Proofs.DecisionTable
import DnsConnector.Proofs.Responder

/-!
# DnsConnector.Proofs.NormalForm

One name, however it is spelled.  What is left of a text without the blanks
around it and the dots at its end then is its core (`IsCore`): it decides whether
the text is accepted, and in lower case and with one dot it is the normal form.
Blanks in front of those dots stay, so a core may end in blanks itself; with a dot
behind it, it is the core again (`bare_map_toLower`).

A request is looked up and filed under one normal form, although the text is
brought into it twice on the way (`filedAsLookedUp_run`).
-/

namespace DnsConnector

open Text

namespace Fqdn

/-! ## The parts of a text -/

/-- A text that neither starts nor ends with a blank. -/
structure IsTrimmed (cs : List Char) : Prop where
  head : ∀ c ∈ cs.head?, isBlank c = false
  last : ∀ c ∈ cs.getLast?, isBlank c = false

/-- What is left of a text once all blanks around it are taken off, and then all
dots at its end. -/
def IsCore (cs core : List Char) : Prop :=
  ∃ before dots after, cs = before ++ (core ++ dots) ++ after ∧
    (∀ c ∈ before, isBlank c = true) ∧ (∀ c ∈ after, isBlank c = true) ∧
    IsTrimmed (core ++ dots) ∧ (∀ c ∈ dots, c = '.') ∧ core.getLast? ≠ some '.'

/-- A text of labels with a dot behind each, none of them empty or longer than 63
octets. -/
def IsLabelled (cs : List Char) : Prop :=
  ∃ labels : List (List Char), cs = labels.flatMap (· ++ ['.']) ∧
    ∀ l ∈ labels, '.' ∉ l ∧ l ≠ [] ∧ (String.ofList l).utf8ByteSize ≤ 63

/-- A core that is accepted. -/
structure IsName (core : List Char) : Prop where
  ne_nil : core ≠ []
  size_le : (String.ofList core).utf8ByteSize ≤ 253
  labelled : IsLabelled (core ++ ['.'])

/-- A text in normal form. -/
structure IsNormal (text : String) : Prop where
  /-- There is exactly one dot at the end. -/
  dot : ∃ front, text.toList = front ++ ['.'] ∧ front.getLast? ≠ some '.'
  lower : ∀ c ∈ text.toList, ¬('A' ≤ c ∧ c ≤ 'Z')
  size_le : text.utf8ByteSize ≤ 254
  labelled : IsLabelled text.toList

/-- The name of a text, if it has one, is its normal form. -/
structure Normalizes (text : String) : Prop where
  normal : ∀ name, ofText text = .ok name → IsNormal name.text ∧ ofText name.text = .ok name
  accepts : ∃ core, IsCore text.toList core ∧ (∀ core', IsCore text.toList core' → core' = core) ∧
    ((∃ name, ofText text = .ok name) ↔ IsName core) ∧
    ∀ name, ofText text = .ok name → name.text.toList = core.map Char.toLower ++ ['.']
  blanks : ∀ before after, (∀ c ∈ before ++ after, isBlank c = true) →
    ofText (String.ofList (before ++ text.toList ++ after)) = ofText text
  /-- A fault may quote the text, so it is only the names that are the same. -/
  letterCase : ∀ text' : String,
    text'.toList.map Char.toLower = text.toList.map Char.toLower →
    ∀ name, ofText text' = .ok name ↔ ofText text = .ok name
  dots : IsTrimmed text.toList → ∀ n,
    ofText (text ++ String.ofList (.replicate n '.')) = ofText text

variable {cs ds core : List Char} {text : String} {name : Fqdn}

/-! ## Cores -/

theorem isTrimmed_trim (cs : List Char) : IsTrimmed (trim cs) :=
  ⟨fun _ hc => head?_trim hc, fun _ hc => getLast?_dropTrailing hc⟩

theorem IsTrimmed.trim_eq (h : IsTrimmed cs) : trim cs = cs := trim_eq_self h.head h.last

/-- Dots are no blanks, so a text stays trimmed with dots behind it. -/
theorem IsTrimmed.append_dots (h : IsTrimmed cs) (n : Nat) :
    IsTrimmed (cs ++ .replicate n '.') := by
  have hdot : ∀ c ∈ List.replicate n '.', isBlank c = false := by
    intro c hc
    rw [List.eq_of_mem_replicate hc]
    decide
  refine ⟨fun c hc => ?_, fun c hc => ?_⟩
  · rw [List.head?_append, Option.mem_def, Option.or_eq_some_iff] at hc
    rcases hc with hc | ⟨-, hc⟩
    · exact h.head c hc
    · exact hdot c (List.mem_of_head? hc)
  · rw [List.getLast?_append, Option.mem_def, Option.or_eq_some_iff] at hc
    rcases hc with hc | ⟨-, hc⟩
    · exact hdot c (List.mem_of_getLast? hc)
    · exact h.last c hc

/-- Every text has one core. -/
theorem isCore_iff : IsCore cs core ↔ core = bare cs := by
  constructor
  · rintro ⟨before, dots, after, rfl, hbefore, hafter, htrimmed, hdots, hlast⟩
    have hdots' : ∀ c ∈ dots, (c == '.') = true := fun c hc => beq_iff_eq.2 (hdots c hc)
    rw [bare, trim_append hbefore hafter, htrimmed.trim_eq, dropTrailing_append hdots']
    refine (dropTrailing_eq_self fun c hc => ?_).symm
    rw [beq_eq_false_iff_ne]
    rintro rfl
    exact hlast hc
  · rintro rfl
    obtain ⟨before, after, htrim, hbefore, hafter⟩ := exists_eq_trim cs
    obtain ⟨dots, hdots, hall⟩ := exists_eq_dropTrailing_append (· == '.') (trim cs)
    refine ⟨before, dots, after, ?_, hbefore, hafter, ?_, fun c hc => beq_iff_eq.1 (hall c hc),
      fun hlast => getLast?_bare hlast rfl⟩
    · rw [bare, ← hdots]
      exact htrim
    · rw [bare, ← hdots]
      exact isTrimmed_trim cs

theorem bare_append_blanks {before after : List Char}
    (h : ∀ c ∈ before ++ after, isBlank c = true) : bare (before ++ cs ++ after) = bare cs := by
  rw [bare, trim_append (fun c hc => h c (List.mem_append_left after hc))
    fun c hc => h c (List.mem_append_right before hc), bare]

theorem bare_append_dots (h : IsTrimmed cs) (n : Nat) :
    bare (cs ++ .replicate n '.') = bare cs := by
  rw [bare, (h.append_dots n).trim_eq, bare, h.trim_eq]
  refine dropTrailing_append fun c hc => ?_
  rw [List.eq_of_mem_replicate hc]
  rfl

theorem bare_map (cs : List Char) : bare (cs.map Char.toLower) = (bare cs).map Char.toLower := by
  have hdot : (· == '.') ∘ Char.toLower = (· == '.') := by
    funext c
    rw [Function.comp_apply, Bool.eq_iff_iff, beq_iff_eq, beq_iff_eq, toLower_eq_dot_iff]
  rw [bare, trim_map_toLower, dropTrailing_map, hdot, bare]

/-! ## Lengths and labels -/

theorem octetCount_eq (cs : List Char) : octetCount cs = (String.ofList cs).utf8ByteSize := by
  induction cs with
  | nil => rfl
  | cons c cs ih => simp [octetCount, ih]

theorem all_isLabel_iff : (pieces '.' cs).all isLabel = true ↔ IsLabelled (cs ++ ['.']) := by
  have hlabel : ∀ l, isLabel l = true ↔ l ≠ [] ∧ (String.ofList l).utf8ByteSize ≤ 63 := by
    intro l
    simp [isLabel, maxLabel, octetCount_eq]
  constructor
  · intro h
    refine ⟨pieces '.' cs, (flatMap_pieces '.' cs).symm, fun l hl => ?_⟩
    exact ⟨not_mem_of_mem_pieces hl, (hlabel l).1 (List.all_eq_true.1 h l hl)⟩
  · rintro ⟨labels, hlabels, h⟩
    have hpieces := congrArg (pieces '.') hlabels
    rw [pieces_append_singleton, pieces_flatMap fun l hl => (h l hl).1] at hpieces
    rw [List.append_cancel_right hpieces]
    exact List.all_eq_true.2 fun l hl => (hlabel l).2 (h l hl).2

/-- A text is accepted if its core is a name, which the normal form is made of. -/
theorem normalize_eq_ok_iff_isName :
    normalize cs = .ok ds ↔ IsName (bare cs) ∧ ds = (bare cs).map Char.toLower ++ ['.'] := by
  rw [normalize_eq_ok_iff, all_isLabel_iff, octetCount_eq]
  constructor
  · rintro ⟨hne, hsize, hlabelled, hds⟩
    exact ⟨⟨hne, Nat.le_of_succ_le_succ hsize, hlabelled⟩, hds⟩
  · rintro ⟨⟨hne, hsize, hlabelled⟩, hds⟩
    exact ⟨hne, Nat.succ_le_succ hsize, hlabelled, hds⟩

theorem ofText_eq_ok_iff :
    ofText text = .ok name ↔ normalize text.toList = .ok name.text.toList := by
  rw [ofText]
  cases normalize text.toList with
  | error fault => constructor <;> (intro h; contradiction)
  | ok cs =>
      constructor
      · intro h
        rw [← Except.ok.inj h, String.toList_ofList]
      · intro h
        rw [Except.ok.inj h]
        exact congrArg Except.ok (congrArg Fqdn.mk String.ofList_toList)

/-- Case makes no difference to a normal form. -/
theorem normalize_map_toLower :
    normalize (cs.map Char.toLower) = .ok ds ↔ normalize cs = .ok ds := by
  have hlower : Char.toLower ∘ Char.toLower = Char.toLower := funext toLower_toLower
  rw [normalize_eq_ok_iff, normalize_eq_ok_iff, bare_map, octetCount_map_toLower,
    all_isLabel_map_toLower, List.map_map, hlower, ne_eq, ne_eq, List.map_eq_nil_iff]

/-- The names of texts are made of their cores. -/
theorem ofText_eq_ok_iff_isName :
    ofText text = .ok name ↔ IsName (bare text.toList) ∧
      name.text.toList = (bare text.toList).map Char.toLower ++ ['.'] :=
  ofText_eq_ok_iff.trans normalize_eq_ok_iff_isName

/-! ## Normal forms -/

theorem not_isCapital_toLower (c : Char) : ¬('A' ≤ c.toLower ∧ c.toLower ≤ 'Z') := by
  rintro ⟨hlow, hhigh⟩
  have hcapital : 65 ≤ c.toLower.toNat ∧ c.toLower.toNat ≤ 90 :=
    ⟨UInt32.le_iff_toNat_le.1 hlow, UInt32.le_iff_toNat_le.1 hhigh⟩
  rw [toNat_toLower] at hcapital
  split at hcapital <;> omega

/-- Lower case and one dot make a normal form of a name. -/
theorem isNormal_of_isName (h : IsName core) (hlast : core.getLast? ≠ some '.')
    (htext : text.toList = core.map Char.toLower ++ ['.']) : IsNormal text where
  dot := by
    refine ⟨core.map Char.toLower, htext, ?_⟩
    rw [List.getLast?_map]
    intro hdot
    obtain ⟨c, hc, hlower⟩ := Option.map_eq_some_iff.1 hdot
    rw [(toLower_eq_dot_iff c).1 hlower] at hc
    exact hlast hc
  lower := by
    intro c hc
    rw [htext] at hc
    rcases List.mem_append.1 hc with hc | hc
    · obtain ⟨c, -, rfl⟩ := List.mem_map.1 hc
      exact not_isCapital_toLower c
    · obtain rfl := List.mem_singleton.1 hc
      decide
  size_le := by
    have hsize := h.size_le
    rw [← octetCount_eq] at hsize
    rw [← String.ofList_toList (s := text), htext, String.ofList_append, String.utf8ByteSize_append,
      ← octetCount_eq, octetCount_map_toLower]
    exact Nat.succ_le_succ hsize
  labelled := by
    rw [htext, ← all_isLabel_iff, all_isLabel_map_toLower, all_isLabel_iff]
    exact h.labelled

/-- Whatever the text, its name is its normal form. -/
theorem normalizes (text : String) : Normalizes text where
  normal name h := by
    obtain ⟨hname, htext⟩ := ofText_eq_ok_iff_isName.1 h
    exact ⟨isNormal_of_isName hname (fun hlast => getLast?_bare hlast rfl) htext, ofText_text h⟩
  accepts := by
    refine ⟨bare text.toList, isCore_iff.2 rfl, fun core' h => isCore_iff.1 h, ?_,
      fun name h => (ofText_eq_ok_iff_isName.1 h).2⟩
    constructor
    · rintro ⟨name, h⟩
      exact (ofText_eq_ok_iff_isName.1 h).1
    · intro h
      refine ⟨⟨String.ofList ((bare text.toList).map Char.toLower ++ ['.'])⟩, ?_⟩
      exact ofText_eq_ok_iff_isName.2 ⟨h, String.toList_ofList⟩
  blanks before after h := by
    rw [ofText, String.toList_ofList, normalize, bare_append_blanks h, ← normalize, ← ofText]
  letterCase text' h name := by
    rw [ofText_eq_ok_iff, ofText_eq_ok_iff, ← normalize_map_toLower, h, normalize_map_toLower]
  dots h n := by
    rw [ofText, String.toList_append, String.toList_ofList, normalize, bare_append_dots h,
      ← normalize, ← ofText]

end Fqdn

/-! ## One name for the look-up and for the book -/

namespace Policy

open AddressBook

variable {ε : Type} {p : Policy ε} {r : Request} {peer : PeerId} {name : Fqdn}
  {family : AddressFamily} {book : AddressBook} {now : Nat}

/-- What a request for a name looks up and what it files. -/
structure FiledAsLookedUp (p : Policy ε) (r : Request) (book : AddressBook) (now : Nat)
    (name : Fqdn) : Prop where
  /-- However the look-ups of other texts go, the decision is the same one, reached
  after the same time with the same events on the way. -/
  lookedUp : ∀ lookup, lookup name.text = p.lookup name.text →
    { p with lookup := lookup }.decide r = p.decide r
  /-- Nothing is filed under another name, nor before the addresses were learned. -/
  filed : ∀ k, (p.execute r book now).1.records.get? k ≠ book.records.get? k →
    k.name = name ∧ ∃ real, p.Learns k.name (.ok real)
  /-- The book reads the name again and finds the same one, and it gives away
  addresses that are the peer's for that name. -/
  allocated : ∀ peer name' family, (p.decide r).result = .allocate peer name' family →
    name' = name ∧ AllocationKey.ofText peer name'.text = .ok ⟨peer, name⟩ ∧
      ∀ addresses, (book.request peer name'.text family now).2 = .ok addresses →
        ∀ a ∈ addresses, (p.execute r book now).1.owner? a = some ⟨peer, name⟩

variable {ns : List (Network 32)} {plan : AddressPlan}

/-- Look-ups of other texts are not made. -/
theorem decide_eq_of_lookup_eq (hname : Fqdn.ofText r.domain = .ok name)
    {lookup : String → Timed ε (Except Failure (List IpAddress))}
    (h : lookup name.text = p.lookup name.text) :
    { p with lookup := lookup }.decide r = p.decide r := by
  have hresolve : { p with lookup := lookup }.resolve name = p.resolve name := by
    simp only [resolve, h]
  refine congrArg ((p.identify r.source).bind) (funext fun identified => ?_)
  cases identified with
  | error f => rfl
  | ok peer =>
      cases familyOf r.type with
      | none => rfl
      | some family =>
          simp only [hname]
          exact congrArg (Timed.map (p.judge peer name family)) hresolve

/-- Only a name with addresses is given a synthetic one. -/
theorem exists_of_judge {outcome : Except Failure (List IpAddress)} {peer' : PeerId}
    {name' : Fqdn} {family' : AddressFamily}
    (h : p.judge peer name family outcome = .allocate peer' name' family') :
    name' = name ∧ ∃ real, outcome = .ok real := by
  cases outcome with
  | error f => contradiction
  | ok real =>
      rw [judge] at h
      split at h
      · contradiction
      · split at h
        · contradiction
        · exact ⟨(Verdict.allocate.inj h).2.1.symm, real, rfl⟩

/-- A synthetic address is given for a name in normal form that was looked up. -/
theorem learns_of_decide (h : (p.decide r).result = .allocate peer name family) :
    Fqdn.ofText r.domain = .ok name ∧ ∃ real, p.Learns name (.ok real) := by
  cases hpeer : (p.identify r.source).result with
  | error e => rw [decide_of_unknown hpeer] at h; contradiction
  | ok identified =>
      cases hfamily : familyOf r.type with
      | none => rw [decide_of_otherType hpeer hfamily] at h; contradiction
      | some asked =>
          cases hname : Fqdn.ofText r.domain with
          | error fault => rw [decide_of_badName hpeer hfamily hname] at h; contradiction
          | ok named =>
              rw [result_decide hpeer hfamily hname] at h
              obtain ⟨rfl, real, hreal⟩ := exists_of_judge h
              exact ⟨rfl, real, (result_resolve_eq_iff (by nofun)).1 hreal⟩

/-- A request is filed under the name that is looked up for it. -/
theorem filedAsLookedUp (hbook : book.Coherent) (hsited : Sited book)
    (hname : Fqdn.ofText r.domain = .ok name) (p : Policy ε) (now : Nat) :
    p.FiledAsLookedUp r book now name where
  lookedUp lookup h := decide_eq_of_lookup_eq hname h
  filed k hk := by
    rw [execute] at hk
    cases hverdict : (p.decide r).result with
    | settled outcome => rw [hverdict] at hk; exact absurd rfl hk
    | allocate peer name' family =>
        obtain ⟨hname', hlearns⟩ := learns_of_decide hverdict
        obtain rfl : name = name' := Except.ok.inj (hname.symm.trans hname')
        have hkey := AllocationKey.ofText_eq (Fqdn.ofText_text hname) peer
        have hserved := served_request hbook.leased.recycled_eq hkey family now
        rw [hverdict, fst_conclude_allocate] at hk
        have heq : k = ⟨peer, name⟩ := by
          by_contra hne
          exact hk (hserved.get?_records_of_ne hne)
        rw [heq]
        exact ⟨rfl, hlearns⟩
  allocated peer name' family hverdict := by
    obtain ⟨hname', -⟩ := learns_of_decide hverdict
    obtain rfl : name = name' := Except.ok.inj (hname.symm.trans hname')
    refine ⟨rfl, AllocationKey.ofText_eq (Fqdn.ofText_text hname) peer, fun addresses h a ha => ?_⟩
    rw [execute, hverdict, fst_conclude_allocate]
    have hcoherent := hbook.answer ⟨peer, name.text, family, now⟩
    have hsited' := hsited.answer hbook ⟨peer, name.text, family, now⟩
    exact (hcoherent.owner?_iff hsited').2 (mem_addresses_of_request hbook hname (Prod.ext rfl h) ha)

/-- **One name.**  A text is brought into a normal form, and a request for it is
looked up and filed under this normal form only, whatever was requested before
from a book with the pool of a plan. -/
theorem filedAsLookedUp_run (hplan : AddressPlan.ofNetworks ns = .ok plan) (site : UInt16)
    (idle : Nat) (calls : List Call) (text : String) :
    Fqdn.Normalizes text ∧
      ∀ (p : Policy ε) (type : RecordType) (source : SocketAddress) (now : Nat) (name : Fqdn),
        Fqdn.ofText text = .ok name → p.FiledAsLookedUp ⟨text, type, source⟩
          ((empty plan.pool (SiteNetwork.ofSite site) idle).run calls) now name := by
  have hempty := Coherent.empty (AddressPlan.nodup_pool hplan) (SiteNetwork.ofSite site) idle
  have hsited : Sited (empty plan.pool (SiteNetwork.ofSite site) idle) :=
    .empty plan.pool (Nat.le_refl 80) idle
  refine ⟨Fqdn.normalizes text, fun p type source now name hname => ?_⟩
  have hdomain : Fqdn.ofText (Request.mk text type source).domain = .ok name := hname
  exact filedAsLookedUp (hempty.run calls) (hsited.run hempty calls) hdomain p now

/-- A name in capital letters with blanks and dots around it is filed under its
normal form. -/
theorem filedAsLookedUp_run_of_capitals :
    ∃ plan book name, AddressPlan.ofNetworks [⟨0x0a000000#32, 30, by decide⟩] = .ok plan ∧
      book = (empty plan.pool (SiteNetwork.ofSite 1) 1000).run [] ∧
      Fqdn.ofText " Example.COM.. " = .ok name ∧ Fqdn.ofText name.text = .ok name ∧
      name.text = "example.com." ∧
      (openPolicy.execute ⟨" Example.COM.. ", .a, openRequest.source⟩ book 0).1.owner?
        (.v4 0x0a000002#32) = some ⟨⟨"p"⟩, name⟩ := by
  have hplan : AddressPlan.ofNetworks [⟨0x0a000000#32, 30, by decide⟩] =
      .ok (.ofRoutes ⟨0x0a000000#32, 30, by decide⟩ []) := by decide
  have hname : Fqdn.ofText " Example.COM.. " = .ok ⟨"example.com."⟩ := by decide
  obtain ⟨hnormalizes, hfiled⟩ := filedAsLookedUp_run hplan 1 1000 [] " Example.COM.. "
  have hverdict : (openPolicy.decide ⟨" Example.COM.. ", .a, openRequest.source⟩).result =
      .allocate ⟨"p"⟩ ⟨"example.com."⟩ .v4 := rfl
  have hrequest : ((empty (AddressPlan.ofRoutes ⟨0x0a000000#32, 30, by decide⟩ []).pool
      (SiteNetwork.ofSite 1) 1000).request ⟨"p"⟩ "example.com." .v4 0).2 =
        .ok [.v4 0x0a000002#32, .v6 0xfd7a115ca1e0a99c0001000000000001#128] := by decide
  have howner := ((hfiled openPolicy .a openRequest.source 0 _ hname).allocated _ _ _
    hverdict).2.2 _ hrequest (.v4 0x0a000002#32) List.mem_cons_self
  exact ⟨_, _, _, hplan, rfl, hname, (hnormalizes.normal _ hname).2, rfl, howner⟩

end Policy

end DnsConnector
