import DnsConnector.Failure
import DnsConnector.Network.Text
import DnsConnector.Table

/-!
# DnsConnector.DestinationFilter

Destinations that are answered with their real addresses.  Each network in the
filter carries a flag, and the longest network around an address decides, so
that a short network can be ignored except for longer ones inside it.
-/

namespace DnsConnector

/-! ## One family -/

/-- Flags of the networks of one family.  The lengths in use are kept longest
first, so that the first hit of a look-up is the longest match. -/
structure MatchTable (w : Nat) where
  lengths : List Nat
  entries : Table (Nat × BitVec w) Bool

namespace MatchTable

variable {w : Nat}

instance : EmptyCollection (MatchTable w) := ⟨⟨[], ∅⟩⟩

/-- Puts a length into a strictly decreasing list, unless it is there. -/
def addLength (len : Nat) : List Nat → List Nat
  | [] => [len]
  | l :: ls =>
    if l < len then len :: l :: ls
    else if l = len then l :: ls
    else l :: addLength len ls

/-- Sets the flag of a network, whatever host bits it is given with. -/
def insert (t : MatchTable w) (n : Network w) (flag : Bool) : MatchTable w where
  lengths := addLength n.length t.lengths
  entries := t.entries.insert (n.length, n.first) flag

/-- The flag of the longest network around an address. -/
def lookup? (t : MatchTable w) (a : BitVec w) : Option Bool :=
  t.lengths.findSome? fun len => t.entries.get? (len, Network.keepTop len a)

/-- The number of networks with a flag. -/
def size (t : MatchTable w) : Nat := t.entries.size

theorem mem_addLength {len l : Nat} {ls : List Nat} :
    l ∈ addLength len ls ↔ l = len ∨ l ∈ ls := by
  induction ls with
  | nil => simp [addLength]
  | cons m ms ih =>
    rw [addLength]
    split
    · simp
    · split
      next h => subst h; simp
      next h => simp only [List.mem_cons, ih]; grind

/-- The lengths stay strictly decreasing. -/
theorem pairwise_addLength {ls : List Nat} (h : ls.Pairwise (· > ·)) (len : Nat) :
    (addLength len ls).Pairwise (· > ·) := by
  induction ls with
  | nil => simp [addLength]
  | cons m ms ih =>
    obtain ⟨hm, hms⟩ := List.pairwise_cons.1 h
    rw [addLength]
    split
    next hlt =>
      refine List.pairwise_cons.2 ⟨?_, h⟩
      intro x hx
      rcases List.mem_cons.1 hx with rfl | hx
      · exact hlt
      · exact Nat.lt_trans (hm x hx) hlt
    · split
      · exact h
      next hle hne =>
        refine List.pairwise_cons.2 ⟨?_, ih hms⟩
        intro x hx
        rcases mem_addLength.1 hx with rfl | hx
        · omega
        · exact hm x hx

end MatchTable

/-! ## Both families -/

/-- Networks of either family with a flag that says whether they are ignored. -/
structure DestinationFilter where
  v4 : MatchTable 32
  v6 : MatchTable 128

/-- A text in a list of networks that is none. -/
structure CidrFault where
  text : String
  fault : NetworkFault
deriving DecidableEq, Repr

namespace CidrFault

/-- The failure names the text and what is wrong with it. -/
def toFailure (f : CidrFault) : Failure := .invalidCidr (f.text ++ ": " ++ f.fault.message)

end CidrFault

namespace DestinationFilter

instance : EmptyCollection DestinationFilter := ⟨⟨∅, ∅⟩⟩

instance : Inhabited DestinationFilter := ⟨∅⟩

/-- Sets the flag of a network. -/
def insert (f : DestinationFilter) : IpNetwork → Bool → DestinationFilter
  | .v4 n, flag => { f with v4 := f.v4.insert n flag }
  | .v6 n, flag => { f with v6 := f.v6.insert n flag }

/-- The flag of the longest network around an address. -/
def lookup? (f : DestinationFilter) : IpAddress → Option Bool
  | .v4 a => f.v4.lookup? a
  | .v6 a => f.v6.lookup? a

/-- Whether any of the addresses is ignored. -/
def ignoresAny (f : DestinationFilter) (as : List IpAddress) : Bool :=
  as.any fun a => f.lookup? a == some true

/-- The number of networks with a flag. -/
def size (f : DestinationFilter) : Nat := f.v4.size + f.v6.size

/-- Whether no network has a flag. -/
def isEmpty (f : DestinationFilter) : Bool := f.size == 0

/-- Adds the network a text names, ignored. -/
def ignoreText (f : DestinationFilter) (text : String) : Except CidrFault DestinationFilter :=
  match IpNetwork.ofText text with
  | .ok n => .ok (f.insert n true)
  | .error fault => .error ⟨text, fault⟩

/-- The filter that ignores the networks of a list. -/
def ofTexts (texts : List String) : Except CidrFault DestinationFilter :=
  texts.foldlM ignoreText ∅

end DestinationFilter

end DnsConnector
