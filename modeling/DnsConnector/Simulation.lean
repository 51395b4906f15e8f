import DnsConnector.Connector

/-!
# DnsConnector.Simulation

A connector on a virtual clock.  The actions of its listener are carried out by
collaborators that say how long they take; what they lead to is fed back in the
order of time.

Of two things that are due at one instant, the one whose task goes on first then
comes first (`Wait.goesFirst`): waiting is fair, and a task keeps its place
while it goes on without waiting.  Everything that is due goes on before the next
event, so when the token fires nothing else is ready.
-/

namespace DnsConnector

namespace Simulation

/-! ## Collaborators -/

/-- Who carries out the actions of a connector. -/
structure Collaborators (ε : Type) where
  policy : Policy ε
  /-- How the attempt to write with a given number goes. -/
  write : Nat → Timed ε Bool
  /-- How long a write may take. -/
  writeTimeout : Nat
  /-- The time of the address book at an instant. -/
  bookTime : Nat → Nat

/-- What has become of an action. -/
inductive Progress where
  | drafted (draft : Option Draft)
  | written (success : Bool)

/-- An action under way: its task, when it is due, what has become of it then,
and all waits of the task until then. -/
structure Pending where
  task : Nat
  due : Nat
  waits : List Wait
  progress : Progress

namespace Pending

/-- Whether one of two things that are due at one instant comes first.  Tasks
that have waited alike keep the order of their datagrams. -/
def goesFirst (p q : Pending) : Bool :=
  if p.task ≤ q.task then Wait.goesFirst p.due p.waits q.waits
  else !Wait.goesFirst p.due q.waits p.waits

/-- Whether one thing comes before another. -/
def precedes (p q : Pending) : Bool := p.due < q.due || (p.due = q.due && p.goesFirst q)

/-- What comes first, and everything else in its order. -/
def next? : List Pending → Option (Pending × List Pending)
  | [] => none
  | p :: ps =>
    match next? ps with
    | none => some (p, [])
    | some (q, rest) => if p.precedes q then some (p, ps) else some (q, p :: rest)

theorem eq_nil_of_next?_eq_none {ps : List Pending} (h : next? ps = none) : ps = [] := by
  cases ps with
  | nil => rfl
  | cons p ps =>
    rw [next?] at h
    split at h
    · simp at h
    · split at h <;> simp at h

/-- What precedes something is not due after it. -/
theorem due_le_of_precedes {p q : Pending} (h : p.precedes q = true) : p.due ≤ q.due := by
  simp only [precedes, Bool.or_eq_true, Bool.and_eq_true, decide_eq_true_eq] at h
  omega

/-- What does not precede something is not due before it. -/
theorem due_le_of_not_precedes {p q : Pending} (h : ¬p.precedes q = true) : q.due ≤ p.due := by
  simp only [precedes, Bool.or_eq_true, Bool.and_eq_true, decide_eq_true_eq] at h
  omega

/-- Nothing is due before what comes first. -/
theorem due_le_of_next? {ps rest : List Pending} {p : Pending}
    (h : next? ps = some (p, rest)) : ∀ q ∈ ps, p.due ≤ q.due := by
  induction ps generalizing p rest with
  | nil => simp [next?] at h
  | cons r ps ih =>
    rw [next?] at h
    split at h
    next hn =>
      obtain ⟨rfl, -⟩ := Prod.mk.inj (Option.some.inj h)
      simp [eq_nil_of_next?_eq_none hn]
    next q others hn =>
      split at h
      next hp =>
        obtain ⟨rfl, -⟩ := Prod.mk.inj (Option.some.inj h)
        simp only [List.mem_cons, forall_eq_or_imp]
        exact ⟨Nat.le_refl _, fun x hx => Nat.le_trans (due_le_of_precedes hp) (ih hn x hx)⟩
      next hp =>
        obtain ⟨rfl, -⟩ := Prod.mk.inj (Option.some.inj h)
        simp only [List.mem_cons, forall_eq_or_imp]
        exact ⟨due_le_of_not_precedes hp, ih hn⟩

end Pending

end Simulation

/-! ## Simulations -/

open Simulation

/-- A connector in the middle of a simulation. -/
structure Simulation where
  connector : Connector
  clock : Nat
  /-- What is under way. -/
  pending : List Pending
  /-- How many attempts to write there were. -/
  attempts : Nat
  /-- What has been written so far, and to where. -/
  sent : List (SocketAddress × Octets)

namespace Simulation

variable {ε : Type}

/-- The beginning of a simulation. -/
def start (connector : Connector) : Simulation :=
  { connector, clock := 0, pending := [], attempts := 0, sent := [] }

/-- Begins something that is ready later, for a task that has waited before. -/
def await (s : Simulation) (task : Nat) (waits : List Wait) (x : Timed ε Progress) : Simulation :=
  { s with
    pending := s.pending ++
      [⟨task, s.clock + x.elapsed, waits ++ x.waits.map (Wait.shift s.clock), x.result⟩] }

/-- Carries out an action; `waits` are those of its task so far. -/
def perform (c : Collaborators ε) (waits : List Wait) (s : Simulation) :
    Listener.Action → Simulation
  | .handle task datagram source =>
    s.await task waits ((c.policy.draft datagram source).map .drafted)
  | .write task _ _ =>
    { s with attempts := s.attempts + 1 }.await task waits
      (((c.write s.attempts).within c.writeTimeout).map fun r => .written (r = some true))
  | .sent _ response destination => { s with sent := s.sent ++ [(destination, response)] }

/-- Takes the next state of the connector and carries out its actions. -/
def follow (c : Collaborators ε) (waits : List Wait) (s : Simulation)
    (next : Connector × List Listener.Action) : Simulation :=
  next.2.foldl (perform c waits) { s with connector := next.1 }

/-- Feeds an event to the connector. -/
def feed (c : Collaborators ε) (s : Simulation) (e : Listener.Event) : Simulation :=
  follow c [] s (s.connector.feed e)

/-- Goes on with something that is due. -/
def proceed (c : Collaborators ε) (s : Simulation) (p : Pending) : Simulation :=
  match p.progress with
  | .drafted draft => follow c p.waits s (s.connector.finish p.task draft (c.bookTime s.clock))
  | .written true => s.feed c (.written p.task)
  | .written false => s.feed c (.unwritten p.task)

/-- Goes on with everything that is due by an instant, for at most a number of
steps. -/
def settle (c : Collaborators ε) (instant : Nat) : (fuel : Nat) → Simulation → Simulation
  | 0, s => s
  | fuel + 1, s =>
    match Pending.next? s.pending with
    | none => s
    | some (p, rest) =>
      if p.due ≤ instant then
        settle c instant fuel ({ s with pending := rest, clock := p.due }.proceed c p)
      else
        s

/-- Lets time pass.  Two steps for everything under way are enough: a draft
leads to one write at most, and a write to nothing. -/
def elapse (c : Collaborators ε) (s : Simulation) (time : Nat) : Simulation :=
  let instant := s.clock + time
  { s.settle c instant (2 * s.pending.length) with clock := instant }

/-- Feeds events that happen at once and then lets time pass. -/
def advance (c : Collaborators ε) (s : Simulation) (es : List Listener.Event) (time : Nat) :
    Simulation :=
  (es.foldl (feed c) s).elapse c time

end Simulation

end DnsConnector
