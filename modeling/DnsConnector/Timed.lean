/-!
# DnsConnector.Timed

Computations on a virtual clock.  A computation has a result, the time at which
it is ready and events on the way, each with its instant; all times count in
milliseconds from the start of the computation.

A deadline does not stop a computation that is ready at that very instant, and
what happens at the deadline still happens; only later events are cut off.

A computation also remembers its waits.  At every instant those that are resumed
go on in the order in which they began to wait, so the waits decide which of two
computations that are ready at one instant goes on first (`Wait.goesFirst`).
-/

namespace DnsConnector

/-! ## Waits -/

/-- A wait from one instant to a later one. -/
structure Wait where
  start : Nat
  stop : Nat
deriving DecidableEq, Repr

namespace Wait

/-- The waits of something that takes some time from now on. -/
def lasting (time : Nat) : List Wait := if time = 0 then [] else [⟨0, time⟩]

/-- A wait as it is seen from an instant that lies earlier. -/
def shift (time : Nat) (w : Wait) : Wait := ⟨time + w.start, time + w.stop⟩

/-- The instants at which waits began that led to an instant, the latest first.
Of the waits that end at one instant the one that began first counts; no more
steps are taken than `fuel`. -/
def beginnings (ws : List Wait) : (fuel : Nat) → Nat → List Nat
  | 0, _ => []
  | fuel + 1, instant =>
    match ((ws.filter (·.stop = instant)).map (·.start)).min? with
    | none => []
    | some start => start :: beginnings ws fuel start

/-- The order in which two computations go on at an instant to which the given
beginnings led.  Whoever has waited longer is first; of two that began to wait
at one instant, who was first then; and what was only started at an instant
comes after everything that was resumed at it. -/
def compareBeginnings : List Nat → List Nat → Ordering
  | [], [] => .eq
  | [], _ :: _ => .gt
  | _ :: _, [] => .lt
  | a :: as, b :: bs => (compare a b).then (compareBeginnings as bs)

/-- The order in which two computations with these waits go on at an instant. -/
def compareAt (instant : Nat) (vs ws : List Wait) : Ordering :=
  compareBeginnings (beginnings vs vs.length instant) (beginnings ws ws.length instant)

/-- Whether a computation goes on at an instant before another one that was
started later. -/
def goesFirst (instant : Nat) (vs ws : List Wait) : Bool := compareAt instant vs ws != .gt

/-- The order does not depend on which computation is looked at first. -/
theorem swap_compareBeginnings (as bs : List Nat) :
    (compareBeginnings as bs).swap = compareBeginnings bs as := by
  induction as generalizing bs with
  | nil => cases bs <;> rfl
  | cons a as ih =>
    cases bs with
    | nil => rfl
    | cons b bs => rw [compareBeginnings, Ordering.swap_then, Nat.compare_swap, ih, compareBeginnings]

/-- Only computations that have waited alike are in no order. -/
theorem compareBeginnings_eq_eq_iff {as bs : List Nat} :
    compareBeginnings as bs = .eq ↔ as = bs := by
  induction as generalizing bs with
  | nil => cases bs <;> simp [compareBeginnings]
  | cons a as ih =>
    cases bs with
    | nil => simp [compareBeginnings]
    | cons b bs => simp [compareBeginnings, Ordering.then_eq_eq, ih]

end Wait

/-! ## Computations -/

/-- A result that is ready after some time, and what happens until then. -/
structure Timed (ε α : Type) where
  result : α
  elapsed : Nat
  waits : List Wait
  events : List (Nat × ε)

namespace Timed

variable {ε α β : Type}

/-- A result that is ready at once. -/
def ready (a : α) : Timed ε α := ⟨a, 0, [], []⟩

/-- A result that is ready after a delay. -/
def after (delay : Nat) (a : α) : Timed ε α := ⟨a, delay, Wait.lasting delay, []⟩

/-- An event now. -/
def emit (e : ε) : Timed ε Unit := ⟨(), 0, [], [(0, e)]⟩

/-- The result sent through a function. -/
def map (f : α → β) (x : Timed ε α) : Timed ε β := { x with result := f x.result }

/-- The events sent through a function. -/
def mapEvents {δ : Type} (f : ε → δ) (x : Timed ε α) : Timed δ α :=
  { x with events := x.events.map fun (t, e) => (t, f e) }

/-- The second computation starts when the first one is ready. -/
def bind (x : Timed ε α) (f : α → Timed ε β) : Timed ε β :=
  let y := f x.result
  { result := y.result
    elapsed := x.elapsed + y.elapsed
    waits := x.waits ++ y.waits.map (Wait.shift x.elapsed)
    events := x.events ++ y.events.map fun (t, e) => (x.elapsed + t, e) }

/-- Both computations start together; they are ready when the slower one is. -/
def both (x : Timed ε α) (y : Timed ε β) : Timed ε (α × β) :=
  { result := (x.result, y.result)
    elapsed := max x.elapsed y.elapsed
    waits := x.waits ++ y.waits
    events := x.events ++ y.events }

/-- The result, if it is ready by a deadline.  The wait for the deadline begins
with the computation and ends with it at the latest. -/
def within (deadline : Nat) (x : Timed ε α) : Timed ε (Option α) :=
  if x.elapsed < deadline then
    x.map some
  else
    { result := if x.elapsed = deadline then some x.result else none
      elapsed := deadline
      waits := x.waits.filter (·.stop ≤ deadline) ++ Wait.lasting deadline
      events := x.events.filter (·.1 ≤ deadline) }

/-- The events without their instants. -/
def trace (x : Timed ε α) : List ε := x.events.map (·.2)

@[simp] theorem result_map (f : α → β) (x : Timed ε α) : (x.map f).result = f x.result := rfl

@[simp] theorem result_bind (x : Timed ε α) (f : α → Timed ε β) :
    (x.bind f).result = (f x.result).result := rfl

@[simp] theorem result_both (x : Timed ε α) (y : Timed ε β) :
    (x.both y).result = (x.result, y.result) := rfl

/-- A deadline is met exactly by what is ready by then. -/
theorem result_within (deadline : Nat) (x : Timed ε α) :
    (x.within deadline).result = if x.elapsed ≤ deadline then some x.result else none := by
  simp only [within]
  split
  next h => rw [if_pos (Nat.le_of_lt h)]; rfl
  next h =>
    by_cases he : x.elapsed = deadline
    · rw [if_pos he, if_pos (Nat.le_of_eq he)]
    · rw [if_neg he, if_neg (by omega)]

theorem elapsed_bind (x : Timed ε α) (f : α → Timed ε β) :
    (x.bind f).elapsed = x.elapsed + (f x.result).elapsed := rfl

theorem elapsed_within (deadline : Nat) (x : Timed ε α) :
    (x.within deadline).elapsed = min x.elapsed deadline := by
  rw [within]
  split
  next h => exact (Nat.min_eq_left (Nat.le_of_lt h)).symm
  next h => exact (Nat.min_eq_right (Nat.not_lt.1 h)).symm

/-- Nothing takes longer than its deadline. -/
theorem elapsed_within_le (deadline : Nat) (x : Timed ε α) :
    (x.within deadline).elapsed ≤ deadline := by
  rw [elapsed_within]
  exact Nat.min_le_right _ _

/-- What goes on with a result that is ready at once only waits for what came
before it. -/
theorem bind_eq_map {x : Timed ε α} {f : α → Timed ε β} {g : α → β}
    (h : f x.result = ready (g x.result)) : x.bind f = x.map g := by
  simp [bind, map, h, ready]

end Timed

end DnsConnector
