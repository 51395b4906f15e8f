import DnsConnector.Listener
import DnsConnector.Responder

/-!
# DnsConnector.Connector

A connector at work: a listener and the address book that its responses draw
on.  The book changes only when the draft of a task is finished, in one step
with the listener; so every response agrees with the book at that moment.
-/

namespace DnsConnector

/-- A listener and its address book. -/
structure Connector where
  listener : Listener
  book : AddressBook

namespace Connector

/-- Passes an event on to the listener, and what goes on at once after it. -/
def feed (c : Connector) (e : Listener.Event) : Connector × List Listener.Action :=
  let next := c.listener.run (e :: c.listener.followers e)
  ({ c with listener := next.1 }, next.2)

/-- Finishes the draft of a task, if the task still waits for it. -/
def finish (c : Connector) (task : Nat) (draft : Option Draft) (now : Nat) :
    Connector × List Listener.Action :=
  match c.listener.tasks.get? task, draft with
  | some ⟨_, .waiting⟩, some d =>
    let (book, response) := d.finish c.book now
    { c with book }.feed (.handled task response)
  | some ⟨_, .waiting⟩, none => c.feed (.handled task none)
  | _, _ => (c, [])

/-- The events of a listener leave the book alone. -/
@[simp] theorem book_feed (c : Connector) (e : Listener.Event) : (c.feed e).1.book = c.book := rfl

/-- The draft of a task that is over is not finished. -/
theorem finish_of_get?_eq_none {c : Connector} {task : Nat}
    (h : c.listener.tasks.get? task = none) (draft : Option Draft) (now : Nat) :
    c.finish task draft now = (c, []) := by
  simp [finish, h]

end Connector

end DnsConnector
