import DnsConnector.Connector

/-!
# DnsConnector.Proofs.Listener

What becomes of every single datagram, whatever else happens meanwhile.  The
tasks of a listener do not notice each other: what it does for one of them is
what this task would do alone about the events that it attends to (`run_alone`).
A task alone asks for its response once, on the octets it was given, and writes
it once, to where its datagram came from (`life_runAlone`).  So each datagram
that is read is answered by itself (`serves`).

The events may come in any order.  In particular, whatever was waiting when the
token fired may look at it first or go on first, and in the second case it still
writes (`not_silentAfterCancel`).
-/

namespace DnsConnector

namespace Listener

variable {l : Listener} {e : Event} {es : List Event} {n : Nat}

/-! ## The buffer -/

theorem length_receive (buffer octets : Octets) :
    (receive buffer octets).1.length = buffer.length := by
  simp only [receive, List.length_append, List.length_take, List.length_drop]
  omega

/-- Of what is in the buffer the front is the datagram, whatever was there before. -/
theorem take_receive (buffer octets : Octets) :
    (receive buffer octets).1.take (receive buffer octets).2 = octets.take buffer.length := by
  have hlength : (octets.take (min octets.length buffer.length)).length =
      min octets.length buffer.length := by
    rw [List.length_take]
    omega
  rw [receive, List.take_left' hlength, List.take_eq_take_iff]
  omega

/-! ## Events and actions -/

/-- The datagram of an event. -/
def datagram? : Event → Option (Octets × SocketAddress)
  | .datagram octets source => some (octets, source)
  | _ => none

/-- The failures of a socket that do not end listening. -/
def passing : List SocketFault := [.interrupted, .refused, .reset, .wouldBlock]

theorem mem_passing_iff {fault : SocketFault} : fault ∈ passing ↔ fault.isTransient = true := by
  cases fault <;> decide

/-- Whether the token has fired after an event. -/
def firedBy (fired : Bool) (e : Event) : Bool := fired || e = .cancel

/-- How listening ends with an event, if it does: well when the reading looks at
the token and it has fired, and with every failure that does not pass. -/
def ending? (fired : Bool) : Event → Option (Except SocketFault Unit)
  | .stop => if fired then some (.ok ()) else none
  | .fault fault => if fault ∈ passing then none else some (.error fault)
  | _ => none

/-- How listening ends with a sequence of events, if it does. -/
def ended? (fired : Bool) : List Event → Option (Except SocketFault Unit)
  | [] => none
  | e :: es => (ending? fired e).or (ended? (firedBy fired e) es)

/-- The datagrams that are read: those before the event that ends listening. -/
def datagramsRead (fired : Bool) : List Event → List (Octets × SocketAddress)
  | [] => []
  | e :: es =>
    (datagram? e).toList ++
      if (ending? fired e).isNone then datagramsRead (firedBy fired e) es else []

/-- The task that goes on with an event. -/
def task? : Event → Option Nat
  | .started task => some task
  | .handled task _ => some task
  | .written task => some task
  | .unwritten task => some task
  | _ => none

/-- What a task goes on with, up to where it looks at the token and the token has
fired. -/
def attended (n : Nat) (fired : Bool) : List Event → List Event
  | [] => []
  | e :: es =>
    if e = .abandon n ∧ fired then []
    else (if task? e = some n then [e] else []) ++ attended n (firedBy fired e) es

/-- The task of an action. -/
def Action.task : Action → Nat
  | .handle task _ _ => task
  | .write task _ _ => task
  | .sent task _ _ => task

/-- What is done for one task. -/
def ofTask (n : Nat) (as : List Action) : List Action := as.filter (·.task = n)

/-! ## One task -/

/-- What a task does about what it goes on with, and what is left of it. -/
def stepAlone (n : Nat) : Option Task → Event → Option Task × List Action
  | some ⟨source, .fresh datagram⟩, .started _ =>
    (some ⟨source, .waiting⟩, [.handle n datagram source])
  | some ⟨source, .waiting⟩, .handled _ (some bs) =>
    (some ⟨source, .writing bs⟩, [.write n bs source])
  | some ⟨_, .waiting⟩, .handled _ none => (none, [])
  | some ⟨source, .writing bs⟩, .written _ => (none, [.sent n bs source])
  | some ⟨_, .writing _⟩, .unwritten _ => (none, [])
  | t, _ => (t, [])

/-- What a task does about a sequence of events. -/
def runAlone (n : Nat) : Option Task → List Event → List Action
  | _, [] => []
  | t, e :: es => (stepAlone n t e).2 ++ runAlone n (stepAlone n t e).1 es

/-- Whether a stage ends with an event. -/
def Stage.awaits : Stage → Event → Bool
  | .fresh _, .started _ => true
  | .waiting, .handled _ _ => true
  | .writing _, .written _ => true
  | .writing _, .unwritten _ => true
  | _, _ => false

/-- A task is not moved by what it does not wait for. -/
theorem stepAlone_of_not_awaits {t : Task} (h : t.stage.awaits e = false) (n : Nat) :
    stepAlone n (some t) e = (some t, []) := by
  obtain ⟨source, stage⟩ := t
  cases stage <;> cases e <;> first | rfl | contradiction

theorem runAlone_none (n : Nat) (es : List Event) : runAlone n none es = [] := by
  induction es with
  | nil => rfl
  | cons e es ih => exact ih

theorem runAlone_of_not_awaits {t : Task} (h : ∀ e ∈ es, t.stage.awaits e = false) (n : Nat)
    (fs : List Event) : runAlone n (some t) (es ++ fs) = runAlone n (some t) fs := by
  induction es with
  | nil => rfl
  | cons e es ih =>
      obtain ⟨he, hes⟩ := List.forall_mem_cons.1 h
      rw [List.cons_append, runAlone, stepAlone_of_not_awaits he]
      exact ih hes

/-- A task does nothing until the first event that it waits for, if there is one. -/
theorem runAlone_cases (n : Nat) (t : Task) (es : List Event) :
    ((∀ e ∈ es, t.stage.awaits e = false) ∧ runAlone n (some t) es = []) ∨
      ∃ before e after, es = before ++ e :: after ∧ (∀ e ∈ before, t.stage.awaits e = false) ∧
        t.stage.awaits e = true ∧
        runAlone n (some t) es =
          (stepAlone n (some t) e).2 ++ runAlone n (stepAlone n (some t) e).1 after := by
  cases hfind : es.find? t.stage.awaits with
  | none =>
      have hnone : ∀ e ∈ es, t.stage.awaits e = false := by simpa using hfind
      have hrun := runAlone_of_not_awaits hnone n []
      rw [List.append_nil] at hrun
      exact .inl ⟨hnone, hrun⟩
  | some e =>
      obtain ⟨he, before, after, rfl, hbefore⟩ := List.find?_eq_some_iff_append.1 hfind
      have hbefore' : ∀ e ∈ before, t.stage.awaits e = false := by simpa using hbefore
      exact .inr ⟨before, e, after, rfl, hbefore', he, runAlone_of_not_awaits hbefore' n _⟩

/-- The life of a task: the events that it attends to, and what is done for it. -/
inductive Life (n : Nat) (datagram : Octets) (source : SocketAddress) :
    List Event → List Action → Prop
  /-- The task has not gone on yet. -/
  | fresh {es : List Event} (hes : .started n ∉ es) : Life n datagram source es []
  /-- The response was asked for and is not known yet. -/
  | waiting {es fs : List Event} (hes : .started n ∉ es) (hfs : ∀ r, .handled n r ∉ fs) :
      Life n datagram source (es ++ .started n :: fs) [.handle n datagram source]
  /-- There is no response. -/
  | unanswered {es fs gs : List Event} (hes : .started n ∉ es) (hfs : ∀ r, .handled n r ∉ fs) :
      Life n datagram source (es ++ .started n :: (fs ++ .handled n none :: gs))
        [.handle n datagram source]
  /-- The response is being written. -/
  | writing {es fs gs : List Event} {bs : Octets} (hes : .started n ∉ es)
      (hfs : ∀ r, .handled n r ∉ fs) (hgs : .written n ∉ gs ∧ .unwritten n ∉ gs) :
      Life n datagram source (es ++ .started n :: (fs ++ .handled n (some bs) :: gs))
        [.handle n datagram source, .write n bs source]
  /-- The response was written. -/
  | sent {es fs gs hs : List Event} {bs : Octets} (hes : .started n ∉ es)
      (hfs : ∀ r, .handled n r ∉ fs) (hgs : .written n ∉ gs ∧ .unwritten n ∉ gs) :
      Life n datagram source
        (es ++ .started n :: (fs ++ .handled n (some bs) :: (gs ++ .written n :: hs)))
        [.handle n datagram source, .write n bs source, .sent n bs source]
  /-- The response could not be written. -/
  | unsent {es fs gs hs : List Event} {bs : Octets} (hes : .started n ∉ es)
      (hfs : ∀ r, .handled n r ∉ fs) (hgs : .written n ∉ gs ∧ .unwritten n ∉ gs) :
      Life n datagram source
        (es ++ .started n :: (fs ++ .handled n (some bs) :: (gs ++ .unwritten n :: hs)))
        [.handle n datagram source, .write n bs source]

section Life

variable {datagram bs : Octets} {source : SocketAddress} {fs gs : List Event}

/-- What becomes of a task that writes. -/
theorem life_writing (hes : .started n ∉ es) (hfs : ∀ r, .handled n r ∉ fs)
    (hgs : ∀ e ∈ gs, task? e = some n) :
    Life n datagram source (es ++ .started n :: (fs ++ .handled n (some bs) :: gs))
      (.handle n datagram source :: .write n bs source ::
        runAlone n (some ⟨source, .writing bs⟩) gs) := by
  obtain ⟨hnone, hrun⟩ | ⟨gs, e, hs, rfl, hfirst, he, hrun⟩ :=
    runAlone_cases n ⟨source, .writing bs⟩ gs
  · rw [hrun]
    exact .writing hes hfs ⟨fun h => (nomatch hnone _ h), fun h => (nomatch hnone _ h)⟩
  have hnever : .written n ∉ gs ∧ .unwritten n ∉ gs :=
    ⟨fun h => (nomatch hfirst _ h), fun h => (nomatch hfirst _ h)⟩
  have hown := hgs e (by simp)
  cases e with
  | written task =>
      obtain rfl := Option.some.inj hown
      rw [hrun, stepAlone, runAlone_none]
      exact .sent hes hfs hnever
  | unwritten task =>
      obtain rfl := Option.some.inj hown
      rw [hrun, stepAlone, runAlone_none]
      exact .unsent hes hfs hnever
  | _ => contradiction

/-- What becomes of a task that waits for its response. -/
theorem life_waiting (hes : .started n ∉ es) (hfs : ∀ e ∈ fs, task? e = some n) :
    Life n datagram source (es ++ .started n :: fs)
      (.handle n datagram source :: runAlone n (some ⟨source, .waiting⟩) fs) := by
  obtain ⟨hnone, hrun⟩ | ⟨fs, e, gs, rfl, hfirst, he, hrun⟩ :=
    runAlone_cases n ⟨source, .waiting⟩ fs
  · rw [hrun]
    exact .waiting hes fun _ h => (nomatch hnone _ h)
  have hnever : ∀ r, .handled n r ∉ fs := fun _ h => (nomatch hfirst _ h)
  have hown := hfs e (by simp)
  cases e with
  | handled task response =>
      obtain rfl := Option.some.inj hown
      rw [hrun]
      cases response with
      | none =>
          rw [stepAlone, runAlone_none]
          exact .unanswered hes hnever
      | some bs => exact life_writing hes hnever fun e he => hfs e (by simp [he])
  | _ => contradiction

/-- What becomes of a task that has a datagram. -/
theorem life_runAlone (hes : ∀ e ∈ es, task? e = some n) :
    Life n datagram source es (runAlone n (some ⟨source, .fresh datagram⟩) es) := by
  obtain ⟨hnone, hrun⟩ | ⟨es, e, fs, rfl, hfirst, he, hrun⟩ :=
    runAlone_cases n ⟨source, .fresh datagram⟩ es
  · rw [hrun]
    exact .fresh fun h => (nomatch hnone _ h)
  have hnever : .started n ∉ es := fun h => (nomatch hfirst _ h)
  have hown := hes e (by simp)
  cases e with
  | started task =>
      obtain rfl := Option.some.inj hown
      rw [hrun]
      exact life_waiting hnever fun e he => hes e (by simp [he])
  | _ => contradiction

end Life

/-! ## What a step does -/

theorem task_of_mem_stepAlone {t : Option Task} {a : Action} (h : a ∈ (stepAlone n t e).2) :
    a.task = n := by
  unfold stepAlone at h
  split at h <;> simp_all [Action.task]

/-- A table that differs from the tasks of a listener in one task. -/
def Replaces (l : Listener) (n : Nat) (t : Option Task) (tasks : Table Nat Task) : Prop :=
  ∀ m, tasks.get? m = if m = n then t else l.tasks.get? m

theorem replaces_self {t : Option Task} (h : l.tasks.get? n = t) : Replaces l n t l.tasks := by
  intro m
  split
  next hm => rw [hm, h]
  · rfl

theorem replaces_insert (l : Listener) (n : Nat) (t : Task) :
    Replaces l n (some t) (l.tasks.insert n t) := fun m => Table.get?_insert _ n m t

theorem replaces_erase (l : Listener) (n : Nat) : Replaces l n none (l.tasks.erase n) :=
  fun m => Table.get?_erase _ n m

/-- A listener goes on with a task as the task does alone, and leaves everything
else as it is. -/
theorem step_of_task? (h : task? e = some n) :
    ∃ tasks, l.step e = ({ l with tasks }, (stepAlone n (l.tasks.get? n) e).2) ∧
      Replaces l n (stepAlone n (l.tasks.get? n) e).1 tasks := by
  cases e with
  | started task =>
      obtain rfl := Option.some.inj h
      rw [step]
      unfold begin
      cases htask : l.tasks.get? task with
      | none => exact ⟨_, rfl, replaces_self htask⟩
      | some t =>
          obtain ⟨source, stage⟩ := t
          cases stage with
          | fresh datagram => exact ⟨_, rfl, replaces_insert l task _⟩
          | _ => exact ⟨_, rfl, replaces_self htask⟩
  | handled task response =>
      obtain rfl := Option.some.inj h
      rw [step]
      unfold respond
      cases htask : l.tasks.get? task with
      | none => exact ⟨_, rfl, replaces_self htask⟩
      | some t =>
          obtain ⟨source, stage⟩ := t
          cases stage with
          | waiting =>
              cases response with
              | none => exact ⟨_, rfl, replaces_erase l task⟩
              | some bs => exact ⟨_, rfl, replaces_insert l task _⟩
          | _ => exact ⟨_, rfl, replaces_self htask⟩
  | written task | unwritten task =>
      obtain rfl := Option.some.inj h
      rw [step]
      unfold conclude
      cases htask : l.tasks.get? task with
      | none => exact ⟨_, rfl, replaces_self htask⟩
      | some t =>
          obtain ⟨source, stage⟩ := t
          cases stage with
          | writing bs => exact ⟨_, rfl, replaces_erase l task⟩
          | _ => exact ⟨_, rfl, replaces_self htask⟩
  | _ => contradiction

/-- All that a step can do. -/
inductive Steps (l : Listener) : Event → Listener × List Action → Prop
  | read (hlistening : l.isListening = true) (octets : Octets) (source : SocketAddress) :
      Steps l (.datagram octets source) (l.read octets source, [])
  | fail (hlistening : l.isListening = true) {fault : SocketFault}
      (hfault : fault.isTransient = false) :
      Steps l (.fault fault) ({ l with status := .failed fault }, [])
  | fire : Steps l .cancel ({ l with fired := true }, [])
  | stop (hlistening : l.isListening = true) (hfired : l.fired = true) :
      Steps l .stop ({ l with status := .cancelled }, [])
  /-- A task goes on. -/
  | proceed {e : Event} {n : Nat} {tasks : Table Nat Task} (htask : task? e = some n)
      (htasks : Replaces l n (stepAlone n (l.tasks.get? n) e).1 tasks) :
      Steps l e ({ l with tasks }, (stepAlone n (l.tasks.get? n) e).2)
  | abandon (hfired : l.fired = true) (n : Nat) :
      Steps l (.abandon n) ({ l with tasks := l.tasks.erase n }, [])
  /-- The event means nothing. -/
  | ignore {e : Event}
      (hlistening : l.isListening = true → datagram? e = none ∧ ending? l.fired e = none)
      (htask : task? e = none) (hcancel : e ≠ .cancel)
      (habandon : ∀ n, e = .abandon n → l.fired = false) : Steps l e (l, [])

theorem steps (l : Listener) (e : Event) : Steps l e (l.step e) := by
  cases htask : task? e with
  | some n =>
      obtain ⟨tasks, hstep, htasks⟩ := step_of_task? (l := l) htask
      rw [hstep]
      exact .proceed htask htasks
  | none =>
      cases e with
      | datagram octets source =>
          rw [step]
          split
          next hlistening => exact .read hlistening octets source
          next hlistening => exact .ignore (absurd · hlistening) rfl (by simp) (by simp)
      | fault fault =>
          rw [step]
          split
          next h =>
            obtain ⟨hlistening, hfault⟩ := Bool.and_eq_true_iff.1 h
            exact .fail hlistening (by simpa using hfault)
          next h =>
            refine .ignore (fun hlistening => ⟨rfl, if_pos ?_⟩) rfl (by simp) (by simp)
            exact mem_passing_iff.2 (by simpa [hlistening] using h)
      | cancel => exact .fire
      | stop =>
          rw [step]
          split
          next h =>
            obtain ⟨hlistening, hfired⟩ := Bool.and_eq_true_iff.1 h
            exact .stop hlistening hfired
          next h =>
            refine .ignore (fun hlistening => ⟨rfl, if_neg ?_⟩) rfl (by simp) (by simp)
            simpa [hlistening] using h
      | abandon n =>
          rw [step]
          split
          next hfired => exact .abandon hfired n
          next hfired =>
            exact .ignore (fun _ => ⟨rfl, rfl⟩) rfl (by simp) fun _ _ => Bool.eq_false_iff.2 hfired
      | _ => contradiction

theorem fired_step (l : Listener) (e : Event) : (l.step e).1.fired = firedBy l.fired e := by
  have hstep := steps l e
  generalize l.step e = next at hstep ⊢
  cases hstep with
  | proceed htask =>
      have hcancel : e ≠ .cancel := fun h => by rw [h] at htask; contradiction
      simp [firedBy, hcancel]
  | ignore _ _ hcancel => simp [firedBy, hcancel]
  | _ => simp [firedBy, read]

theorem fired_run (l : Listener) (es : List Event) :
    (l.run es).1.fired = (l.fired || decide (.cancel ∈ es)) := by
  induction es generalizing l with
  | nil => simp [run]
  | cons e es ih =>
      rw [run, ih, fired_step, firedBy, Bool.or_assoc]
      simp [eq_comm]

/-! ## Reading -/

theorem result?_eq_none_iff : l.result? = none ↔ l.isListening = true := by
  rw [result?, isListening, decide_eq_true_iff]
  cases l.status <;> simp

theorem or_result?_of_not_isListening (h : l.isListening = false)
    (r : Option (Except SocketFault Unit)) : l.result?.or r = l.result? := by
  cases hresult : l.result? with
  | none => rw [result?_eq_none_iff.1 hresult] at h; contradiction
  | some r => rfl

theorem result?_step (l : Listener) (e : Event) :
    (l.step e).1.result? = l.result?.or (ending? l.fired e) := by
  have hstep := steps l e
  generalize l.step e = next at hstep ⊢
  cases hstep with
  | fail hlistening hfault =>
      have hpassing := mt mem_passing_iff.1 (Bool.eq_false_iff.1 hfault)
      rw [result?_eq_none_iff.2 hlistening, Option.none_or, ending?, if_neg hpassing]
      rfl
  | stop hlistening hfired =>
      rw [result?_eq_none_iff.2 hlistening, Option.none_or, ending?, if_pos hfired]
      rfl
  | proceed htask =>
      have hending : ending? l.fired e = none := by cases e <;> first | rfl | contradiction
      rw [hending, Option.or_none]
      rfl
  | ignore hlistening =>
      cases hl : l.isListening with
      | false => exact (or_result?_of_not_isListening hl _).symm
      | true => rw [(hlistening hl).2, Option.or_none]
  | _ => exact Option.or_none.symm

/-- How listening ends is decided by the first event that ends it. -/
theorem result?_run (l : Listener) (es : List Event) :
    (l.run es).1.result? = l.result?.or (ended? l.fired es) := by
  induction es generalizing l with
  | nil => exact Option.or_none.symm
  | cons e es ih => rw [run, ih, result?_step, fired_step, ended?, Option.or_assoc]

theorem isListening_step (l : Listener) (e : Event) :
    (l.step e).1.isListening = (l.isListening && (ending? l.fired e).isNone) := by
  rw [Bool.eq_iff_iff, ← result?_eq_none_iff, result?_step, Option.or_eq_none_iff,
    result?_eq_none_iff, Bool.and_eq_true, Option.isNone_iff_eq_none]

theorem received_step (l : Listener) (e : Event) :
    (l.step e).1.received =
      l.received + if l.isListening then (datagram? e).toList.length else 0 := by
  have hstep := steps l e
  generalize l.step e = next at hstep ⊢
  cases hstep with
  | read hlistening => simp [hlistening, read, datagram?]
  | proceed htask =>
      have hdatagram : datagram? e = none := by cases e <;> first | rfl | contradiction
      simp [hdatagram]
  | ignore hlistening =>
      split
      next hl => simp [(hlistening hl).1]
      · rfl
  | _ => simp [datagram?]

/-- Tasks are numbered in the order of their datagrams. -/
theorem received_run (l : Listener) (es : List Event) :
    (l.run es).1.received =
      l.received + if l.isListening then (datagramsRead l.fired es).length else 0 := by
  induction es generalizing l with
  | nil => simp [run, datagramsRead]
  | cons e es ih =>
      rw [run, ih, received_step, isListening_step, fired_step, datagramsRead]
      cases l.isListening with
      | false => rfl
      | true => cases ending? l.fired e <;> simp [Nat.add_assoc]

/-- A listener with a buffer for datagrams, whose tasks are numbered. -/
structure Ready (l : Listener) : Prop where
  buffer : l.buffer.length = 4096
  tasks : ∀ n, l.received ≤ n → l.tasks.get? n = none

theorem Ready.start (addressFault : Option SocketFault) : Ready (start addressFault) where
  buffer := List.length_replicate
  tasks _ _ := rfl

theorem Ready.lt_received (h : Ready l) {t : Task} (htask : l.tasks.get? n = some t) :
    n < l.received := by
  refine Nat.lt_of_not_le fun hle => ?_
  rw [h.tasks n hle] at htask
  contradiction

theorem Ready.read (h : Ready l) (octets : Octets) (source : SocketAddress) :
    Ready (l.read octets source) where
  buffer := (length_receive _ _).trans h.buffer
  tasks n hn := by
    have hlt : l.received < n := hn
    rw [Listener.read, Table.get?_insert, if_neg (Nat.ne_of_gt hlt)]
    exact h.tasks n (Nat.le_of_lt hlt)

theorem Ready.step (h : Ready l) (e : Event) : Ready (l.step e).1 := by
  have hstep := steps l e
  generalize l.step e = next at hstep ⊢
  cases hstep with
  | read _ octets source => exact h.read octets source
  | proceed _ htasks =>
      refine ⟨h.buffer, fun n hn => ?_⟩
      -- a task that has not begun does not go on
      rw [htasks n]
      split
      next hn' => rw [← hn', h.tasks n hn]; rfl
      · exact h.tasks n hn
  | abandon =>
      refine ⟨h.buffer, fun n hn => ?_⟩
      rw [Table.get?_erase, h.tasks n hn, ite_self]
  | _ => exact ⟨h.buffer, h.tasks⟩

theorem Ready.run (h : Ready l) (es : List Event) : Ready (l.run es).1 := by
  induction es generalizing l with
  | nil => exact h
  | cons e es ih => exact ih (h.step e)

/-- Something is done only about a task that goes on. -/
theorem exists_task_of_mem_step {a : Action} (h : a ∈ (l.step e).2) :
    ∃ t, l.tasks.get? a.task = some t ∧ a ∈ (stepAlone a.task (some t) e).2 := by
  have hstep := steps l e
  generalize l.step e = next at hstep h
  cases hstep with
  | proceed =>
      obtain rfl := task_of_mem_stepAlone h
      cases hget : l.tasks.get? a.task with
      | none => rw [hget] at h; contradiction
      | some t => exact ⟨t, rfl, hget ▸ h⟩
  | _ => contradiction

theorem received_le_run (l : Listener) (es : List Event) : l.received ≤ (l.run es).1.received := by
  rw [received_run]
  exact Nat.le_add_right _ _

/-- Nothing is done for tasks that have not begun. -/
theorem Ready.task_lt_run (h : Ready l) (es : List Event) :
    ∀ a ∈ (l.run es).2, a.task < (l.run es).1.received := by
  induction es generalizing l with
  | nil => exact List.forall_mem_nil _
  | cons e es ih =>
      rw [Listener.run]
      refine List.forall_mem_append.2 ⟨fun a ha => ?_, ih (h.step e)⟩
      obtain ⟨t, ht, -⟩ := exists_task_of_mem_step ha
      exact Nat.lt_of_lt_of_le (h.lt_received ht) (received_le_run l (e :: es))

/-! ## All tasks -/

theorem ofTask_append (n : Nat) (as bs : List Action) :
    ofTask n (as ++ bs) = ofTask n as ++ ofTask n bs := List.filter_append ..

theorem ofTask_eq_self {as : List Action} (h : ∀ a ∈ as, a.task = n) : ofTask n as = as :=
  List.filter_eq_self.2 fun a ha => decide_eq_true (h a ha)

theorem ofTask_eq_nil {as : List Action} (h : ∀ a ∈ as, a.task ≠ n) : ofTask n as = [] :=
  List.filter_eq_nil_iff.2 fun a ha => by simpa using h a ha

/-- A task that goes on does what it would do alone. -/
theorem step_own (h : task? e = some n) :
    (l.step e).1.tasks.get? n = (stepAlone n (l.tasks.get? n) e).1 ∧
      ofTask n (l.step e).2 = (stepAlone n (l.tasks.get? n) e).2 := by
  obtain ⟨tasks, hstep, htasks⟩ := step_of_task? (l := l) h
  rw [hstep]
  refine ⟨?_, ofTask_eq_self fun a ha => task_of_mem_stepAlone ha⟩
  exact (htasks n).trans (if_pos rfl)

/-- Nothing else makes it go on. -/
theorem step_other (hn : n < l.received) (htask : task? e ≠ some n)
    (habandon : ¬(e = .abandon n ∧ l.fired = true)) :
    (l.step e).1.tasks.get? n = l.tasks.get? n ∧ ofTask n (l.step e).2 = [] := by
  have hstep := steps l e
  generalize l.step e = next at hstep ⊢
  cases hstep with
  | read =>
      refine ⟨?_, rfl⟩
      rw [read, Table.get?_insert, if_neg (Nat.ne_of_lt hn)]
  | @proceed _ m _ hother htasks =>
      have hm : n ≠ m := fun h => htask (h ▸ hother)
      refine ⟨(htasks n).trans (if_neg hm), ofTask_eq_nil fun a ha => ?_⟩
      rw [task_of_mem_stepAlone ha]
      exact hm.symm
  | abandon hfired m =>
      have hm : n ≠ m := fun h => habandon ⟨h ▸ rfl, hfired⟩
      refine ⟨?_, rfl⟩
      rw [Table.get?_erase, if_neg hm]
  | _ => exact ⟨rfl, rfl⟩

/-- A task that is over stays over. -/
theorem run_of_get?_eq_none (hn : n < l.received) (h : l.tasks.get? n = none) (es : List Event) :
    ofTask n (l.run es).2 = [] := by
  induction es generalizing l with
  | nil => rfl
  | cons e es ih =>
      have hstep : (l.step e).1.tasks.get? n = none ∧ ofTask n (l.step e).2 = [] := by
        by_cases htask : task? e = some n
        · have hown := step_own (l := l) htask
          rwa [h] at hown
        by_cases habandon : e = .abandon n ∧ l.fired = true
        · obtain ⟨rfl, hfired⟩ := habandon
          rw [step, if_pos hfired, Table.get?_erase, if_pos rfl]
          exact ⟨rfl, rfl⟩
        · rw [← h]
          exact step_other hn htask habandon
      have hlt : n < (l.step e).1.received := Nat.lt_of_lt_of_le hn (received_le_run l [e])
      rw [run, ofTask_append, hstep.2, ih hlt hstep.1]
      rfl

/-- **The tasks of a listener do not notice each other.**  What is done for one of
them is what it would do alone. -/
theorem run_alone (hn : n < l.received) (es : List Event) :
    ofTask n (l.run es).2 = runAlone n (l.tasks.get? n) (attended n l.fired es) := by
  induction es generalizing l with
  | nil => rfl
  | cons e es ih =>
      have hlt : n < (l.step e).1.received := Nat.lt_of_lt_of_le hn (received_le_run l [e])
      rw [run, ofTask_append, attended]
      by_cases habandon : e = .abandon n ∧ l.fired = true
      · rw [if_pos habandon]
        obtain ⟨rfl, hfired⟩ := habandon
        have hover : (l.step (.abandon n)).1.tasks.get? n = none := by
          rw [step, if_pos hfired, Table.get?_erase, if_pos rfl]
        rw [run_of_get?_eq_none hlt hover]
        rfl
      rw [if_neg habandon, ih hlt, fired_step]
      by_cases htask : task? e = some n
      · obtain ⟨hget, hactions⟩ := step_own (l := l) htask
        rw [if_pos htask, hget, hactions]
        rfl
      · obtain ⟨hget, hactions⟩ := step_other hn htask habandon
        rw [if_neg htask, hget, hactions]
        rfl

theorem task?_of_mem_attended (n : Nat) (fired : Bool) (es : List Event) :
    ∀ e ∈ attended n fired es, task? e = some n := by
  induction es generalizing fired with
  | nil => exact List.forall_mem_nil _
  | cons e es ih =>
      rw [attended]
      split
      · exact List.forall_mem_nil _
      refine List.forall_mem_append.2 ⟨?_, ih _⟩
      split <;> simp_all

/-! ## From one datagram on -/

theorem Ready.get?_read (h : Ready l) (octets : Octets) (source : SocketAddress) :
    (l.read octets source).tasks.get? l.received = some ⟨source, .fresh (octets.take 4096)⟩ := by
  rw [Listener.read, Table.get?_insert, if_pos rfl, take_receive, h.buffer]

/-- What is done about a datagram from when it is read. -/
theorem Ready.life_run (h : Ready l) (hlistening : l.isListening = true) (octets : Octets)
    (source : SocketAddress) (es : List Event) :
    Life l.received (octets.take 4096) source (attended l.received l.fired es)
      (ofTask l.received (l.run (.datagram octets source :: es)).2) := by
  have hrun : (l.run (.datagram octets source :: es)).2 = ((l.read octets source).run es).2 := by
    rw [Listener.run, Listener.step, if_pos hlistening]
    rfl
  have hlt : l.received < (l.read octets source).received := Nat.lt_succ_self _
  rw [hrun, run_alone hlt, h.get?_read]
  exact life_runAlone (task?_of_mem_attended _ _ es)

theorem stepAlone_eq_fresh {t : Option Task} {datagram : Octets} {source : SocketAddress}
    (h : (stepAlone n t e).1 = some ⟨source, .fresh datagram⟩) :
    t = some ⟨source, .fresh datagram⟩ := by
  unfold stepAlone at h
  split at h <;> simp_all

/-- A task that has not gone on yet has the front of its datagram. -/
theorem Ready.step_eq_fresh (h : Ready l) {datagram : Octets} {source : SocketAddress}
    (hfresh : (l.step e).1.tasks.get? n = some ⟨source, .fresh datagram⟩) :
    l.tasks.get? n = some ⟨source, .fresh datagram⟩ ∨
      ∃ octets, e = .datagram octets source ∧ datagram = octets.take 4096 := by
  have hstep := steps l e
  generalize l.step e = next at hstep hfresh
  cases hstep with
  | read _ octets sender =>
      by_cases hn : n = l.received
      · rw [hn, h.get?_read] at hfresh
        injection hfresh with htask
        injection htask with hsource hstage
        injection hstage with hdatagram
        exact .inr ⟨octets, hsource ▸ rfl, hdatagram.symm⟩
      · rw [Listener.read, Table.get?_insert, if_neg hn] at hfresh
        exact .inl hfresh
  | proceed _ htasks =>
      rw [htasks n] at hfresh
      split at hfresh
      next hm => exact .inl (hm ▸ stepAlone_eq_fresh hfresh)
      · exact .inl hfresh
  | abandon =>
      rw [Table.get?_erase] at hfresh
      split at hfresh
      · contradiction
      · exact .inl hfresh
  | _ => exact .inl hfresh

/-- Responses are asked for about the fronts of datagrams only. -/
theorem Ready.datagram_of_handle (h : Ready l) {datagram : Octets} {source : SocketAddress}
    (ha : .handle n datagram source ∈ (l.run es).2) :
    l.tasks.get? n = some ⟨source, .fresh datagram⟩ ∨
      ∃ octets, .datagram octets source ∈ es ∧ datagram = octets.take 4096 := by
  induction es generalizing l with
  | nil => contradiction
  | cons e es ih =>
      rw [Listener.run, List.mem_append] at ha
      rcases ha with hnow | hlater
      · obtain ⟨t, htask, hmem⟩ := exists_task_of_mem_step hnow
        unfold stepAlone at hmem
        split at hmem <;> simp_all [Action.task]
      · obtain hfresh | ⟨octets, hmem, hdatagram⟩ := ih (h.step e) hlater
        · obtain hfresh | ⟨octets, rfl, hdatagram⟩ := h.step_eq_fresh hfresh
          · exact .inl hfresh
          · exact .inr ⟨octets, List.mem_cons_self, hdatagram⟩
        · exact .inr ⟨octets, List.mem_cons_of_mem _ hmem, hdatagram⟩

/-! ## Cancellation -/

/-- Nothing is done for a task that has looked at the token after it fired. -/
theorem run_abandon (hn : n < l.received) (hfired : l.fired = true) (es : List Event) :
    ofTask n (l.run (.abandon n :: es)).2 = [] := by
  rw [run_alone hn, attended, if_pos ⟨rfl, hfired⟩]
  cases l.tasks.get? n <;> rfl

theorem attended_abandon {ns : List Nat} (hn : n ∈ ns) (es : List Event) :
    attended n true (ns.map .abandon ++ es) = [] := by
  induction ns with
  | nil => contradiction
  | cons m ns ih =>
      rw [List.map_cons, List.cons_append, attended]
      obtain rfl | hns := List.mem_cons.1 hn
      · rw [if_pos ⟨rfl, rfl⟩]
      · split
        · rfl
        · exact ih hns

/-- If whatever waits when the token fires looks at it first, nothing more is done
for any task. -/
theorem run_cancel_followers (hn : n < l.received) (es : List Event) :
    ofTask n (l.run (.cancel :: l.followers .cancel ++ es)).2 = [] := by
  have hattended : attended n l.fired (.cancel :: l.followers .cancel ++ es) = [] := by
    have habandon := attended_abandon (List.mem_range.2 hn) es
    simpa [followers, attended, task?, firedBy] using habandon
  rw [run_alone hn, hattended]
  cases l.tasks.get? n <;> rfl

/-- Without looking at the token, a task that waits for its response when the token
fires goes on with it. -/
theorem run_cancel_of_waiting {source : SocketAddress}
    (h : l.tasks.get? n = some ⟨source, .waiting⟩) (bs : Octets) :
    (l.run [.cancel, .handled n (some bs), .written n]).2 =
      [.write n bs source, .sent n bs source] := by
  simp [run, step, respond, conclude, h]

/-! ## Answering datagrams -/

section Serves

variable {before after : List Event}

/-- A listener that has not stopped has read all datagrams so far. -/
theorem run_start_of_ended? (h : ended? false before = none) :
    ((start none).run before).1.isListening = true ∧
      ((start none).run before).1.received = (datagramsRead false before).length := by
  refine ⟨?_, ?_⟩
  · rw [← result?_eq_none_iff, result?_run]
    exact h
  · rw [received_run]
    exact Nat.zero_add _

theorem fired_run_start (before : List Event) :
    ((start none).run before).1.fired = decide (.cancel ∈ before) := by
  rw [fired_run]
  rfl

/-- What a listener does about datagrams, failures and cancellation, in whatever
order they happen and its tasks go on. -/
structure Serves (es : List Event) : Prop where
  /-- A datagram is answered by itself: its task asks for the response to its first
  octets, and writes what it is given to where the datagram came from. -/
  answers : ∀ before octets source after n,
    es = before ++ .datagram octets source :: after → ended? false before = none →
      n = (datagramsRead false before).length →
        Life n (octets.take 4096) source (attended n (decide (.cancel ∈ before)) after)
          (ofTask n ((start none).run es).2)
  /-- Nothing is done that is not about one of these datagrams. -/
  task_lt : ∀ a ∈ ((start none).run es).2, a.task < (datagramsRead false es).length
  /-- A failure that passes is as if it had not happened. -/
  passes : ∀ before fault after, es = before ++ .fault fault :: after → fault ∈ passing →
    (start none).run es = (start none).run (before ++ after)
  /-- Listening ends with the first other failure, as this failure, or when the
  reading looks at the token after it has fired, well. -/
  result?_eq : ((start none).run es).1.result? = ended? false es
  /-- A task that has looked at the token after it fired does nothing more. -/
  abandons : ∀ before n after, es = before ++ .abandon n :: after → .cancel ∈ before →
    n < (datagramsRead false before).length →
      ofTask n ((start none).run es).2 = ofTask n ((start none).run before).2
  /-- If whatever waits when the token fires looks at it first, nothing more is done
  about any datagram read before. -/
  silent : ∀ before l after, l = ((start none).run before).1 →
    es = before ++ (.cancel :: l.followers .cancel ++ after) → ∀ n < l.received,
      ofTask n ((start none).run es).2 = ofTask n ((start none).run before).2

/-- **Every datagram is answered by itself**, whatever the socket delivers and
whichever task goes on, and listening ends only with cancellation or a failure
that does not pass. -/
theorem serves (es : List Event) : Serves es where
  answers before octets source after n hes hended hn := by
    obtain ⟨hlistening, hreceived⟩ := run_start_of_ended? hended
    have hready := (Ready.start none).run before
    have hbefore : ofTask n ((start none).run before).2 = [] := by
      refine ofTask_eq_nil fun a ha => Nat.ne_of_lt ?_
      rw [hn, ← hreceived]
      exact (Ready.start none).task_lt_run before a ha
    have hlife := hready.life_run hlistening octets source after
    rwa [hes, run_append, ofTask_append, hbefore, List.nil_append, ← fired_run_start, hn,
      ← hreceived]
  task_lt a ha := by
    have hlt := (Ready.start none).task_lt_run es a ha
    rwa [received_run, show (start none).received = 0 from rfl, Nat.zero_add] at hlt
  passes before fault after hes hfault := by
    rw [hes, run_append, run_append, run,
      step_fault_of_isTransient _ (mem_passing_iff.1 hfault)]
    rfl
  result?_eq := result?_run (start none) es
  abandons before n after hes hcancel hn := by
    have hfired : ((start none).run before).1.fired = true := by
      rw [fired_run_start]
      exact decide_eq_true hcancel
    have hlt : n < ((start none).run before).1.received := by
      rw [received_run]
      exact Nat.lt_of_lt_of_le hn (Nat.le_add_left _ _)
    rw [hes, run_append, ofTask_append, run_abandon hlt hfired, List.append_nil]
  silent before l after hl hes n hn := by
    rw [hl] at hes hn
    rw [hes, run_append, ofTask_append, run_cancel_followers hn, List.append_nil]

end Serves

/-- The tasks that wait for a response, or for it to be written, when the token
fires write nothing any more. -/
def SilentAfterCancel (es : List Event) : Prop :=
  ∀ before after l, es = before ++ .cancel :: after → l = ((start none).run before).1 →
    ∀ n source stage, l.tasks.get? n = some ⟨source, stage⟩ →
      stage = .waiting ∨ (∃ bs, stage = .writing bs) →
        ∀ bs destination, .sent n bs destination ∉ (l.run (.cancel :: after)).2

/-- A response that becomes known after the token has fired is written if its task
goes on with it before it looks at the token. -/
theorem not_silentAfterCancel :
    ¬SilentAfterCancel [.datagram [0] default, .started 0, .cancel, .handled 0 (some [1]),
      .written 0] := by
  intro h
  have hwaiting : ((start none).run [.datagram [0] default, .started 0]).1.tasks.get? 0 =
      some ⟨default, .waiting⟩ := rfl
  refine h [.datagram [0] default, .started 0] _ _ rfl rfl 0 _ _ hwaiting (.inl rfl) [1] default ?_
  rw [run_cancel_of_waiting hwaiting]
  exact List.mem_cons_of_mem _ List.mem_cons_self

end Listener

/-- The response that a waiting task of a connector is given is what the policy
responds to its datagram. -/
theorem Connector.finish_draft {ε : Type} {c : Connector} {task : Nat} {source : SocketAddress}
    (htask : c.listener.tasks.get? task = some ⟨source, .waiting⟩) (p : Policy ε)
    (datagram : Octets) (now : Nat) :
    let answer := p.respond datagram source c.book now
    c.finish task (p.draft datagram source).result now =
      { c with book := answer.1 }.feed (.handled task answer.2) := by
  simp only [finish, htask, Policy.respond]
  cases (p.draft datagram source).result <;> rfl

end DnsConnector
