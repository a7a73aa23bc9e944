import AlturaProt.Foundation.Interleaving
import AlturaProt.Telemetry.EventLog

/-!
# The event logger

`EventLogger` of `src/telemetry.rs`: the handle that every connection logs attack events
through, the bounded channel behind it, and the worker thread at the other end. The parties are
the calls of `log`, the calls of `flush`, the `drop` of the handle and the worker; they take
turns in any order, one operation on the channel at a time. The borrow checker is part of the
protocol: `drop` has the handle to itself, so it begins when no call is under way, and no call
begins after it.

How long a party waits and what fails on the disk is up to the scheduler: a turn says whether
the time it waits for has passed, and which operations on files fail. Threads do not panic.
-/

namespace AlturaProt.Telemetry

open Foundation Foundation.Program

/-! ## The parties -/

/-- The commands that the sender waits for. -/
inductive Control where
  | flush
  | shutdown
deriving DecidableEq

/-- An `EventLogCommand` in the channel. A control command carries the channel for its answer,
which is known here by a number of its own. -/
inductive Message where
  | event (line : Str) (nowMs : ℕ)
  | control (kind : Control) (ack : ℕ)
deriving DecidableEq

/-- The state that the parties share: the channel, the counter and the files. -/
structure EventLogger where
  queue : List Message
  droppedEvents : ℕ
  log : LogState
  /-- the receiving end is there until the worker returns -/
  receiving : Bool
  /-- the sending end is there until the handle is gone -/
  sending : Bool
  /-- the answer channels made so far -/
  acks : ℕ
  /-- the answer channels the worker has sent on -/
  acked : List ℕ
  /-- the calls under way that borrow the handle -/
  borrows : ℕ
  dropping : Bool
  /-- nothing has failed on the disk so far; no party reads this -/
  intact : Bool

/-- Where a party stands. -/
inductive Party where
  /-- `log_at`, before it has sent the event, -/
  | log (line : Str) (nowMs : ℕ)
  /-- before it counts an event that found no room, -/
  | dropEvent (line : Str) (nowMs : ℕ)
  /-- and when it has returned -/
  | logged (line : Str) (nowMs : ℕ) (accepted : Bool)
  /-- `send_control_with_retry`, in its first round or a later one -/
  | control (kind : Control) (begun : Bool)
  /-- the wait for the answer -/
  | awaiting (kind : Control) (ack : ℕ)
  /-- `drop` joins the worker -/
  | joining (ack : ℕ)
  /-- a control call that has returned: what it sent, and whether it was answered -/
  | finished (kind : Control) (sent : Option ℕ) (acked : Bool)
  /-- the worker in its loop, with the command it has received -/
  | worker (command : Option Message)
  /-- the worker after its loop -/
  | leaving
  | stopped
deriving DecidableEq

/-- What is called on a logger. -/
inductive LoggerCall where
  | log (line : Str) (nowMs : ℕ)
  | flush
  | drop

/-- What the scheduler decides about a turn. -/
structure LoggerTick where
  /-- the time that the party waits for has passed -/
  expired : Bool
  faults : LogFaults

/-- A turn for which no time passes and nothing fails. -/
def LoggerTick.plain : LoggerTick := ⟨false, .absent⟩

def LoggerCall.party : LoggerCall → Party
  | .log line nowMs => .log line nowMs
  | .flush => .control .flush false
  | .drop => .control .shutdown false

namespace EventLogger

/-- A logger as `with_options_and_queue` makes it, on a directory without files. -/
def new (w : EventLogWorker) : EventLogger where
  queue := []
  droppedEvents := 0
  log := w.start fun _ => none
  receiving := true
  sending := true
  acks := 0
  acked := []
  borrows := 0
  dropping := false
  intact := true

variable (s : EventLogger)

/-- `try_send` finds the receiver and room for one more. -/
def hasRoom (queueCapacity : ℕ) : Bool :=
  s.receiving && decide (s.queue.length < max queueCapacity 1)

/-- A control call takes its reference to the handle: `flush` a shared one, `drop` the only
one. -/
def borrow : Control → Option EventLogger
  | .flush => if s.dropping then none else some { s with borrows := s.borrows + 1 }
  | .shutdown =>
    if s.dropping || s.borrows != 0 then none else some { s with dropping := true }

/-- The end of a control call. After `drop` the handle is gone, and its sender with it. -/
def release (kind : Control) : EventLogger :=
  { s with
    borrows := if kind = .flush then s.borrows - 1 else s.borrows
    sending := kind != .shutdown && s.sending }

/-- One round of `send_control_with_retry`. -/
def sendControl (queueCapacity : ℕ) (kind : Control) (expired : Bool) : EventLogger × Party :=
  if s.hasRoom queueCapacity then
    ({ s with queue := s.queue ++ [.control kind s.acks], acks := s.acks + 1 },
      .awaiting kind s.acks)
  else if !s.receiving || expired then (s.release kind, .finished kind none false)
  else (s, .control kind true)

/-- The worker has worked on the files. -/
def worksOn (faults : LogFaults) (log : LogState) : EventLogger :=
  { s with log := log, intact := s.intact && decide (faults = .absent) }

/-- `write_event`; `drop_event` counts an event that could not be written. -/
def writeEvent (w : EventLogWorker) (faults : LogFaults) (line : Str) (nowMs : ℕ) : EventLogger :=
  let written := w.writeEvent faults s.log line nowMs
  { s.worksOn faults written.1 with
    droppedEvents :=
      if written.2 then (s.droppedEvents + 1) % 2 ^ 64 else s.droppedEvents }

/-- `flush_writer`; the caller does not learn whether it failed. -/
def flushWriter (w : EventLogWorker) (faults : LogFaults) : EventLogger :=
  s.worksOn faults (w.flushWriter faults.flush s.log)

/-- The worker handles a command it has received. -/
def handle (w : EventLogWorker) (faults : LogFaults) : Message → EventLogger × Party
  | .event line nowMs => (s.writeEvent w faults line nowMs, .worker none)
  | .control .flush ack =>
    ({ s.flushWriter w faults with acked := ack :: s.acked }, .worker none)
  | .control .shutdown ack =>
    ({ s.flushWriter w faults with acked := ack :: s.acked }, .leaving)

/-- The worker returns: it flushes, and dropping its writer flushes once more. -/
def leave (w : EventLogWorker) (faults : LogFaults) : EventLogger :=
  { s.worksOn faults (w.flushWriter faults.close (w.flushWriter faults.flush s.log)) with
    receiving := false }

/-- The worker asks for the next command. It flushes when none has come for a while, and leaves
its loop when none can come any more. -/
def receive (w : EventLogWorker) (tick : LoggerTick) : Option (EventLogger × Party) :=
  match s.queue with
  | message :: rest => some ({ s with queue := rest }, .worker (some message))
  | [] =>
    if !s.sending then some (s, .leaving)
    else if tick.expired && w.flushIntervalMs != 0 then
      some (s.flushWriter w tick.faults, .worker none)
    else none

/-- One turn of a party. -/
def step (w : EventLogWorker) (queueCapacity : ℕ) (p : Party) (tick : LoggerTick) :
    Option (EventLogger × Party) :=
  match p with
  | .log line nowMs =>
    if s.dropping then none
    else if s.hasRoom queueCapacity then
      some ({ s with queue := s.queue ++ [.event line nowMs] }, .logged line nowMs true)
    else some ({ s with borrows := s.borrows + 1 }, .dropEvent line nowMs)
  | .dropEvent line nowMs =>
    some ({ s with droppedEvents := (s.droppedEvents + 1) % 2 ^ 64, borrows := s.borrows - 1 },
      .logged line nowMs false)
  | .control kind begun =>
    (if begun then some s else s.borrow kind).map
      fun s => s.sendControl queueCapacity kind tick.expired
  | .awaiting kind ack =>
    if ack ∈ s.acked then
      match kind with
      | .flush => some (s.release .flush, .finished .flush (some ack) true)
      | .shutdown => some (s, .joining ack)
    else if tick.expired then some (s.release kind, .finished kind (some ack) false)
    else none
  | .joining ack =>
    if s.receiving then none
    else some (s.release .shutdown, .finished .shutdown (some ack) true)
  | .worker none => s.receive w tick
  | .worker (some message) => some (s.handle w tick.faults message)
  | .leaving => some (s.leave w tick.faults, .stopped)
  | .logged .. | .finished .. | .stopped => none

end EventLogger

/-- The logger as a system of parties. -/
def EventLogger.protocol (w : EventLogWorker) (queueCapacity : ℕ) :
    Program EventLogger Party LoggerCall LoggerTick where
  start := LoggerCall.party
  step s p tick := s.step w queueCapacity p tick

/-- A new logger and its worker. -/
def EventLogger.init (w : EventLogWorker) : Sys EventLogger Party :=
  ⟨EventLogger.new w, [.worker none]⟩

/-! ## What has gone through the channel -/

def Message.line : Message → Option Str
  | .event line _ => some line
  | .control .. => none

/-- The events among the messages, in order. -/
def eventLines (messages : List Message) : List Str := messages.filterMap Message.line

/-- The message that a turn puts into the channel. -/
def sentBy (d : Turn EventLogger Party) : Option Message :=
  match d.proc, d.proc' with
  | .log line nowMs, .logged _ _ true => some (.event line nowMs)
  | .control kind _, .awaiting _ ack => some (.control kind ack)
  | _, _ => none

/-- The message that the worker has handled in a turn. -/
def handledBy (d : Turn EventLogger Party) : Option Message :=
  match d.proc with
  | .worker message => message
  | _ => none

/-- The event that the worker has dropped in a turn. -/
def lostBy (d : Turn EventLogger Party) : Option Str :=
  match d.proc with
  | .worker (some (.event line _)) =>
    if d.after.droppedEvents = d.before.droppedEvents then none else some line
  | _ => none

/-- What a turn does to the files, if nothing fails. -/
def workedBy (d : Turn EventLogger Party) : List EventLogCommand :=
  match d.proc, d.proc' with
  | .worker (some (.event line nowMs)), _ => [.event line nowMs]
  | .worker (some (.control _ _)), _ => [.flush]
  | .worker none, .worker none => [.flush]
  | .leaving, _ => [.flush, .flush]
  | _, _ => []

/-- The messages sent during a run. -/
def sent (tr : List (Turn EventLogger Party)) : List Message := tr.filterMap sentBy

def handled (tr : List (Turn EventLogger Party)) : List Message := tr.filterMap handledBy

def lost (tr : List (Turn EventLogger Party)) : List Str := tr.filterMap lostBy

def worked (tr : List (Turn EventLogger Party)) : List EventLogCommand := tr.flatMap workedBy

namespace Party

/-- The line of a `log` call that has been accepted. -/
def accepted : Party → Option Str
  | .logged line _ true => some line
  | _ => none

/-- A `log` call whose event was refused and counted. -/
def refused : Party → ℕ
  | .logged _ _ false => 1
  | _ => 0

def isWorker : Party → Bool
  | .worker _ | .leaving | .stopped => true
  | _ => false

/-- The command that the worker has in hand. -/
def hand : Party → List Message
  | .worker (some message) => [message]
  | _ => []

end Party

/-- The command that the worker of a system has in hand; it is the first party. -/
def inHand (s : Sys EventLogger Party) : List Message := (s.procs[0]?.map Party.hand).getD []

/-! ## What one turn does -/

namespace EventLogger

/-- A control call has its reference when it makes a round: the borrows, and whether the handle
is being dropped. -/
inductive Borrows (s : EventLogger) : Control → Bool → ℕ → Bool → Prop
  | held {kind : Control} : Borrows s kind true s.borrows s.dropping
  | shared : s.dropping = false → Borrows s .flush false (s.borrows + 1) s.dropping
  | alone : s.dropping = false → s.borrows = 0 → Borrows s .shutdown false s.borrows true

/-- The turns that there are. -/
inductive Steps (w : EventLogWorker) (queueCapacity : ℕ) (s : EventLogger) :
    Party → EventLogger → Party → Prop
  | accepts {line : Str} {nowMs : ℕ} : s.dropping = false → s.hasRoom queueCapacity = true →
      Steps w queueCapacity s (.log line nowMs) { s with queue := s.queue ++ [.event line nowMs] }
        (.logged line nowMs true)
  | refuses {line : Str} {nowMs : ℕ} : s.dropping = false →
      Steps w queueCapacity s (.log line nowMs) { s with borrows := s.borrows + 1 }
        (.dropEvent line nowMs)
  | counts {line : Str} {nowMs : ℕ} :
      Steps w queueCapacity s (.dropEvent line nowMs)
        { s with droppedEvents := (s.droppedEvents + 1) % 2 ^ 64, borrows := s.borrows - 1 }
        (.logged line nowMs false)
  | sends {kind : Control} {begun : Bool} {n : ℕ} {b : Bool} : Borrows s kind begun n b →
      s.hasRoom queueCapacity = true →
      Steps w queueCapacity s (.control kind begun)
        { s with
          borrows := n, dropping := b
          queue := s.queue ++ [.control kind s.acks], acks := s.acks + 1 }
        (.awaiting kind s.acks)
  | retries {kind : Control} {begun : Bool} {n : ℕ} {b : Bool} : Borrows s kind begun n b →
      Steps w queueCapacity s (.control kind begun) { s with borrows := n, dropping := b }
        (.control kind true)
  | givesUp {kind : Control} {begun : Bool} {n : ℕ} {b : Bool} : Borrows s kind begun n b →
      Steps w queueCapacity s (.control kind begun)
        ({ s with borrows := n, dropping := b }.release kind) (.finished kind none false)
  | flushed {ack : ℕ} : ack ∈ s.acked →
      Steps w queueCapacity s (.awaiting .flush ack) (s.release .flush)
        (.finished .flush (some ack) true)
  | answered {ack : ℕ} : ack ∈ s.acked →
      Steps w queueCapacity s (.awaiting .shutdown ack) s (.joining ack)
  | expires {kind : Control} {ack : ℕ} :
      Steps w queueCapacity s (.awaiting kind ack) (s.release kind)
        (.finished kind (some ack) false)
  | joins {ack : ℕ} : s.receiving = false →
      Steps w queueCapacity s (.joining ack) (s.release .shutdown)
        (.finished .shutdown (some ack) true)
  | receives {message : Message} {rest : List Message} : s.queue = message :: rest →
      Steps w queueCapacity s (.worker none) { s with queue := rest } (.worker (some message))
  | disconnects : s.queue = [] → s.sending = false →
      Steps w queueCapacity s (.worker none) s .leaving
  | ticks (faults : LogFaults) :
      Steps w queueCapacity s (.worker none) (s.flushWriter w faults) (.worker none)
  | writes (faults : LogFaults) {line : Str} {nowMs : ℕ} :
      Steps w queueCapacity s (.worker (some (.event line nowMs)))
        (s.writeEvent w faults line nowMs) (.worker none)
  | flushes (faults : LogFaults) {ack : ℕ} :
      Steps w queueCapacity s (.worker (some (.control .flush ack)))
        { s.flushWriter w faults with acked := ack :: s.acked } (.worker none)
  | shutsDown (faults : LogFaults) {ack : ℕ} :
      Steps w queueCapacity s (.worker (some (.control .shutdown ack)))
        { s.flushWriter w faults with acked := ack :: s.acked } .leaving
  | leaves (faults : LogFaults) :
      Steps w queueCapacity s .leaving (s.leave w faults) .stopped

section Inversion

variable {w : EventLogWorker} {queueCapacity : ℕ} {s s' sh : EventLogger} {p p' : Party}
  {kind : Control} {begun : Bool} {tick : LoggerTick}

theorem borrows_of_eq (h : (if begun then some s else s.borrow kind) = some s') :
    ∃ n b, Borrows s kind begun n b ∧ s' = { s with borrows := n, dropping := b } := by
  cases begun with
  | true =>
    cases h
    exact ⟨_, _, .held, rfl⟩
  | false =>
    cases kind with
    | flush =>
      simp only [Bool.false_eq_true, if_false, borrow] at h
      split at h
      · cases h
      · rename_i hdropping
        cases h
        exact ⟨_, _, .shared (by simpa using hdropping), rfl⟩
    | shutdown =>
      simp only [Bool.false_eq_true, if_false, borrow] at h
      split at h
      · cases h
      · rename_i hbusy
        cases h
        simp only [Bool.or_eq_true, bne_iff_ne, ne_eq, not_or, Bool.not_eq_true, not_not] at hbusy
        exact ⟨_, _, .alone hbusy.1 hbusy.2, rfl⟩

theorem steps_of_control (h : s.step w queueCapacity (.control kind begun) tick = some (sh, p')) :
    Steps w queueCapacity s (.control kind begun) sh p' := by
  obtain ⟨_, hborrow, hround⟩ := Option.map_eq_some_iff.mp h
  obtain ⟨n, b, hborrows, rfl⟩ := borrows_of_eq hborrow
  unfold sendControl at hround
  split at hround
  · rename_i hroom
    cases hround
    exact .sends hborrows hroom
  · split at hround
    · cases hround
      exact .givesUp hborrows
    · cases hround
      exact .retries hborrows

theorem steps_of_receive (h : s.receive w tick = some (sh, p')) :
    Steps w queueCapacity s (.worker none) sh p' := by
  unfold receive at h
  split at h
  · rename_i hqueue
    cases h
    exact .receives hqueue
  · rename_i hqueue
    split at h
    · rename_i hgone
      cases h
      exact .disconnects hqueue (by simpa using hgone)
    · split at h
      · cases h
        exact .ticks tick.faults
      · cases h

theorem steps_of_step (h : s.step w queueCapacity p tick = some (sh, p')) :
    Steps w queueCapacity s p sh p' := by
  cases p with
  | log line nowMs =>
    simp only [step] at h
    split at h
    · cases h
    · rename_i hdropping
      split at h
      · rename_i hroom
        cases h
        exact .accepts (by simpa using hdropping) hroom
      · cases h
        exact .refuses (by simpa using hdropping)
  | dropEvent line nowMs =>
    cases h
    exact .counts
  | control kind begun => exact steps_of_control h
  | awaiting kind ack =>
    simp only [step] at h
    split at h
    · rename_i hacked
      cases kind with
      | flush =>
        cases h
        exact .flushed hacked
      | shutdown =>
        cases h
        exact .answered hacked
    · split at h
      · cases h
        exact .expires
      · cases h
  | joining ack =>
    simp only [step] at h
    split at h
    · cases h
    · rename_i hgone
      cases h
      exact .joins (by simpa using hgone)
  | worker command =>
    cases command with
    | none => exact steps_of_receive h
    | some message =>
      rcases message with ⟨line, nowMs⟩ | ⟨_ | _, ack⟩
      · cases h
        exact .writes tick.faults
      · cases h
        exact .flushes tick.faults
      · cases h
        exact .shutsDown tick.faults
  | leaving =>
    cases h
    exact .leaves tick.faults
  | logged line nowMs accepted => cases h
  | finished kind sent acked => cases h
  | stopped => cases h

end Inversion

section Turn

variable {w : EventLogWorker} {queueCapacity : ℕ} {s sh : EventLogger} {p p' : Party}

theorem Steps.isWorker (h : Steps w queueCapacity s p sh p') : p'.isWorker = p.isWorker := by
  cases h <;> rfl

/-- **One turn moves messages along**: from the sender to the queue, from there to the worker's
hand, and from there to what has been handled. -/
theorem Steps.moves (pid : ℕ) (h : Steps w queueCapacity s p sh p') :
    p.hand ++ s.queue ++ (sentBy ⟨pid, s, p, sh, p'⟩).toList =
      (handledBy ⟨pid, s, p, sh, p'⟩).toList ++ p'.hand ++ sh.queue := by
  cases h <;>
    simp_all [Party.hand, sentBy, handledBy, release, worksOn, writeEvent, flushWriter, leave]

theorem intact_and {faults : LogFaults} (h : (s.intact && decide (faults = .absent)) = true) :
    s.intact = true ∧ faults = .absent := by
  simpa using h

/-- An event is lost when it is counted. -/
theorem lostBy_writeEvent (pid : ℕ) (s : EventLogger) (faults : LogFaults) (line : Str)
    (nowMs : ℕ) :
    lostBy ⟨pid, s, .worker (some (.event line nowMs)), s.writeEvent w faults line nowMs,
      .worker none⟩ = if (w.writeEvent faults s.log line nowMs).2 then some line else none := by
  cases hdropped : (w.writeEvent faults s.log line nowMs).2 with
  | false => simp [lostBy, writeEvent, hdropped]
  | true =>
    have hmoved : (s.droppedEvents + 1) % 2 ^ 64 ≠ s.droppedEvents := by omega
    simpa [lostBy, writeEvent, hdropped] using hmoved

/-- The files after a turn in which nothing fails. -/
theorem Steps.log (pid : ℕ) (h : Steps w queueCapacity s p sh p') (hintact : sh.intact = true) :
    s.intact = true ∧ sh.log = (workedBy ⟨pid, s, p, sh, p'⟩).foldl w.step s.log ∧
      lostBy ⟨pid, s, p, sh, p'⟩ = none := by
  cases h with
  | ticks faults | flushes faults | shutsDown faults | leaves faults =>
    obtain ⟨hbefore, rfl⟩ := intact_and hintact
    exact ⟨hbefore, rfl, rfl⟩
  | @writes faults line nowMs =>
    obtain ⟨hbefore, rfl⟩ := intact_and hintact
    refine ⟨hbefore, rfl, ?_⟩
    rw [lostBy_writeEvent, writeEvent_absent]
    rfl
  | _ => exact ⟨hintact, rfl, rfl⟩

/-- The counter has the calls whose event is refused, and the events that are not written. -/
theorem Steps.dropped (pid : ℕ) (h : Steps w queueCapacity s p sh p') :
    p.refused = 0 ∧
      (p'.refused + (lostBy ⟨pid, s, p, sh, p'⟩).toList.length = 0 ∧
        sh.droppedEvents = s.droppedEvents ∨
      p'.refused + (lostBy ⟨pid, s, p, sh, p'⟩).toList.length = 1 ∧
        sh.droppedEvents = (s.droppedEvents + 1) % 2 ^ 64) := by
  cases h with
  | counts => exact ⟨rfl, .inr ⟨rfl, rfl⟩⟩
  | @writes faults line nowMs =>
    refine ⟨rfl, ?_⟩
    rw [lostBy_writeEvent]
    cases hdropped : (w.writeEvent faults s.log line nowMs).2 with
    | false => exact .inl (by simp [writeEvent, hdropped, Party.refused])
    | true => exact .inr (by simp [writeEvent, hdropped, Party.refused])
  | _ => exact ⟨rfl, .inl ⟨rfl, rfl⟩⟩

/-- An event that the worker handles is dropped, or is the last in the log after the turn. -/
theorem Steps.written (pid : ℕ) (h : Steps w queueCapacity s p sh p') {line : Str} {nowMs : ℕ}
    (hhandled : handledBy ⟨pid, s, p, sh, p'⟩ = some (.event line nowMs)) :
    lostBy ⟨pid, s, p, sh, p'⟩ = some line ∨
      ∃ front, w.content sh.log = front ++ line ++ [0x0A] := by
  cases h with
  | @writes faults =>
    cases hhandled
    rw [lostBy_writeEvent]
    cases hdropped : (w.writeEvent faults s.log line nowMs).2 with
    | false => exact .inr (writeEvent_written hdropped)
    | true => exact .inl rfl
  | _ => cases hhandled

/-- A call whose event is accepted has sent it. -/
theorem Steps.accepted (pid : ℕ) (h : Steps w queueCapacity s p sh p') :
    p.accepted = none ∧ p'.accepted = (sentBy ⟨pid, s, p, sh, p'⟩).bind Message.line := by
  cases h <;> exact ⟨rfl, rfl⟩

theorem Steps.room (h : Steps w queueCapacity s p sh p')
    (hs : s.queue.length ≤ max queueCapacity 1) : sh.queue.length ≤ max queueCapacity 1 := by
  cases h with
  | accepts _ hroom | sends _ hroom =>
    rw [hasRoom, Bool.and_eq_true, decide_eq_true_iff] at hroom
    rw [List.length_append]
    exact hroom.2
  | receives hqueue =>
    rw [hqueue, List.length_cons] at hs
    exact (Nat.le_succ _).trans hs
  | _ => exact hs

end Turn

end EventLogger

open EventLogger

/-! ## The worker -/

section Runs

variable {w : EventLogWorker} {queueCapacity : ℕ} {s : Sys EventLogger Party} {sh : EventLogger}
  {p p' : Party} {pid : ℕ} {tr : List (Turn EventLogger Party)}

/-- The first party is the one worker. -/
structure Orderly (s : Sys EventLogger Party) : Prop where
  started : 0 < s.procs.length
  worker : ∀ (pid : ℕ) (p : Party), s.procs[pid]? = some p → (p.isWorker = true ↔ pid = 0)

theorem orderly_init (w : EventLogWorker) : Orderly (init w) where
  started := Nat.one_pos
  worker pid p hp := by
    cases pid with
    | zero =>
      obtain rfl : Party.worker none = p := by simpa [init] using hp
      simp [Party.isWorker]
    | succ pid => simp [init] at hp

theorem Orderly.spawn (h : Orderly s) (call : LoggerCall) :
    Orderly ⟨s.shared, s.procs ++ [call.party]⟩ where
  started := by
    rw [List.length_append]
    exact Nat.lt_add_right _ h.started
  worker pid p hp := by
    rcases getElem?_spawn hp with hp | ⟨rfl, rfl⟩
    · exact h.worker pid p hp
    · -- the new party comes after the worker
      have hpid := h.started.ne'
      cases call <;> simp [LoggerCall.party, Party.isWorker, hpid]

theorem Orderly.turn (h : Orderly s) (hp : s.procs[pid]? = some p)
    (hstep : Steps w queueCapacity s.shared p sh p') : Orderly ⟨sh, s.procs.set pid p'⟩ where
  started := by
    rw [List.length_set]
    exact h.started
  worker j r hr := by
    rcases getElem?_turn hr with ⟨rfl, rfl⟩ | ⟨-, hr⟩
    · rw [hstep.isWorker]
      exact h.worker j p hp
    · exact h.worker j r hr

/-! ## No event is lost -/

theorem filterMap_concat {β : Type} (f : Turn EventLogger Party → Option β)
    (tr : List (Turn EventLogger Party)) (d : Turn EventLogger Party) :
    (tr ++ [d]).filterMap f = tr.filterMap f ++ (f d).toList := by
  cases h : f d <;> simp [h]

theorem sent_concat (tr : List (Turn EventLogger Party)) (d : Turn EventLogger Party) :
    sent (tr ++ [d]) = sent tr ++ (sentBy d).toList := filterMap_concat _ _ _

theorem handled_concat (tr : List (Turn EventLogger Party)) (d : Turn EventLogger Party) :
    handled (tr ++ [d]) = handled tr ++ (handledBy d).toList := filterMap_concat _ _ _

theorem lost_concat (tr : List (Turn EventLogger Party)) (d : Turn EventLogger Party) :
    lost (tr ++ [d]) = lost tr ++ (lostBy d).toList := filterMap_concat _ _ _

theorem eventLines_append (messages messages' : List Message) :
    eventLines (messages ++ messages') = eventLines messages ++ eventLines messages' :=
  List.filterMap_append

theorem eventLines_toList (message : Option Message) :
    eventLines message.toList = (message.bind Message.line).toList := by
  cases message with
  | none => rfl
  | some message => cases message <;> rfl

/-- What the worker writes, if nothing fails, are the events it has handled. -/
theorem writtenLines_worked (tr : List (Turn EventLogger Party)) :
    writtenLines (worked tr) = eventLines (handled tr) := by
  induction tr using List.reverseRecOn with
  | nil => rfl
  | append_singleton tr d ih =>
    have hlast : writtenLines (workedBy d) = eventLines (handledBy d).toList := by
      rcases d with ⟨pid, s, p, sh, p'⟩
      cases p with
      | worker command =>
        rcases command with _ | ⟨line, nowMs⟩ | ⟨kind, ack⟩
        · rcases p' <;> first | rfl | (rename_i c; cases c <;> rfl)
        · rfl
        · rfl
      | _ => rfl
    rw [handled_concat, eventLines_append, ← ih, ← hlast]
    simp [worked, writtenLines]

/-- **The accounts of the channel.** -/
structure Conserved (w : EventLogWorker) (queueCapacity : ℕ) (tr : List (Turn EventLogger Party))
    (s : Sys EventLogger Party) : Prop where
  orderly : Orderly s
  room : s.shared.queue.length ≤ max queueCapacity 1
  fifo : sent tr = handled tr ++ inHand s ++ s.shared.queue
  files : s.shared.intact = true → s.shared.log = w.run (worked tr) ∧ lost tr = []
  dropped : s.shared.droppedEvents =
    ((s.procs.map Party.refused).sum + (lost tr).length) % 2 ^ 64
  accepted : (s.procs.filterMap Party.accepted).Perm (eventLines (sent tr))

theorem conserved_init (w : EventLogWorker) (queueCapacity : ℕ) :
    Conserved w queueCapacity [] (init w) where
  orderly := orderly_init w
  room := Nat.zero_le _
  fifo := rfl
  files _ := ⟨rfl, rfl⟩
  dropped := rfl
  accepted := .refl _

theorem inHand_spawn (h : Orderly s) (p : Party) :
    inHand ⟨s.shared, s.procs ++ [p]⟩ = inHand s := by
  rw [inHand, List.getElem?_append_left h.started, inHand]

theorem Conserved.spawn (h : Conserved w queueCapacity tr s) (call : LoggerCall) :
    Conserved w queueCapacity tr ⟨s.shared, s.procs ++ [call.party]⟩ where
  orderly := h.orderly.spawn call
  room := h.room
  fifo := by
    rw [inHand_spawn h.orderly]
    exact h.fifo
  files := h.files
  dropped := by
    have hnew : call.party.refused = 0 := by cases call <;> rfl
    simp [h.dropped, hnew]
  accepted := by
    have hnew : call.party.accepted = none := by cases call <;> rfl
    rw [List.filterMap_append, List.filterMap_cons_none hnew, List.filterMap_nil, List.append_nil]
    exact h.accepted

/-- Only the worker has messages in hand and handles them. -/
theorem hand_of_not_worker (h : p.isWorker = false) : p.hand = [] := by
  cases p <;> first | rfl | cases h

theorem idle_of_not_worker (h : p.isWorker = false) :
    handledBy ⟨pid, s.shared, p, sh, p'⟩ = none ∧ workedBy ⟨pid, s.shared, p, sh, p'⟩ = [] := by
  cases p <;> first | exact ⟨rfl, rfl⟩ | cases h

theorem Orderly.not_worker (h : Orderly s) (hp : s.procs[pid]? = some p) (hpid : pid ≠ 0) :
    p.isWorker = false := by
  simpa [hpid] using h.worker pid p hp

/-- What the worker has in hand, before a turn and after it. -/
theorem Orderly.inHand_turn (h : Orderly s) (hp : s.procs[pid]? = some p)
    (hstep : Steps w queueCapacity s.shared p sh p') :
    (inHand s = p.hand ∧ inHand ⟨sh, s.procs.set pid p'⟩ = p'.hand) ∨
      (inHand ⟨sh, s.procs.set pid p'⟩ = inHand s ∧ p.hand = [] ∧ p'.hand = [] ∧
        handledBy ⟨pid, s.shared, p, sh, p'⟩ = none) := by
  by_cases hpid : pid = 0
  · subst hpid
    refine .inl ⟨?_, ?_⟩
    · rw [inHand, hp]
      rfl
    · rw [inHand, List.getElem?_set_self h.started]
      rfl
  · have hnot := h.not_worker hp hpid
    refine .inr ⟨?_, hand_of_not_worker hnot, hand_of_not_worker (hstep.isWorker.trans hnot),
      (idle_of_not_worker hnot).1⟩
    rw [inHand, List.getElem?_set_ne hpid, inHand]

theorem Conserved.turn (h : Conserved w queueCapacity tr s) (hp : s.procs[pid]? = some p)
    (hstep : Steps w queueCapacity s.shared p sh p') :
    Conserved w queueCapacity (tr ++ [⟨pid, s.shared, p, sh, p'⟩]) ⟨sh, s.procs.set pid p'⟩ where
  orderly := h.orderly.turn hp hstep
  room := hstep.room h.room
  fifo := by
    have hmoves := hstep.moves pid
    rw [sent_concat, handled_concat, h.fifo]
    rcases h.orderly.inHand_turn hp hstep with ⟨hbefore, hafter⟩ | ⟨hsame, hhand, hhand', hnone⟩
    · rw [hafter, hbefore]
      simp only [List.append_assoc] at hmoves ⊢
      rw [hmoves]
    · rw [hhand, hhand', hnone] at hmoves
      rw [hsame, hnone]
      simp only [Option.toList_none, List.append_nil, List.nil_append, List.append_assoc]
        at hmoves ⊢
      rw [hmoves]
  files hintact := by
    obtain ⟨hbefore, hlog, hkept⟩ := hstep.log pid hintact
    obtain ⟨hfiles, hlost⟩ := h.files hbefore
    refine ⟨?_, ?_⟩
    · show sh.log = _
      rw [hlog, hfiles]
      simp [worked, EventLogWorker.run]
    · rw [lost_concat, hlost, hkept]
      rfl
  dropped := by
    have hset := sum_map_set Party.refused s.procs pid p p' hp
    have hbefore := h.dropped
    rw [lost_concat, List.length_append]
    show sh.droppedEvents = (((s.procs.set pid p').map Party.refused).sum + _) % 2 ^ 64
    obtain ⟨hp0, ⟨hp', hcount⟩ | ⟨hp', hcount⟩⟩ := hstep.dropped pid
    · omega
    · omega
  accepted := by
    obtain ⟨hnone, hnew⟩ := hstep.accepted pid
    refine (filterMap_set_perm Party.accepted s.procs pid p p' hp hnone).trans ?_
    rw [sent_concat, eventLines_append, eventLines_toList, hnew]
    exact h.accepted.append_right _

theorem conserved_of_run (h : (protocol w queueCapacity).Run (init w) tr s) :
    Conserved w queueCapacity tr s :=
  h.history (conserved_init w queueCapacity) (fun _ _ call h => h.spawn call)
    fun _ _ _ _ _ _ _ h hp hstep => h.turn hp (steps_of_step hstep)

/-! ## The protocol -/

/-- **Every event is accounted for.** In every interleaving, whatever fails on the disk, the
channel holds at most its capacity; the events sent are those of the accepted calls, each once;
those handled, the one in hand and those in the channel follow one another in the order they
were sent. An event that is handled is counted as dropped, or is the last in the log after that
turn. The counter has these and the events of the calls that were refused. While nothing has
failed, none is dropped so, and the files are those of the events handled. -/
theorem event_queue_accounts (h : (protocol w queueCapacity).Run (init w) tr s) :
    s.shared.queue.length ≤ max queueCapacity 1 ∧
      (s.procs.filterMap Party.accepted).Perm (eventLines (sent tr)) ∧
      sent tr = handled tr ++ inHand s ++ s.shared.queue ∧
      (∀ d ∈ tr, ∀ line nowMs, handledBy d = some (.event line nowMs) →
        lostBy d = some line ∨ ∃ front, w.content d.after.log = front ++ line ++ [0x0A]) ∧
      s.shared.droppedEvents =
        ((s.procs.map Party.refused).sum + (lost tr).length) % 2 ^ 64 ∧
      (s.shared.intact = true → lost tr = [] ∧ s.shared.log = w.run (worked tr) ∧
        writtenLines (worked tr) = eventLines (handled tr)) := by
  have hconserved := conserved_of_run h
  refine ⟨hconserved.room, hconserved.accepted, hconserved.fifo, ?_, hconserved.dropped, ?_⟩
  · refine h.forall_turns (I := fun _ => True) (fun _ => trivial) ?_
    intro s pid p tick sh p' _ _ hstep line nowMs hhandled
    exact (steps_of_step hstep).written pid hhandled
  · intro hintact
    obtain ⟨hlog, hlost⟩ := hconserved.files hintact
    exact ⟨hlost, hlog, writtenLines_worked tr⟩

/-- A log that has been rotated cannot be opened again. -/
def unopened : LogFaults :=
  { LogFaults.absent with rotate := { RotateFaults.absent with opening := .refused } }

/-- Three calls at a channel with room for one event. -/
def threeCalls : List (LoggerCall ⊕ ℕ × LoggerTick) :=
  [.inl (.log [0x61] 0), .inl (.log [0x62] 0), .inl (.log [0x63] 0),
    .inr (1, .plain), .inr (2, .plain), .inr (2, .plain), .inr (0, .plain), .inr (0, .plain),
    .inr (3, .plain), .inr (0, .plain), .inr (0, ⟨false, unopened⟩)]

/-- A log that is rotated for every event. -/
def smallLog : EventLogWorker := ⟨[0x6C], 250, 3, 2⟩

theorem threeCalls_runs : ∃ tr s, (protocol smallLog 1).Run (init smallLog) tr s ∧
    eventLines (handled tr) = [[0x61], [0x63]] ∧ lost tr = [[0x63]] ∧
    s.procs.map Party.refused = [0, 0, 1, 0] :=
  ⟨_, _, run_of_exec threeCalls .refl rfl, rfl, rfl, rfl⟩

/-- The first event is written; the second finds no room, and the third no file. -/
theorem event_queue_accounts_three_calls :
    ∃ tr s, (protocol smallLog 1).Run (init smallLog) tr s ∧
      eventLines (handled tr) = [[0x61], [0x63]] ∧ lost tr = [[0x63]] ∧
      s.shared.droppedEvents = 2 := by
  obtain ⟨tr, s, hrun, hhandled, hlost, hrefused⟩ := threeCalls_runs
  refine ⟨tr, s, hrun, hhandled, hlost, ?_⟩
  rw [(event_queue_accounts hrun).2.2.2.2.1, hlost, hrefused]
  rfl

end Runs

end AlturaProt.Telemetry
