/-
  Subject:   `drain_worker_events_with_budget` of the telnet and the serial session
             (`session/telnet.rs`, `session/serial.rs`).

  A worker sends events over a byte-bounded channel, and the session drains them with a budget; an
  output that no longer fits the budget is parked in `output_queue`. The worker goes on while a drain
  is under way, so a step is a step of the worker's side of the channel, the begin of a drain, or one
  turn of the loop of a drain. Whether the time of the budget is over is part of the turn.

  * `drain_keeps_order` -- **what is applied is, event by event, what the worker sent; a drain keeps to
    its budget but for one output; and only outputs are parked**.
-/
import Hapcli.Rust.Text
import Hapcli.Terminal.Backpressure

namespace Hapcli.Terminal

open Hapcli.Rust

/-! ## 1. The session -/

/-- `TelnetWorkerEvent`, `SerialWorkerEvent`; of a `SerialError` the message. -/
inductive WorkerEvent where
  | connected
  | output (bytes : List UInt8)
  | failed (error : Str)
  | closed
  deriving DecidableEq

/-- `TerminalDrainBudget`, without its time. -/
structure TerminalDrainBudget where
  maxBytes : Nat
  maxEvents : Nat
  deriving DecidableEq

/-- `TerminalDrainReport`, without its time. -/
structure TerminalDrainReport where
  changed : Bool := false
  drainedBytes : Nat := 0
  pendingBytes : Nat := 0
  eventsDrained : Nat := 0
  budgetExhausted : Bool := false
  deriving DecidableEq

/-- `TerminalEvent`, those that a drain pushes itself. -/
inductive PendingEvent where
  | titleChanged (title : Str)
  | childExited
  deriving DecidableEq

/-- What the terminal is fed: the output of the transport, or a notice of the session. -/
inductive Fed where
  | output (bytes : List UInt8)
  | notice (text : Str)
  deriving DecidableEq

def Fed.bytes : Fed → List UInt8
  | .output bytes => bytes
  | .notice text => asBytes text

/-- What tells the two sessions apart: the text of a failure, the title, and whether the session
    holds a reservation that it gives back when the worker is gone. -/
structure Transport where
  failure : Str → Str
  titleText : Str
  reserves : Bool

/-- The telnet session. -/
def telnet (titleText : Str) : Transport where
  failure error := "\r\nTelnet connection failed: ".toList ++ error ++ "\r\n".toList
  titleText := titleText
  reserves := false

/-- The serial session. -/
def serial (titleText : Str) : Transport where
  failure error := "\r\nSerial session failed: ".toList ++ error ++ "\r\n".toList
  titleText := titleText
  reserves := true

/-- A drain: its budget, its report so far, and the outputs it has fed. -/
structure Drain where
  budget : TerminalDrainBudget
  report : TerminalDrainReport := {}
  fed : List (List UInt8) := []
  deriving DecidableEq

/-- What a drain uses of a session. `applied` are the events that have taken effect; `unreachable`:
    the arm of that name was reached. -/
structure WorkerSession where
  channel : Channel WorkerEvent := { maxBytes := transportOutputBacklogBytes }
  outputQueue : List (QueuedOutput WorkerEvent) := []
  running : Bool := true
  reserved : Bool := true
  title : Option Str := none
  pendingEvents : List PendingEvent := []
  terminal : List Fed := []
  draining : Option Drain := none
  drains : List Drain := []
  applied : List (QueuedOutput WorkerEvent) := []
  unreachable : Bool := false
  deriving DecidableEq

/-! ## 2. The loop -/

section Loop

variable (transport : Transport) (session : WorkerSession) (drain : Drain)

/-- `break`, with the last lines of the function. -/
def WorkerSession.endDrain : WorkerSession :=
  { session with
    draining := none
    drains := session.drains ++
      [{ drain with report := { drain.report with pendingBytes := session.channel.outstandingBytes } }] }

/-- `lifecycle` becomes `Exited` and the owner is told. -/
def WorkerSession.exit : WorkerSession :=
  { session with running := false, pendingEvents := session.pendingEvents ++ [.childExited] }

/-- `release_port_reservation`, where there is one. -/
def WorkerSession.release : WorkerSession :=
  if transport.reserves then { session with reserved := false } else session

def Drain.countEvent : Drain :=
  { drain with report := { drain.report with eventsDrained := drain.report.eventsDrained + 1 } }

def Drain.markChanged : Drain := { drain with report := { drain.report with changed := true } }

/-- An output is fed to the terminal. -/
def Drain.feed (bytes : List UInt8) : Drain :=
  { drain with
    fed := drain.fed ++ [bytes]
    report := { drain.report with
      drainedBytes := saturatingAdd drain.report.drainedBytes bytes.length
      eventsDrained := drain.report.eventsDrained + 1
      changed := true } }

def WorkerSession.markApplied (item : QueuedOutput WorkerEvent) : WorkerSession :=
  { session with applied := session.applied ++ [item] }

/-- The session goes on with the drain after an output. -/
def WorkerSession.feed (item : QueuedOutput WorkerEvent) (bytes : List UInt8) : WorkerSession :=
  { session.markApplied item with
    terminal := session.terminal ++ [.output bytes]
    draining := some (drain.feed bytes) }

/-- `Closed`, and a channel whose sender is gone, end a session that still runs. -/
def WorkerSession.leave : WorkerSession := if session.running then session.exit else session

/-- `feed_utf8_terminal_output` of a text of the session's own. -/
def WorkerSession.notice (text : Str) : WorkerSession :=
  { session with terminal := session.terminal ++ [.notice text] }

/-- The arms of the second `match`: an event that was received takes effect. -/
def WorkerSession.apply (item : QueuedOutput WorkerEvent) : WorkerSession :=
  match item.value with
  | .connected =>
    { session.markApplied item with
      title := some transport.titleText
      pendingEvents := session.pendingEvents ++ [.titleChanged transport.titleText]
      draining := some drain.countEvent.markChanged }
  | .output bytes => session.feed drain item bytes
  | .failed error =>
    ((((session.release transport).exit).notice (transport.failure error)).markApplied item).endDrain
      drain.countEvent.markChanged
  | .closed =>
    (((session.release transport).leave).markApplied item).endDrain
      (if session.running then drain.markChanged else drain).countEvent

/-- An output that no longer fits. -/
def Drain.Overflows (item : QueuedOutput WorkerEvent) : Bool :=
  match item.value with
  | .output bytes => decide (0 < drain.report.drainedBytes) &&
      decide (drain.budget.maxBytes < saturatingAdd drain.report.drainedBytes bytes.length)
  | _ => false

/-- The event is taken from the channel. -/
def WorkerSession.receive : WorkerSession :=
  match session.channel.tryRecv with
  | (.ok item, channel) =>
    if drain.Overflows item then
      { session with channel, outputQueue := session.outputQueue ++ [item] }.endDrain
        { drain with report := { drain.report with budgetExhausted := true } }
    else
      { session with channel := channel.dropItem session.outputQueue.length item }.apply transport
        drain item
  | (.error .empty, _) => session.endDrain drain
  | (.error .disconnected, _) =>
    (session.release transport).leave.endDrain
      (if session.running then drain.markChanged else drain)

/-- One turn of the loop. -/
def WorkerSession.drainTurn (timeExhausted : Bool) : WorkerSession :=
  if timeExhausted || decide (drain.budget.maxBytes ≤ drain.report.drainedBytes) ||
      decide (drain.budget.maxEvents ≤ drain.report.eventsDrained) then
    session.endDrain { drain with report := { drain.report with
      budgetExhausted := !session.outputQueue.isEmpty || !session.channel.queue.isEmpty } }
  else
    match session.outputQueue with
    | item :: outputQueue =>
      match item.value with
      | .output bytes =>
        { session with outputQueue, channel := session.channel.dropItem 0 item }.feed drain item
          bytes
      | _ => { session with unreachable := true }
    | [] => session.receive transport drain

end Loop

/-- A step of the worker, of the session, or of the drain that is under way. -/
inductive SessionAction where
  | send (value : WorkerEvent) (byteLen : Nat)
  | attempt (i : Nat)
  | cancel (i : Nat)
  | sendControl (value : WorkerEvent)
  | dropSender
  | close
  | drain (budget : TerminalDrainBudget)
  | turn (timeExhausted : Bool)

/-- The steps of the channel that are not the session's receiving. -/
def SessionAction.channel : SessionAction → Option (ChannelAction WorkerEvent)
  | .send value byteLen => some (.send value byteLen)
  | .attempt i => some (.attempt i)
  | .cancel i => some (.cancel i)
  | .sendControl value => some (.sendControl value)
  | .dropSender => some .dropSender
  | .close => some .close
  | _ => none

/-- **One step.** A drain begins if none is under way. -/
def WorkerSession.next (transport : Transport) (session : WorkerSession) (action : SessionAction) :
    Option WorkerSession :=
  match action.channel with
  | some action => (session.channel.next action).map fun channel => { session with channel }
  | none =>
    match action, session.draining with
    | .drain budget, none => some { session with draining := some { budget } }
    | .turn timeExhausted, some drain =>
      if session.unreachable then none else some (session.drainTurn transport drain timeExhausted)
    | _, _ => none

def WorkerSession.run (transport : Transport) (session : WorkerSession) :
    List SessionAction → Option WorkerSession
  | [] => some session
  | action :: actions =>
    (session.next transport action).bind fun session => session.run transport actions

/-! ## 3. What every step keeps -/

/-- The output bytes among events. -/
def outputBytes (items : List (QueuedOutput WorkerEvent)) : List UInt8 :=
  items.flatMap fun item => match item.value with
    | .output bytes => bytes
    | _ => []

/-- The output bytes among what the terminal was fed. -/
def fedOutput (fed : List Fed) : List UInt8 :=
  fed.flatMap fun piece => match piece with
    | .output bytes => bytes
    | .notice _ => []

def Drain.total (drain : Drain) : Nat := (drain.fed.map List.length).sum

/-- The budget: at most `max_bytes` are fed, unless one single output that is not empty was; more
    than `usize::MAX` bytes are more than the drain can count. -/
def Drain.Within (drain : Drain) : Prop :=
  drain.total ≤ drain.budget.maxBytes ∨ (drain.fed.filter (· ≠ [])).length = 1 ∨
    usizeMax < drain.total

/-- A drain that is under way: its counter, its budget, and that nothing was fed while an output is
    parked. -/
structure Drain.Sound (drain : Drain) (parked : List (QueuedOutput WorkerEvent)) : Prop where
  counted : drain.report.drainedBytes = min drain.total usizeMax
  within : drain.Within
  fresh : parked ≠ [] → drain.fed = []

/-- **The order of the events**: what was received is what was applied, then what is about to take
    effect, then what is parked: outputs only. -/
structure WorkerSession.Core (session : WorkerSession) (due : List (QueuedOutput WorkerEvent)) :
    Prop where
  conserved : session.channel.Conserved
  maxBytes : session.channel.maxBytes = transportOutputBacklogBytes
  alive : session.channel.alive = session.outputQueue
  received : session.channel.received = session.applied ++ due ++ session.outputQueue
  outputs : ∀ item ∈ session.outputQueue, ∃ bytes, item.value = .output bytes
  single : session.outputQueue.length ≤ 1
  fed : fedOutput session.terminal = outputBytes session.applied
  reachable : session.unreachable = false
  drains : ∀ drain ∈ session.drains, drain.Within

/-- Between two steps nothing is about to take effect, and the drain that is under way is sound. -/
structure WorkerSession.Ordered (session : WorkerSession) : Prop where
  core : session.Core []
  draining : ∀ drain, session.draining = some drain → drain.Sound session.outputQueue

section Drains

variable {drain : Drain} {parked : List (QueuedOutput WorkerEvent)}

theorem saturatingAdd_min (a b : Nat) : saturatingAdd (min a usizeMax) b = min
    (a + b) usizeMax := by
  unfold saturatingAdd
  omega

theorem Drain.total_feed (drain : Drain) (bytes : List UInt8) :
    (drain.feed bytes).total = drain.total + bytes.length := by
  simp [Drain.total, Drain.feed]

theorem Drain.fed_empty (h : drain.total = 0) : drain.fed.filter (· ≠ []) = [] := by
  rw [List.filter_eq_nil_iff]
  intro bytes hbytes
  have hzero := List.sum_eq_zero_iff_forall_eq_nat.mp h bytes.length
    (List.mem_map_of_mem hbytes)
  simpa using hzero

theorem Drain.Sound.feed (h : drain.Sound parked) {bytes : List UInt8} (hfits : drain.total = 0 ∨
      saturatingAdd drain.report.drainedBytes bytes.length ≤ drain.budget.maxBytes) :
    (drain.feed bytes).Sound [] := by
  have hcounted : (drain.feed bytes).report.drainedBytes =
      min (drain.total + bytes.length) usizeMax := by
    show saturatingAdd drain.report.drainedBytes bytes.length = _
    rw [h.counted, saturatingAdd_min]
  refine ⟨by rw [hcounted, Drain.total_feed], ?_, nofun⟩
  unfold Drain.Within
  rw [Drain.total_feed]
  rcases hfits with hzero | hroom
  · by_cases hbytes : bytes = []
    · left
      rw [hzero, hbytes]
      exact Nat.zero_le _
    · right
      left
      show ((drain.fed ++ [bytes]).filter (· ≠ [])).length = 1
      rw [List.filter_append, Drain.fed_empty hzero]
      simp [hbytes]
  · rw [h.counted, saturatingAdd_min] at hroom
    show drain.total + bytes.length ≤ drain.budget.maxBytes ∨ _
    omega

theorem Drain.Sound.countEvent (h : drain.Sound parked) : drain.countEvent.Sound parked :=
  ⟨h.counted, h.within, h.fresh⟩

theorem Drain.Sound.markChanged (h : drain.Sound parked) : drain.markChanged.Sound parked :=
  ⟨h.counted, h.within, h.fresh⟩

end Drains

section Turns

variable {transport : Transport} {session : WorkerSession} {drain : Drain}
  {item : QueuedOutput WorkerEvent} {due : List (QueuedOutput WorkerEvent)}

theorem outputBytes_append (items items' : List (QueuedOutput WorkerEvent)) :
    outputBytes (items ++ items') = outputBytes items ++ outputBytes items' := List.flatMap_append

theorem fedOutput_append (fed fed' : List Fed) :
    fedOutput (fed ++ fed') = fedOutput fed ++ fedOutput fed' := List.flatMap_append

theorem WorkerSession.Core.endDrain (h : session.Core []) (hwithin : drain.Within) :
    (session.endDrain drain).Ordered := by
  refine ⟨⟨h.conserved, h.maxBytes, h.alive, h.received, h.outputs, h.single, h.fed, h.reachable, ?_⟩, nofun⟩
  intro drain' hmem
  rcases List.mem_append.mp hmem with hold | hnew
  · exact h.drains drain' hold
  · rw [List.mem_singleton.mp hnew]
    exact hwithin

section

variable (h : session.Core due)

include h

theorem WorkerSession.Core.exit : session.exit.Core due :=
  ⟨h.conserved, h.maxBytes, h.alive, h.received, h.outputs, h.single, h.fed, h.reachable, h.drains⟩

theorem WorkerSession.Core.leave : session.leave.Core due := by
  unfold WorkerSession.leave
  split
  · exact h.exit
  · exact h

theorem WorkerSession.Core.release (transport : Transport) :
    (session.release transport).Core due := by
  unfold WorkerSession.release
  split
  · exact ⟨h.conserved, h.maxBytes, h.alive, h.received, h.outputs, h.single, h.fed, h.reachable, h.drains⟩
  · exact h

theorem WorkerSession.Core.notice (text : Str) : (session.notice text).Core due := by
  refine ⟨h.conserved, h.maxBytes, h.alive, h.received, h.outputs, h.single, ?_, h.reachable, h.drains⟩
  show fedOutput (session.terminal ++ [.notice text]) = outputBytes session.applied
  rw [fedOutput_append, h.fed]
  exact List.append_nil _

end

theorem WorkerSession.Core.markApplied (h : session.Core [item])
    (hcontrol : outputBytes [item] = []) : (session.markApplied item).Core [] := by
  refine ⟨h.conserved, h.maxBytes, h.alive, ?_, h.outputs, h.single, ?_, h.reachable, h.drains⟩
  · show session.channel.received = session.applied ++ [item] ++ [] ++ session.outputQueue
    rw [h.received, List.append_nil]
  · show fedOutput session.terminal = outputBytes (session.applied ++ [item])
    rw [outputBytes_append, hcontrol, List.append_nil, h.fed]

theorem WorkerSession.Core.feed (h : session.Core [item]) {bytes : List UInt8}
    (hitem : item.value = .output bytes) (hsound : (drain.feed bytes).Sound session.outputQueue) :
    (session.feed drain item bytes).Ordered := by
  refine ⟨⟨h.conserved, h.maxBytes, h.alive, ?_, h.outputs, h.single, ?_, h.reachable, h.drains⟩, ?_⟩
  · show session.channel.received = session.applied ++ [item] ++ [] ++ session.outputQueue
    rw [h.received, List.append_nil]
  · show fedOutput (session.terminal ++ [.output bytes]) = outputBytes (session.applied ++ [item])
    rw [fedOutput_append, outputBytes_append, h.fed]
    simp [fedOutput, outputBytes, hitem]
  · rintro drain' hdrain
    cases hdrain
    exact hsound

theorem WorkerSession.Core.apply (h : session.Core [item])
    (hsound : drain.Sound session.outputQueue)
    (hparked : session.outputQueue = []) (hfits : drain.Overflows item = false) :
    (session.apply transport drain item).Ordered := by
  unfold WorkerSession.apply
  split
  · rename_i hvalue
    have hcore := h.markApplied (by simp [outputBytes, hvalue])
    refine ⟨⟨hcore.conserved, hcore.maxBytes, hcore.alive, hcore.received, hcore.outputs, hcore.single, hcore.fed,
      hcore.reachable, hcore.drains⟩, fun drain' hdrain => ?_⟩
    cases hdrain
    exact hsound.countEvent.markChanged
  · rename_i bytes hvalue
    refine h.feed hvalue ?_
    rw [hparked]
    refine hsound.feed ?_
    have hcounted := hsound.counted
    simp only [Drain.Overflows, hvalue, Bool.and_eq_false_iff, decide_eq_false_iff_not] at hfits
    rcases hfits with hzero | hroom
    · left
      have hmax : 0 < usizeMax := by decide
      omega
    · exact .inr (Nat.le_of_not_lt hroom)
  · rename_i error hvalue
    have hcore := (h.release transport).exit.notice (transport.failure error)
    exact (hcore.markApplied (by simp [outputBytes, hvalue])).endDrain hsound.within
  · rename_i hvalue
    have hcore := (h.release transport).leave
    refine (hcore.markApplied (by simp [outputBytes, hvalue])).endDrain ?_
    split
    · exact hsound.within
    · exact hsound.within

theorem WorkerSession.Core.receive (h : session.Core []) (hsound : drain.Sound session.outputQueue)
    (hparked : session.outputQueue = []) : (session.receive transport drain).Ordered := by
  have hconserved := h.conserved.tryRecv
  have halive := h.alive
  have hreceived := h.received
  rw [hparked] at halive
  rw [hparked, List.append_nil, List.append_nil] at hreceived
  unfold WorkerSession.receive
  split
  · rename_i item channel hrecv
    obtain ⟨halive', hreceived', hmax'⟩ := Channel.tryRecv_ok hrecv
    rw [hrecv] at hconserved
    rw [halive, List.nil_append] at halive'
    rw [hreceived] at hreceived'
    split
    · rename_i hover
      refine WorkerSession.Core.endDrain ?_ hsound.within
      refine ⟨hconserved, hmax'.trans h.maxBytes, ?_, ?_, ?_, ?_, h.fed, h.reachable, h.drains⟩
      · show channel.alive = session.outputQueue ++ [item]
        rw [hparked, halive', List.nil_append]
      · show channel.received = session.applied ++ [] ++ (session.outputQueue ++ [item])
        rw [hparked, hreceived', List.append_nil, List.nil_append]
      · intro item' hmem
        replace hmem : item' ∈ session.outputQueue ++ [item] := hmem
        rw [hparked, List.nil_append] at hmem
        rw [List.mem_singleton.mp hmem]
        unfold Drain.Overflows at hover
        split at hover
        · rename_i bytes hvalue
          exact ⟨bytes, hvalue⟩
        · cases hover
      · show (session.outputQueue ++ [item]).length ≤ 1
        rw [hparked]
        exact Nat.le_refl 1
    · rename_i hover
      have hlength : session.outputQueue.length = 0 := by rw [hparked]; rfl
      rw [hlength]
      refine WorkerSession.Core.apply ?_ hsound hparked (by simpa using hover)
      refine ⟨hconserved.dropItem (by rw [halive']; rfl), ?_, ?_, ?_, h.outputs, h.single, h.fed, h.reachable,
        h.drains⟩
      · show (channel.dropItem 0 item).maxBytes = transportOutputBacklogBytes
        rw [Channel.dropItem_maxBytes, hmax', h.maxBytes]
      · show (channel.dropItem 0 item).alive = session.outputQueue
        rw [Channel.dropItem_alive, halive', hparked]
        rfl
      · show (channel.dropItem 0 item).received = session.applied ++ [item] ++ session.outputQueue
        rw [Channel.dropItem_received, hreceived', hparked, List.append_nil]
  · exact h.endDrain hsound.within
  · refine (h.release transport).leave.endDrain ?_
    split
    · exact hsound.within
    · exact hsound.within

theorem WorkerSession.Ordered.drainTurn (h : session.Ordered)
    (hdrain : session.draining = some drain)
    (timeExhausted : Bool) : (session.drainTurn transport drain timeExhausted).Ordered := by
  have hsound := h.draining drain hdrain
  have hcore := h.core
  unfold WorkerSession.drainTurn
  split
  · exact hcore.endDrain hsound.within
  · split
    · rename_i item parked hparked
      obtain ⟨bytes, hvalue⟩ := hcore.outputs item (by rw [hparked]; exact List.mem_cons_self)
      have halive := hcore.alive
      have hreceived := hcore.received
      have hnone : parked = [] := by
        have hsingle := hcore.single
        rw [hparked] at hsingle
        exact List.eq_nil_of_length_eq_zero (by simpa using hsingle)
      subst hnone
      rw [hparked] at halive hreceived
      simp only [hvalue]
      refine WorkerSession.Core.feed ?_ hvalue ?_
      · refine ⟨hcore.conserved.dropItem (by rw [halive]; rfl), ?_, ?_, ?_, ?_, ?_, hcore.fed,
          hcore.reachable, hcore.drains⟩
        · show (session.channel.dropItem 0 item).maxBytes = transportOutputBacklogBytes
          rw [Channel.dropItem_maxBytes, hcore.maxBytes]
        · show (session.channel.dropItem 0 item).alive = []
          rw [Channel.dropItem_alive, halive]
          rfl
        · show (session.channel.dropItem 0 item).received = session.applied ++ [item] ++ []
          rw [Channel.dropItem_received, hreceived]
          simp
        · exact nofun
        · exact Nat.zero_le 1
      · have hfresh := hsound.fresh (by rw [hparked]; exact List.cons_ne_nil _ _)
        refine hsound.feed (.inl ?_)
        rw [Drain.total, hfresh]
        rfl
    · rename_i hparked
      exact hcore.receive hsound hparked

end Turns

/-! ## 4. Runs -/

section Runs

variable {transport : Transport} {session session' : WorkerSession} {action : SessionAction}

/-- The worker's steps, and `close`, receive nothing and drop nothing that was received. -/
theorem Channel.next_worker {channel channel' : Channel WorkerEvent}
    {step : ChannelAction WorkerEvent} (haction : action.channel = some step)
    (hnext : channel.next step = some channel') :
    channel'.received = channel.received ∧ channel'.alive = channel.alive := by
  cases action with
  | send value byteLen =>
    cases haction
    cases hnext
    unfold Channel.send
    split <;> exact ⟨rfl, rfl⟩
  | attempt i =>
    cases haction
    simp only [Channel.next] at hnext
    split at hnext
    · cases hnext
      unfold Channel.attempt
      split
      · exact ⟨rfl, rfl⟩
      · split <;> exact ⟨rfl, rfl⟩
    · cases hnext
  | cancel i =>
    cases haction
    cases hnext
    exact ⟨rfl, rfl⟩
  | sendControl value =>
    cases haction
    cases hnext
    unfold Channel.sendControl
    split <;> exact ⟨rfl, rfl⟩
  | dropSender =>
    cases haction
    cases hnext
    exact ⟨rfl, rfl⟩
  | close =>
    cases haction
    cases hnext
    unfold Channel.close
    split <;> exact ⟨rfl, rfl⟩
  | drain budget => cases haction
  | turn timeExhausted => cases haction

theorem WorkerSession.Ordered.next (h : session.Ordered)
    (hnext : session.next transport action = some session') : session'.Ordered := by
  have hcore := h.core
  unfold WorkerSession.next at hnext
  split at hnext
  · rename_i step haction
    obtain ⟨channel, hchannel, rfl⟩ := Option.map_eq_some_iff.mp hnext
    obtain ⟨hreceived, halive⟩ := Channel.next_worker haction hchannel
    have hmax : session.channel.maxBytes < usizeMax := by rw [hcore.maxBytes]; decide
    have hsame := (Channel.next_frame hchannel).1
    exact ⟨⟨hcore.conserved.next hmax hchannel, hsame.trans hcore.maxBytes,
      halive.trans hcore.alive, hreceived.trans hcore.received, hcore.outputs, hcore.single,
      hcore.fed, hcore.reachable, hcore.drains⟩, h.draining⟩
  · split at hnext
    · cases hnext
      refine ⟨⟨hcore.conserved, hcore.maxBytes, hcore.alive, hcore.received, hcore.outputs,
        hcore.single, hcore.fed, hcore.reachable, hcore.drains⟩, fun drain hdrain => ?_⟩
      cases hdrain
      exact ⟨rfl, .inl (Nat.zero_le _), fun _ => rfl⟩
    · rename_i timeExhausted drain hdrain _
      split at hnext
      · cases hnext
      · cases hnext
        exact h.drainTurn hdrain _
    · cases hnext

theorem WorkerSession.Ordered.run {actions : List SessionAction} (h : session.Ordered)
    (hrun : session.run transport actions = some session') : session'.Ordered := by
  induction actions generalizing session with
  | nil =>
    cases hrun
    exact h
  | cons action actions ih =>
    obtain ⟨mid, hnext, hrest⟩ := Option.bind_eq_some_iff.mp hrun
    exact ih (h.next hnext) hrest

theorem WorkerSession.ordered_new : ({} : WorkerSession).Ordered := by
  refine ⟨⟨⟨rfl, Nat.zero_le _, fun _ => rfl, List.nil_prefix, nofun⟩, rfl, rfl, rfl, nofun,
    Nat.zero_le _, rfl, rfl, nofun⟩, nofun⟩

end Runs

/-- **Draining keeps the order**, for both sessions, whatever the worker sends, whenever, and
    whatever the drains and their budgets. -/
theorem drain_keeps_order (transport : Transport) (actions : List SessionAction)
    (session : WorkerSession) (hrun : ({} : WorkerSession).run transport actions = some session) :
    session.applied <+: session.channel.accepted ∧
      fedOutput session.terminal <+: outputBytes session.channel.accepted ∧
      (∀ drain ∈ session.drains ++ session.draining.toList, drain.Within) ∧
      session.unreachable = false := by
  have h := (WorkerSession.ordered_new).run hrun
  have happlied : session.applied <+: session.channel.accepted := by
    refine List.IsPrefix.trans ?_ h.core.conserved.front
    rw [h.core.received, List.append_assoc]
    exact List.prefix_append _ _
  refine ⟨happlied, ?_, fun drain hmem => ?_, h.core.reachable⟩
  · obtain ⟨later, hlater⟩ := happlied
    rw [h.core.fed, ← hlater, outputBytes_append]
    exact List.prefix_append _ _
  · rcases List.mem_append.mp hmem with hended | hunder
    · exact h.core.drains drain hended
    · exact (h.draining drain (Option.mem_toList.mp hunder)).within

/-- Two outputs and the end of the session, drained three bytes at a time. -/
def threeByteDrains : List SessionAction :=
  [.sendControl .connected, .send (.output [1, 2]) 2, .attempt 0, .send (.output [3, 4]) 2,
    .attempt 1, .sendControl .closed, .drain ⟨3, 9⟩, .turn false, .turn false, .turn false,
    .drain ⟨3, 9⟩, .turn false]

theorem drain_keeps_order_parked :
    ∃ session, ({} : WorkerSession).run (telnet []) threeByteDrains = some session ∧
      session.applied.length = 3 ∧ session.running = true ∧
      session.applied <+: session.channel.accepted :=
  ⟨_, rfl, by decide, by decide, (drain_keeps_order (telnet []) threeByteDrains _ rfl).1⟩

/-- A failure writes a notice of its own to the terminal; and an empty output does not count, so that
    another one may follow it that does not fit. -/
theorem notice_is_no_output :
    (∃ session, ({} : WorkerSession).run (telnet [])
        [.sendControl (.failed "refused".toList), .drain ⟨1, 1⟩, .turn false] = some session ∧
      ¬ session.terminal.flatMap Fed.bytes <+: outputBytes session.channel.accepted) ∧
    ∃ session, ({} : WorkerSession).run (telnet [])
        [.send (.output []) 0, .attempt 0, .send (.output [1, 2]) 2, .attempt 1, .drain ⟨1, 9⟩,
          .turn false, .turn false, .turn false] = some session ∧
      ∃ drain ∈ session.drains, ¬ (drain.total ≤ drain.budget.maxBytes ∨ drain.fed.length = 1) := by
  refine ⟨⟨_, rfl, by decide⟩, _, rfl, ?_⟩
  exact ⟨_, List.mem_singleton_self _, by decide⟩

end Hapcli.Terminal
