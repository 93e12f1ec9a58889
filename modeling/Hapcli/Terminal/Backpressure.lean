/-
  Subject:   The byte-bounded channel between a worker and its session (`backpressure.rs`).

  Any number of sends are under way at once. A step is what one call does while it holds the lock
  of the channel; a send that finds no room stays under way, and may be tried again at any time,
  which leaves open who wakes it.

  * `channel_conserves` -- **the counter is the bytes of what is queued and of what was received and
    still lives, and keeps within the limit; what is received is what was sent, in that order; and
    nothing is accepted after `close`**.
-/
import Mathlib.Algebra.Ring.Nat
import Mathlib.Tactic.Common

namespace Hapcli.Terminal

/-! ## 1. The channel -/

def usizeMax : Nat := 2 ^ 64 - 1

/-- `usize::saturating_add`. -/
def saturatingAdd (a b : Nat) : Nat := min (a + b) usizeMax

/-- `TRANSPORT_OUTPUT_BACKLOG_BYTES`, the limit of the channels of the sessions. -/
def transportOutputBacklogBytes : Nat := 1024 * 1024

structure QueuedOutput (T : Type) where
  value : T
  byteLen : Nat
  deriving DecidableEq

inductive TryRecvError where
  | empty
  | disconnected
  deriving DecidableEq

/-- `ByteBoundedInner` with its `ByteBoundedState`; the items received and still live; the sends
    under way (`none` once ended); and, in order, what was accepted and what was received. -/
structure Channel (T : Type) where
  maxBytes : Nat
  queue : List (QueuedOutput T) := []
  outstandingBytes : Nat := 0
  senderOpen : Bool := true
  receiverOpen : Bool := true
  alive : List (QueuedOutput T) := []
  sends : List (Option (QueuedOutput T)) := []
  accepted : List (QueuedOutput T) := []
  received : List (QueuedOutput T) := []
  deriving DecidableEq

def byteSum {T : Type} (items : List (QueuedOutput T)) : Nat := (items.map (·.byteLen)).sum

namespace Channel

variable {T : Type} (channel : Channel T)

def enqueue (item : QueuedOutput T) : Channel T :=
  { channel with
    outstandingBytes := saturatingAdd channel.outstandingBytes item.byteLen
    queue := channel.queue ++ [item]
    accepted := channel.accepted ++ [item] }

/-- A new call of `send` or of `send_async`; what can never fit is refused at once. -/
def send (value : T) (byteLen : Nat) : Channel T :=
  if channel.maxBytes < byteLen then { channel with sends := channel.sends ++ [none] }
  else { channel with sends := channel.sends ++ [some ⟨value, byteLen⟩] }

/-- Send `i` ends. -/
def endSend (i : Nat) : Channel T := { channel with sends := channel.sends.set i none }

/-- One turn of the loop of `send` or of `send_async`: refused, accepted or still waiting. -/
def attempt (i : Nat) (item : QueuedOutput T) : Channel T :=
  if channel.receiverOpen = false then channel.endSend i
  else if saturatingAdd channel.outstandingBytes item.byteLen ≤ channel.maxBytes then
    (channel.endSend i).enqueue item
  else channel

def sendControl (value : T) : Channel T :=
  if channel.receiverOpen = false then channel else channel.enqueue ⟨value, 0⟩

/-- The drop of the sender. -/
def dropSender : Channel T := { channel with senderOpen := false }

def tryRecv : Except TryRecvError (QueuedOutput T) × Channel T :=
  match channel.queue with
  | item :: queue =>
    (.ok item,
      { channel with
        queue
        alive := channel.alive ++ [item]
        received := channel.received ++ [item] })
  | [] => (.error (if channel.senderOpen then .empty else .disconnected), channel)

/-- The drop of the `i`-th of the items that live. -/
def dropItem (i : Nat) (item : QueuedOutput T) : Channel T :=
  if item.byteLen = 0 then { channel with alive := channel.alive.eraseIdx i }
  else
    { channel with
      alive := channel.alive.eraseIdx i
      outstandingBytes := channel.outstandingBytes - item.byteLen }

/-- `close`, also when the receiver is dropped. -/
def close : Channel T :=
  if channel.receiverOpen = false then channel
  else
    { channel with
      receiverOpen := false
      queue := []
      outstandingBytes := channel.outstandingBytes - byteSum channel.queue }

end Channel

/-- A step. -/
inductive ChannelAction (T : Type) where
  | send (value : T) (byteLen : Nat)
  | attempt (i : Nat)
  | cancel (i : Nat)
  | sendControl (value : T)
  | dropSender
  | tryRecv
  | dropItem (i : Nat)
  | close

/-- **One step**, if what it is about is there. `cancel` is the drop of the future of a
    `send_async`. -/
def Channel.next {T : Type} (channel : Channel T) : ChannelAction T → Option (Channel T)
  | .send value byteLen => some (channel.send value byteLen)
  | .attempt i =>
    match channel.sends[i]? with
    | some (some item) => some (channel.attempt i item)
    | _ => none
  | .cancel i => some (channel.endSend i)
  | .sendControl value => some (channel.sendControl value)
  | .dropSender => some channel.dropSender
  | .tryRecv => some channel.tryRecv.2
  | .dropItem i => channel.alive[i]?.map (channel.dropItem i)
  | .close => some channel.close

def Channel.run {T : Type} (channel : Channel T) : List (ChannelAction T) → Option (Channel T)
  | [] => some channel
  | action :: actions => (channel.next action).bind fun channel => channel.run actions

/-! ## 2. What every step keeps -/

/-- What the channel promises at any time. -/
structure Channel.Conserved {T : Type} (channel : Channel T) : Prop where
  bytes : channel.outstandingBytes = byteSum channel.queue + byteSum channel.alive
  limit : channel.outstandingBytes ≤ channel.maxBytes
  order : channel.receiverOpen = true → channel.accepted = channel.received ++ channel.queue
  front : channel.received <+: channel.accepted
  drained : channel.receiverOpen = false → channel.queue = []

section Conserved

variable {T : Type} {channel : Channel T}

theorem byteSum_append (items items' : List (QueuedOutput T)) :
    byteSum (items ++ items') = byteSum items + byteSum items' := by
  simp [byteSum]

theorem byteSum_singleton (item : QueuedOutput T) : byteSum [item] = item.byteLen := by
  simp [byteSum]

theorem byteSum_eraseIdx {items : List (QueuedOutput T)} {i : Nat} {item : QueuedOutput T}
    (h : items[i]? = some item) : byteSum items = item.byteLen + byteSum (items.eraseIdx i) := by
  induction items generalizing i with
  | nil => cases h
  | cons first items ih =>
    cases i with
    | zero =>
      cases h
      rfl
    | succ i =>
      have hrest := ih (i := i) (by simpa using h)
      simp only [byteSum, List.map_cons, List.sum_cons, List.eraseIdx_cons_succ] at hrest ⊢
      omega

section

variable (h : channel.Conserved)

include h

theorem Channel.Conserved.sends (sends : List (Option (QueuedOutput T))) :
    ({ channel with sends } : Channel T).Conserved :=
  ⟨h.bytes, h.limit, h.order, h.front, h.drained⟩

theorem Channel.Conserved.enqueue (hopen : channel.receiverOpen = true)
    {item : QueuedOutput T} (hfits : channel.outstandingBytes + item.byteLen ≤ channel.maxBytes)
    (hmax : channel.maxBytes ≤ usizeMax) : (channel.enqueue item).Conserved := by
  have hsum : saturatingAdd channel.outstandingBytes item.byteLen =
      channel.outstandingBytes + item.byteLen := Nat.min_eq_left (Nat.le_trans hfits hmax)
  have horder := h.order hopen
  refine ⟨?_, ?_, fun _ => ?_, ?_, fun hclosed => ?_⟩
  · show saturatingAdd _ _ = byteSum (channel.queue ++ [item]) + byteSum channel.alive
    rw [hsum, byteSum_append, byteSum_singleton, h.bytes]
    omega
  · show saturatingAdd _ _ ≤ channel.maxBytes
    rw [hsum]
    exact hfits
  · show channel.accepted ++ [item] = channel.received ++ (channel.queue ++ [item])
    rw [horder, List.append_assoc]
  · exact h.front.trans (List.prefix_append _ _)
  · exact absurd (hopen.symm.trans hclosed) (by simp)

theorem Channel.Conserved.tryRecv : channel.tryRecv.2.Conserved := by
  unfold Channel.tryRecv
  split
  · rename_i item queue hqueue
    have hopen : channel.receiverOpen = true := by
      by_contra hclosed
      have hnil := h.drained (by simpa using hclosed)
      rw [hqueue] at hnil
      cases hnil
    have horder := h.order hopen
    have hbytes := h.bytes
    rw [hqueue] at horder hbytes
    refine ⟨?_, h.limit, fun _ => ?_, ?_, fun hclosed => absurd (hopen.symm.trans hclosed) (by simp)⟩
    · show channel.outstandingBytes = byteSum queue + byteSum (channel.alive ++ [item])
      rw [byteSum_append, byteSum_singleton, hbytes]
      simp only [byteSum, List.map_cons, List.sum_cons]
      omega
    · show channel.accepted = channel.received ++ [item] ++ queue
      rw [horder, List.append_assoc]
      rfl
    · show channel.received ++ [item] <+: channel.accepted
      rw [horder]
      exact ⟨queue, by simp⟩
  · exact h

theorem Channel.Conserved.dropItem {i : Nat} {item : QueuedOutput T}
    (hitem : channel.alive[i]? = some item) : (channel.dropItem i item).Conserved := by
  have hsum := byteSum_eraseIdx hitem
  have hbytes := h.bytes
  have hlimit := h.limit
  unfold Channel.dropItem
  split
  · rename_i hzero
    refine ⟨?_, h.limit, h.order, h.front, h.drained⟩
    show channel.outstandingBytes = byteSum channel.queue + byteSum (channel.alive.eraseIdx i)
    omega
  · refine ⟨?_, ?_, h.order, h.front, h.drained⟩
    · show channel.outstandingBytes - item.byteLen =
        byteSum channel.queue + byteSum (channel.alive.eraseIdx i)
      omega
    · show channel.outstandingBytes - item.byteLen ≤ channel.maxBytes
      omega

theorem Channel.Conserved.close : channel.close.Conserved := by
  have hbytes := h.bytes
  have hlimit := h.limit
  unfold Channel.close
  split
  · exact h
  · refine ⟨?_, ?_, nofun, h.front, fun _ => rfl⟩
    · show channel.outstandingBytes - byteSum channel.queue = byteSum [] + byteSum channel.alive
      simp only [byteSum, List.map_nil, List.sum_nil] at *
      omega
    · show channel.outstandingBytes - byteSum channel.queue ≤ channel.maxBytes
      omega

theorem Channel.Conserved.next {channel' : Channel T} {action : ChannelAction T}
    (hmax : channel.maxBytes < usizeMax)
    (hnext : channel.next action = some channel') : channel'.Conserved := by
  cases action with
  | send value byteLen =>
    cases hnext
    unfold Channel.send
    split
    · exact h.sends _
    · exact h.sends _
  | attempt i =>
    simp only [Channel.next] at hnext
    split at hnext
    · rename_i item _
      cases hnext
      unfold Channel.attempt
      split
      · exact h.sends _
      · rename_i hopen
        split
        · rename_i hfits
          have hroom : channel.outstandingBytes + item.byteLen ≤ channel.maxBytes := by
            unfold saturatingAdd at hfits
            omega
          exact (h.sends _).enqueue (by simpa using hopen) hroom (Nat.le_of_lt hmax)
        · exact h
    · cases hnext
  | cancel i =>
    cases hnext
    exact h.sends _
  | sendControl value =>
    cases hnext
    unfold Channel.sendControl
    split
    · exact h
    · rename_i hopen
      exact h.enqueue (by simpa using hopen) h.limit (Nat.le_of_lt hmax)
  | dropSender =>
    cases hnext
    exact ⟨h.bytes, h.limit, h.order, h.front, h.drained⟩
  | tryRecv =>
    cases hnext
    exact h.tryRecv
  | dropItem i =>
    simp only [Channel.next, Option.map_eq_some_iff] at hnext
    obtain ⟨item, hitem, rfl⟩ := hnext
    exact h.dropItem hitem
  | close =>
    cases hnext
    exact h.close

end

end Conserved

/-! ## 3. What a step leaves alone -/

section Frames

variable {T : Type} (channel : Channel T) (i : Nat) (item : QueuedOutput T)

@[simp] theorem Channel.dropItem_alive :
    (channel.dropItem i item).alive = channel.alive.eraseIdx i := by
  unfold Channel.dropItem
  split <;> rfl

@[simp] theorem Channel.dropItem_received : (channel.dropItem i item).received = channel.received := by
  unfold Channel.dropItem
  split <;> rfl

@[simp] theorem Channel.dropItem_maxBytes : (channel.dropItem i item).maxBytes = channel.maxBytes := by
  unfold Channel.dropItem
  split <;> rfl

variable {channel i item}

theorem Channel.tryRecv_ok {channel' : Channel T} (h : channel.tryRecv = (.ok item, channel')) :
    channel'.alive = channel.alive ++ [item] ∧ channel'.received = channel.received ++ [item] ∧
      channel'.maxBytes = channel.maxBytes := by
  unfold Channel.tryRecv at h
  split at h
  · obtain ⟨hitem, rfl⟩ := Prod.mk.inj h
    cases hitem
    exact ⟨rfl, rfl, rfl⟩
  · exact absurd (Prod.mk.inj h).1 nofun

end Frames

/-! ## 4. Runs -/

section Runs

variable {T : Type} {channel channel' : Channel T}

theorem Channel.next_frame {action : ChannelAction T} (h : channel.next action = some channel') :
    channel'.maxBytes = channel.maxBytes ∧
      (channel.receiverOpen = false →
        channel'.receiverOpen = false ∧ channel'.accepted = channel.accepted) := by
  cases action with
  | send value byteLen =>
    cases h
    unfold Channel.send
    split <;> exact ⟨rfl, fun hclosed => ⟨hclosed, rfl⟩⟩
  | attempt i =>
    simp only [Channel.next] at h
    split at h
    · cases h
      unfold Channel.attempt
      split
      · exact ⟨rfl, fun hclosed => ⟨hclosed, rfl⟩⟩
      · rename_i hopen
        split
        · exact ⟨rfl, fun hclosed => absurd hclosed hopen⟩
        · exact ⟨rfl, fun hclosed => absurd hclosed hopen⟩
    · cases h
  | cancel i =>
    cases h
    exact ⟨rfl, fun hclosed => ⟨hclosed, rfl⟩⟩
  | sendControl value =>
    cases h
    unfold Channel.sendControl
    split
    · exact ⟨rfl, fun hclosed => ⟨hclosed, rfl⟩⟩
    · rename_i hopen
      exact ⟨rfl, fun hclosed => absurd hclosed hopen⟩
  | dropSender =>
    cases h
    exact ⟨rfl, fun hclosed => ⟨hclosed, rfl⟩⟩
  | tryRecv =>
    cases h
    unfold Channel.tryRecv
    split <;> exact ⟨rfl, fun hclosed => ⟨hclosed, rfl⟩⟩
  | dropItem i =>
    simp only [Channel.next, Option.map_eq_some_iff] at h
    obtain ⟨item, -, rfl⟩ := h
    unfold Channel.dropItem
    split <;> exact ⟨rfl, fun hclosed => ⟨hclosed, rfl⟩⟩
  | close =>
    cases h
    unfold Channel.close
    split
    · exact ⟨rfl, fun hclosed => ⟨hclosed, rfl⟩⟩
    · exact ⟨rfl, fun _ => ⟨rfl, rfl⟩⟩

theorem Channel.run_accepted {actions : List (ChannelAction T)}
    (hclosed : channel.receiverOpen = false)
    (hrun : channel.run actions = some channel') : channel'.accepted = channel.accepted := by
  induction actions generalizing channel with
  | nil =>
    cases hrun
    rfl
  | cons action actions ih =>
    obtain ⟨mid, hnext, hrest⟩ := Option.bind_eq_some_iff.mp hrun
    obtain ⟨hstill, haccepted⟩ := (Channel.next_frame hnext).2 hclosed
    exact (ih hstill hrest).trans haccepted

theorem Channel.Conserved.run {actions : List (ChannelAction T)} (h : channel.Conserved)
    (hmax : channel.maxBytes < usizeMax) (hrun : channel.run actions = some channel') :
    channel'.Conserved ∧ channel'.maxBytes = channel.maxBytes := by
  induction actions generalizing channel with
  | nil =>
    cases hrun
    exact ⟨h, rfl⟩
  | cons action actions ih =>
    obtain ⟨mid, hnext, hrest⟩ := Option.bind_eq_some_iff.mp hrun
    have hlimit := (Channel.next_frame hnext).1
    obtain ⟨hlast, hsame⟩ := ih (h.next hmax hnext) (by rw [hlimit]; exact hmax) hrest
    exact ⟨hlast, hsame.trans hlimit⟩

end Runs

/-- **Whatever the calls, and in whatever order their steps are taken**: the count, the limit, the
    order, and nothing after `close`. -/
theorem channel_conserves {T : Type} (maxBytes : Nat) (hmax : maxBytes < usizeMax)
    (actions : List (ChannelAction T)) (channel : Channel T)
    (hrun : ({ maxBytes } : Channel T).run actions = some channel) :
    channel.outstandingBytes = byteSum channel.queue + byteSum channel.alive ∧
      channel.outstandingBytes ≤ maxBytes ∧
      (channel.receiverOpen = true → channel.accepted = channel.received ++ channel.queue) ∧
      channel.received <+: channel.accepted ∧
      (channel.receiverOpen = false → ∀ (later : List (ChannelAction T)) (last : Channel T),
        channel.run later = some last → last.accepted = channel.accepted) := by
  have hnew : ({ maxBytes } : Channel T).Conserved :=
    ⟨rfl, Nat.zero_le _, fun _ => rfl, List.nil_prefix, nofun⟩
  obtain ⟨h, hsame⟩ := hnew.run hmax hrun
  refine ⟨h.bytes, ?_, h.order, h.front, fun hclosed later last hlater => ?_⟩
  · rw [← show channel.maxBytes = maxBytes from hsame]
    exact h.limit
  · exact Channel.run_accepted hclosed hlater

/-- Two chunks fill the channel, a third waits; one is received and kept, and the channel closed. -/
def fullChannelRun : List (ChannelAction (List UInt8)) :=
  [.send [1, 1, 1, 1] 4, .attempt 0, .send [2, 2, 2, 2] 4, .attempt 1, .send [3] 1, .attempt 2,
    .sendControl [], .tryRecv, .close, .attempt 2]

theorem channel_conserves_full :
    ∃ channel, ({ maxBytes := 8 } : Channel (List UInt8)).run fullChannelRun = some channel ∧
      channel.outstandingBytes = 4 ∧ channel.accepted.length = 3 ∧
      channel.received <+: channel.accepted :=
  ⟨_, rfl, by decide, by decide, (channel_conserves 8 (by decide) fullChannelRun _ rfl).2.2.2.1⟩

end Hapcli.Terminal
