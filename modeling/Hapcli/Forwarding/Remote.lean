/-
  Subject:   Remote forwards and the router of the channels that the server opens for them
             (`remote.rs`).

  Any number of forwards start, are stopped and are dropped, on any connections. A step is what a
  task does between two awaits; the server answers what it likes. A forward is live from its
  registration to the moment its shutdown is sent.

  * **`routed_iff`** -- the router follows the live forward registered last throughout a run
    exactly when no forward unregisters a key under which another one is live.
-/
import Hapcli.Forwarding.Rule
import Hapcli.Lib.Runs
import Hapcli.Rust.Maps

namespace Hapcli.Forwarding

open Function
open Hapcli.Rust
open Hapcli.Lib.Runs

/-! ## 1. The router -/

structure RemoteForwardKey where
  address : Str
  port : UInt16
  deriving DecidableEq

/-- `RemoteForwardTarget`; the channel of its shutdown is the forward's. -/
structure RemoteForwardTarget where
  connectionId : Str
  localHost : Str
  localPort : UInt16
  forward : Nat
  deriving DecidableEq

/-- `RemoteForwardRouter`: its `targets`. -/
abbrev RemoteForwardRouter := Map RemoteForwardKey RemoteForwardTarget

namespace RemoteForwardRouter

def register (router : RemoteForwardRouter) (key : RemoteForwardKey)
    (target : RemoteForwardTarget) : RemoteForwardRouter :=
  router.insert key target

def unregister (router : RemoteForwardRouter) (remoteAddress : Str) (remotePort : UInt16) :
    RemoteForwardRouter :=
  router.erase ⟨remoteAddress, remotePort⟩

def targetFor (router : RemoteForwardRouter) (remoteAddress : Str) (remotePort : UInt16)
    (connectionId : Str) : Option RemoteForwardTarget :=
  (router.lookup ⟨remoteAddress, remotePort⟩).filter fun target =>
    decide (target.connectionId = connectionId)

end RemoteForwardRouter

/-! ## 2. Forwards -/

/-- Where a forward stands. -/
inductive RemoteStage where
  /-- `start` has asked the server -/
  | starting
  /-- registered, and its shutdown not sent -/
  | live
  /-- `stop_best_effort` waits for the server -/
  | cancelling
  /-- `finish_stop` waits for the connections to end -/
  | finishing
  /-- failed or dropped -/
  | gone
  deriving DecidableEq

/-- `RemoteForward`; the port of its rule is the server's from the registration on. -/
structure RemoteForward where
  rule : ForwardRule
  connectionId : Str
  stage : RemoteStage
  deriving DecidableEq

def RemoteForward.key (forward : RemoteForward) : RemoteForwardKey :=
  ⟨forward.rule.bindAddress, forward.rule.bindPort⟩

/-- What `start` registers. -/
def RemoteForward.target (forward : RemoteForward) (number : Nat) : RemoteForwardTarget where
  connectionId := forward.connectionId
  localHost := forward.rule.targetHost
  localPort := forward.rule.targetPort
  forward := number

/-- The rule with the port that the server has answered. -/
def RemoteForward.granted (forward : RemoteForward) (port : UInt16) : RemoteForward :=
  { forward with rule := { forward.rule with bindPort := port, status := .active } }

/-- A router, the forwards that use it, by their numbers, and their registrations, the last one
    first, which the code does not keep. -/
structure RemoteForwards where
  router : RemoteForwardRouter
  forwards : Nat → Option RemoteForward
  registered : List Nat

inductive RemoteAction where
  /-- `start`, up to the request; setting the handler may fail -/
  | start (number : Nat) (rule : ForwardRule) (connectionId : Str) (handlerSet : Bool)
  /-- the answer to the request -/
  | answered (number : Nat) (port : Option UInt16)
  /-- `cancel_on_server`, which the caller looks at -/
  | cancelOnServer (number : Nat) (answer : Bool)
  | finishStop (number : Nat)
  | stopBestEffort (number : Nat)
  /-- what `finish_stop` or `stop_best_effort` waits for has come -/
  | advance (number : Nat)
  /-- the forward or the task that owns it is dropped -/
  | drop (number : Nat)
  deriving DecidableEq

namespace RemoteForwards

def new : RemoteForwards := ⟨∅, fun _ => none, []⟩

/-- The forward stands there now. -/
def goTo (state : RemoteForwards) (number : Nat) (forward : RemoteForward) (stage : RemoteStage) :
    RemoteForwards :=
  { state with forwards := update state.forwards number (some { forward with stage := stage }) }

/-- The shutdown of the forward is sent, and its key unregistered. -/
def unregister (state : RemoteForwards) (number : Nat) (forward : RemoteForward)
    (stage : RemoteStage) : RemoteForwards :=
  { state.goTo number forward stage with
    router := RemoteForwardRouter.unregister state.router forward.rule.bindAddress
      forward.rule.bindPort }

/-- The end of `start`. -/
def register (state : RemoteForwards) (number : Nat) (forward : RemoteForward) (port : UInt16) :
    RemoteForwards :=
  { state.goTo number (forward.granted port) .live with
    router := RemoteForwardRouter.register state.router (forward.granted port).key
      ((forward.granted port).target number)
    registered := number :: state.registered }

/-- **One step**, if the forward stands at that place. -/
def next (state : RemoteForwards) : RemoteAction → Option RemoteForwards
  | .start number rule connectionId handlerSet =>
    if state.forwards number = none then
      match rule.validateRemoteRule with
      | .error _ => some state
      | .ok () =>
        some (if handlerSet then state.goTo number ⟨rule, connectionId, .starting⟩ .starting
          else state)
    else none
  | .answered number port =>
    match state.forwards number with
    | some forward =>
      if forward.stage = .starting then
        some (match port with
          | none => state.goTo number forward .gone
          | some port => state.register number forward port)
      else none
    | none => none
  | .cancelOnServer number _ =>
    match state.forwards number with
    | some forward => if forward.stage = .live then some state else none
    | none => none
  | .finishStop number =>
    match state.forwards number with
    | some forward =>
      if forward.stage = .live then some (state.unregister number forward .finishing) else none
    | none => none
  | .stopBestEffort number =>
    match state.forwards number with
    | some forward =>
      if forward.stage = .live then some (state.unregister number forward .cancelling) else none
    | none => none
  | .advance number =>
    match state.forwards number with
    | some forward =>
      match forward.stage with
      -- `finish_stop`, called by `stop_best_effort`
      | .cancelling => some (state.unregister number forward .finishing)
      -- the end of `finish_stop` drops the forward
      | .finishing => some (state.unregister number forward .gone)
      | _ => none
    | none => none
  | .drop number =>
    match state.forwards number with
    | some forward =>
      match forward.stage with
      | .starting => some (state.goTo number forward .gone)
      | .gone => none
      | _ => some (state.unregister number forward .gone)
    | none => none

/-- The forward whose key the step unregisters. -/
def unregistering (state : RemoteForwards) : RemoteAction → Option (Nat × RemoteForward)
  | .finishStop number | .stopBestEffort number | .advance number | .drop number =>
    ((state.forwards number).filter fun forward =>
      decide (forward.stage ≠ .starting ∧ forward.stage ≠ .gone)).map fun forward =>
        (number, forward)
  | _ => none

theorem next_cases {state state' : RemoteForwards} {a : RemoteAction}
    (hnext : state.next a = some state') :
    (state.unregistering a = none ∧ state' = state) ∨
    (∃ number forward stage, state.unregistering a = none ∧
      (∀ found, state.forwards number = some found → found.stage ≠ .live) ∧ stage ≠ .live ∧
        state' = state.goTo number forward stage) ∨
    (∃ number forward port, state.unregistering a = none ∧
      state.forwards number = some forward ∧ forward.stage ≠ .live ∧
        state' = state.register number forward port) ∨
    (∃ number forward stage, state.unregistering a = some (number, forward) ∧
      state.forwards number = some forward ∧ stage ≠ .live ∧
        state' = state.unregister number forward stage) := by
  cases a with
  | start number rule connectionId handlerSet =>
    obtain ⟨hnone, hnext⟩ := Option.ite_none_right_eq_some.mp hnext
    cases hvalid : rule.validateRemoteRule with
    | error error =>
      rw [hvalid] at hnext
      exact .inl ⟨rfl, (Option.some.inj hnext).symm⟩
    | ok _ =>
      rw [hvalid] at hnext
      cases handlerSet with
      | false => exact .inl ⟨rfl, (Option.some.inj hnext).symm⟩
      | true =>
        refine .inr (.inl ⟨number, _, .starting, rfl, ?_, nofun, (Option.some.inj hnext).symm⟩)
        intro found hfound
        exact nomatch hnone.symm.trans hfound
  | answered number port =>
    simp only [next] at hnext
    split at hnext
    · next forward hforward =>
        obtain ⟨hstarting, hnext⟩ := Option.ite_none_right_eq_some.mp hnext
        have hnot : forward.stage ≠ .live := by
          rw [hstarting]
          exact nofun
        cases port with
        | none =>
          refine .inr (.inl ⟨number, forward, .gone, rfl, ?_, nofun,
            (Option.some.inj hnext).symm⟩)
          intro found hfound
          exact Option.some.inj (hforward.symm.trans hfound) ▸ hnot
        | some port =>
          exact .inr (.inr (.inl ⟨number, forward, port, rfl, hforward, hnot,
            (Option.some.inj hnext).symm⟩))
    · cases hnext
  | cancelOnServer number answer =>
    simp only [next] at hnext
    split at hnext
    · obtain ⟨-, hnext⟩ := Option.ite_none_right_eq_some.mp hnext
      exact .inl ⟨rfl, (Option.some.inj hnext).symm⟩
    · cases hnext
  | finishStop number | stopBestEffort number =>
    simp only [next] at hnext
    split at hnext
    · next forward hforward =>
        obtain ⟨hlive, hnext⟩ := Option.ite_none_right_eq_some.mp hnext
        refine .inr (.inr (.inr ⟨number, forward, _, ?_, hforward, ?_,
          (Option.some.inj hnext).symm⟩))
        · simp [unregistering, hforward, hlive]
        · exact nofun
    · cases hnext
  | advance number =>
    simp only [next] at hnext
    split at hnext
    · next forward hforward =>
        split at hnext
        · next hstage =>
            refine .inr (.inr (.inr ⟨number, forward, _, ?_, hforward, ?_,
              (Option.some.inj hnext).symm⟩))
            · simp [unregistering, hforward, hstage]
            · exact nofun
        · next hstage =>
            refine .inr (.inr (.inr ⟨number, forward, _, ?_, hforward, ?_,
              (Option.some.inj hnext).symm⟩))
            · simp [unregistering, hforward, hstage]
            · exact nofun
        · cases hnext
    · cases hnext
  | drop number =>
    simp only [next] at hnext
    split at hnext
    · next forward hforward =>
        split at hnext
        · next hstage =>
            refine .inr (.inl ⟨number, forward, .gone, ?_, ?_, nofun,
              (Option.some.inj hnext).symm⟩)
            · simp [unregistering, hforward, hstage]
            · intro found hfound
              obtain rfl := Option.some.inj (hforward.symm.trans hfound)
              rw [hstage]
              exact nofun
        · cases hnext
        · next hstarting hgone =>
            refine .inr (.inr (.inr ⟨number, forward, _, ?_, hforward, ?_,
              (Option.some.inj hnext).symm⟩))
            · simpa [unregistering, hforward] using ⟨hstarting, hgone⟩
            · exact nofun
    · cases hnext

/-! ## 3. The live forward that was registered last -/

/-- The forward is live and its key is this one. -/
def liveAt (state : RemoteForwards) (key : RemoteForwardKey) (number : Nat) : Bool :=
  (state.forwards number).any fun forward => decide (forward.stage = .live ∧ forward.key = key)

/-- The target of the live forward that was registered last under a key. -/
def lastLive (state : RemoteForwards) (key : RemoteForwardKey) : Option RemoteForwardTarget :=
  (state.registered.find? (state.liveAt key)).bind fun number =>
    (state.forwards number).map (·.target number)

variable {state state' : RemoteForwards} {number : Nat} {forward : RemoteForward}
  {stage : RemoteStage} {key : RemoteForwardKey}

theorem liveAt_iff : state.liveAt key number = true ↔
    ∃ forward, state.forwards number = some forward ∧ forward.stage = .live ∧ forward.key = key := by
  rw [liveAt, Option.any_eq_true]
  exact exists_congr fun forward => and_congr_right fun _ => decide_eq_true_iff

section

variable (hbefore : state.liveAt key number = false) (hafter : stage = .live → forward.key ≠ key)

include hbefore hafter

theorem liveAt_goTo (other : Nat) :
    (state.goTo number forward stage).liveAt key other = state.liveAt key other := by
  unfold liveAt goTo
  dsimp only
  by_cases h : other = number
  · subst h
    rw [update_self]
    refine Eq.trans ?_ hbefore.symm
    exact decide_eq_false fun hlive => hafter hlive.1 hlive.2
  · rw [update_of_ne h]

theorem lastLive_goTo : (state.goTo number forward stage).lastLive key = state.lastLive key := by
  unfold lastLive
  rw [show (state.goTo number forward stage).liveAt key = state.liveAt key from
    funext (liveAt_goTo hbefore hafter)]
  refine Option.bind_congr fun found hfound => ?_
  have hlive : state.liveAt key found = true := List.find?_some hfound
  have hne : found ≠ number := by
    rintro rfl
    exact nomatch hbefore.symm.trans hlive
  show (update state.forwards number _ found).map _ = _
  rw [update_of_ne hne]

end

theorem lastLive_eq_none_iff (hregistered : ∀ n, state.liveAt key n → n ∈ state.registered) :
    state.lastLive key = none ↔ ∀ n, state.liveAt key n = false := by
  unfold lastLive
  constructor
  · intro hnone n
    by_contra hlive
    rw [Bool.not_eq_false] at hlive
    cases hfind : state.registered.find? (state.liveAt key) with
    | none => exact List.find?_eq_none.mp hfind n (hregistered n hlive) hlive
    | some found =>
      obtain ⟨forward, hforward, -⟩ := (liveAt_iff).mp (List.find?_some hfind)
      rw [hfind, Option.bind_some, hforward] at hnone
      cases hnone
  · intro hall
    rw [List.find?_eq_none.mpr fun n _ => by rw [hall n]; exact nofun]
    rfl

/-! ## 4. Routing -/

/-- The entry under each key is that of the live forward that was registered last under it. -/
def Routed (state : RemoteForwards) : Prop := ∀ key, state.router.lookup key = state.lastLive key

/-- A channel goes to no forward but a live one of its connection, registered where it comes in. -/
def OnlyToLive (state : RemoteForwards) : Prop :=
  ∀ address port connectionId target,
    RemoteForwardRouter.targetFor state.router address port connectionId = some target →
      ∃ forward, state.forwards target.forward = some forward ∧ forward.stage = .live ∧
        forward.key = ⟨address, port⟩ ∧ forward.connectionId = connectionId

/-- No step unregisters a key under which another forward is live. -/
def ClearsOwn (state : RemoteForwards) (a : RemoteAction) : Prop :=
  ∀ number forward, state.unregistering a = some (number, forward) →
    ∀ other, other ≠ number → state.liveAt forward.key other = false

/-- Every live forward has been registered. -/
def Registered (state : RemoteForwards) : Prop :=
  ∀ key n, state.liveAt key n → n ∈ state.registered

theorem onlyToLive_of_routed (hrouted : state.Routed) : state.OnlyToLive := by
  intro address port connectionId target htarget
  obtain ⟨hlookup, hconnection⟩ := Option.filter_eq_some_iff.mp htarget
  rw [hrouted] at hlookup
  obtain ⟨number, hfind, htarget⟩ := Option.bind_eq_some_iff.mp hlookup
  obtain ⟨forward, hforward, rfl⟩ := Option.map_eq_some_iff.mp htarget
  obtain ⟨found, hfound, hlive, hkey⟩ := (liveAt_iff).mp (List.find?_some hfind)
  obtain rfl := Option.some.inj (hforward.symm.trans hfound)
  exact ⟨forward, hforward, hlive, hkey, of_decide_eq_true hconnection⟩

theorem liveAt_eq_false (h : ∀ found, state.forwards number = some found → found.stage ≠ .live) :
    state.liveAt key number = false := by
  by_contra hlive
  obtain ⟨found, hfound, hstage, -⟩ := (liveAt_iff).mp (Bool.not_eq_false _ ▸ hlive)
  exact h found hfound hstage

theorem registered_goTo (hregistered : state.Registered) (hstage : stage ≠ .live) :
    (state.goTo number forward stage).Registered := by
  intro key n hlive
  obtain ⟨found, hfound, hfoundLive, hkey⟩ := (liveAt_iff).mp hlive
  by_cases h : n = number
  · subst h
    obtain rfl := Option.some.inj ((update_self n _ state.forwards).symm.trans hfound)
    exact absurd hfoundLive hstage
  · exact hregistered key n
      ((liveAt_iff).mpr ⟨found, (update_of_ne h _ _).symm.trans hfound, hfoundLive, hkey⟩)

theorem registered_next {a : RemoteAction} (hnext : state.next a = some state')
    (hregistered : state.Registered) : state'.Registered := by
  obtain ⟨-, rfl⟩ | ⟨number, forward, stage, -, -, hstage, rfl⟩ |
    ⟨number, forward, port, -, -, -, rfl⟩ | ⟨number, forward, stage, -, -, hstage, rfl⟩ :=
    next_cases hnext
  · exact hregistered
  · exact registered_goTo hregistered hstage
  · intro key n hlive
    by_cases h : n = number
    · exact h ▸ List.mem_cons_self
    · obtain ⟨found, hfound, hrest⟩ := (liveAt_iff).mp hlive
      exact List.mem_cons_of_mem _ (hregistered key n
        ((liveAt_iff).mpr ⟨found, (update_of_ne h _ _).symm.trans hfound, hrest⟩))
  · exact registered_goTo hregistered hstage

/-- A registration is what the router and the list of registrations both have last. -/
theorem routed_register (hrouted : state.Routed) (port : UInt16)
    (hbefore : ∀ key, state.liveAt key number = false) :
    (state.register number forward port).Routed := by
  intro key
  have hlookup : (state.register number forward port).router.lookup key =
      if key = (forward.granted port).key then some ((forward.granted port).target number)
      else state.router.lookup key := Map.lookup_insert_eq _ _ _ _
  have hlast : (state.register number forward port).lastLive key =
      ((number :: state.registered).find?
          ((state.goTo number (forward.granted port) .live).liveAt key)).bind fun n =>
        ((state.goTo number (forward.granted port) .live).forwards n).map (·.target n) := rfl
  rw [hlookup, hlast]
  by_cases h : key = (forward.granted port).key
  · subst h
    have hlive : (state.goTo number (forward.granted port) .live).liveAt
        (forward.granted port).key number = true :=
      (liveAt_iff).mpr ⟨_, update_self number _ state.forwards, rfl, rfl⟩
    rw [if_pos rfl, List.find?_cons_of_pos hlive, Option.bind_some]
    show some _ = (update state.forwards number _ number).map _
    rw [update_self]
    rfl
  · have hsame := lastLive_goTo (hbefore key) fun _ : RemoteStage.live = .live => Ne.symm h
    have hnot : ¬ (state.goTo number (forward.granted port) .live).liveAt key number = true := by
      rw [liveAt_goTo (hbefore key) fun _ => Ne.symm h, hbefore key]
      exact nofun
    rw [if_neg h, hrouted, List.find?_cons_of_neg hnot]
    exact hsame.symm

theorem routed_unregister_iff (hregistered : state.Registered) (hrouted : state.Routed)
    (hforward : state.forwards number = some forward) (hstage : stage ≠ .live) :
    (state.unregister number forward stage).Routed ↔
      ∀ other, other ≠ number → state.liveAt forward.key other = false := by
  have hlookup : ∀ key, (state.unregister number forward stage).router.lookup key =
      if key = forward.key then none else state.router.lookup key :=
    fun key => Map.lookup_erase_eq state.router forward.key key
  have hlast : ∀ key, (state.unregister number forward stage).lastLive key =
      (state.goTo number forward stage).lastLive key := fun _ => rfl
  have hown : (state.goTo number forward stage).lastLive forward.key = none ↔
      ∀ other, other ≠ number → state.liveAt forward.key other = false := by
    rw [lastLive_eq_none_iff fun n => registered_goTo hregistered hstage forward.key n]
    constructor
    · intro hall other hother
      have := hall other
      rwa [liveAt, show (state.goTo number forward stage).forwards other = state.forwards other from
        update_of_ne hother _ _] at this
    · intro hothers n
      by_cases h : n = number
      · subst h
        refine liveAt_eq_false fun found hfound => ?_
        obtain rfl := Option.some.inj ((update_self n _ state.forwards).symm.trans hfound)
        exact hstage
      · rw [liveAt, show (state.goTo number forward stage).forwards n = state.forwards n from
          update_of_ne h _ _]
        exact hothers n h
  constructor
  · intro hafter
    have := hafter forward.key
    rw [hlookup, if_pos rfl, hlast] at this
    exact hown.mp this.symm
  · intro hothers key
    rw [hlookup, hlast]
    by_cases h : key = forward.key
    · rw [if_pos h, h]
      exact (hown.mpr hothers).symm
    · rw [if_neg h, hrouted]
      refine (lastLive_goTo ?_ fun hlive => absurd hlive hstage).symm
      by_contra hlive
      obtain ⟨found, hfound, -, hkey⟩ := (liveAt_iff).mp (Bool.not_eq_false _ ▸ hlive)
      obtain rfl := Option.some.inj (hforward.symm.trans hfound)
      exact h hkey.symm

theorem routed_next_iff {a : RemoteAction} (hnext : state.next a = some state')
    (hregistered : state.Registered) (hrouted : state.Routed) :
    state'.Routed ↔ state.ClearsOwn a := by
  obtain ⟨hnone, rfl⟩ | ⟨number, forward, stage, hnone, hbefore, hstage, rfl⟩ |
    ⟨number, forward, port, hnone, hforward, hnot, rfl⟩ |
    ⟨number, forward, stage, hsome, hforward, hstage, rfl⟩ := next_cases hnext
  · refine iff_of_true hrouted fun number forward hsome => ?_
    exact nomatch hnone.symm.trans hsome
  · refine iff_of_true (fun key => ?_) fun number forward hsome => ?_
    · rw [lastLive_goTo (liveAt_eq_false hbefore) fun hlive => absurd hlive hstage]
      exact hrouted key
    · exact nomatch hnone.symm.trans hsome
  · refine iff_of_true (routed_register hrouted port fun key => liveAt_eq_false ?_)
      fun number forward hsome => ?_
    · intro found hfound
      exact Option.some.inj (hforward.symm.trans hfound) ▸ hnot
    · exact nomatch hnone.symm.trans hsome
  · refine (routed_unregister_iff hregistered hrouted hforward hstage).trans ?_
    unfold ClearsOwn
    rw [hsome]
    constructor
    · intro hothers n f heq
      obtain ⟨rfl, rfl⟩ := Prod.mk.inj (Option.some.inj heq)
      exact hothers
    · intro hall
      exact hall number forward rfl

/-- **The router follows the live forwards throughout a run exactly when no step of the run
    unregisters a key under which another forward is live.** -/
theorem routed_iff (actions : List RemoteAction) :
    Throughout next (fun state => state.Routed ∧ state.OnlyToLive) new actions ↔
      Meets next ClearsOwn new actions := by
  have hsame : Throughout next (fun state => state.Routed ∧ state.OnlyToLive) new actions ↔
      Throughout next Routed new actions :=
    ⟨.mono fun _ => And.left, .mono fun _ h => ⟨h, onlyToLive_of_routed h⟩⟩
  rw [hsame]
  exact throughout_iff_meets (J := Registered) (fun hnext _ => registered_next hnext)
    (fun hnext _ => routed_next_iff hnext) (meets_of_forall fun _ _ => trivial) nofun fun _ => rfl

/-- A rule for a port of the server. -/
def serverPort (id target : String) : ForwardRule where
  id := id.toList
  forwardType := .remote
  bindAddress := "0.0.0.0".toList
  bindPort := 9000
  targetHost := target.toList
  targetPort := 3000
  status := .starting
  description := []

/-- The server has taken the port back from the first forward and gives it to the second one before
    the first one is stopped here. -/
def portTakenOver : List RemoteAction :=
  [.start 0 (serverPort "a" "one") ['c'] true, .answered 0 (some 9000), .cancelOnServer 0 true,
    .start 1 (serverPort "b" "two") ['c'] true, .answered 1 (some 9000), .finishStop 0]

/-- **A forward that is stopped takes the entry of the one away that has its port now.** -/
theorem port_taken_over :
    ¬ ∀ actions, Throughout next (fun state => state.Routed ∧ state.OnlyToLive) new actions := by
  intro hall
  have hrouted := (throughout_iff.mp (hall portTakenOver) portTakenOver [] _ rfl rfl).1
  exact absurd (hrouted ⟨"0.0.0.0".toList, 9000⟩) (by decide)

end RemoteForwards

end Hapcli.Forwarding
