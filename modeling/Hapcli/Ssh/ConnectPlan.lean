/-
  Subject:   The plan that connects a chain of nodes, root first (`session_tree_plan.rs`).

  * **`connect_plan_in_order`** -- a step is connected after its host key was checked, and no step
    is skipped if every advance follows the `Connect` of its step.
-/
import Hapcli.Ssh.NodeStore
import Mathlib.Data.List.Induction

namespace Hapcli.Ssh

open Hapcli.Rust

/-! ## 1. The plan -/

inductive HostKeyStatus where
  | verified
  | unknown (fingerprint keyType : Str)
  | changed (expectedFingerprint actualFingerprint keyType : Str)
  | error (message : Str)
  deriving DecidableEq

structure NativeSessionTreeConnectEndpoint where
  host : Str
  port : UInt16
  deriving DecidableEq

structure NativeSessionTreeConnectStep where
  nodeId : NodeId
  host : Str
  port : UInt16
  trustHostKey : Option Bool
  expectedHostKeyFingerprint : Option Str
  preflightVerified : Bool
  deriving DecidableEq

def NativeSessionTreeConnectStep.hasAcceptedHostKey (step : NativeSessionTreeConnectStep) : Bool :=
  step.trustHostKey.isSome && step.expectedHostKeyFingerprint.isSome

def NativeSessionTreeConnectStep.canConnectWithoutPreflight (step : NativeSessionTreeConnectStep) :
    Bool :=
  step.preflightVerified || step.hasAcceptedHostKey

structure NativeSessionTreeConnectPlan where
  targetNodeId : NodeId
  cleanupNodeId : Option NodeId
  steps : List NativeSessionTreeConnectStep
  currentIndex : Nat
  deriving DecidableEq

inductive NativeSessionTreeConnectAction where
  | preflight (step : NativeSessionTreeConnectStep)
  | connect (step : NativeSessionTreeConnectStep)
  | complete (targetNodeId : NodeId)
  deriving DecidableEq

structure NativeSessionTreeConnectChallenge where
  plan : NativeSessionTreeConnectPlan
  status : HostKeyStatus
  step : NativeSessionTreeConnectStep
  deriving DecidableEq

/-- The error of the calls that need a current step. -/
def noCurrentStep : Str := "proxy connect plan has no current step".toList

namespace NativeSessionTreeConnectPlan

variable (plan : NativeSessionTreeConnectPlan)

/-- A step before anything is known about its host key. -/
def unverifiedStep (nodeId : NodeId) (endpoint : NativeSessionTreeConnectEndpoint) :
    NativeSessionTreeConnectStep where
  nodeId := nodeId
  host := endpoint.host
  port := endpoint.port
  trustHostKey := none
  expectedHostKeyFingerprint := none
  preflightVerified := false

def fromExpansion (expansion : NodeTreeExpansion)
    (endpoints : List NativeSessionTreeConnectEndpoint) (cleanupNodeId : Option NodeId) :
    Except Str NativeSessionTreeConnectPlan :=
  if expansion.pathNodeIds.length ≠ endpoints.length then
    .error ("proxy connect plan endpoint mismatch: pathNodes=".toList ++
      numToString expansion.pathNodeIds.length ++ " endpoints=".toList ++
      numToString endpoints.length)
  else
    .ok ⟨expansion.targetNodeId, cleanupNodeId,
      (expansion.pathNodeIds.zip endpoints).map fun (nodeId, endpoint) =>
        unverifiedStep nodeId endpoint, 0⟩

def nextAction : NativeSessionTreeConnectAction :=
  match plan.steps[plan.currentIndex]? with
  | none => .complete plan.targetNodeId
  | some step => if step.canConnectWithoutPreflight then .connect step else .preflight step

def advanceAfterConnectedStep : NativeSessionTreeConnectPlan :=
  if plan.currentIndex < plan.steps.length then
    { plan with currentIndex := plan.currentIndex + 1 }
  else plan

def acceptCurrentHostKey (trustHostKey : Bool) (expectedHostKeyFingerprint : Str) :
    Except Str Unit × NativeSessionTreeConnectPlan :=
  match plan.steps[plan.currentIndex]? with
  | none => (.error noCurrentStep, plan)
  | some step =>
    (.ok (), { plan with
      steps := plan.steps.set plan.currentIndex { step with
        trustHostKey := some trustHostKey
        expectedHostKeyFingerprint := some expectedHostKeyFingerprint
        preflightVerified := false } })

def markCurrentPreflightVerified : Except Str Unit × NativeSessionTreeConnectPlan :=
  match plan.steps[plan.currentIndex]? with
  | none => (.error noCurrentStep, plan)
  | some step =>
    (.ok (), { plan with
      steps := plan.steps.set plan.currentIndex { step with
        preflightVerified := true
        trustHostKey := none
        expectedHostKeyFingerprint := none } })

def cleanupRootNodeId : Option NodeId := plan.cleanupNodeId

def challengeForCurrentStep (status : HostKeyStatus) :
    Except Str NativeSessionTreeConnectChallenge :=
  match plan.steps[plan.currentIndex]? with
  | none => .error noCurrentStep
  | some step => .ok ⟨plan, status, step⟩

/-! ## 2. Runs -/

/-- The calls on a plan. -/
inductive Call where
  | nextAction
  | advanceAfterConnectedStep
  | acceptCurrentHostKey (trustHostKey : Bool) (expectedHostKeyFingerprint : Str)
  | markCurrentPreflightVerified
  | cleanupRootNodeId
  | challengeForCurrentStep (status : HostKeyStatus)
  deriving DecidableEq

/-- What the calls return. -/
inductive Reply where
  | action (action : NativeSessionTreeConnectAction)
  | done
  | result (result : Except Str Unit)
  | node (nodeId : Option NodeId)
  | challenge (challenge : Except Str NativeSessionTreeConnectChallenge)

/-- One call. -/
def call : Call → Reply × NativeSessionTreeConnectPlan
  | .nextAction => (.action plan.nextAction, plan)
  | .advanceAfterConnectedStep => (.done, plan.advanceAfterConnectedStep)
  | .acceptCurrentHostKey trustHostKey expectedHostKeyFingerprint =>
    let (result, plan) := plan.acceptCurrentHostKey trustHostKey expectedHostKeyFingerprint
    (.result result, plan)
  | .markCurrentPreflightVerified =>
    let (result, plan) := plan.markCurrentPreflightVerified
    (.result result, plan)
  | .cleanupRootNodeId => (.node plan.cleanupRootNodeId, plan)
  | .challengeForCurrentStep status => (.challenge (plan.challengeForCurrentStep status), plan)

/-- A call of a run: the index it was made at, and what it returned. -/
structure Event where
  index : Nat
  call : Call
  reply : Reply

/-- The plan after a run. -/
def run (plan : NativeSessionTreeConnectPlan) (calls : List Call) : NativeSessionTreeConnectPlan :=
  calls.foldl (fun plan call => (plan.call call).2) plan

/-- The events of a run. -/
def trace : NativeSessionTreeConnectPlan → List Call → List Event
  | _, [] => []
  | plan, call :: calls =>
    ⟨plan.currentIndex, call, (plan.call call).1⟩ :: trace (plan.call call).2 calls

/-- The call checks the host key of the current step. -/
def Event.Verifies (event : Event) : Prop :=
  event.call = .markCurrentPreflightVerified ∨
    ∃ trustHostKey fingerprint, event.call = .acceptCurrentHostKey trustHostKey fingerprint

/-- `next_action` returned `Connect`. -/
def Event.Connects (event : Event) : Prop :=
  ∃ step, event.reply = .action (.connect step)

/-- **Every advance past a step follows a `Connect` for it.** -/
def Careful (steps : Nat) (trace : List Event) : Prop :=
  ∀ before event after, trace = before ++ event :: after →
    event.call = .advanceAfterConnectedStep → event.index < steps →
      ∃ earlier ∈ before, earlier.index = event.index ∧ earlier.Connects

theorem trace_concat (plan : NativeSessionTreeConnectPlan) (calls : List Call) (call : Call) :
    trace plan (calls ++ [call]) = trace plan calls ++
      [⟨(plan.run calls).currentIndex, call, ((plan.run calls).call call).1⟩] := by
  induction calls generalizing plan with
  | nil => rfl
  | cons first calls ih => simp [trace, ih, run]

variable {plan : NativeSessionTreeConnectPlan} {event : Event} {ids : List NodeId}
  {past : List Event}

theorem event_of_trace {calls : List Call} {before after : List Event}
    (h : trace plan calls = before ++ event :: after) :
    ∃ earlier later, calls = earlier ++ event.call :: later ∧ trace plan earlier = before ∧
      event.index = (plan.run earlier).currentIndex ∧
      event.reply = ((plan.run earlier).call event.call).1 := by
  induction before generalizing plan calls with
  | nil =>
    cases calls with
    | nil => cases h
    | cons call calls =>
      cases h
      exact ⟨[], calls, rfl, rfl, rfl, rfl⟩
  | cons first before ih =>
    cases calls with
    | nil => cases h
    | cons call calls =>
      rw [trace, List.cons_append, List.cons.injEq] at h
      obtain ⟨earlier, later, rfl, hbefore, hindex, hreply⟩ := ih h.2
      exact ⟨call :: earlier, later, rfl, by rw [trace, hbefore, h.1], hindex, hreply⟩

/-! ## 3. What the plan remembers -/

/-- The plan after the calls `past`. -/
structure PlanHistory (ids : List NodeId) (past : List Event)
    (plan : NativeSessionTreeConnectPlan) : Prop where
  ids : plan.steps.map (·.nodeId) = ids
  index : plan.currentIndex ≤ plan.steps.length
  verified : ∀ i step, plan.steps[i]? = some step → step.canConnectWithoutPreflight = true →
    ∃ event ∈ past, event.index = i ∧ event.Verifies
  advanced : ∀ i < plan.currentIndex,
    ∃ event ∈ past, event.index = i ∧ event.call = .advanceAfterConnectedStep
  behind : ∀ event ∈ past, event.index ≤ plan.currentIndex

section

variable (h : PlanHistory ids past plan)

include h

theorem PlanHistory.read (hindex : event.index = plan.currentIndex) : PlanHistory ids
    (past ++ [event]) plan := by
  refine ⟨h.ids, h.index, fun i step hstep hcan => ?_, fun i hi => ?_, fun e he => ?_⟩
  · obtain ⟨e, he, hei, hev⟩ := h.verified i step hstep hcan
    exact ⟨e, List.mem_append_left _ he, hei, hev⟩
  · obtain ⟨e, he, hei, hadvance⟩ := h.advanced i hi
    exact ⟨e, List.mem_append_left _ he, hei, hadvance⟩
  · rcases List.mem_append.mp he with he | he
    · exact h.behind e he
    · rw [List.mem_singleton.mp he, hindex]

/-- A change of the current step by a call that checks its host key. -/
theorem PlanHistory.verify {step : NativeSessionTreeConnectStep}
    (hstep : plan.steps[plan.currentIndex]? = some step)
    (step' : NativeSessionTreeConnectStep) (hid : step'.nodeId = step.nodeId) (event : Event)
    (hindex : event.index = plan.currentIndex) (hverifies : event.Verifies) :
    PlanHistory ids (past ++ [event])
      { plan with steps := plan.steps.set plan.currentIndex step' } := by
  have hread := h.read hindex
  refine ⟨?_, by simpa using h.index, fun i other hother hcan => ?_, hread.advanced, hread.behind⟩
  · obtain ⟨hlt, hget⟩ := List.getElem?_eq_some_iff.mp hstep
    rw [List.map_set, hid, ← hget, ← List.map_set, List.set_getElem_self, h.ids]
  · by_cases hi : i = plan.currentIndex
    · exact ⟨event, by simp, by rw [hi, hindex], hverifies⟩
    · rw [List.getElem?_set_ne (Ne.symm hi)] at hother
      exact hread.verified i other hother hcan

theorem PlanHistory.advance (hindex : event.index = plan.currentIndex)
    (hcall : event.call = .advanceAfterConnectedStep) :
    PlanHistory ids (past ++ [event]) plan.advanceAfterConnectedStep := by
  unfold advanceAfterConnectedStep
  split
  · next hlt =>
      have hread := h.read hindex
      refine ⟨h.ids, hlt, hread.verified, fun i hi => ?_, fun e he => ?_⟩
      · rcases Nat.lt_succ_iff_lt_or_eq.mp hi with hi | rfl
        · exact hread.advanced i hi
        · exact ⟨event, by simp, hindex, hcall⟩
      · exact Nat.le_succ_of_le (hread.behind e he)
  · exact h.read hindex

theorem PlanHistory.call (call : Call) :
    PlanHistory ids (past ++ [⟨plan.currentIndex, call, (plan.call call).1⟩])
      (plan.call call).2 := by
  cases call with
  | nextAction => exact h.read rfl
  | advanceAfterConnectedStep => exact h.advance rfl rfl
  | acceptCurrentHostKey trustHostKey fingerprint =>
    simp only [NativeSessionTreeConnectPlan.call, acceptCurrentHostKey]
    cases hstep : plan.steps[plan.currentIndex]? with
    | none => exact h.read rfl
    | some step =>
      exact h.verify hstep { step with
          trustHostKey := some trustHostKey
          expectedHostKeyFingerprint := some fingerprint
          preflightVerified := false } rfl
        ⟨plan.currentIndex, .acceptCurrentHostKey trustHostKey fingerprint, .result (.ok ())⟩
        rfl (.inr ⟨trustHostKey, fingerprint, rfl⟩)
  | markCurrentPreflightVerified =>
    simp only [NativeSessionTreeConnectPlan.call, markCurrentPreflightVerified]
    cases hstep : plan.steps[plan.currentIndex]? with
    | none => exact h.read rfl
    | some step =>
      exact h.verify hstep { step with
          preflightVerified := true
          trustHostKey := none
          expectedHostKeyFingerprint := none } rfl
        ⟨plan.currentIndex, .markCurrentPreflightVerified, .result (.ok ())⟩ rfl (.inl rfl)
  | cleanupRootNodeId => exact h.read rfl
  | challengeForCurrentStep status => exact h.read rfl

end

theorem PlanHistory.run (h : PlanHistory ids [] plan) (calls : List Call) :
    PlanHistory ids (trace plan calls) (plan.run calls) := by
  induction calls using List.reverseRecOn with
  | nil => exact h
  | append_singleton calls call ih =>
    have hrun : plan.run (calls ++ [call]) = ((plan.run calls).call call).2 := by
      simp [NativeSessionTreeConnectPlan.run]
    rw [trace_concat, hrun]
    exact ih.call call

theorem planHistory_fromExpansion {expansion : NodeTreeExpansion}
    {endpoints : List NativeSessionTreeConnectEndpoint} {cleanupNodeId : Option NodeId}
    (h : fromExpansion expansion endpoints cleanupNodeId = .ok plan) :
    PlanHistory expansion.pathNodeIds [] plan := by
  unfold fromExpansion at h
  split at h
  · cases h
  · next hlength =>
      cases h
      rw [not_not] at hlength
      refine ⟨?_, Nat.zero_le _, fun i step hstep hcan => ?_, fun i hi => ?_, by simp⟩
      · rw [List.map_map]
        exact List.map_fst_zip (Nat.le_of_eq hlength)
      · rw [List.getElem?_map, Option.map_eq_some_iff] at hstep
        obtain ⟨⟨nodeId, endpoint⟩, -, rfl⟩ := hstep
        cases hcan
      · cases hi

/-! ## 4. The order of the steps -/

theorem nextAction_connect {step : NativeSessionTreeConnectStep}
    (h : plan.nextAction = .connect step) :
    plan.steps[plan.currentIndex]? = some step ∧ step.canConnectWithoutPreflight = true := by
  unfold nextAction at h
  split at h
  · cases h
  · next current hstep =>
      split at h
      · next hcan =>
          cases h
          exact ⟨hstep, hcan⟩
      · cases h

theorem nextAction_complete {target : NodeId}
    (h : plan.nextAction = .complete target) : plan.steps.length ≤ plan.currentIndex := by
  unfold nextAction at h
  split at h
  · next hstep => exact List.getElem?_eq_none_iff.mp hstep
  · split at h <;> cases h

theorem nextAction_of_reply {call : Call}
    {action : NativeSessionTreeConnectAction} (h : (plan.call call).1 = .action action) :
    plan.nextAction = action := by
  cases call with
  | nextAction => exact Reply.action.inj h
  | _ => cases h

theorem PlanHistory.connected (h : PlanHistory ids past plan)
    (hcareful : Careful plan.steps.length past) {i : Nat} (hi : i < plan.currentIndex) :
    ∃ event ∈ past, event.index = i ∧ event.Connects := by
  obtain ⟨event, hmem, rfl, hadvance⟩ := h.advanced i hi
  obtain ⟨first, rest, rfl⟩ := List.append_of_mem hmem
  have hlt : event.index < plan.steps.length := by
    have := h.index
    omega
  obtain ⟨c, hc, hindex, hconnects⟩ := hcareful first event rest rfl hadvance hlt
  exact ⟨c, List.mem_append_left _ hc, hindex, hconnects⟩

/-- **A call of a run**: what `Connect` and `Complete` say about the steps before and after. -/
theorem connect_plan_in_order {expansion : NodeTreeExpansion}
    {endpoints : List NativeSessionTreeConnectEndpoint} {cleanupNodeId : Option NodeId}
    {plan : NativeSessionTreeConnectPlan}
    (hplan : fromExpansion expansion endpoints cleanupNodeId = .ok plan) (calls : List Call)
    {before after : List Event} {event : Event}
    (htrace : trace plan calls = before ++ event :: after) :
    (∀ step, event.reply = .action (.connect step) →
      expansion.pathNodeIds[event.index]? = some step.nodeId ∧
      (∃ earlier ∈ before, earlier.index = event.index ∧ earlier.Verifies) ∧
      (∀ earlier ∈ before, earlier.Connects → earlier.index ≤ event.index) ∧
      (Careful plan.steps.length before →
        ∀ i < event.index, ∃ earlier ∈ before, earlier.index = i ∧ earlier.Connects)) ∧
    (∀ target, event.reply = .action (.complete target) →
      ∀ i < expansion.pathNodeIds.length,
        ∃ earlier ∈ before, earlier.index = i ∧ earlier.call = .advanceAfterConnectedStep) := by
  obtain ⟨earlier, later, rfl, hbefore, hindex, hreply⟩ := event_of_trace htrace
  have hstart := planHistory_fromExpansion hplan
  have hpast := hstart.run earlier
  rw [hbefore] at hpast
  have hlength : (plan.run earlier).steps.length = expansion.pathNodeIds.length := by
    rw [← hpast.ids, List.length_map]
  have hlengthStart : plan.steps.length = expansion.pathNodeIds.length := by
    rw [← hstart.ids, List.length_map]
  refine ⟨fun step hconnect => ?_, fun target hcomplete i hi => ?_⟩
  · obtain ⟨hstep, hcan⟩ := nextAction_connect (nextAction_of_reply (hreply.symm.trans hconnect))
    rw [hindex]
    refine ⟨?_, hpast.verified _ _ hstep hcan, fun e he _ => hpast.behind e he, ?_⟩
    · rw [← hpast.ids, List.getElem?_map, hstep, Option.map_some]
    · intro hcareful i hi
      rw [hlengthStart, ← hlength] at hcareful
      exact hpast.connected hcareful hi
  · have hend := nextAction_complete (nextAction_of_reply (hreply.symm.trans hcomplete))
    exact hpast.advanced i (by omega)

/-- A plan of one hop and its target. -/
def twoSteps : NativeSessionTreeConnectPlan :=
  ⟨⟨['t']⟩, none, [unverifiedStep ⟨['h']⟩ ⟨['a'], 22⟩, unverifiedStep ⟨['t']⟩ ⟨['b'], 22⟩], 0⟩

/-- What is returned for the two steps when each is checked, and the first advanced past. -/
def twoStepsTrace : List Event :=
  trace twoSteps [.markCurrentPreflightVerified, .nextAction, .advanceAfterConnectedStep,
    .acceptCurrentHostKey true ['k']]

/-- The second step is connected after its check, and after the first. -/
theorem connect_plan_in_order_two :
    ∃ event : Event, trace twoSteps [.markCurrentPreflightVerified, .nextAction,
        .advanceAfterConnectedStep, .acceptCurrentHostKey true ['k'], .nextAction] =
          twoStepsTrace ++ [event] ∧ event.index = 1 ∧ event.Connects ∧
      (∃ earlier ∈ twoStepsTrace, earlier.index = 1 ∧ earlier.Verifies) ∧
      ∃ earlier ∈ twoStepsTrace, earlier.index = 0 ∧ earlier.Connects := by
  have hplan : fromExpansion ⟨⟨['t']⟩, [⟨['h']⟩, ⟨['t']⟩], 2⟩ [⟨['a'], 22⟩, ⟨['b'], 22⟩] none =
      .ok twoSteps := rfl
  have hcareful : Careful twoSteps.steps.length twoStepsTrace := by
    intro before event after heq hcall _
    rcases before with _ | ⟨first, _ | ⟨second, _ | ⟨third, _ | ⟨fourth, before⟩⟩⟩⟩
    · cases heq
      cases hcall
    · cases heq
      cases hcall
    · cases heq
      exact ⟨_, List.mem_cons_of_mem _ List.mem_cons_self, rfl, _, rfl⟩
    · cases heq
      cases hcall
    · have := congrArg List.length heq
      simp [twoStepsTrace, trace] at this
  have htrace : trace twoSteps [.markCurrentPreflightVerified, .nextAction,
      .advanceAfterConnectedStep, .acceptCurrentHostKey true ['k'], .nextAction] =
        twoStepsTrace ++ [⟨1, .nextAction, .action (.connect ⟨⟨['t']⟩, ['b'], 22, some true,
          some ['k'], false⟩)⟩] := rfl
  obtain ⟨-, hverified, -, hconnected⟩ := (connect_plan_in_order hplan _ htrace).1 _ rfl
  exact ⟨_, htrace, rfl, ⟨_, rfl⟩, hverified, hconnected hcareful 0 Nat.one_pos⟩

/-- An advance before the first step was connected: the second step is connected, and the first
    never was. -/
theorem advanced_unconnected :
    fromExpansion ⟨⟨['t']⟩, [⟨['h']⟩, ⟨['t']⟩], 2⟩ [⟨['a'], 22⟩, ⟨['b'], 22⟩] none = .ok twoSteps ∧
      ∃ before event, trace twoSteps
          [.advanceAfterConnectedStep, .markCurrentPreflightVerified, .nextAction] =
            before ++ [event] ∧
        event.index = 1 ∧ event.Connects ∧ ∀ earlier ∈ before, ¬earlier.Connects := by
  refine ⟨rfl, [⟨0, .advanceAfterConnectedStep, .done⟩,
    ⟨1, .markCurrentPreflightVerified, .result (.ok ())⟩], _, rfl, rfl, ⟨_, rfl⟩, ?_⟩
  rintro earlier hearlier ⟨step, hreply⟩
  rw [List.mem_pair] at hearlier
  rcases hearlier with rfl | rfl <;> cases hreply

end NativeSessionTreeConnectPlan

end Hapcli.Ssh
