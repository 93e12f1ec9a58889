/-
  Subject:   The jobs that reconnect nodes (`reconnect.rs`).

  A call reads the clock several times (`clock 0`, `clock 1`, ...). The delay of a retry comes from
  a random jitter and is an argument, with its debug text. Of a snapshot only the fields that
  `schedule` sets are kept.

  * **`reconnect_life_cycle`** -- the jobs of a run that leaves ended jobs alone.
-/
import Hapcli.Rust.Maps
import Hapcli.Rust.Text

namespace Hapcli.Ssh

open Hapcli.Rust

/-! ## 1. Jobs -/

inductive ReconnectPhase where
  | queued
  | snapshot
  | gracePeriod
  | sshConnect
  | awaitTerminal
  | restoreForwards
  | resumeTransfers
  | restoreIde
  | verify
  | done
  | failed
  | cancelled
  deriving DecidableEq

def isTerminalPhase : ReconnectPhase → Bool
  | .done | .failed | .cancelled => true
  | _ => false

inductive PhaseResult where
  | running
  | ok
  | failed
  | skipped
  deriving DecidableEq

structure PhaseEvent where
  phase : ReconnectPhase
  startedAt : Nat
  endedAt : Option Nat
  result : PhaseResult
  detail : Option Str
  deriving DecidableEq

structure ReconnectSnapshot where
  nodeId : Str := []
  snapshotAt : Option Nat := none
  deriving DecidableEq

structure ReconnectJob where
  jobId : Str
  nodeId : Str
  nodeName : Str
  status : ReconnectPhase
  attempt : Nat
  maxAttempts : Nat
  startedAt : Nat
  endedAt : Option Nat
  error : Option Str
  snapshot : ReconnectSnapshot
  restoredCount : Nat
  phaseHistory : List PhaseEvent
  deriving DecidableEq

structure ReconnectRetry where
  attempt : Nat
  maxAttempts : Nat
  delay : Nat
  deriving DecidableEq

/-- `push_phase`, which keeps the last 64 events. -/
def ReconnectJob.pushPhase (job : ReconnectJob) (phase : ReconnectPhase) (result : PhaseResult)
    (detail : Option Str) (clock : Nat → Nat) : ReconnectJob :=
  let history := job.phaseHistory ++
    [⟨phase, clock 0, if result ≠ .running then some (clock 1) else none, result, detail⟩]
  { job with phaseHistory := if history.length > 64 then history.tail else history }

/-- `ReconnectOrchestratorStore`; its timing enters only the delay of a retry. -/
structure ReconnectOrchestratorStore where
  jobs : Map Str ReconnectJob
  maxAttempts : Nat

namespace ReconnectOrchestratorStore

variable (store : ReconnectOrchestratorStore)

def new (maxAttempts : Nat) : ReconnectOrchestratorStore := ⟨∅, max maxAttempts 1⟩

def configure (maxAttempts : Nat) : ReconnectOrchestratorStore :=
  { store with maxAttempts := max maxAttempts 1 }

variable (nodeId : Str)

/-- `self.jobs.get_mut(node_id)?`, a change, and the changed job. -/
def editJob (edit : ReconnectJob → ReconnectJob) :
    Option ReconnectJob × ReconnectOrchestratorStore :=
  match store.jobs.lookup nodeId with
  | none => (none, store)
  | some job => (some (edit job), { store with jobs := store.jobs.insert nodeId (edit job) })

/-- The job that `schedule` makes. -/
def newJob (nodeId nodeName : Str) (snapshot : ReconnectSnapshot) (jobId : Str)
    (clock : Nat → Nat) : ReconnectJob :=
  ReconnectJob.pushPhase
    { jobId := jobId
      nodeId := nodeId
      nodeName := nodeName
      status := .queued
      attempt := 0
      maxAttempts := store.maxAttempts
      startedAt := clock 1
      endedAt := none
      error := none
      snapshot := { snapshot with nodeId := nodeId, snapshotAt := some (clock 0) }
      restoredCount := 0
      phaseHistory := [] }
    .queued .running none fun reading => clock (reading + 2)

def schedule (nodeId nodeName : Str) (snapshot : ReconnectSnapshot) (jobId : Str)
    (clock : Nat → Nat) : ReconnectJob × ReconnectOrchestratorStore :=
  let job := store.newJob nodeId nodeName snapshot jobId clock
  match store.jobs.lookup nodeId with
  | none => (job, { store with jobs := store.jobs.insert nodeId job })
  | some existing =>
    if existing.endedAt = none then (existing, store)
    else (job, { store with jobs := (store.jobs.erase nodeId).insert nodeId job })

def advance (phase : ReconnectPhase) (clock : Nat → Nat) :
    Option ReconnectJob × ReconnectOrchestratorStore :=
  store.editJob nodeId fun job =>
    { job with status := phase }.pushPhase phase .running none clock

def completePhase (result : PhaseResult) (detail : Option Str)
    (clock : Nat → Nat) : Option ReconnectJob × ReconnectOrchestratorStore :=
  store.editJob nodeId fun job =>
    { job with
      phaseHistory := match job.phaseHistory.getLast? with
        | none => job.phaseHistory
        | some event => job.phaseHistory.dropLast ++
            [{ event with endedAt := some (clock 0), result := result, detail := detail }] }

def finish (result : Except Str Nat) (clock : Nat → Nat) :
    Option ReconnectJob × ReconnectOrchestratorStore :=
  store.editJob nodeId fun job =>
    match result with
    | .ok restoredCount =>
      { job with
        endedAt := some (clock 0)
        status := .done
        restoredCount := restoredCount }.pushPhase .done .ok none fun reading =>
          clock (reading + 1)
    | .error error =>
      { job with
        endedAt := some (clock 0)
        status := .failed
        error := some error }.pushPhase .failed .failed (some error) fun reading =>
          clock (reading + 1)

def cancel (clock : Nat → Nat) : Option ReconnectJob × ReconnectOrchestratorStore :=
  store.editJob nodeId fun job =>
    { job with status := .cancelled, endedAt := some (clock 0) }.pushPhase .cancelled .ok none
      fun reading => clock (reading + 1)

def updateSnapshot (update : ReconnectSnapshot → ReconnectSnapshot) :
    Option ReconnectJob × ReconnectOrchestratorStore :=
  store.editJob nodeId fun job => { job with snapshot := update job.snapshot }

def beginSshAttempt : Option ReconnectJob × ReconnectOrchestratorStore :=
  match store.jobs.lookup nodeId with
  | none => (none, store)
  | some job =>
    if job.endedAt ≠ none then (none, store)
    else
      let begun := { job with attempt := min (job.attempt + 1) job.maxAttempts }
      (some begun, { store with jobs := store.jobs.insert nodeId begun })

def scheduleRetry (delay : Nat) (delayText : Str) (clock : Nat → Nat) :
    Option ReconnectRetry × ReconnectOrchestratorStore :=
  match store.jobs.lookup nodeId with
  | none => (none, store)
  | some job =>
    if job.endedAt ≠ none ∨ job.attempt ≥ job.maxAttempts then (none, store)
    else
      let detail := "retry ".toList ++ numToString (job.attempt + 1) ++ "/".toList ++
        numToString job.maxAttempts ++ " in ".toList ++ delayText
      (some ⟨job.attempt + 1, job.maxAttempts, delay⟩,
        { store with
          jobs := store.jobs.insert nodeId
            ({ job with status := .queued }.pushPhase .queued .running (some detail) clock) })

/-! ## 2. Runs -/

/-- The calls on the store. -/
inductive Call where
  | configure (maxAttempts : Nat)
  | schedule (nodeId nodeName : Str) (snapshot : ReconnectSnapshot) (jobId : Str)
      (clock : Nat → Nat)
  | advance (nodeId : Str) (phase : ReconnectPhase) (clock : Nat → Nat)
  | completePhase (nodeId : Str) (result : PhaseResult) (detail : Option Str) (clock : Nat → Nat)
  | finish (nodeId : Str) (result : Except Str Nat) (clock : Nat → Nat)
  | cancel (nodeId : Str) (clock : Nat → Nat)
  | updateSnapshot (nodeId : Str) (update : ReconnectSnapshot → ReconnectSnapshot)
  | beginSshAttempt (nodeId : Str)
  | scheduleRetry (nodeId : Str) (delay : Nat) (delayText : Str) (clock : Nat → Nat)

/-- The store after a call. -/
def call : ReconnectOrchestratorStore → Call → ReconnectOrchestratorStore
  | store, .configure maxAttempts => store.configure maxAttempts
  | store, .schedule nodeId nodeName snapshot jobId clock =>
    (store.schedule nodeId nodeName snapshot jobId clock).2
  | store, .advance nodeId phase clock => (store.advance nodeId phase clock).2
  | store, .completePhase nodeId result detail clock =>
    (store.completePhase nodeId result detail clock).2
  | store, .finish nodeId result clock => (store.finish nodeId result clock).2
  | store, .cancel nodeId clock => (store.cancel nodeId clock).2
  | store, .updateSnapshot nodeId update => (store.updateSnapshot nodeId update).2
  | store, .beginSshAttempt nodeId => (store.beginSshAttempt nodeId).2
  | store, .scheduleRetry nodeId delay delayText clock =>
    (store.scheduleRetry nodeId delay delayText clock).2

variable (store : ReconnectOrchestratorStore)

/-- A run. -/
def run (calls : List Call) : ReconnectOrchestratorStore :=
  calls.foldl call store

/-! ## 3. Life cycles -/

@[simp] theorem pushPhase_status (job : ReconnectJob) (phase : ReconnectPhase)
    (result : PhaseResult) (detail : Option Str) (clock : Nat → Nat) :
    (job.pushPhase phase result detail clock).status = job.status := rfl

@[simp] theorem pushPhase_endedAt (job : ReconnectJob) (phase : ReconnectPhase)
    (result : PhaseResult) (detail : Option Str) (clock : Nat → Nat) :
    (job.pushPhase phase result detail clock).endedAt = job.endedAt := rfl

/-- `ended_at` is set exactly when the status is terminal. -/
def Lived (job : ReconnectJob) : Prop := job.endedAt.isSome = isTerminalPhase job.status

/-- The attempts are at most those allowed. -/
def Bounded (job : ReconnectJob) : Prop := job.attempt ≤ job.maxAttempts

/-- Every job of the store is of this kind. -/
def Each (P : ReconnectJob → Prop) (store : ReconnectOrchestratorStore) : Prop :=
  ∀ nodeId job, store.jobs.lookup nodeId = some job → P job

variable {jobs : Map Str ReconnectJob} {job : ReconnectJob} {edit : ReconnectJob → ReconnectJob}

section Each

variable {store : ReconnectOrchestratorStore} {P : ReconnectJob → Prop} {nodeId : Str}

theorem Each.insert (h : store.Each P)
    (hjobs : ∀ other, other ≠ nodeId → jobs.lookup other = store.jobs.lookup other) (hnew : P job) :
    Each P { store with jobs := jobs.insert nodeId job } := by
  intro other found hfound
  by_cases hother : other = nodeId
  · subst hother
    rw [AList.lookup_insert] at hfound
    cases hfound
    exact hnew
  · rw [AList.lookup_insert_ne hother, hjobs other hother] at hfound
    exact h other found hfound

theorem Each.editJob (h : store.Each P)
    (hedit : ∀ job, store.jobs.lookup nodeId = some job → P job → P (edit job)) :
    Each P (store.editJob nodeId edit).2 := by
  unfold ReconnectOrchestratorStore.editJob
  cases hlookup : store.jobs.lookup nodeId with
  | none => exact h
  | some job => exact h.insert (fun _ _ => rfl) (hedit job hlookup (h nodeId job hlookup))

theorem Each.schedule (h : store.Each P) (nodeName : Str) (snapshot : ReconnectSnapshot)
    (jobId : Str) (clock : Nat → Nat)
    (hnew : P (store.newJob nodeId nodeName snapshot jobId clock)) :
    Each P (store.schedule nodeId nodeName snapshot jobId clock).2 := by
  unfold ReconnectOrchestratorStore.schedule
  cases hlookup : store.jobs.lookup nodeId with
  | none => exact h.insert (fun _ _ => rfl) hnew
  | some existing =>
    dsimp only
    split
    · exact h
    · exact h.insert (fun other hother => AList.lookup_erase_ne hother) hnew

theorem Each.bounded (h : store.Each Bounded) (call : Call) : (store.call call).Each Bounded := by
  cases call with
  | configure maxAttempts => exact h
  | schedule nodeId nodeName snapshot jobId clock =>
    exact h.schedule nodeName snapshot jobId clock (Nat.zero_le _)
  | advance nodeId phase clock => exact h.editJob fun job _ hjob => hjob
  | completePhase nodeId result detail clock => exact h.editJob fun job _ hjob => hjob
  | finish nodeId result clock =>
    refine h.editJob fun job _ hjob => ?_
    cases result <;> exact hjob
  | cancel nodeId clock => exact h.editJob fun job _ hjob => hjob
  | updateSnapshot nodeId update => exact h.editJob fun job _ hjob => hjob
  | beginSshAttempt nodeId =>
    simp only [ReconnectOrchestratorStore.call, beginSshAttempt]
    split
    · exact h
    · split
      · exact h
      · exact h.insert (fun _ _ => rfl) (Nat.min_le_right _ _)
  | scheduleRetry nodeId delay delayText clock =>
    simp only [ReconnectOrchestratorStore.call, scheduleRetry]
    split
    · exact h
    · next job hlookup =>
        split
        · exact h
        · exact h.insert (fun _ _ => rfl) (h nodeId job hlookup)

end Each

/-- A call that leaves ended jobs alone, and does not advance one to its end. -/
def Respects : Call → Prop
  | .advance nodeId phase _ =>
    ∀ job, store.jobs.lookup nodeId = some job →
      job.endedAt = none ∧ isTerminalPhase phase = false
  | .finish nodeId _ _ | .cancel nodeId _ =>
    ∀ job, store.jobs.lookup nodeId = some job → job.endedAt = none
  | _ => True

/-- A call that leaves ended jobs alone keeps `ended_at` and status together. -/
theorem Each.lived {store : ReconnectOrchestratorStore} (h : store.Each Lived) {call : Call}
    (hcall : store.Respects call) : (store.call call).Each Lived := by
  cases call with
  | configure maxAttempts => exact h
  | schedule nodeId nodeName snapshot jobId clock =>
    exact h.schedule nodeName snapshot jobId clock rfl
  | advance nodeId phase clock =>
    refine h.editJob fun job hlookup _ => ?_
    obtain ⟨hactive, hphase⟩ := hcall job hlookup
    rw [Lived, pushPhase_endedAt, pushPhase_status, hactive, hphase]
    rfl
  | completePhase nodeId result detail clock => exact h.editJob fun job _ hjob => hjob
  | finish nodeId result clock =>
    refine h.editJob fun job _ hjob => ?_
    cases result <;> rfl
  | cancel nodeId clock => exact h.editJob fun job _ hjob => rfl
  | updateSnapshot nodeId update => exact h.editJob fun job _ hjob => hjob
  | beginSshAttempt nodeId =>
    simp only [ReconnectOrchestratorStore.call, beginSshAttempt]
    split
    · exact h
    · next job hlookup =>
        split
        · exact h
        · exact h.insert (fun _ _ => rfl) (h nodeId job hlookup)
  | scheduleRetry nodeId delay delayText clock =>
    simp only [ReconnectOrchestratorStore.call, scheduleRetry]
    split
    · exact h
    · next job hlookup =>
        split
        · exact h
        · next hactive =>
            rw [not_or, not_not] at hactive
            refine h.insert (fun _ _ => rfl) ?_
            rw [Lived, pushPhase_endedAt, pushPhase_status, hactive.1]
            rfl

/-- The call may replace the job of the node. -/
def Call.Schedules (call : Call) (nodeId : Str) : Prop :=
  ∃ nodeName snapshot jobId clock, call = .schedule nodeId nodeName snapshot jobId clock

/-- The job of the node is there, with this status and end. -/
def Stands (nodeId : Str) (status : ReconnectPhase) (endedAt : Option Nat) : Prop :=
  ∃ job, store.jobs.lookup nodeId = some job ∧ job.status = status ∧ job.endedAt = endedAt

variable {nodeId : Str} {status : ReconnectPhase}

variable {other : Str} {endedAt : Option Nat}

theorem Stands.insert {store : ReconnectOrchestratorStore} (h : store.Stands nodeId status endedAt)
    (hjobs : nodeId ≠ other → jobs.lookup nodeId = store.jobs.lookup nodeId)
    (hsame : nodeId = other → job.status = status ∧ job.endedAt = endedAt) :
    Stands { store with jobs := jobs.insert other job } nodeId status endedAt := by
  by_cases hother : nodeId = other
  · obtain ⟨hstatus, hended⟩ := hsame hother
    subst hother
    exact ⟨job, AList.lookup_insert _, hstatus, hended⟩
  · obtain ⟨found, hfound, hrest⟩ := h
    refine ⟨found, ?_, hrest⟩
    rw [AList.lookup_insert_ne hother, hjobs hother, hfound]

theorem Stands.editJob {store : ReconnectOrchestratorStore} (h : store.Stands nodeId status endedAt)
    (hsame : nodeId = other → ∀ job, store.jobs.lookup nodeId = some job → job.status = status →
      job.endedAt = endedAt → (edit job).status = status ∧ (edit job).endedAt = endedAt) :
    (store.editJob other edit).2.Stands nodeId status endedAt := by
  unfold ReconnectOrchestratorStore.editJob
  cases hlookup : store.jobs.lookup other with
  | none => exact h
  | some job =>
    refine h.insert (fun _ => rfl) fun hother => ?_
    obtain ⟨found, hfound, hstatus, hended⟩ := h
    have hjob : found = job := by
      rw [hother, hlookup] at hfound
      exact (Option.some.inj hfound).symm
    rw [← hjob]
    exact hsame hother found hfound hstatus hended

theorem Stands.call {store : ReconnectOrchestratorStore} {time : Nat}
    (h : store.Stands nodeId status (some time)) {call : Call} (hcall : store.Respects call)
    (hschedule : ¬call.Schedules nodeId) : (store.call call).Stands nodeId status (some time) := by
  -- the job that stands has ended: no guarded call goes on
  have hended : ∀ other job, store.jobs.lookup other = some job → job.endedAt = none →
      nodeId ≠ other := by
    rintro other job hlookup hnone rfl
    obtain ⟨found, hfound, -, hend⟩ := h
    rw [hlookup] at hfound
    cases hfound
    rw [hnone] at hend
    cases hend
  cases call with
  | configure maxAttempts => exact h
  | schedule other nodeName snapshot jobId clock =>
    have hother : nodeId ≠ other := by
      rintro rfl
      exact hschedule ⟨nodeName, snapshot, jobId, clock, rfl⟩
    simp only [ReconnectOrchestratorStore.call, schedule]
    split
    · exact h.insert (fun _ => rfl) fun heq => absurd heq hother
    · split
      · exact h
      · exact h.insert (fun hne => AList.lookup_erase_ne hne) fun heq => absurd heq hother
  | advance other phase clock =>
    refine h.editJob ?_
    rintro rfl job hlookup _ _
    exact absurd rfl (hended nodeId job hlookup (hcall job hlookup).1)
  | completePhase other result detail clock =>
    exact h.editJob fun _ job _ hstatus hend => ⟨hstatus, hend⟩
  | finish other result clock =>
    refine h.editJob ?_
    rintro rfl job hlookup _ _
    exact absurd rfl (hended nodeId job hlookup (hcall job hlookup))
  | cancel other clock =>
    refine h.editJob ?_
    rintro rfl job hlookup _ _
    exact absurd rfl (hended nodeId job hlookup (hcall job hlookup))
  | updateSnapshot other update =>
    exact h.editJob fun _ job _ hstatus hend => ⟨hstatus, hend⟩
  | beginSshAttempt other =>
    simp only [ReconnectOrchestratorStore.call, beginSshAttempt]
    split
    · exact h
    · next job hlookup =>
        split
        · exact h
        · next hactive =>
            rw [not_not] at hactive
            exact h.insert (fun _ => rfl) fun heq =>
              absurd heq (hended other job hlookup hactive)
  | scheduleRetry other delay delayText clock =>
    simp only [ReconnectOrchestratorStore.call, scheduleRetry]
    split
    · exact h
    · next job hlookup =>
        split
        · exact h
        · next hactive =>
            rw [not_or, not_not] at hactive
            exact h.insert (fun _ => rfl) fun heq =>
              absurd heq (hended other job hlookup hactive.1)

/-! ## 4. Whole runs -/

/-- A run whose calls leave ended jobs alone. -/
def RespectfulRun : ReconnectOrchestratorStore → List Call → Prop
  | _, [] => True
  | store, call :: calls => store.Respects call ∧ RespectfulRun (store.call call) calls

variable {calls : List Call}

theorem respectfulRun_append {store : ReconnectOrchestratorStore} {more : List Call} :
    RespectfulRun store (calls ++ more) ↔
      RespectfulRun store calls ∧ RespectfulRun (store.run calls) more := by
  induction calls generalizing store with
  | nil => simp [RespectfulRun, run]
  | cons call calls ih =>
    rw [List.cons_append, RespectfulRun, RespectfulRun, ih, and_assoc]
    rfl

theorem attempts_bounded (maxAttempts : Nat) (calls : List Call) :
    ((new maxAttempts).run calls).Each Bounded := by
  have hstep : ∀ (calls : List Call) (store : ReconnectOrchestratorStore), store.Each Bounded →
      (store.run calls).Each Bounded := by
    intro calls
    induction calls with
    | nil => exact fun store h => h
    | cons call calls ih => exact fun store h => ih (store.call call) (h.bounded call)
  refine hstep calls _ fun nodeId job hjob => ?_
  cases hjob

theorem Each.lived_run {store : ReconnectOrchestratorStore} (h : store.Each Lived)
    (hcalls : RespectfulRun store calls) : (store.run calls).Each Lived := by
  induction calls generalizing store with
  | nil => exact h
  | cons call calls ih => exact ih (h.lived hcalls.1) hcalls.2

theorem Stands.run {store : ReconnectOrchestratorStore} {time : Nat}
    (h : store.Stands nodeId status (some time)) (hcalls : RespectfulRun store calls)
    (hschedule : ∀ call ∈ calls, ¬call.Schedules nodeId) :
    (store.run calls).Stands nodeId status (some time) := by
  induction calls generalizing store with
  | nil => exact h
  | cons call calls ih =>
    rw [List.forall_mem_cons] at hschedule
    exact ih (h.call hcalls.1 hschedule.1) hcalls.2 hschedule.2

/-- **A run that leaves ended jobs alone**: `ended_at` and status agree, attempts are bounded, and
    what had ended stays as it was. -/
theorem reconnect_life_cycle {maxAttempts : Nat} {calls later : List Call}
    (h : RespectfulRun (new maxAttempts) (calls ++ later)) :
    ((new maxAttempts).run (calls ++ later)).Each
        (fun job => (job.endedAt.isSome ↔ isTerminalPhase job.status) ∧
          job.attempt ≤ job.maxAttempts) ∧
      ∀ nodeId job, ((new maxAttempts).run calls).jobs.lookup nodeId = some job →
        job.endedAt.isSome → (∀ call ∈ later, ¬call.Schedules nodeId) →
          ∃ job', ((new maxAttempts).run (calls ++ later)).jobs.lookup nodeId = some job' ∧
            job'.status = job.status ∧ job'.endedAt = job.endedAt := by
  have hempty : (new maxAttempts).Each Lived := by
    intro nodeId job hjob
    cases hjob
  refine ⟨fun nodeId job hjob => ⟨?_, attempts_bounded maxAttempts _ nodeId job hjob⟩, ?_⟩
  · rw [hempty.lived_run h nodeId job hjob]
  · intro nodeId job hjob hend hschedule
    obtain ⟨time, htime⟩ := Option.isSome_iff_exists.mp hend
    have hstands : ((new maxAttempts).run calls).Stands nodeId job.status (some time) :=
      ⟨job, hjob, rfl, htime⟩
    have hrun : (new maxAttempts).run (calls ++ later) = ((new maxAttempts).run calls).run later :=
      List.foldl_append
    rw [hrun, htime]
    exact hstands.run ((respectfulRun_append).mp h).2 hschedule

/-- A job is cancelled; a phase that completes and a retry come too late. -/
theorem reconnect_life_cycle_cancelled :
    ∃ job', ((new 5).run ([.schedule ['a'] [] {} ['j'] id, .beginSshAttempt ['a'], .cancel ['a'] id] ++
        [.completePhase ['a'] .ok none id, .scheduleRetry ['a'] 1 [] id])).jobs.lookup ['a'] =
          some job' ∧ job'.status = .cancelled ∧ job'.endedAt = some 0 := by
  have hrun : RespectfulRun (new 5) ([.schedule ['a'] [] {} ['j'] id, .beginSshAttempt ['a'],
      .cancel ['a'] id] ++ [.completePhase ['a'] .ok none id, .scheduleRetry ['a'] 1 [] id]) := by
    refine ⟨trivial, trivial, fun job hjob => ?_, trivial, trivial, trivial⟩
    cases hjob
    rfl
  refine (reconnect_life_cycle hrun).2 ['a'] _ rfl rfl ?_
  rintro call hcall ⟨nodeName, snapshot, jobId, clock, rfl⟩
  simp at hcall

/-- A phase advances after the job was cancelled: the job has ended, and its status is not
    terminal. -/
theorem revived_after_cancel :
    ∃ job, ((new 5).run [.schedule ['a'] [] {} ['j'] id, .cancel ['a'] id,
        .advance ['a'] .sshConnect id]).jobs.lookup ['a'] = some job ∧
      ¬(job.endedAt.isSome ↔ isTerminalPhase job.status) := by
  refine ⟨_, rfl, ?_⟩
  decide

end ReconnectOrchestratorStore

end Hapcli.Ssh
