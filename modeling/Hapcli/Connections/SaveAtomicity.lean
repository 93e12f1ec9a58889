/-
  Subject:   What a save that fails leaves behind.

  A save stores secrets under the entries of the connection that is there while it still checks the
  fields of the new one, and it changes the data before it writes the file.

  * **`upsertUnchanged_iff`** -- a save leaves everything as it was, at every point of failure, just
    where a check stops it before it has changed an entry.
-/
import Mathlib.Algebra.Order.BigOperators.Group.List
import Mathlib.Algebra.Order.Group.Nat
import Mathlib.Data.Fintype.EquivFin
import Hapcli.Connections.SecretSteps

namespace Hapcli.Connections

open Hapcli.Lib Hapcli.Rust ConnectionStore
open Lib.Action (Keeps lift)

/-- The data and the entries of the keychains are as they were. -/
structure Unchanged (s s' : ConnectionStore) : Prop where
  data : s'.data = s.data
  keychain : ∀ K value, s.keychain.lookup K = some value → s'.keychain.lookup K = some value
  privilegeKeychain : ∀ K value, s.privilegeKeychain.lookup K = some value →
    s'.privilegeKeychain.lookup K = some value
  managedKeychain : ∀ K value, s.managedKeychain.lookup K = some value →
    s'.managedKeychain.lookup K = some value

/-- The texts of a store that a UUID could meet, with the names of all entries. -/
def storeTexts (s : ConnectionStore) : List Str := knownTexts s.data ++ s.keychain.keys

/-- The steps of `upsert_with_runtime_secrets` before it touches the data. -/
def upsertSteps (request : SaveConnectionRequest) (existing : Option SavedConnection) :
    List SecretStep :=
  partSteps request.auth request.proxyChain request.upstreamProxy existing ++
    [.required request.name "Connection name", .required request.host "Host",
      .required request.username "Username"]

variable {io : Io} {s s' : ConnectionStore} {α β : Type} {steps : List SecretStep}

theorem FreshUuids.mono {known known' : List Str} (h : FreshUuids io known)
    (hsub : ∀ text ∈ known', text ∈ known) : FreshUuids io known' :=
  ⟨h.apart, fun k kind hmem => h.unseen k kind (hsub _ hmem)⟩

theorem FreshUuids.newNames (h : FreshUuids io (storeTexts s)) : NewNames io s :=
  fun k kind hmem => h.unseen k kind (List.mem_append_right _ (Map.mem_keySet.mp hmem))

/-! ## 1. Up to the data -/

theorem preparing_runSteps (io : Io) (steps : List SecretStep) : Preparing (runSteps io steps) := by
  induction steps with
  | nil => exact preparing_pure _
  | cons step steps ih =>
    refine Preparing.bind ?_ fun _ => ih
    cases step with
    | store entry kind secret =>
      exact (preparing_storeSecret io entry (preparing_newKeychainId io kind) secret).bind
        fun _ => preparing_pure _
    | storePrivilege entry secret => exact preparing_privilegeKeychainStore io entry secret
    | check result => exact preparing_lift result

theorem runSteps_managed (steps : List SecretStep) (s : ConnectionStore) :
    (runSteps io steps s).2.managedKeychain = s.managedKeychain := by
  let R (s s' : ConnectionStore) : Prop := s'.managedKeychain = s.managedKeychain
  have hrefl : ∀ s, R s s := fun _ => rfl
  have htrans : ∀ {a b c : ConnectionStore}, R a b → R b c → R a c := fun h h' => h'.trans h
  have houtside : ∀ {change : ConnectionStore → ConnectionStore},
      (∀ s, (change s).managedKeychain = s.managedKeychain) →
      Keeps R (outside io change) := by
    intro change hchange s
    show (outside io change s).2.managedKeychain = s.managedKeychain
    unfold outside
    split
    · rfl
    · exact hchange s
  have hsteps : Keeps R (runSteps io steps) := by
    induction steps with
    | nil => exact Keeps.pure hrefl ()
    | cons step steps ih =>
      refine Keeps.bind htrans ?_ fun _ => ih
      cases step with
      | store entry kind secret =>
        refine Keeps.bind htrans (Keeps.bind htrans ?_ fun K =>
          Keeps.bind htrans (houtside fun _ => rfl) fun _ =>
            Keeps.pure hrefl K) fun _ => Keeps.pure hrefl ()
        cases entry <;> exact fun _ => rfl
      | storePrivilege entry secret => exact houtside fun _ => rfl
      | check result => exact Keeps.lift hrefl result
  exact hsteps s

/-- Code that goes by some steps from `s₁` on and then by one of the tails. -/
def Begins (io : Io) (s s₁ : ConnectionStore) (act : StoreM α) (steps : List SecretStep)
    (tails : StoreM α → Prop) : Prop :=
  (∃ e e' s', runSteps io steps s₁ = (.error e, s') ∧ act s = (.error e', s')) ∨
    ∃ s' tail, runSteps io steps s₁ = (.ok (), s') ∧ tails tail ∧ act s = tail s'

variable {act : StoreM α} {f : α → StoreM β} {request : SaveConnectionRequest}
  {s₁ : ConnectionStore} {tails : StoreM β → Prop}

theorem Begins.done {tails : StoreM α → Prop} (h : tails act) : Begins io s s act [] tails :=
  .inr ⟨s, act, rfl, h, rfl⟩

theorem Begins.bind {xs ys : List SecretStep} (hact : Follows io act xs)
    (hf : ∀ a s', Begins io s' s' (f a) ys tails) : Begins io s s (act >>= f) (xs ++ ys) tails := by
  obtain ⟨hstate, hok⟩ := hact s
  unfold Begins
  rw [runSteps_append]
  rcases hrun : act s with ⟨e | a, s'⟩ <;> rcases hsteps : runSteps io xs s with ⟨e' | u, s''⟩ <;>
    rw [hrun, hsteps] at hstate hok
  · exact .inl ⟨e', e, s'', Action.bind_error hsteps, by
      rw [Action.bind_error hrun, show s' = s'' from hstate]⟩
  · cases hok
  · cases hok
  · obtain rfl : s' = s'' := hstate
    rw [Action.bind_ok hrun, Action.bind_ok hsteps]
    exact hf a s'

theorem Begins.lift_bind {r : Except StoreError α} {ys : List SecretStep}
    (hf : ∀ a s', Begins io s' s' (f a) ys tails) :
    Begins io s s (lift r >>= f) (.check (r.map fun _ => ()) :: ys) tails := by
  have hlift : Follows io (lift r) [.check (r.map fun _ => ())] := by
    intro s
    cases r <;> exact ⟨rfl, rfl⟩
  exact Begins.bind hlift hf

theorem Begins.andThen {tails : StoreM α → Prop} {tails' : StoreM β → Prop}
    (h : Begins io s s₁ act steps tails) (htails : ∀ tail, tails tail → tails' (tail >>= f)) :
    Begins io s s₁ (act >>= f) steps tails' := by
  rcases h with ⟨e, e', s', hsteps, hact⟩ | ⟨s', tail, hsteps, htail, hact⟩
  · exact .inl ⟨e, e', s', hsteps, Action.bind_error hact⟩
  · refine .inr ⟨s', tail >>= f, hsteps, htails tail htail, ?_⟩
    rcases hrun : tail s' with ⟨e | a, s''⟩
    · rw [Action.bind_error hrun, Action.bind_error (hact.trans hrun)]
    · rw [Action.bind_ok hrun, Action.bind_ok (hact.trans hrun)]

theorem Begins.after {s₂ : ConnectionStore} {a : α} (hact : act s = (.ok a, s₁))
    (h : Begins io s₁ s₂ (f a) steps tails) : Begins io s s₂ (act >>= f) steps tails := by
  unfold Begins
  rw [Action.bind_ok hact]
  exact h

/-- Code that fails where every call is refused, with a connection of the time `now` in the data. -/
def FailsChanged (io : Io) (now : Time) (tail : StoreM α) : Prop :=
  ∀ s, (∀ k, s.calls ≤ k → io.refuses k = true) → ∃ e s', tail s = (.error e, s') ∧
    ∃ conn ∈ s'.data.connections, conn.updatedAt = some now

theorem FailsChanged.bind {now : Time} {tail : StoreM α} (h : FailsChanged io now tail) :
    FailsChanged io now (tail >>= f) := by
  intro s hrefuses
  obtain ⟨e, s', hrun, hconn⟩ := h s hrefuses
  exact ⟨e, s', Action.bind_error hrun, hconn⟩

theorem failsChanged_putAndSave {connection : SavedConnection} {now : Time}
    (hnow : connection.updatedAt = some now) : FailsChanged io now (putAndSave io connection) := by
  intro s hrefuses
  have htidies := putAndSave_tidies io connection s
  rcases hrun : putAndSave io connection s with ⟨e | u, s'⟩
  · refine ⟨e, s', rfl, ?_⟩
    rw [hrun] at htidies
    have hput : connection ∈ putConnection s.data.connections connection := by
      unfold putConnection
      split
      · next index hindex =>
          obtain ⟨hlt, -⟩ := List.findIdx?_eq_some_iff_getElem.mp hindex
          exact List.mem_set hlt connection
      · exact List.mem_append_right _ (List.mem_singleton_self _)
    have hmem := htidies.data.connections.mem_iff.mpr (List.mem_map_of_mem hput)
    obtain ⟨conn, hconn, heq⟩ := List.mem_map.mp hmem
    have hupdated := congrArg SavedConnection.updatedAt heq
    exact ⟨conn, hconn, hupdated.trans hnow⟩
  · obtain ⟨u₁, s₁, hput, hrest⟩ := bind_ok_iff.mp hrun
    obtain ⟨u₂, s₂, hgroup, hrest⟩ := bind_ok_iff.mp hrest
    obtain ⟨u₃, s₃, hnormalize, hsave⟩ := bind_ok_iff.mp hrest
    have hgroupCalls := (tidying_ensureOptionalGroup io connection.group s₁).calls
    have hnormalizeCalls := (tidying_normalize io s₂).calls
    rw [hgroup] at hgroupCalls
    rw [hnormalize] at hnormalizeCalls
    cases hput
    unfold save outside at hsave
    rw [hrefuses _ (hgroupCalls.trans hnormalizeCalls)] at hsave
    cases hsave

/-- The calls before the steps of a save: the clock, and a UUID where the request has no id. -/
def upsertStart (request : SaveConnectionRequest) (s : ConnectionStore) : ConnectionStore :=
  { s with calls := s.calls + match request.id with
    | some _ => 1
    | none => 2 }

theorem upsert_begins {group : Option Str}
    (hgroup : normalizeOptionalGroupName request.group = .ok group)
    (hfresh : FreshUuids io (knownTexts s.data)) :
    Begins io s (upsertStart request s) (upsert io request)
      (upsertSteps request (existingFor s.data request.id))
      (FailsChanged io (io.now s.calls)) := by
  refine Begins.andThen ?_ fun (_ : StoreM _) (h : FailsChanged io (io.now s.calls) _) => h.bind
  have hlift : (lift (normalizeOptionalGroupName request.group) : StoreM _) s =
      (.ok group, s) := by rw [hgroup]; rfl
  obtain ⟨id, hstart, hid⟩ : ∃ id, orNewUuid io request.id { s with calls := s.calls + 1 } =
      (.ok id, upsertStart request s) ∧
      (request.id = some id ∨ request.id = none ∧ ∃ k, id = io.uuid k) := by
    unfold upsertStart
    cases hrequest : request.id with
    | some id => exact ⟨id, rfl, .inl rfl⟩
    | none => exact ⟨_, rfl, .inr ⟨rfl, s.calls + 1, rfl⟩⟩
  refine Begins.after hlift (Begins.after rfl (Begins.after hstart (Begins.after rfl ?_)))
  have hexisting : (upsertStart request s).get id = existingFor s.data request.id :=
    get_existingFor io (s := upsertStart request s) hfresh hid
  dsimp only
  rw [hexisting]
  have hsteps : upsertSteps request (existingFor s.data request.id) =
      authSteps request.auth ((existingFor s.data request.id).map (·.auth)) ++
        (request.proxyChain.flatMap hopSteps ++
          (upstreamSteps request.upstreamProxy
            ((existingFor s.data request.id).map (·.upstreamProxy)) ++
            [.required request.name "Connection name", .required request.host "Host",
              .required request.username "Username"])) := by
    simp only [upsertSteps, partSteps, List.append_assoc]
  rw [hsteps]
  refine Begins.bind (follows_materializeAuth _ _) fun _ _ => ?_
  refine Begins.bind (follows_materializeProxyChain _) fun _ _ => ?_
  refine Begins.bind (follows_materializeUpstreamProxyPolicy _ _) fun _ _ => ?_
  refine Begins.lift_bind fun name _ => Begins.lift_bind fun host _ =>
    Begins.lift_bind fun username _ => Begins.done ?_
  exact (failsChanged_putAndSave rfl).bind

/-! ## 2. At every point of failure -/

/-- A world outside that refuses everything from a call on, with long UUIDs and one reading of the
    clock. -/
def laterRefusing (length refusesFrom : Nat) (now : Time) : Io where
  now _ := now
  uuid k := '-' :: List.replicate (length + k + 1) 'u'
  refuses k := decide (refusesFrom ≤ k)
  toLowercase text := text

theorem freshUuids_laterRefusing {known : List Str} {length : Nat}
    (h : ∀ text ∈ known, text.length ≤ length) (refusesFrom : Nat) (now : Time) :
    FreshUuids (laterRefusing length refusesFrom now) known where
  apart := by
    intro k k' kind kind' heq
    have hreverse := congrArg List.reverse heq
    simp only [laterRefusing, List.reverse_append, List.reverse_cons, List.reverse_replicate,
      List.append_assoc, List.cons_append, List.nil_append] at hreverse
    have hlengths := replicate_run_length (by decide) hreverse
    omega
  unseen k kind hmem := by
    have hle := h _ hmem
    simp only [laterRefusing, List.length_append, List.length_cons, List.length_replicate] at hle
    omega

/-- A save, at every point of failure: where it fails everything is as it was. -/
def UpsertUnchanged (s : ConnectionStore) (request : SaveConnectionRequest) : Prop :=
  ∀ io, FreshUuids io (storeTexts s) → ∀ e s', upsert io request s = (.error e, s') → Unchanged s s'

/-- A check stops the save, and no entry has been changed before. -/
def StoppedInTime (s : ConnectionStore) (request : SaveConnectionRequest) : Prop :=
  (∃ e, normalizeOptionalGroupName request.group = .error e) ∨
    (∃ step ∈ upsertSteps request (existingFor s.data request.id), step.Fails) ∧
      Recoverable (Changes s [] []) (upsertSteps request (existingFor s.data request.id))

theorem runSteps_not_ok (hfails : ∃ step ∈ steps, step.Fails) {u : Unit} :
    runSteps io steps s ≠ (.ok u, s') := by
  intro hrun
  induction steps generalizing s with
  | nil =>
    obtain ⟨step, hstep, -⟩ := hfails
    exact absurd hstep List.not_mem_nil
  | cons step steps ih =>
    obtain ⟨u', s₁, hstep, hrest⟩ := bind_ok_iff.mp hrun
    obtain ⟨later, hlater, hfail⟩ := hfails
    rcases List.mem_cons.mp hlater with rfl | hlater
    · cases later with
      | store entry kind secret => exact hfail
      | storePrivilege entry secret => exact hfail
      | check result =>
        cases result with
        | error e => cases hstep
        | ok u => exact hfail
    · exact ih ⟨later, hlater, hfail⟩ hrest

theorem unchanged_runSteps (hnames : NewNames io s) (hsteps : Recoverable (Changes s [] []) steps)
    (hdata : s₁.data = s.data) (hkept : KeptBut [] [] s s₁)
    (hmanaged : s₁.managedKeychain = s.managedKeychain) {e : StoreError}
    (h : runSteps io steps s₁ = (.error e, s')) : Unchanged s s' := by
  have hkept' := runSteps_recoverable hnames hsteps hkept h
  have hdata' := (preparing_runSteps io steps s₁).data
  have hmanaged' : (runSteps io steps s₁).2.managedKeychain = s₁.managedKeychain :=
    runSteps_managed steps s₁
  rw [h] at hdata' hmanaged'
  refine ⟨hdata'.trans hdata, fun K => hkept'.keychain K List.not_mem_nil,
    fun K => hkept'.privilegeKeychain K List.not_mem_nil, fun K value hvalue => ?_⟩
  show s'.managedKeychain.lookup K = some value
  rw [show s'.managedKeychain = s.managedKeychain from hmanaged'.trans hmanaged]
  exact hvalue

theorem upsertUnchanged_of_stopped (h : StoppedInTime s request) : UpsertUnchanged s request := by
  intro io hfresh e s' hrun
  cases hgroup : normalizeOptionalGroupName request.group with
  | error e' =>
    have hlift : (lift (normalizeOptionalGroupName request.group) : StoreM _) s =
        (.error e', s) := by rw [hgroup]; rfl
    have herror : upsert io request s = (.error e', s) :=
      Action.bind_error (Action.bind_error hlift)
    obtain rfl : s = s' := congrArg Prod.snd (herror.symm.trans hrun)
    exact ⟨rfl, fun _ _ h => h, fun _ _ h => h, fun _ _ h => h⟩
  | ok group =>
    rcases h with ⟨e', herror⟩ | ⟨hfails, hsteps⟩
    · rw [hgroup] at herror
      cases herror
    · have hknown : FreshUuids io (knownTexts s.data) :=
        hfresh.mono fun text htext => List.mem_append_left _ htext
      rcases upsert_begins hgroup hknown with ⟨e₁, e₂, s₁, hrunSteps, hact⟩ | ⟨s₁, tail, hrunSteps, -⟩
      · obtain rfl : s₁ = s' := congrArg Prod.snd (hact.symm.trans hrun)
        have hdata : (upsertStart request s).data = s.data := rfl
        have hstart : KeptBut [] [] s (upsertStart request s) := (KeptBut.refl [] [] s).same rfl rfl
        exact unchanged_runSteps hfresh.newNames hsteps hdata hstart rfl hrunSteps
      · exact absurd hrunSteps (runSteps_not_ok hfails)

theorem exists_length_time (s : ConnectionStore) : ∃ (length : Nat) (now : Time),
    (∀ text ∈ storeTexts s, text.length ≤ length) ∧
      ∀ conn ∈ s.data.connections, conn.updatedAt ≠ some now := by
  obtain ⟨now, hnow⟩ := Infinite.exists_notMem_finset
    (s.data.connections.filterMap (·.updatedAt)).toFinset
  refine ⟨((storeTexts s).map List.length).sum, now, fun text htext => ?_, fun conn hconn hsome => ?_⟩
  · exact List.le_sum_of_mem (List.mem_map_of_mem htext)
  · exact hnow (List.mem_toFinset.mpr (List.mem_filterMap.mpr ⟨conn, hconn, hsome⟩))

theorem stopped_of_upsertUnchanged (h : UpsertUnchanged s request) : StoppedInTime s request := by
  cases hgroup : normalizeOptionalGroupName request.group with
  | error e => exact .inl ⟨e, hgroup⟩
  | ok group =>
    obtain ⟨length, now, hlength, hnow⟩ := exists_length_time s
    have hfresh := freshUuids_laterRefusing hlength
    have hbegins : ∀ refusesFrom, Begins (laterRefusing length refusesFrom now) s
        (upsertStart request s) (upsert (laterRefusing length refusesFrom now) request)
        (upsertSteps request (existingFor s.data request.id))
        (FailsChanged (laterRefusing length refusesFrom now) now) := fun refusesFrom =>
      upsert_begins hgroup ((hfresh refusesFrom now).mono
        fun text htext => List.mem_append_left _ htext)
    have hcalm : ∀ {refusesFrom k : Nat}, k < refusesFrom →
        (laterRefusing length refusesFrom now).refuses k = false :=
      fun hk => decide_eq_false (by omega)
    have hrefuses : ∀ {refusesFrom k : Nat}, refusesFrom ≤ k →
        (laterRefusing length refusesFrom now).refuses k = true :=
      fun hk => decide_eq_true hk
    refine .inr ⟨?_, ?_⟩
    · -- all checks pass: the file cannot be written, and the data is changed
      by_contra hnone
      push Not at hnone
      let refusesFrom := (upsertStart request s).calls +
        stepsCost (upsertSteps request (existingFor s.data request.id))
      obtain ⟨s₁, hrun, hcalls, -⟩ := runSteps_passes
        (s := upsertStart request s) hnone fun k hk => hcalm hk
      rcases hbegins refusesFrom with ⟨e, e', s', hsteps, -⟩ | ⟨s₂, tail, hsteps, htail, hact⟩
      · rw [hrun] at hsteps
        cases hsteps
      · rw [hrun] at hsteps
        cases hsteps
        obtain ⟨e, s', hfailed, conn, hconn, hupdated⟩ :=
          htail s₁ fun k hk => hrefuses (hcalls.symm.le.trans hk)
        have hunchanged := h _ (hfresh refusesFrom now) e s' (hact.trans hfailed)
        exact hnow conn (hunchanged.data ▸ hconn) hupdated
    · -- an entry is changed: the call after that is refused
      by_contra hnot
      obtain ⟨before, step, after, hsplit, hbefore, hfails, hchanges, hlater⟩ :=
        exists_change_of_not_recoverable hnot
      let refusesFrom := (upsertStart request s).calls + stepsCost (before ++ [step])
      let io := laterRefusing length refusesFrom now
      have hcost : stepsCost (before ++ [step]) = stepsCost before + step.cost := by
        simp [stepsCost]
      have hearly : ∀ k, k < (upsertStart request s).calls + stepsCost before →
          io.refuses k = false := fun k hk => hcalm (by simp only [refusesFrom, hcost]; omega)
      obtain ⟨s₁, hrun, hcalls, -⟩ := runSteps_passes hbefore hearly
      have hthen : ∀ k, k < s₁.calls + step.cost → io.refuses k = false :=
        fun k hk => hcalm (by simp only [refusesFrom, hcost]; omega)
      obtain ⟨s₂, hstep, hcalls', -⟩ := step_passes hfails hthen
      have hafter : ∀ k, s₂.calls ≤ k → io.refuses k = true :=
        fun k hk => hrefuses (by simp only [refusesFrom, hcost]; omega)
      obtain ⟨e, s', hrest, hkeychain, hprivilege⟩ := runSteps_refused hafter hlater
      have hall : runSteps io (upsertSteps request (existingFor s.data request.id))
          (upsertStart request s) = (.error e, s') := by
        rw [hsplit, runSteps_append, Action.bind_ok hrun]
        exact (Action.bind_ok hstep).trans hrest
      rcases hbegins refusesFrom with ⟨e₁, e₂, s₃, hsteps, hact⟩ | ⟨s₃, tail, hsteps, -⟩
      · obtain rfl : s' = s₃ := congrArg Prod.snd (hall.symm.trans hsteps)
        have hunchanged := h _ (hfresh refusesFrom now) e₂ s' hact
        have hkept : KeptBut [] [] s s' :=
          ⟨fun K _ => hunchanged.keychain K, fun K _ => hunchanged.privilegeKeychain K⟩
        exact step_changes hchanges hstep (hkept.same hkeychain.symm hprivilege.symm)
      · rw [hall] at hsteps
        cases hsteps

theorem upsertUnchanged_iff (s : ConnectionStore) (request : SaveConnectionRequest) :
    UpsertUnchanged s request ↔ StoppedInTime s request :=
  ⟨stopped_of_upsertUnchanged, upsertUnchanged_of_stopped⟩

end Hapcli.Connections
