/-
  Subject:   A lost connection and the calls that keep the registry's books.

  The release of the last consumer of a pooled connection writes `Idle` whatever stood there, and
  the next consumer makes an idle connection active. A run must not release the last consumer of a
  lost connection (`ReleasesWithCare`).

  * **`dead_until_set`** -- a lost connection stays lost until a call sets its state.
-/
import Hapcli.Ssh.RegistryOwnership
import Mathlib.Logic.Function.Basic

namespace Hapcli.Ssh.SshConnectionRegistry

open Hapcli.Rust

variable {registry registry' : SshConnectionRegistry} {free : Str → Prop}

/-! ## 1. What a release leaves idle -/

/-- No consumer but this one. -/
def LastOf (entry : ConnectionEntry) (consumer : ConnectionConsumer) : Prop :=
  ∀ other ∈ entry.consumers, other = consumer

/-- The release of a consumer leaves the connection idle, itself or through the retirements behind
    it. -/
inductive Idles : (Str → Option ConnectionEntry) → Str → ConnectionConsumer → Str → Prop
  | here {entries connectionId consumer entry} :
      entries connectionId = some entry → entry.retireWhenUnused = false → LastOf entry consumer →
      Idles entries connectionId consumer connectionId
  | parent {entries connectionId consumer entry parentId parentConsumer id} :
      entries connectionId = some entry → entry.retireWhenUnused = true → LastOf entry consumer →
      entry.parentOwnership = some (parentId, parentConsumer) →
      Idles (Function.update entries connectionId none) parentId parentConsumer id →
      Idles entries connectionId consumer id

/-- A release that leaves no lost connection idle. -/
def SafeRelease (entries : Str → Option ConnectionEntry) (connectionId : Str)
    (consumer : ConnectionConsumer) : Prop :=
  ∀ id entry, entries id = some entry → entry.state.Dead → ¬Idles entries connectionId consumer id

/-- The connection is lost, if it is registered at all. -/
def LostIfThere (id : Str) (registry : SshConnectionRegistry) : Prop :=
  ∀ entry, registry.get id = some entry → entry.state.Dead

variable {connectionId id : Str} {consumer : ConnectionConsumer}

theorem lastOf_of_refCount {entry : ConnectionEntry} (h : entry.Counted)
    (hcount : (entry.dropConsumer consumer).refCount = 0) : LastOf entry consumer := by
  have hdropped := (EntryStep.dropConsumer entry True consumer).counted h
  rw [hdropped.count, List.length_eq_zero_iff] at hcount
  intro other hother
  by_contra hne
  have hmem : other ∈ entry.consumers.filter (· ≠ consumer) :=
    List.mem_filter.mpr ⟨hother, by simpa using hne⟩
  have hnil : entry.consumers.filter (· ≠ consumer) = [] := hcount
  rw [hnil] at hmem
  exact List.not_mem_nil hmem

theorem LostIfThere.quiet (h : LostIfThere id registry) (hquiet : Quiet free registry registry')
    (hfree : ∀ entry, registry.get id = some entry → ¬free entry.connectionId) :
    LostIfThere id registry' := by
  intro entry' hget
  obtain ⟨entry, hentry, hstep⟩ := hquiet.get_origin hget
  exact hstep.dead (hfree entry hentry) (h entry hentry)

theorem LostIfThere.of_get (h : LostIfThere id registry)
    (hget : registry'.get id = registry.get id ∨ registry'.get id = none) :
    LostIfThere id registry' := by
  intro entry hentry
  rcases hget with heq | heq
  · exact h entry (heq ▸ hentry)
  · rw [heq] at hentry
    cases hentry

/-- What the first part of a release does to the other connections, and when it goes on. -/
theorem dropConsumer_spec (h : registry.Consistent) (connectionId : Str)
    (consumer : ConnectionConsumer) :
    (∀ id, id ≠ connectionId →
      (registry.dropConsumer connectionId consumer).1.get id = registry.get id) ∧
    ((registry.dropConsumer connectionId consumer).2 = true →
      ∃ entry, registry.get connectionId = some entry ∧ entry.retireWhenUnused = true ∧
        LastOf entry consumer ∧
        (registry.dropConsumer connectionId consumer).1.get connectionId =
          some (entry.dropConsumer consumer)) := by
  unfold dropConsumer
  cases hfind : registry.find connectionId with
  | none => exact ⟨fun _ _ => rfl, fun h => nomatch h⟩
  | some found =>
    obtain ⟨key, entry⟩ := found
    have hother : ∀ (entry' : ConnectionEntry) id, id ≠ connectionId →
        (registry.put key entry').get id = registry.get id := by
      intro entry' id hid
      rw [h.get_put hfind, if_neg hid]
    dsimp only
    split
    · next hcount =>
        split
        · next hretire =>
            refine ⟨hother _, fun _ => ⟨entry, get_eq_some_iff.mpr ⟨key, hfind⟩, hretire, ?_, ?_⟩⟩
            · exact lastOf_of_refCount (h.counted (find_eq_some_iff.mp hfind).2) hcount
            · rw [h.get_put hfind, if_pos rfl]
        · split
          · exact ⟨hother _, fun h => nomatch h⟩
          · obtain ⟨sleeping, heq⟩ :=
              registry.startIdleTimerForEntry_eq key (entry.dropConsumer consumer)
            rw [heq]
            exact ⟨hother _, fun h => nomatch h⟩
    · exact ⟨hother _, fun h => nomatch h⟩

theorem LostIfThere.dropConsumer (hconsistent : registry.Consistent) (h : LostIfThere id registry)
    (hsafe : ∀ entry, registry.get id = some entry → ¬Idles registry.get connectionId consumer id) :
    LostIfThere id (registry.dropConsumer connectionId consumer).1 := by
  refine h.quiet (registry.quiet_dropConsumer connectionId consumer) fun entry hentry => ?_
  rintro ⟨⟨key, found⟩, hfind, hname, hpooled, hcount⟩
  have hid : id = connectionId := by
    rw [← hconsistent.get hentry, ← hname]
    exact hconsistent.find hfind
  subst hid
  have hlast := lastOf_of_refCount (hconsistent.counted (find_eq_some_iff.mp hfind).2) hcount
  exact hsafe entry hentry (.here (get_eq_some_iff.mpr ⟨key, hfind⟩) hpooled hlast)

theorem LostIfThere.releaseLoop (fuel : Nat) (hconsistent : registry.Consistent)
    (h : LostIfThere id registry)
    (hsafe : ∀ entry, registry.get id = some entry → ¬Idles registry.get connectionId consumer id) :
    LostIfThere id (releaseLoop fuel registry connectionId consumer) := by
  induction fuel generalizing registry connectionId consumer with
  | zero => exact h
  | succ fuel ih =>
    obtain ⟨hother, hretired⟩ := dropConsumer_spec hconsistent connectionId consumer
    have hdropped := hconsistent.quiet (registry.quiet_dropConsumer connectionId consumer)
    have hlost := h.dropConsumer hconsistent hsafe
    unfold SshConnectionRegistry.releaseLoop
    generalize registry.dropConsumer connectionId consumer = result
      at hother hretired hdropped hlost ⊢
    obtain ⟨dropped, retired⟩ := result
    cases retired with
    | false => exact hlost
    | true =>
      dsimp only at hother hretired hdropped hlost ⊢
      rcases hunregister : dropped.unregister connectionId with _ | ⟨removed, info, ownership⟩
      · exact hlost
      · have hget := hdropped.get_unregister hunregister
        have hremoved : LostIfThere id removed := by
          refine hlost.of_get ?_
          rw [hget]
          split
          · exact .inr rfl
          · exact .inl rfl
        cases ownership with
        | none => exact hremoved
        | some pair =>
          obtain ⟨entry, hentry, hretire, hlast, hafter⟩ := hretired rfl
          obtain ⟨registry'', info', heq⟩ := hdropped.exists_unregister hafter
          have hownership : entry.parentOwnership = some pair := by
            simp only [hunregister, Option.some.injEq, Prod.mk.injEq] at heq
            exact heq.2.2.symm
          -- the entries that are left are those before, without the retired one
          have hentries : removed.get = Function.update registry.get connectionId none := by
            funext other
            rw [hget]
            by_cases hne : other = connectionId
            · subst hne
              rw [if_pos rfl, Function.update_self]
            · rw [if_neg hne, Function.update_of_ne hne, hother other hne]
          refine ih (hdropped.unregister hunregister) hremoved fun found hfound hidles => ?_
          rw [hentries] at hidles hfound
          have hne : id ≠ connectionId := by
            rintro rfl
            rw [Function.update_self] at hfound
            cases hfound
          rw [Function.update_of_ne hne] at hfound
          exact hsafe found hfound (.parent hentry hretire hlast hownership hidles)

theorem LostIfThere.release (hconsistent : registry.Consistent) (h : LostIfThere id registry)
    (hsafe : SafeRelease registry.get connectionId consumer) :
    LostIfThere id (registry.release connectionId consumer) :=
  h.releaseLoop _ hconsistent fun entry hentry => hsafe id entry hentry (h entry hentry)

/-! ## 2. Calls -/

/-- The release that a call begins with, and the entries that it meets. -/
def releaseOf (registry : SshConnectionRegistry) :
    Operation → Option ((Str → Option ConnectionEntry) × Str × ConnectionConsumer)
  | .release connectionId consumer => some (registry.get, connectionId, consumer)
  | .retireConnection connectionId => retirement connectionId
  | .setParentConnectionId connectionId none =>
    (registry.get connectionId).bind fun entry =>
      entry.parentOwnership.map fun pair =>
        (Function.update registry.get connectionId (some (entry.linked none none)), pair)
  | .closeNext task =>
    match registry.closing[task]? with
    | some (.start connectionId :: _) =>
      (registry.get connectionId).bind fun entry =>
        if entry.state = .disconnected ∨ entry.state = .disconnecting then none
        else entry.parentConnectionId.bind fun parentId =>
          (registry.nodeEventEmitter.bind (·.lookup connectionId)).map fun nodeId =>
            (Function.update registry.get connectionId (some entry.cancelIdleTimer),
              parentId, ancestorConsumer nodeId)
    | some (.finish connectionId :: _) => retirement connectionId
    | _ => none
  | _ => none
where
  /-- What a connection held on its parent is released once the connection is gone. -/
  retirement (connectionId : Str) :=
    (registry.get connectionId).bind fun entry =>
      entry.parentOwnership.map fun pair =>
        (Function.update registry.get connectionId none, pair)

/-- No call releases the last consumer of a pooled connection that is lost. -/
def ReleasesWithCare (registry : SshConnectionRegistry) (operation : Operation) : Prop :=
  ∀ entries connectionId consumer, registry.releaseOf operation =
    some (entries, connectionId, consumer) → SafeRelease entries connectionId consumer

/-- The call may set a lost connection to a state in which it is not lost: `mark_state`, or a probe
    that finds it alive. -/
def Sets (registry : SshConnectionRegistry) : Operation → Str → Prop
  | .markState connectionId _, id => connectionId = id
  | .probeSingleConnection connectionId first second, id =>
    connectionId = id ∧ (registry.probeSingleConnection connectionId first second).2 = .alive
  | _, _ => False

section

variable (hconsistent : registry.Consistent) (h : LostIfThere id registry)

include hconsistent h

theorem LostIfThere.retireConnection
    (hcare : ∀ entry parentId consumer, registry.get connectionId = some entry →
      entry.parentOwnership = some (parentId, consumer) →
        SafeRelease (Function.update registry.get connectionId none) parentId consumer) :
    LostIfThere id (registry.retireConnection connectionId).1 := by
  unfold SshConnectionRegistry.retireConnection
  rcases hunregister : registry.unregister connectionId with _ | ⟨removed, info, ownership⟩
  · exact h
  · have hget := hconsistent.get_unregister hunregister
    have hentries : removed.get = Function.update registry.get connectionId none := by
      funext other
      rw [hget, Function.update_apply]
    have hremoved : LostIfThere id removed := by
      refine h.of_get ?_
      rw [hget]
      split
      · exact .inr rfl
      · exact .inl rfl
    cases ownership with
    | none => exact hremoved
    | some pair =>
      obtain ⟨key, entry, hfind, -, hownership, -⟩ := unregister_spec hunregister
      refine hremoved.release (hconsistent.unregister hunregister) ?_
      rw [hentries]
      exact hcare entry pair.1 pair.2 (get_eq_some_iff.mpr ⟨key, hfind⟩) hownership.symm

theorem LostIfThere.put {key : Str} {entry entry' : ConnectionEntry}
    (hfind : registry.find connectionId = some (key, entry)) (hstate : entry'.state = entry.state) :
    LostIfThere id (registry.put key entry') := by
  intro found hfound
  rw [hconsistent.get_put hfind] at hfound
  split at hfound
  · next hid =>
      cases hfound
      rw [hstate]
      exact h entry (hid ▸ get_eq_some_iff.mpr ⟨key, hfind⟩)
  · exact h found hfound

theorem LostIfThere.setParentConnectionId {parentConnectionId : Option Str}
    (hcare : registry.ReleasesWithCare (.setParentConnectionId connectionId parentConnectionId)) :
    LostIfThere id (registry.setParentConnectionId connectionId parentConnectionId).1 := by
  rcases registry.setParentConnectionId_cases connectionId parentConnectionId with
    heq | ⟨key, entry, hfind, ⟨parentId, -, heq⟩ | ⟨rfl, heq⟩⟩
  · rw [heq]
    exact h
  · rw [heq]
    exact h.put hconsistent hfind rfl
  · have hput := hconsistent.linked hfind none none
    have hlost : LostIfThere id (registry.put key (entry.linked none none)) :=
      h.put hconsistent hfind rfl
    have hget := get_eq_some_iff.mpr ⟨key, hfind⟩
    have hentries : (registry.put key (entry.linked none none)).get =
        Function.update registry.get connectionId (some (entry.linked none none)) := by
      funext other
      rw [hconsistent.get_put hfind, Function.update_apply]
    rw [heq]
    cases hownership : entry.parentOwnership with
    | none => exact hlost
    | some pair =>
      let noted := (registry.put key (entry.linked none none)).noteReleased connectionId
        (some pair)
      have hnoted : noted.Consistent := hput.congr rfl rfl
      have hsame : noted.get = (registry.put key (entry.linked none none)).get :=
        funext (get_congr rfl rfl)
      have hlost' : LostIfThere id noted := hlost.of_get (.inl (congrFun hsame id))
      have hsafe : SafeRelease noted.get pair.1 pair.2 := by
        rw [hsame, hentries]
        refine hcare _ pair.1 pair.2 ?_
        simp only [releaseOf, hget, Option.bind_some, hownership, Option.map_some]
      exact hlost'.release hnoted hsafe

theorem LostIfThere.startDisconnect
    (hstart : registry.startDisconnect connectionId = some registry')
    (hcare : ∀ entry parentId nodeId, registry.get connectionId = some entry →
      ¬(entry.state = .disconnected ∨ entry.state = .disconnecting) →
      entry.parentConnectionId = some parentId →
      registry.nodeEventEmitter.bind (·.lookup connectionId) = some nodeId →
        SafeRelease (Function.update registry.get connectionId (some entry.cancelIdleTimer))
          parentId (ancestorConsumer nodeId)) : LostIfThere id registry' := by
  unfold SshConnectionRegistry.startDisconnect at hstart
  cases hfind : registry.find connectionId with
  | none => rw [hfind] at hstart; cases hstart
  | some found =>
    obtain ⟨key, entry⟩ := found
    rw [hfind] at hstart
    dsimp only at hstart
    split at hstart
    · cases hstart
    · next hstate =>
        cases hstart
        have hcancelled : Still registry (registry.put key entry.cancelIdleTimer) :=
          .put (find_eq_some_iff.mp hfind).2 (.cancelIdleTimer entry _)
        have hlost := h.quiet hcancelled fun _ _ => not_false
        refine LostIfThere.quiet ?_ (quiet_setPhysical _ _ _) fun _ _ => not_false
        have hentries : (registry.put key entry.cancelIdleTimer).get =
            Function.update registry.get connectionId (some entry.cancelIdleTimer) := by
          funext other
          rw [hconsistent.get_put hfind, Function.update_apply]
        unfold releaseAncestor
        split
        · next parentId nodeId hparent hnode =>
            refine hlost.release (hconsistent.quiet hcancelled) ?_
            rw [hentries]
            exact hcare entry _ _ (get_eq_some_iff.mpr ⟨key, hfind⟩) hstate hparent hnode
        · exact hlost

theorem LostIfThere.finishDisconnect
    (hcare : ∀ entry parentId consumer, registry.get connectionId = some entry →
      entry.parentOwnership = some (parentId, consumer) →
        SafeRelease (Function.update registry.get connectionId none) parentId consumer) :
    LostIfThere id (registry.finishDisconnect connectionId) := by
  have hdead : ConnectionState.disconnected.Dead := trivial
  have hstill := registry.quiet_markState_dead connectionId hdead
  have hconsistent' := hconsistent.quiet hstill
  have hmarked := h.quiet hstill fun _ _ => not_false
  have hother : ∀ other, other ≠ connectionId →
      (registry.markState connectionId .disconnected).1.get other = registry.get other := by
    intro other hne
    unfold markState
    cases hfind : registry.find connectionId with
    | none => rfl
    | some found => exact (hconsistent.get_put hfind _ other).trans (if_neg hne)
  let marked := (registry.markState connectionId .disconnected).1.editEmitter
    (·.erase connectionId)
  have hsame : ∀ other, marked.get other =
      (registry.markState connectionId .disconnected).1.get other := get_congr rfl rfl
  have hconsistentMarked : marked.Consistent := hconsistent'.congr rfl rfl
  have hlost : LostIfThere id marked := hmarked.of_get (.inl (hsame id))
  refine hlost.retireConnection hconsistentMarked fun entry' parentId consumer hget hownership => ?_
  rw [hsame] at hget
  obtain ⟨entry, hentry, hstep⟩ := hstill.get_origin hget
  have hentries : Function.update marked.get connectionId none =
      Function.update registry.get connectionId none := by
    funext other
    by_cases hne : other = connectionId
    · subst hne
      rw [Function.update_self, Function.update_self]
    · rw [Function.update_of_ne hne, Function.update_of_ne hne, hsame, hother other hne]
  rw [hentries]
  exact hcare entry parentId consumer hentry (hstep.parentOwnership ▸ hownership)

theorem LostIfThere.setParentConnectionOwnership (connectionId parentConnectionId : Str)
    (parentConsumer : ConnectionConsumer) :
    LostIfThere id (registry.setParentConnectionOwnership connectionId parentConnectionId
      parentConsumer).1 := by
  rcases registry.setParentConnectionOwnership_cases connectionId parentConnectionId
    parentConsumer with heq | ⟨key, entry, noted, hfind, -, heq⟩
  · rw [heq]
    exact h
  · have hput : LostIfThere id (registry.put key
        (entry.linked (some parentConnectionId) (some parentConsumer))) :=
      h.put hconsistent hfind rfl
    rw [heq]
    exact hput.of_get (.inl (get_congr rfl rfl id))

theorem LostIfThere.closeNext {task : Nat} (hcare : registry.ReleasesWithCare (.closeNext task)) :
    LostIfThere id (registry.closeNext task) := by
  unfold SshConnectionRegistry.closeNext
  split
  · exact h
  · exact h
  · next connectionId rest hclosing =>
      cases hstart : registry.startDisconnect connectionId with
      | none => exact h
      | some registry' =>
        have hstarted := h.startDisconnect hconsistent hstart ?_
        · exact hstarted.of_get (.inl (get_congr rfl rfl id))
        · intro entry parentId nodeId hget hstate hparent hnode
          exact hcare _ _ _ (by
            simp only [releaseOf, hclosing, hget, Option.bind_some, if_neg hstate, hparent,
              hnode, Option.map_some])
  · next connectionId rest hclosing =>
      have hretired : ∀ entry parentId consumer, registry.get connectionId = some entry →
          entry.parentOwnership = some (parentId, consumer) →
            SafeRelease (Function.update registry.get connectionId none) parentId consumer := by
        intro entry parentId consumer hget hownership
        exact hcare _ _ _ (by
          simp [releaseOf, releaseOf.retirement, hclosing, hget, hownership])
      exact (h.finishDisconnect hconsistent hretired).of_get (.inl (get_congr rfl rfl id))

end

theorem LostIfThere.step {parts : KeyParts} (hparts : parts.Digests) {drawn : List Str}
    (hid : id ∈ drawn) (hpooled : Pooled parts drawn registry) (h : LostIfThere id registry)
    {operation : Operation} (hfresh : FreshUuids (drawn ++ operation.uuids))
    (hcare : registry.ReleasesWithCare operation) (hsets : ¬registry.Sets operation id) :
    LostIfThere id (registry.step parts operation) := by
  have hconsistent := hpooled.consistent
  by_cases hquiet : operation.isQuiet = true
  · refine h.quiet (registry.quiet_step parts hquiet) fun entry hentry hrevive => hsets ?_
    have hname := hconsistent.get hentry
    cases operation with
    | markState connectionId state =>
      obtain ⟨-, ⟨key, found⟩, hfind, heq⟩ := hrevive
      exact (hconsistent.find hfind).symm.trans (heq.trans hname)
    | probeSingleConnection connectionId first second =>
      obtain ⟨halive, ⟨key, found⟩, hfind, heq⟩ := hrevive
      exact ⟨(hconsistent.find hfind).symm.trans (heq.trans hname), halive⟩
    | _ => exact hrevive.elim
  have hnew : ∀ entry : ConnectionEntry, registry.byKey.lookup entry.key = none →
      entry.connectionId ∉ drawn → LostIfThere id (registry.insertEntry entry) := by
    intro entry hkey hnotMem
    refine h.of_get (.inl ?_)
    rw [hconsistent.get_insertEntry hkey, if_neg]
    exact fun heq => hnotMem (heq ▸ hid)
  cases operation with
  | acquire config consumer uuid =>
    rcases registry.acquire_cases parts config consumer uuid with hstill | ⟨hkey, hstill⟩
    · exact h.quiet hstill fun _ _ => False.elim
    · exact (hnew (registry.newEntry config _ uuid false) hkey
        (hfresh.notMem List.mem_cons_self)).quiet hstill fun _ _ => False.elim
  | acquireDedicated config consumer poolUuid uuid =>
    exact hnew _ (hpooled.lookup_dedicatedKey hparts hfresh config)
      (hfresh.notMem (List.mem_cons_of_mem _ List.mem_cons_self))
  | setParentConnectionId connectionId parentConnectionId =>
    exact h.setParentConnectionId hconsistent hcare
  | setParentConnectionOwnership connectionId parentConnectionId parentConsumer =>
    exact h.setParentConnectionOwnership hconsistent connectionId parentConnectionId
      parentConsumer
  | release connectionId consumer => exact h.release hconsistent (hcare _ _ _ rfl)
  | retireConnection connectionId =>
    refine h.retireConnection hconsistent fun entry parentId consumer hget hownership => ?_
    exact hcare _ _ _ (by simp [releaseOf, releaseOf.retirement, hget, hownership])
  | closeNext task => exact h.closeNext hconsistent hcare
  | _ => exact absurd rfl hquiet

/-! ## 3. Runs -/

/-- **From any state of any run: a lost connection stays lost in a stretch that releases with care,
    unless `mark_state` or a successful probe sets it.** -/
theorem dead_until_set {parts : KeyParts} (hparts : parts.Digests) {before stretch : List Operation}
    (hfresh : FreshUuids ((before ++ stretch).flatMap Operation.uuids))
    (config : ConnectionPoolConfig) {id : Str} {entry : ConnectionEntry}
    (hentry : (run parts { config } before).get id = some entry) (hdead : entry.state.Dead)
    (hstretch : EveryStep parts
      (fun registry operation => registry.ReleasesWithCare operation ∧ ¬registry.Sets operation id)
      (run parts { config } before) stretch) :
    ∀ entry', (run parts { config } (before ++ stretch)).get id = some entry' →
      entry'.state ≠ .idle ∧ entry'.state ≠ .active := by
  rw [List.flatMap_append] at hfresh
  have hpooled := pooled_run hparts hfresh.left config
  obtain ⟨key, hfind⟩ := get_eq_some_iff.mp hentry
  have hid := hpooled.ids (find_eq_some_iff.mp hfind).1
  have hlost : LostIfThere id (run parts { config } before) := by
    intro entry' hentry'
    rw [hentry] at hentry'
    cases hentry'
    exact hdead
  have hrun := (run_rule hparts (P := fun drawn registry => id ∈ drawn ∧ LostIfThere id registry)
    (fun hpooled hfresh hcondition h => ⟨List.mem_append_left _ h.1,
      h.2.step hparts h.1 hpooled hfresh hcondition.1 hcondition.2⟩)
    hpooled hfresh hstretch ⟨hid, hlost⟩).2.2
  intro entry' hentry'
  have hrunAppend : run parts { config } (before ++ stretch) =
      (run parts { config } before).run parts stretch := List.foldl_append ..
  rw [hrunAppend] at hentry'
  have hstate := hrun entry' hentry'
  refine ⟨fun hidle => ?_, fun hactive => ?_⟩
  · rw [hidle] at hstate
    exact hstate
  · rw [hactive] at hstate
    exact hstate

/-- The link of a connection with two consumers is lost; one of them is released and another
    added. -/
theorem dead_until_set_shared :
    ∃ entry', (run sampleParts {}
      ([.acquire {} (.sftp ['s']) child, .acquire {} (.ide ['i']) third,
        .setPhysical child (some 1), .markLinkDownCascade 2 child] ++
        [.release child (.sftp ['s']),
          .acquireConsumerForConnection child (.terminal ['t'])])).get child = some entry' ∧
      entry'.state ≠ .idle ∧ entry'.state ≠ .active := by
  obtain ⟨entry', hentry'⟩ : ∃ entry', (run sampleParts {}
      ([.acquire {} (.sftp ['s']) child, .acquire {} (.ide ['i']) third,
        .setPhysical child (some 1), .markLinkDownCascade 2 child] ++
        [.release child (.sftp ['s']),
          .acquireConsumerForConnection child (.terminal ['t'])])).get child = some entry' :=
    Option.isSome_iff_exists.mp (by decide)
  refine ⟨entry', hentry', dead_until_set sampleParts_digests ⟨by decide, by decide⟩ {} rfl
    (by decide) ?_ entry' hentry'⟩
  refine ⟨⟨?_, id⟩, ⟨fun _ _ _ h => (nomatch h), id⟩, trivial⟩
  rintro _ _ _ ⟨⟩ id entry hentry hdead hidles
  cases hidles with
  | here hfound hpooled hlast =>
    cases hfound
    exact absurd (hlast (.ide ['i']) (by decide)) (by decide)
  | parent hfound hretire hlast hownership hidles =>
    cases hfound
    cases hretire

/-- **The last consumer of a lost connection is released, and the next one finds it active.** -/
theorem revived_by_release :
    ((run sampleParts {} [.acquire {} (.sftp ['s']) child, .setPhysical child (some 1),
        .markLinkDownCascade 2 child]).get child).map (·.state) = some .linkDown ∧
      ((run sampleParts {} ([.acquire {} (.sftp ['s']) child, .setPhysical child (some 1),
        .markLinkDownCascade 2 child] ++ [.release child (.sftp ['s'])])).get child).map
          (·.state) = some .idle ∧
      ((run sampleParts {} ([.acquire {} (.sftp ['s']) child, .setPhysical child (some 1),
        .markLinkDownCascade 2 child] ++ [.release child (.sftp ['s']),
          .acquireConsumerForConnection child (.ide ['i'])])).get child).map
            (·.state) = some .active := by
  decide

end Hapcli.Ssh.SshConnectionRegistry
