/-
  Subject:   The SFTP session that the consumers of a connection share (`connection_registry.rs`):
             `acquire_sftp_with_meta`, `clear_sftp`, `invalidate_sftp` and `clear_physical`.

  Any number of calls are under way at once. A step is one section of one call: what it does while
  it holds the lock of the shared session, or the one atomic addition that `clear_physical` makes
  before it asks for the lock. A call that waits for a notification may go on at any time, which
  leaves open which notification wakes it.

  * `timely_of_careful` -- **a run whose steps are all careful installs and returns only sessions
    whose creation began under the generation of that moment**.
-/
import Hapcli.Rust.Text

namespace Hapcli.Ssh

open Hapcli.Rust

/-! ## 1. The entry -/

/-- An open `SftpSession`: which one it is, and the generation its creation began under, which the
    code does not keep. -/
structure SftpSession where
  id : Nat
  began : Nat
  deriving DecidableEq

inductive SharedSftpState where
  | empty
  | initializing (generation : Nat)
  | ready (session : SftpSession)
  deriving DecidableEq

structure AcquiredSftpMeta where
  session : SftpSession
  wasNew : Bool
  cwd : Option Str
  generation : Nat
  deriving DecidableEq

/-- Where a call stands. -/
inductive Thread where
  /-- at the head of the loop of `acquire_sftp_with_meta` -/
  | acquiring
  /-- waiting for the session another call creates -/
  | waiting
  /-- creating a session, with the generation it has put into the entry -/
  | creating (generation : Nat)
  /-- about to ask the session it has taken for its directory, and then to return -/
  | taken (session : SftpSession) (generation : Nat)
  /-- in `clear_physical`, after the addition; `found` stood in the entry then -/
  | clearing (found : SharedSftpState)
  | done
  deriving DecidableEq

/-- What can be told from outside, with the generation of that moment: a session became the shared
    one, or a call returned. -/
inductive Observation where
  | installed (session : SftpSession) (now : Nat)
  | returned (answer : Except Str AcquiredSftpMeta) (now : Nat)
  deriving DecidableEq

/-- The part of a `ConnectionEntry` that SFTP uses, with the calls and what was seen of them. -/
structure Entry where
  sftp : SharedSftpState := .empty
  sftpGeneration : Nat := 0
  threads : List Thread := []
  seen : List Observation := []
  deriving DecidableEq

/-! ## 2. The sections -/

namespace Entry

variable (entry : Entry)

/-- Call `i` goes on as `thread`. -/
def goOn (i : Nat) (thread : Thread) : Entry :=
  { entry with threads := entry.threads.set i thread }

/-- Call `i` returns. -/
def giveBack (i : Nat) (answer : Except Str AcquiredSftpMeta) : Entry :=
  { entry with
    threads := entry.threads.set i .done
    seen := entry.seen ++ [.returned answer entry.sftpGeneration] }

/-- Call `i` makes its new session the shared one and returns it. -/
def install (i : Nat) (session : SftpSession) (cwd : Str) (generation : Nat) : Entry :=
  { entry with
    sftp := .ready session
    threads := entry.threads.set i .done
    seen := entry.seen ++ [.installed session entry.sftpGeneration,
      .returned (.ok ⟨session, true, some cwd, generation⟩) entry.sftpGeneration] }

/-- The first section of `acquire_sftp_with_meta`. -/
def look (i : Nat) : Entry :=
  match entry.sftp with
  | .ready session => entry.goOn i (.taken session entry.sftpGeneration)
  | .initializing _ => entry.goOn i .waiting
  | .empty =>
    { entry.goOn i (.creating entry.sftpGeneration) with
      sftp := .initializing entry.sftpGeneration }

/-- The section of `acquire_sftp_with_meta` after `SftpSession::new`, which gave a session and its
    directory or failed. -/
def finish (i began : Nat) (created : Except Str (Nat × Str)) : Entry :=
  match created with
  | .ok (id, cwd) =>
    match entry.sftp with
    | .ready existing => entry.goOn i (.taken existing entry.sftpGeneration)
    | .initializing generation =>
      if generation = entry.sftpGeneration then entry.install i ⟨id, began⟩ cwd generation
      else { entry.goOn i .acquiring with sftp := .empty }
    | .empty => entry.goOn i .acquiring
  | .error error =>
    match entry.sftp with
    | .initializing _ => { entry.giveBack i (.error error) with sftp := .empty }
    | _ => entry.giveBack i (.error error)

def clearSftp : Entry :=
  { entry with sftp := .empty, sftpGeneration := entry.sftpGeneration + 1 }

/-- `invalidate_sftp`, which also tells whether there was anything. -/
def invalidateSftp : Bool × Entry :=
  (decide (entry.sftp ≠ .empty), entry.clearSftp)

/-- The addition of a new `clear_physical`. -/
def bump : Entry :=
  { entry with
    sftpGeneration := entry.sftpGeneration + 1
    threads := entry.threads ++ [.clearing entry.sftp] }

/-- The section of `clear_physical`. -/
def clearPhysical (i : Nat) : Entry :=
  { entry.goOn i .done with sftp := .empty }

end Entry

/-- A step: which call does what. -/
inductive Action where
  | acquire
  | look (i : Nat)
  | wake (i : Nat)
  | finish (i : Nat) (created : Except Str (Nat × Str))
  | giveBack (i : Nat) (cwd : Str)
  | clearSftp
  | invalidateSftp
  | bump
  | clearPhysical (i : Nat)

variable (entry : Entry)

/-- **One step**, if the call it is of stands at that place. -/
def Entry.next : Action → Option Entry
  | .acquire => some { entry with threads := entry.threads ++ [.acquiring] }
  | .look i =>
    match entry.threads[i]? with
    | some .acquiring => some (entry.look i)
    | _ => none
  | .wake i =>
    match entry.threads[i]? with
    | some .waiting => some (entry.goOn i .acquiring)
    | _ => none
  | .finish i created =>
    match entry.threads[i]? with
    | some (.creating began) => some (entry.finish i began created)
    | _ => none
  | .giveBack i cwd =>
    match entry.threads[i]? with
    | some (.taken session generation) =>
      some (entry.giveBack i (.ok ⟨session, false, some cwd, generation⟩))
    | _ => none
  | .clearSftp => some entry.clearSftp
  | .invalidateSftp => some entry.invalidateSftp.2
  | .bump => some entry.bump
  | .clearPhysical i =>
    match entry.threads[i]? with
    | some (.clearing _) => some (entry.clearPhysical i)
    | _ => none

def Entry.run (entry : Entry) : List Action → Option Entry
  | [] => some entry
  | action :: actions => (entry.next action).bind fun entry => entry.run actions

/-! ## 3. Careful steps -/

/-- Nothing that was observed is of a session whose creation began under another generation. -/
def Observation.Timely : Observation → Prop
  | .installed session now => session.began = now
  | .returned (.ok answer) now => answer.session.began = now
  | .returned (.error _) _ => True

/-- No `clear_physical` has made its addition while the session that is ready was ready already and
    is still to take the lock. -/
def Entry.Settled : Prop :=
  ∀ session, entry.sftp = .ready session → .clearing (.ready session) ∉ entry.threads

/-- No call is about to return a session it has taken. -/
def Entry.NoneTaken : Prop :=
  ∀ session generation, .taken session generation ∉ entry.threads

/-- A call that has created a session finds its own mark, or one that the entry's generation has
    left behind. -/
def Entry.OwnMark (i : Nat) : Prop :=
  ∀ began, entry.threads[i]? = some (.creating began) →
    entry.sftp = .initializing entry.sftpGeneration → began = entry.sftpGeneration

/-- **The steps that keep the sessions apart**: a ready session that is found is settled, no call
    takes another's mark for its own, and the generation moves only while no call is about to return
    a session. -/
def Entry.Careful : Action → Prop
  | .look _ => entry.Settled
  | .finish i (.ok _) => entry.Settled ∧ entry.OwnMark i
  | .clearSftp => entry.NoneTaken
  | .invalidateSftp => entry.NoneTaken
  | .bump => entry.NoneTaken
  | _ => True

/-- A run of careful steps. -/
inductive CarefulRun : Entry → List Action → Entry → Prop where
  | nil (entry : Entry) : CarefulRun entry [] entry
  | cons {entry mid last : Entry} {action : Action} {actions : List Action}
      (hcareful : entry.Careful action) (hnext : entry.next action = some mid)
      (hrun : CarefulRun mid actions last) : CarefulRun entry (action :: actions) last

/-! ## 4. What careful steps keep -/

/-- A session that is ready is of the current generation or about to be cleared, one that was taken
    is current; and nothing untimely was seen. -/
structure Entry.Current : Prop where
  ready : ∀ session, entry.sftp = .ready session →
    session.began = entry.sftpGeneration ∨ .clearing (.ready session) ∈ entry.threads
  taken : ∀ session generation, .taken session generation ∈ entry.threads →
    session.began = entry.sftpGeneration
  seen : ∀ observation ∈ entry.seen, observation.Timely

theorem mem_set_of_ne {α : Type} {l : List α} {i : Nat} {x y z : α} (hx : x ∈ l)
    (hy : l[i]? = some y) (hne : x ≠ y) : x ∈ l.set i z := by
  obtain ⟨j, hj⟩ := List.mem_iff_getElem?.mp hx
  have hij : i ≠ j := by
    rintro rfl
    exact hne (Option.some.inj (hj.symm.trans hy))
  exact List.mem_iff_getElem?.mpr ⟨j, by rw [List.getElem?_set_ne hij, hj]⟩

namespace Entry

variable {entry : Entry} {i : Nat}

section

variable (h : entry.Current)

include h

theorem Current.goOn {thread n : Thread}
    (hi : entry.threads[i]? = some thread) (hthread : ∀ found, thread ≠ .clearing found)
    (hnext : ∀ session generation, n = .taken session generation →
      session.began = entry.sftpGeneration) : (entry.goOn i n).Current where
  ready session hsession := by
    rcases h.ready session hsession with hbegan | hclearing
    · exact .inl hbegan
    · exact .inr (mem_set_of_ne hclearing hi (Ne.symm (hthread _)))
  taken session generation hmem := by
    rcases List.mem_or_eq_of_mem_set hmem with hold | hnew
    · exact h.taken session generation hold
    · exact hnext session generation hnew.symm
  seen := h.seen

theorem Current.emptied : ({ entry with sftp := .empty } : Entry).Current :=
  ⟨nofun, h.taken, h.seen⟩

theorem Current.giveBack {thread : Thread} {a : Except Str AcquiredSftpMeta}
    (hi : entry.threads[i]? = some thread) (hthread : ∀ found, thread ≠ .clearing found)
    (hanswer : (Observation.returned a entry.sftpGeneration).Timely) :
    (entry.giveBack i a).Current := by
  have hgo := h.goOn (n := .done) hi hthread nofun
  refine ⟨hgo.ready, hgo.taken, fun observation hobservation => ?_⟩
  rcases List.mem_append.mp hobservation with hold | hnew
  · exact h.seen observation hold
  · rw [List.mem_singleton.mp hnew]
    exact hanswer

/-- A ready session that is settled is of the current generation. -/
theorem Current.began (hsettled : entry.Settled) {session : SftpSession}
    (hready : entry.sftp = .ready session) : session.began = entry.sftpGeneration := by
  rcases h.ready session hready with hbegan | hclearing
  · exact hbegan
  · exact absurd hclearing (hsettled session hready)

theorem Current.look (hi : entry.threads[i]? = some .acquiring)
    (hsettled : entry.Settled) : (entry.look i).Current := by
  unfold Entry.look
  split
  · rename_i session hready
    refine h.goOn hi nofun fun session' generation heq => ?_
    cases heq
    exact h.began hsettled hready
  · exact h.goOn hi nofun nofun
  · have hgo := h.goOn (n := .creating entry.sftpGeneration) hi nofun nofun
    exact ⟨nofun, hgo.taken, hgo.seen⟩

theorem Current.install {began id : Nat} {cwd : Str} {generation : Nat}
    (hi : entry.threads[i]? = some (.creating began)) (hbegan : began = entry.sftpGeneration) :
    (entry.install i ⟨id, began⟩ cwd generation).Current := by
  have hgo := h.goOn (n := .done) hi nofun nofun
  refine ⟨fun session hsession => ?_, hgo.taken, fun observation hobservation => ?_⟩
  · cases hsession
    exact .inl hbegan
  · rcases List.mem_append.mp hobservation with hold | hnew
    · exact h.seen observation hold
    · rcases List.mem_cons.mp hnew with rfl | hnew
      · exact hbegan
      · rw [List.mem_singleton.mp hnew]
        exact hbegan

theorem Current.finish {began : Nat} {created : Except Str (Nat × Str)}
    (hi : entry.threads[i]? = some (.creating began))
    (hcareful : entry.Careful (.finish i created)) : (entry.finish i began created).Current := by
  unfold Entry.finish
  split
  · obtain ⟨hsettled, hown⟩ := hcareful
    split
    · rename_i existing hready
      refine h.goOn hi nofun fun session generation heq => ?_
      cases heq
      exact h.began hsettled hready
    · rename_i generation hmark
      split
      · rename_i hcurrent
        subst hcurrent
        exact h.install hi (hown began hi hmark)
      · exact (h.goOn (n := .acquiring) hi nofun nofun).emptied
    · exact h.goOn hi nofun nofun
  · rename_i error
    have hback := h.giveBack (a := .error error) hi nofun trivial
    split
    · exact hback.emptied
    · exact hback

theorem Current.clearSftp (hnone : entry.NoneTaken) : entry.clearSftp.Current :=
  ⟨nofun, fun session generation hmem => absurd hmem (hnone session generation), h.seen⟩

theorem Current.bump (hnone : entry.NoneTaken) : entry.bump.Current := by
  refine ⟨fun session hready => .inr ?_, fun session generation hmem => ?_, h.seen⟩
  · replace hready : entry.sftp = .ready session := hready
    exact List.mem_append.mpr (.inr (List.mem_singleton.mpr (by rw [hready])))
  · rcases List.mem_append.mp hmem with hold | hnew
    · exact absurd hold (hnone session generation)
    · cases List.mem_singleton.mp hnew

theorem Current.clearPhysical : (entry.clearPhysical i).Current := by
  refine ⟨nofun, fun session generation hmem => ?_, h.seen⟩
  rcases List.mem_or_eq_of_mem_set hmem with hold | hnew
  · exact h.taken session generation hold
  · cases hnew

theorem Current.next {entry' : Entry} {action : Action} (hcareful : entry.Careful action)
    (hnext : entry.next action = some entry') : entry'.Current := by
  cases action with
  | acquire =>
    cases hnext
    refine ⟨fun session hready => ?_, fun session generation hmem => ?_, h.seen⟩
    · rcases h.ready session hready with hbegan | hclearing
      · exact .inl hbegan
      · exact .inr (List.mem_append.mpr (.inl hclearing))
    · rcases List.mem_append.mp hmem with hold | hnew
      · exact h.taken session generation hold
      · cases List.mem_singleton.mp hnew
  | look i =>
    simp only [Entry.next] at hnext
    split at hnext
    · rename_i hi
      cases hnext
      exact h.look hi hcareful
    · cases hnext
  | wake i =>
    simp only [Entry.next] at hnext
    split at hnext
    · rename_i hi
      cases hnext
      exact h.goOn hi nofun nofun
    · cases hnext
  | finish i created =>
    simp only [Entry.next] at hnext
    split at hnext
    · rename_i began hi
      cases hnext
      exact h.finish hi hcareful
    · cases hnext
  | giveBack i cwd =>
    simp only [Entry.next] at hnext
    split at hnext
    · rename_i session generation hi
      cases hnext
      exact h.giveBack hi nofun (h.taken session generation (List.mem_of_getElem? hi))
    · cases hnext
  | clearSftp =>
    cases hnext
    exact h.clearSftp hcareful
  | invalidateSftp =>
    cases hnext
    exact h.clearSftp hcareful
  | bump =>
    cases hnext
    exact h.bump hcareful
  | clearPhysical i =>
    simp only [Entry.next] at hnext
    split at hnext
    · cases hnext
      exact h.clearPhysical
    · cases hnext

end

end Entry

theorem CarefulRun.current {entry last : Entry} {actions : List Action}
    (hrun : CarefulRun entry actions last) (h : entry.Current) : last.Current := by
  induction hrun with
  | nil entry => exact h
  | cons hcareful hnext _ ih => exact ih (h.next hcareful hnext)

/-- **A run of careful steps installs and returns only sessions whose creation began under the
    generation of that moment.** -/
theorem timely_of_careful {actions : List Action} {last : Entry}
    (hrun : CarefulRun {} actions last) : ∀ observation ∈ last.seen, observation.Timely :=
  (hrun.current ⟨nofun, nofun, nofun⟩).seen

/-- A session is created and returned, taken by a second call, and cleared; a third call creates the
    next one. -/
theorem timely_of_careful_two_generations :
    ∃ last, CarefulRun {} [.acquire, .look 0, .finish 0 (.ok (7, [])), .acquire, .look 1,
        .giveBack 1 [], .bump, .clearPhysical 2, .acquire, .look 3, .finish 3 (.ok (8, []))] last ∧
      last.seen.length = 5 ∧ ∀ observation ∈ last.seen, observation.Timely := by
  have hrun : ∃ last, CarefulRun {} [.acquire, .look 0, .finish 0 (.ok (7, [])), .acquire, .look 1,
      .giveBack 1 [], .bump, .clearPhysical 2, .acquire, .look 3, .finish 3 (.ok (8, []))] last ∧
      last.seen.length = 5 := by
    refine ⟨_, .cons trivial rfl (.cons ?_ rfl (.cons ?_ rfl (.cons trivial rfl (.cons ?_ rfl
      (.cons trivial rfl (.cons ?_ rfl (.cons trivial rfl (.cons trivial rfl (.cons ?_ rfl
        (.cons ?_ rfl (.nil _))))))))))), rfl⟩
    · exact nofun
    · exact ⟨nofun, fun began hi _ => by cases hi; rfl⟩
    · intro session _ hmem
      replace hmem : .clearing (.ready session) ∈ [Thread.done, .acquiring] := hmem
      simp at hmem
    · intro session generation hmem
      replace hmem : .taken session generation ∈ [Thread.done, .done] := hmem
      simp at hmem
    · exact nofun
    · exact ⟨nofun, fun began hi _ => by cases hi; rfl⟩
  obtain ⟨last, hrun, hlength⟩ := hrun
  exact ⟨last, hrun, hlength, timely_of_careful hrun⟩

/-- One call creates a session under generation 0; the entry is cleared and a second call begins
    under generation 1; the first call takes the second call's mark for its own. -/
theorem late_finisher_installs :
    ∃ last, Entry.run {} [.acquire, .look 0, .clearSftp, .acquire, .look 1, .finish 0 (.ok (7, []))] =
        some last ∧
      Observation.installed ⟨7, 0⟩ 1 ∈ last.seen ∧ ¬ ∀ observation ∈ last.seen, observation.Timely := by
  refine ⟨_, rfl, by decide, fun h => ?_⟩
  exact absurd (h (.installed ⟨7, 0⟩ 1) (by decide)) (by simp [Observation.Timely])

end Hapcli.Ssh
