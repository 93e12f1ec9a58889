/-
  Subject:   Every handle has the owner that holds it, and nobody else can use it.

  * **`kept_access`** -- every access keeps the tables, with the purge and the cleanup of an owner;
  * **`handles_owned`** -- who holds and who is refused, over every run.
-/
import Hapcli.Lib.Ownership
import Hapcli.Trzsz.Handles

namespace Hapcli.Trzsz

open Function Hapcli.Lib Hapcli.Process Hapcli.Rust Proc

/-! ## 1. The two tables -/

inductive HandleKind where
  | upload
  | download
  deriving DecidableEq

/-- The handle set of an owner. -/
def OwnerState.handles (owner : OwnerState) : HandleKind → HashSet Str
  | .upload => owner.uploadHandles
  | .download => owner.downloadHandles

namespace TrzszStateInner

/-- What an owner holds. -/
def held (inner : TrzszStateInner) (kind : HandleKind) (ownerId : Str) : Option (Finset Str) :=
  (inner.owners.lookup ownerId).map fun owner => (owner.handles kind).keySet

/-- The owner that a handle names. -/
def ownerOf (inner : TrzszStateInner) : HandleKind → Str → Option Str
  | .upload, handleId => (inner.uploadHandles.lookup handleId).map (·.ownerId)
  | .download, handleId => (inner.downloadHandles.lookup handleId).map (·.ownerId)

/-- **The tables of both kinds agree.** -/
def Consistent (inner : TrzszStateInner) : Prop :=
  ∀ kind, Owned maxHandlesPerOwner (inner.held kind) (inner.ownerOf kind)

/-- The tables are as they were. -/
structure Still (inner inner' : TrzszStateInner) : Prop where
  held : ∀ kind, inner'.held kind = inner.held kind
  ownerOf : ∀ kind, inner'.ownerOf kind = inner.ownerOf kind

variable {inner inner' inner'' : TrzszStateInner}

variable {drawn : List Str} {handle : UploadHandle} {handleId ownerId : Str} {now : Nat}

theorem ownerOf_upload (hlook : inner.uploadHandles.lookup handleId = some handle) :
    inner.ownerOf .upload handleId = some handle.ownerId := by
  rw [TrzszStateInner.ownerOf, hlook, Option.map_some]

theorem ownerOf_download {handle : DownloadHandle}
    (hlook : inner.downloadHandles.lookup handleId = some handle) :
    inner.ownerOf .download handleId = some handle.ownerId := by
  rw [TrzszStateInner.ownerOf, hlook, Option.map_some]

/-- The maps have the same entries. -/
structure Same (inner inner' : TrzszStateInner) : Prop where
  owners : ∀ id, inner'.owners.lookup id = inner.owners.lookup id
  uploadHandles : ∀ id, inner'.uploadHandles.lookup id = inner.uploadHandles.lookup id
  downloadHandles : ∀ id, inner'.downloadHandles.lookup id = inner.downloadHandles.lookup id

theorem Same.refl (inner : TrzszStateInner) : Same inner inner :=
  ⟨fun _ => rfl, fun _ => rfl, fun _ => rfl⟩

theorem Same.still (h : Same inner inner') : Still inner inner' := by
  refine ⟨fun kind => funext fun id => ?_, fun kind => funext fun id => ?_⟩
  · rw [TrzszStateInner.held, h.owners, TrzszStateInner.held]
  · cases kind with
    | upload => exact congrArg (Option.map UploadHandle.ownerId) (h.uploadHandles id)
    | download => exact congrArg (Option.map DownloadHandle.ownerId) (h.downloadHandles id)

theorem held_putOwner (inner : TrzszStateInner) (ownerId : Str) (owner : OwnerState)
    (kind : HandleKind) :
    (inner.putOwner ownerId owner).held kind =
      update (inner.held kind) ownerId (some (owner.handles kind).keySet) :=
  Map.map_lookup_insert inner.owners (fun owner => (owner.handles kind).keySet) ownerId owner

theorem held_modifyOwner (inner : TrzszStateInner) (ownerId : Str) (f : OwnerState → OwnerState)
    (kind : HandleKind) :
    (inner.modifyOwner ownerId f).held kind = update (inner.held kind) ownerId
      ((inner.owners.lookup ownerId).map fun owner => ((f owner).handles kind).keySet) :=
  Map.map_lookup_modify inner.owners (fun owner => (owner.handles kind).keySet) ownerId f

@[simp] theorem ownerOf_putOwner (ownerId : Str) (owner : OwnerState) (kind : HandleKind) :
    (inner.putOwner ownerId owner).ownerOf kind = inner.ownerOf kind := by
  cases kind <;> rfl

@[simp] theorem ownerOf_modifyOwner (ownerId : Str) (f : OwnerState → OwnerState)
    (kind : HandleKind) : (inner.modifyOwner ownerId f).ownerOf kind = inner.ownerOf kind := by
  cases kind <;> rfl

/-! ## 2. What keeps the tables -/

/-- **What an access can do**: handles that are drawn anew are opened, no other; and the tables
    agree after it if they did before. -/
structure Kept (drawn : List Str) (inner inner' : TrzszStateInner) : Prop where
  opened : ∀ {kind id o}, inner'.ownerOf kind id = some o →
    inner.ownerOf kind id = some o ∨ id ∈ drawn
  consistent : inner.Consistent → (∀ kind, ∀ id ∈ drawn, inner.ownerOf kind id = none) →
    inner'.Consistent

theorem Still.kept (h : Still inner inner') : Kept drawn inner inner' := by
  refine ⟨fun howner => .inl ?_, fun hcons _ kind => ?_⟩
  · rwa [h.ownerOf] at howner
  · rw [h.held, h.ownerOf]
    exact hcons kind

theorem Kept.trans (h : Kept [] inner inner') (h' : Kept [] inner' inner'') :
    Kept [] inner inner'' := by
  refine ⟨fun howner => ?_, fun hcons _ => h'.consistent (h.consistent hcons nofun) nofun⟩
  rcases h'.opened howner with howner | hmem
  · exact h.opened howner
  · cases hmem

theorem still_modifyOwner {f : OwnerState → OwnerState}
    (hf : ∀ owner kind, (f owner).handles kind = owner.handles kind) :
    Still inner (inner.modifyOwner ownerId f) := by
  refine ⟨fun kind => ?_, ownerOf_modifyOwner ownerId f⟩
  rw [held_modifyOwner]
  simp only [hf]
  exact update_eq_self ownerId (inner.held kind)

theorem still_touchOwner (inner : TrzszStateInner) (ownerId : Str) (now : Nat) :
    Still inner (inner.touchOwner ownerId now) :=
  still_modifyOwner fun _ kind => by cases kind <;> rfl

theorem kept_putOwner {owner : OwnerState}
    (howner : ∀ kind, owner.handles kind = (inner.ownerEntry ownerId now).handles kind) :
    Kept drawn inner (inner.putOwner ownerId owner) := by
  refine ⟨fun h => .inl (by rwa [ownerOf_putOwner] at h), fun hcons _ kind => ?_⟩
  rw [held_putOwner, ownerOf_putOwner, howner]
  unfold ownerEntry
  cases hlook : inner.owners.lookup ownerId with
  | none =>
    have hnone : inner.held kind ownerId = none := by rw [held, hlook, Option.map_none]
    have hnew : ((OwnerState.new now).handles kind).keySet = ∅ := by cases kind <;> rfl
    rw [Option.getD_none, hnew]
    exact (hcons kind).enter hnone
  | some found =>
    have hsame : inner.held kind ownerId = some (found.handles kind).keySet := by
      rw [held, hlook, Option.map_some]
    rw [Option.getD_some, ← hsame, update_eq_self]
    exact hcons kind

theorem held_ownerEntry (kind : HandleKind) (ownerId : Str) (now : Nat) :
    (inner.putOwner ownerId (inner.ownerEntry ownerId now)).held kind ownerId =
      some ((inner.ownerEntry ownerId now).handles kind).keySet := by
  rw [held_putOwner, update_self]

/-- A handle is opened: under an identifier that is drawn for it, by an owner below its
    quota. -/
theorem kept_open (kind : HandleKind) {id : Str} (now : Nat)
    (hroom : ¬ maxHandlesPerOwner ≤ ((inner.ownerEntry ownerId now).handles kind).keys.length)
    (hheld : ∀ k, inner'.held k = update (inner.held k) ownerId
      (some (if k = kind then insert id ((inner.ownerEntry ownerId now).handles k).keySet
        else ((inner.ownerEntry ownerId now).handles k).keySet))) (howner : ∀ k, inner'.ownerOf k =
      if k = kind then update (inner.ownerOf k) id (some ownerId) else inner.ownerOf k) :
    Kept [id] inner inner' := by
  constructor
  · intro k x o hx
    rw [howner] at hx
    by_cases hk : k = kind
    · rw [if_pos hk] at hx
      rcases update_eq_some_iff.mp hx with ⟨rfl, -⟩ | ⟨-, hx⟩
      · exact .inr List.mem_cons_self
      · exact .inl hx
    · rw [if_neg hk] at hx
      exact .inl hx
  · intro hcons hnew k
    have hentered : (inner.putOwner ownerId (inner.ownerEntry ownerId now)).Consistent :=
      (kept_putOwner fun _ => rfl).consistent hcons hnew
    have hk := hentered k
    rw [hheld, howner]
    by_cases hkind : k = kind
    · subst hkind
      rw [if_pos rfl, if_pos rfl]
      have hcard : ((inner.ownerEntry ownerId now).handles k).keySet.card < maxHandlesPerOwner := by
        rw [Map.card_keySet]
        exact Nat.not_le.mp hroom
      have hacq := hk.acquire (held_ownerEntry k ownerId now) hcard
        (hnew k id List.mem_cons_self)
      rwa [held_putOwner, update_idem] at hacq
    · rw [if_neg hkind, if_neg hkind, ← held_putOwner]
      exact hk

theorem kept_close {kind : HandleKind} {id : Str}
    (hone : ∀ o, inner.ownerOf kind id = some o → o = ownerId)
    (hheld : ∀ k, inner'.held k = if k = kind then
      update (inner.held k) ownerId ((inner.held k ownerId).map (·.erase id)) else inner.held k)
    (howner : ∀ k, inner'.ownerOf k =
      if k = kind then update (inner.ownerOf k) id none else inner.ownerOf k) :
    Kept [] inner inner' := by
  constructor
  · intro k x o hx
    rw [howner] at hx
    by_cases hk : k = kind
    · rw [if_pos hk] at hx
      rcases update_eq_some_iff.mp hx with ⟨-, hx⟩ | ⟨-, hx⟩
      · cases hx
      · exact .inl hx
    · rw [if_neg hk] at hx
      exact .inl hx
  · intro hcons _ k
    rw [hheld, howner]
    by_cases hk : k = kind
    · subst hk
      rw [if_pos rfl, if_pos rfl]
      exact (hcons k).release hone
    · rw [if_neg hk, if_neg hk]
      exact hcons k

theorem still_insertUpload {handle' : UploadHandle}
    (hlook : inner.uploadHandles.lookup handleId = some handle)
    (howner : handle'.ownerId = handle.ownerId) :
    Still inner { inner with uploadHandles := inner.uploadHandles.insert handleId handle' } := by
  refine ⟨fun _ => rfl, fun kind => ?_⟩
  cases kind with
  | download => rfl
  | upload =>
    refine (Map.map_lookup_insert inner.uploadHandles (·.ownerId) handleId handle').trans ?_
    refine update_eq_self_iff.mpr ?_
    simp only [hlook, Option.map_some, howner]

theorem still_insertDownload {handle handle' : DownloadHandle}
    (hlook : inner.downloadHandles.lookup handleId = some handle)
    (howner : handle'.ownerId = handle.ownerId) :
    Still inner { inner with
      downloadHandles := inner.downloadHandles.insert handleId handle' } := by
  refine ⟨fun _ => rfl, fun kind => ?_⟩
  cases kind with
  | upload => rfl
  | download =>
    refine (Map.map_lookup_insert inner.downloadHandles (·.ownerId) handleId handle').trans ?_
    refine update_eq_self_iff.mpr ?_
    simp only [hlook, Option.map_some, howner]

theorem same_reinsertUpload (hlook : inner.uploadHandles.lookup handleId = some handle) :
    Same inner { inner with
      uploadHandles := (inner.uploadHandles.erase handleId).insert handleId handle } :=
  ⟨fun _ => rfl, Map.lookup_insert_erase hlook, fun _ => rfl⟩

theorem same_reinsertDownload {handle : DownloadHandle}
    (hlook : inner.downloadHandles.lookup handleId = some handle) :
    Same inner { inner with
      downloadHandles := (inner.downloadHandles.erase handleId).insert handleId handle } :=
  ⟨fun _ => rfl, fun _ => rfl, Map.lookup_insert_erase hlook⟩

theorem held_release (inner : TrzszStateInner) {kind : HandleKind} {id : Str}
    {f : OwnerState → OwnerState} (hf : ∀ owner k, ((f owner).handles k).keySet =
      if k = kind then (owner.handles k).keySet.erase id else (owner.handles k).keySet)
    (k : HandleKind) :
    (inner.modifyOwner ownerId f).held k = if k = kind then
      update (inner.held k) ownerId ((inner.held k ownerId).map (·.erase id))
      else inner.held k := by
  rw [held_modifyOwner]
  simp only [hf]
  by_cases hk : k = kind
  · simp only [if_pos hk, held, Option.map_map]
    rfl
  · simp only [if_neg hk]
    exact update_eq_self ownerId (inner.held k)

theorem kept_takeUpload (now : Nat)
    (hone : ∀ o, inner.ownerOf .upload handleId = some o → o = ownerId) :
    Kept [] inner ({ inner with uploadHandles := inner.uploadHandles.erase handleId
      }.releaseUploadHandle ownerId handleId now) := by
  refine kept_close hone (fun k => ?_) (fun k => ?_)
  · refine held_release { inner with uploadHandles := _ } (fun owner k => ?_) k
    cases k with
    | upload => exact Map.keySet_erase owner.uploadHandles handleId
    | download => rfl
  · cases k with
    | upload => exact Map.map_lookup_erase inner.uploadHandles (·.ownerId) handleId
    | download => rfl

theorem kept_takeDownload (now : Nat)
    (hone : ∀ o, inner.ownerOf .download handleId = some o → o = ownerId) :
    Kept [] inner ({ inner with downloadHandles := inner.downloadHandles.erase handleId
      }.releaseDownloadHandle ownerId handleId now) := by
  refine kept_close hone (fun k => ?_) (fun k => ?_)
  · refine held_release { inner with downloadHandles := _ } (fun owner k => ?_) k
    cases k with
    | upload => rfl
    | download => exact Map.keySet_erase owner.downloadHandles handleId
  · cases k with
    | upload => rfl
    | download => exact Map.map_lookup_erase inner.downloadHandles (·.ownerId) handleId

/-! ## 3. One access -/

theorem kept_registerUploadHandle (ownerId handleId : Str) (file : File) (size now : Nat) :
    Kept [handleId] inner (inner.registerUploadHandle ownerId handleId file size now).1 := by
  unfold registerUploadHandle
  dsimp only
  split
  · exact kept_putOwner fun _ => rfl
  · next hroom =>
      refine kept_open .upload now hroom (fun k => ?_) (fun k => ?_)
      · refine (held_putOwner inner ownerId _ k).trans ?_
        cases k with
        | upload => rw [if_pos rfl]; exact congrArg _ (congrArg some (Map.keySet_insert ..))
        | download => rfl
      · cases k with
        | upload => exact Map.map_lookup_insert inner.uploadHandles (·.ownerId) handleId _
        | download => rfl

theorem kept_registerDownloadHandle (ownerId writerId localName displayName : Str)
    (rootPath finalPath tempPath : PathBuf) (overwrite : Bool) (file : File) (now : Nat) :
    Kept [writerId] inner (inner.registerDownloadHandle ownerId writerId localName displayName
      rootPath finalPath tempPath overwrite file now).1 := by
  unfold registerDownloadHandle
  dsimp only
  split
  · exact kept_putOwner fun _ => rfl
  · next hroom =>
      refine kept_open .download now hroom (fun k => ?_) (fun k => ?_)
      · refine (held_putOwner inner ownerId _ k).trans ?_
        cases k with
        | upload => rfl
        | download => rw [if_pos rfl]; exact congrArg _ (congrArg some (Map.keySet_insert ..))
      · cases k with
        | upload => rfl
        | download => exact Map.map_lookup_insert inner.downloadHandles (·.ownerId) writerId _

theorem Still.trans (h : Still inner inner') (h' : Still inner' inner'') : Still inner inner'' :=
  ⟨fun kind => (h'.held kind).trans (h.held kind),
    fun kind => (h'.ownerOf kind).trans (h.ownerOf kind)⟩

theorem still_readUploadChunk (ownerId handleId : Str) (offset length now : Nat) :
    Still inner (inner.readUploadChunk ownerId handleId offset length now).1 := by
  have htouched := inner.still_touchOwner ownerId now
  unfold readUploadChunk
  dsimp only
  split
  · exact htouched
  · next handle hlook =>
      split
      · exact htouched
      · split
        · exact htouched
        · exact htouched.trans (still_insertUpload hlook rfl)

theorem still_writeDownloadChunk (ownerId writerId : Str) (data : List UInt8) (now : Nat) :
    Still inner (inner.writeDownloadChunk ownerId writerId data now).1 := by
  have htouched := inner.still_touchOwner ownerId now
  unfold writeDownloadChunk
  dsimp only
  split
  · exact htouched
  · next handle hlook =>
      split
      · exact htouched
      · exact htouched.trans (still_insertDownload hlook rfl)

theorem kept_closeUploadHandle (ownerId handleId : Str) (now : Nat) :
    Kept [] inner (inner.closeUploadHandle ownerId handleId now).1 := by
  unfold closeUploadHandle
  split
  · exact (Same.refl inner).still.kept
  · next handle hlook =>
      split
      · exact (same_reinsertUpload hlook).still.kept
      · next howner =>
          refine kept_takeUpload now fun o ho => ?_
          rw [ownerOf_upload hlook] at ho
          rw [← Option.some.inj ho]
          exact not_not.mp howner

theorem kept_takeDownloadHandle (ownerId writerId : Str) (now : Nat)
    (settle : DownloadHandle → FileProc Unit) :
    Kept [] inner (inner.takeDownloadHandle ownerId writerId now settle).1 := by
  unfold takeDownloadHandle
  split
  · exact (Same.refl inner).still.kept
  · next handle hlook =>
      split
      · exact (same_reinsertDownload hlook).still.kept
      · next howner =>
          refine kept_takeDownload now fun o ho => ?_
          rw [ownerOf_download hlook] at ho
          rw [← Option.some.inj ho]
          exact not_not.mp howner

theorem foldl_takeTemp_fst (handleIds : List Str) (state : Map Str DownloadHandle × List PathBuf) :
    (handleIds.foldl takeTemp state).1 = state.1.eraseAll handleIds := by
  induction handleIds generalizing state with
  | nil => rfl
  | cons handleId handleIds ih => exact ih (takeTemp state handleId)

theorem held_eraseOwner (inner : TrzszStateInner) (ownerId : Str) (kind : HandleKind) :
    { inner with owners := inner.owners.erase ownerId }.held kind =
      update (inner.held kind) ownerId none :=
  Map.map_lookup_erase inner.owners (fun owner => (owner.handles kind).keySet) ownerId

theorem ownerOf_eraseOwner (inner : TrzszStateInner) (ownerId : Str) (kind : HandleKind) :
    { inner with owners := inner.owners.erase ownerId }.ownerOf kind = inner.ownerOf kind := by
  cases kind <;> rfl

theorem kept_cleanupOwner (ownerId : Str) : Kept [] inner (inner.cleanupOwner ownerId).1 := by
  unfold cleanupOwner
  split
  · exact (Same.refl inner).still.kept
  · next owner hlook =>
      dsimp only
      rw [foldl_takeTemp_fst]
      generalize hafter : TrzszStateInner.mk _ _ _ = after
      have hheld : ∀ kind, after.held kind = update (inner.held kind) ownerId none := by
        intro kind
        rw [← hafter]
        exact held_eraseOwner inner ownerId kind
      have howner : ∀ kind, after.ownerOf kind = fun id =>
          if id ∈ (owner.handles kind).keySet then none else inner.ownerOf kind id := by
        intro kind
        funext id
        rw [← hafter]
        cases kind with
        | upload => exact Map.map_lookup_eraseAll inner.uploadHandles _ owner.uploadHandles id
        | download => exact Map.map_lookup_eraseAll inner.downloadHandles _ owner.downloadHandles id
      constructor
      · intro kind id o ho
        rw [howner] at ho
        exact .inl (Option.ite_none_left_eq_some.mp ho).2
      · intro hcons _ kind
        rw [hheld, howner]
        exact (hcons kind).leave (by rw [held, hlook, Option.map_some])

/-! ## 4. The purge -/

/-- A loop whose turns keep the tables keeps them; `ok` is what a turn needs of its element. -/
theorem kept_foldl {σ α : Type} (f : σ → TrzszStateInner) (turn : σ → α → σ)
    (ok : TrzszStateInner → α → Prop) (hturn : ∀ s a, ok (f s) a → Kept [] (f s) (f (turn s a)))
    (hok : ∀ s a b, ok (f s) a → ok (f s) b → ok (f (turn s a)) b) :
    ∀ (l : List α) (s : σ), (∀ a ∈ l, ok (f s) a) → Kept [] (f s) (f (l.foldl turn s)) := by
  intro l
  induction l with
  | nil => exact fun s _ => (Same.refl (f s)).still.kept
  | cons a l ih =>
    intro s hall
    have ha := hall a List.mem_cons_self
    have hrest : ∀ b ∈ l, ok (f (turn s a)) b :=
      fun b hb => hok s a b ha (hall b (List.mem_cons_of_mem _ hb))
    exact (hturn s a ha).trans (ih (turn s a) hrest)

variable {expired : Str × Str} {kind : HandleKind} {ttl : Nat}

theorem mem_expiredUploads (h : expired ∈ inner.expiredUploads ttl now) :
    inner.ownerOf .upload expired.1 = some expired.2 := by
  obtain ⟨e, he, rfl⟩ := List.mem_map.mp h
  exact ownerOf_upload (Map.lookup_eq_some_iff.mpr (List.mem_filter.mp he).1)

theorem mem_expiredDownloads (h : expired ∈ inner.expiredDownloads ttl now) :
    inner.ownerOf .download expired.1 = some expired.2 := by
  obtain ⟨e, he, rfl⟩ := List.mem_map.mp h
  exact ownerOf_download (Map.lookup_eq_some_iff.mpr (List.mem_filter.mp he).1)

theorem mem_expiredOwners (h : ownerId ∈ inner.expiredOwners ttl now) (kind : HandleKind) :
    inner.held kind ownerId = some ∅ := by
  obtain ⟨⟨id, owner⟩, he, rfl⟩ := List.mem_map.mp h
  obtain ⟨hentry, hempty⟩ := List.mem_filter.mp he
  rw [Bool.and_eq_true, Bool.and_eq_true, List.isEmpty_iff, List.isEmpty_iff] at hempty
  have hkeys : (owner.handles kind).keys = [] := by
    cases kind with
    | upload => exact hempty.1.1
    | download => exact hempty.1.2
  rw [held, Map.lookup_eq_some_iff.mpr hentry, Option.map_some, Map.keySet, hkeys]
  rfl

/-- An owner that is there holds nothing. -/
def HoldsNothing (inner : TrzszStateInner) (ownerId : Str) : Prop :=
  ∀ kind s, inner.held kind ownerId = some s → s = ∅

theorem kept_expireOwner {state : TrzszStateInner × CleanupPlan}
    (hempty : HoldsNothing state.1 ownerId) : Kept [] state.1 (expireOwner state ownerId).1 := by
  unfold expireOwner
  split
  · exact (Same.refl state.1).still.kept
  · next owner hlook =>
      refine ⟨fun ho => .inl ?_, fun hcons _ kind => ?_⟩
      · exact ho
      · have hheld : state.1.held kind ownerId = some (owner.handles kind).keySet := by
          rw [held, hlook, Option.map_some]
        rw [hempty kind _ hheld] at hheld
        have hleft := (hcons kind).leave hheld
        rwa [held_eraseOwner, ownerOf_eraseOwner]

/-- A handle still names the owner it was found with, or has gone. -/
def Names (kind : HandleKind) (inner : TrzszStateInner) (expired : Str × Str) : Prop :=
  ∀ o, inner.ownerOf kind expired.1 = some o → o = expired.2

theorem Kept.names (h : Kept [] inner inner') (hnames : Names kind inner expired) :
    Names kind inner' expired := by
  intro o ho
  rcases h.opened ho with ho | hmem
  · exact hnames o ho
  · cases hmem

theorem names_of_ownerOf (h : inner.ownerOf kind expired.1 = some expired.2) :
    Names kind inner expired :=
  fun _ ho => Option.some.inj (ho.symm.trans h)

theorem kept_expireUploads (inner : TrzszStateInner) (ttl now : Nat) (released : Str → Nat) :
    Kept [] inner ((inner.expiredUploads ttl now).foldl (expireUpload released) inner) := by
  have hturn : ∀ s expired, Names .upload s expired → Kept [] s (expireUpload released s expired) :=
    fun _ _ hnames => kept_takeUpload _ hnames
  exact kept_foldl id (expireUpload released) (Names .upload) hturn
    (fun s a b ha hb => (hturn s a ha).names hb) (inner.expiredUploads ttl now) inner
    fun expired hmem => names_of_ownerOf (mem_expiredUploads hmem)

theorem kept_expireDownloads (inner : TrzszStateInner) (ttl now : Nat) (released : Str → Nat) :
    Kept [] inner ((inner.expiredDownloads ttl now).foldl (expireDownload released)
      (inner, {})).1 := by
  have hturn : ∀ (s : TrzszStateInner × CleanupPlan) expired, Names .download s.1 expired →
      Kept [] s.1 (expireDownload released s expired).1 :=
    fun _ _ hnames => kept_takeDownload _ hnames
  exact kept_foldl Prod.fst (expireDownload released) (Names .download) hturn
    (fun s a b ha hb => (hturn s a ha).names hb) (inner.expiredDownloads ttl now) (inner, {})
    fun expired hmem => names_of_ownerOf (mem_expiredDownloads hmem)

theorem kept_expireOwners (state : TrzszStateInner × CleanupPlan) (ttl now : Nat) :
    Kept [] state.1 ((state.1.expiredOwners ttl now).foldl expireOwner state).1 := by
  refine kept_foldl Prod.fst expireOwner HoldsNothing (fun _ _ h => kept_expireOwner h) ?_
    (state.1.expiredOwners ttl now) state fun ownerId hmem kind s hs => ?_
  · intro s a b _ hb kind held hheld
    refine hb kind held ?_
    unfold expireOwner at hheld
    split at hheld
    · exact hheld
    · rw [held_eraseOwner] at hheld
      rcases update_eq_some_iff.mp hheld with ⟨-, h⟩ | ⟨-, h⟩
      · cases h
      · exact h
  · exact Option.some.inj (hs.symm.trans (mem_expiredOwners hmem kind))

theorem kept_collectExpiredCleanup (inner : TrzszStateInner) (ttl : Nat) (instants : Instants) :
    Kept [] inner (inner.collectExpiredCleanup ttl instants).1 :=
  (kept_expireUploads inner ttl instants.now instants.released).trans
    ((kept_expireDownloads _ ttl instants.now instants.released).trans
      (kept_expireOwners _ ttl instants.now))

/-! ## 5. Runs -/

theorem kept_access (inner : TrzszStateInner) (ttl : Nat) (access : Access) :
    Kept access.uuids inner (inner.access ttl access) := by
  cases access with
  | purgeExpired instants => exact kept_collectExpiredCleanup inner ttl instants
  | setAuthorizedUploadPaths ownerId paths now =>
    exact kept_putOwner fun kind => by cases kind <;> rfl
  | isUploadPathAuthorized ownerId path now =>
    show Kept [] inner (inner.isUploadPathAuthorized ownerId path now).1
    unfold isUploadPathAuthorized
    split
    · exact (Same.refl inner).still.kept
    · exact (inner.still_touchOwner ownerId now).kept
  | registerUploadHandle ownerId handleId file size now =>
    exact kept_registerUploadHandle ownerId handleId file size now
  | readUploadChunk ownerId handleId offset length now =>
    exact (still_readUploadChunk ownerId handleId offset length now).kept
  | closeUploadHandle ownerId handleId now => exact kept_closeUploadHandle ownerId handleId now
  | prepareDownloadRoot ownerId rootPath now =>
    exact kept_putOwner fun kind => by cases kind <;> rfl
  | preparedDownloadRoot ownerId now =>
    show Kept [] inner (inner.preparedDownloadRoot ownerId now).1
    unfold preparedDownloadRoot
    split
    · exact (Same.refl inner).still.kept
    · exact (inner.still_touchOwner ownerId now).kept
  | registerDownloadHandle ownerId writerId localName displayName rootPath finalPath tempPath
      overwrite file now =>
      exact kept_registerDownloadHandle ownerId writerId localName displayName rootPath finalPath
        tempPath overwrite file now
  | registerDownloadDirectory ownerId directoryPath now =>
    exact kept_putOwner fun kind => by cases kind <;> rfl
  | commitDownloadDirectory ownerId directoryPath now =>
    exact (still_modifyOwner fun owner kind => by cases kind <;> rfl).kept
  | writeDownloadChunk ownerId writerId data now =>
    exact (still_writeDownloadChunk ownerId writerId data now).kept
  | finishDownloadHandle ownerId writerId now =>
    exact kept_takeDownloadHandle ownerId writerId now _
  | abortDownloadHandle ownerId writerId now =>
    exact kept_takeDownloadHandle ownerId writerId now _
  | cleanupOwner ownerId => exact kept_cleanupOwner ownerId

/-- The tables agree, and every handle is one that was drawn. -/
structure Opened (drawn : List Str) (inner : TrzszStateInner) : Prop where
  consistent : inner.Consistent
  ids : ∀ {kind id o}, inner.ownerOf kind id = some o → id ∈ drawn

theorem opened_empty : Opened [] {} :=
  ⟨fun kind => by cases kind <;> exact Owned.empty, fun {kind _ _} h => by cases kind <;> cases h⟩

theorem Opened.access (h : Opened drawn inner) (ttl : Nat) {access : Access}
    (hnodup : (drawn ++ access.uuids).Nodup) :
    Opened (drawn ++ access.uuids) (inner.access ttl access) := by
  have hkept := inner.kept_access ttl access
  refine ⟨hkept.consistent h.consistent fun kind id hid => ?_, fun ho => ?_⟩
  · cases howner : inner.ownerOf kind id with
    | none => rfl
    | some o => exact absurd rfl ((List.nodup_append.mp hnodup).2.2 id (h.ids howner) id hid)
  · rcases hkept.opened ho with ho | hid
    · exact List.mem_append_left _ (h.ids ho)
    · exact List.mem_append_right _ hid

end TrzszStateInner

/-! ## 6. What the tables say -/

namespace TrzszStateInner

variable {inner inner' : TrzszStateInner}

/-- The uploads that are open for an owner. -/
def openUploads (inner : TrzszStateInner) (ownerId : Str) : List Str :=
  (inner.uploadHandles.entries.filter (·.2.ownerId = ownerId)).map (·.1)

/-- The downloads that are open for an owner. -/
def openDownloads (inner : TrzszStateInner) (ownerId : Str) : List Str :=
  (inner.downloadHandles.entries.filter (·.2.ownerId = ownerId)).map (·.1)

/-- **Handles are owned**: the sets of every owner are exactly the handles that name it, every
    handle names an owner that is there, and of each kind an owner has at most 256. -/
structure WellOwned (inner : TrzszStateInner) : Prop where
  uploads : ∀ {ownerId owner}, inner.owners.lookup ownerId = some owner → ∀ id,
    id ∈ owner.uploadHandles.keys ↔
      ∃ handle, inner.uploadHandles.lookup id = some handle ∧ handle.ownerId = ownerId
  downloads : ∀ {ownerId owner}, inner.owners.lookup ownerId = some owner → ∀ id,
    id ∈ owner.downloadHandles.keys ↔
      ∃ handle, inner.downloadHandles.lookup id = some handle ∧ handle.ownerId = ownerId
  uploadOwner : ∀ {id handle}, inner.uploadHandles.lookup id = some handle →
    ∃ owner, inner.owners.lookup handle.ownerId = some owner
  downloadOwner : ∀ {id handle}, inner.downloadHandles.lookup id = some handle →
    ∃ owner, inner.owners.lookup handle.ownerId = some owner
  uploadQuota : ∀ ownerId, (inner.openUploads ownerId).length ≤ 256
  downloadQuota : ∀ ownerId, (inner.openDownloads ownerId).length ≤ 256

theorem Consistent.mem_iff (h : inner.Consistent) {ownerId : Str} {owner : OwnerState}
    (howner : inner.owners.lookup ownerId = some owner) (kind : HandleKind) (id : Str) :
    id ∈ (owner.handles kind).keys ↔ inner.ownerOf kind id = some ownerId := by
  have hheld : inner.held kind ownerId = some (owner.handles kind).keySet := by
    rw [held, howner, Option.map_some]
  rw [← Map.mem_keySet]
  exact (h kind).exact_iff hheld id

theorem Consistent.known (h : inner.Consistent) {kind : HandleKind} {id ownerId : Str}
    (hid : inner.ownerOf kind id = some ownerId) :
    ∃ owner, inner.owners.lookup ownerId = some owner := by
  obtain ⟨s, hs⟩ := (h kind).known hid
  obtain ⟨owner, howner, -⟩ := Option.map_eq_some_iff.mp hs
  exact ⟨owner, howner⟩

theorem nodup_keys_filter {ν : Type} (m : Map Str ν) (p : (Σ _ : Str, ν) → Bool) :
    ((m.entries.filter p).map (·.1)).Nodup :=
  (AList.keys_nodup m).sublist (List.filter_sublist.map _)

theorem Consistent.wellOwned (h : inner.Consistent) : WellOwned inner where
  uploads howner id := by
    rw [← Option.map_eq_some_iff (f := UploadHandle.ownerId)]
    exact h.mem_iff howner .upload id
  downloads howner id := by
    rw [← Option.map_eq_some_iff (f := DownloadHandle.ownerId)]
    exact h.mem_iff howner .download id
  uploadOwner hlook := h.known (ownerOf_upload hlook)
  downloadOwner hlook := h.known (ownerOf_download hlook)
  uploadQuota ownerId := by
    refine (h .upload).quota (o := ownerId) (nodup_keys_filter _ _) fun id hid => ?_
    obtain ⟨e, he, rfl⟩ := List.mem_map.mp hid
    obtain ⟨hentry, hnames⟩ := List.mem_filter.mp he
    rw [ownerOf_upload (Map.lookup_eq_some_iff.mpr hentry), of_decide_eq_true hnames]
  downloadQuota ownerId := by
    refine (h .download).quota (o := ownerId) (nodup_keys_filter _ _) fun id hid => ?_
    obtain ⟨e, he, rfl⟩ := List.mem_map.mp hid
    obtain ⟨hentry, hnames⟩ := List.mem_filter.mp he
    rw [ownerOf_download (Map.lookup_eq_some_iff.mpr hentry), of_decide_eq_true hnames]

/-! ## 7. Handles of others -/

/-- A handle is not the caller's: it names another owner, or there is none. -/
def Foreign (inner : TrzszStateInner) (kind : HandleKind) (caller handleId : Str) : Prop :=
  ∀ o, inner.ownerOf kind handleId = some o → o ≠ caller

/-- The error that the use of a foreign handle ends with. -/
def refusal (inner : TrzszStateInner) (kind : HandleKind) (handleId : Str) : TrzszError :=
  match inner.ownerOf kind handleId with
  | none => .handleNotFound handleId
  | some _ => .handleOwnerMismatch

/-- The work of a method fails before it reaches a file, and leaves a state as it is. -/
structure Declined {α : Type} (result : TrzszStateInner × FileProc α) (error : TrzszError)
    (inner : TrzszStateInner) : Prop where
  program : result.2 = fail error
  same : Same inner result.1

variable {caller handleId : Str}

theorem refusal_upload {handle : UploadHandle}
    (hlook : inner.uploadHandles.lookup handleId = some handle) :
    inner.refusal .upload handleId = .handleOwnerMismatch := by
  rw [refusal, ownerOf_upload hlook]

theorem refusal_download {handle : DownloadHandle}
    (hlook : inner.downloadHandles.lookup handleId = some handle) :
    inner.refusal .download handleId = .handleOwnerMismatch := by
  rw [refusal, ownerOf_download hlook]

theorem refusal_noUpload (hlook : inner.uploadHandles.lookup handleId = none) :
    inner.refusal .upload handleId = .handleNotFound handleId := by
  rw [refusal, ownerOf, hlook, Option.map_none]

theorem refusal_noDownload (hlook : inner.downloadHandles.lookup handleId = none) :
    inner.refusal .download handleId = .handleNotFound handleId := by
  rw [refusal, ownerOf, hlook, Option.map_none]

theorem declined_readUploadChunk (h : inner.Foreign .upload caller handleId)
    (offset length now : Nat) :
    Declined (inner.readUploadChunk caller handleId offset length now)
      (inner.refusal .upload handleId) (inner.touchOwner caller now) := by
  unfold readUploadChunk
  dsimp only
  split
  · next hlook =>
      have hnone : inner.uploadHandles.lookup handleId = none := hlook
      rw [refusal_noUpload hnone]
      exact ⟨rfl, .refl _⟩
  · next handle hlook =>
      have hsome : inner.uploadHandles.lookup handleId = some handle := hlook
      rw [refusal_upload hsome, if_pos (h _ (ownerOf_upload hsome))]
      exact ⟨rfl, .refl _⟩

theorem declined_writeDownloadChunk (h : inner.Foreign .download caller handleId)
    (data : List UInt8) (now : Nat) :
    Declined (inner.writeDownloadChunk caller handleId data now)
      (inner.refusal .download handleId) (inner.touchOwner caller now) := by
  unfold writeDownloadChunk
  dsimp only
  split
  · next hlook =>
      have hnone : inner.downloadHandles.lookup handleId = none := hlook
      rw [refusal_noDownload hnone]
      exact ⟨rfl, .refl _⟩
  · next handle hlook =>
      have hsome : inner.downloadHandles.lookup handleId = some handle := hlook
      rw [refusal_download hsome, if_pos (h _ (ownerOf_download hsome))]
      exact ⟨rfl, .refl _⟩

theorem declined_closeUploadHandle (h : inner.Foreign .upload caller handleId) (now : Nat) :
    Declined (inner.closeUploadHandle caller handleId now) (inner.refusal .upload handleId)
      inner := by
  unfold closeUploadHandle
  split
  · next hlook =>
      rw [refusal_noUpload hlook]
      exact ⟨rfl, .refl _⟩
  · next handle hlook =>
      rw [refusal_upload hlook]
      rw [if_pos (h _ (ownerOf_upload hlook))]
      exact ⟨rfl, same_reinsertUpload hlook⟩

theorem declined_takeDownloadHandle (h : inner.Foreign .download caller handleId) (now : Nat)
    (settle : DownloadHandle → FileProc Unit) :
    Declined (inner.takeDownloadHandle caller handleId now settle)
      (inner.refusal .download handleId) inner := by
  unfold takeDownloadHandle
  split
  · next hlook =>
      rw [refusal_noDownload hlook]
      exact ⟨rfl, .refl _⟩
  · next handle hlook =>
      rw [refusal_download hlook]
      rw [if_pos (h _ (ownerOf_download hlook))]
      exact ⟨rfl, same_reinsertDownload hlook⟩

theorem Kept.foreign {kind : HandleKind} (h : Kept [] inner inner')
    (hforeign : inner.Foreign kind caller handleId) : inner'.Foreign kind caller handleId := by
  intro o ho
  rcases h.opened ho with ho | hmem
  · exact hforeign o ho
  · cases hmem

end TrzszStateInner

namespace TrzszState

open TrzszStateInner

theorem opened_run (state : TrzszState) {accesses : List Access} {drawn : List Str}
    (h : Opened drawn state.inner) (hnodup : (drawn ++ accesses.flatMap Access.uuids).Nodup) :
    Opened (drawn ++ accesses.flatMap Access.uuids) (state.run accesses).inner := by
  induction accesses generalizing drawn state with
  | nil => rwa [List.flatMap_nil, List.append_nil]
  | cons access accesses ih =>
    rw [List.flatMap_cons, ← List.append_assoc] at hnodup ⊢
    exact ih (state.step access) (h.access state.handleTtl (List.nodup_append.mp hnodup).1) hnodup

/-- A method fails after the purge it begins with and before it reaches a file of its own; the
    state it leaves has the entries of another. -/
structure Refused {α : Type} (result : TrzszState × FileProc α) (purge : FileProc Unit)
    (error : TrzszError) (inner : TrzszStateInner) : Prop where
  program : result.2 = do
    purge
    fail error
  same : Same inner result.1.inner

/-- The work of no method is done on a handle of another owner. -/
structure DeclinesOthers (inner : TrzszStateInner) (caller handleId : Str) : Prop where
  readUploadChunk : inner.Foreign .upload caller handleId → ∀ offset length now,
    Declined (inner.readUploadChunk caller handleId offset length now)
      (inner.refusal .upload handleId) (inner.touchOwner caller now)
  closeUploadHandle : inner.Foreign .upload caller handleId → ∀ now,
    Declined (inner.closeUploadHandle caller handleId now) (inner.refusal .upload handleId) inner
  writeDownloadChunk : inner.Foreign .download caller handleId → ∀ data now,
    Declined (inner.writeDownloadChunk caller handleId data now)
      (inner.refusal .download handleId) (inner.touchOwner caller now)
  finishDownloadHandle : inner.Foreign .download caller handleId → ∀ now,
    Declined (inner.finishDownloadHandle caller handleId now)
      (inner.refusal .download handleId) inner
  abortDownloadHandle : inner.Foreign .download caller handleId → ∀ now,
    Declined (inner.abortDownloadHandle caller handleId now)
      (inner.refusal .download handleId) inner

/-- **Every method refuses a handle of another owner**, in the state after the purge of expired
    handles; a read or a write has touched the owner that asks. -/
structure RefusesOthers (state : TrzszState) (caller handleId : Str) (instants : Instants)
    (now : Nat) : Prop where
  readUploadChunk : state.inner.Foreign .upload caller handleId → ∀ offset length,
    Refused (state.readUploadChunk instants caller handleId now offset length)
      (state.purgeExpired instants).2
      ((state.purgeExpired instants).1.inner.refusal .upload handleId)
      ((state.purgeExpired instants).1.inner.touchOwner caller now)
  closeUploadHandle : state.inner.Foreign .upload caller handleId →
    Refused (state.closeUploadHandle instants caller handleId now)
      (state.purgeExpired instants).2
      ((state.purgeExpired instants).1.inner.refusal .upload handleId)
      (state.purgeExpired instants).1.inner
  writeDownloadChunk : state.inner.Foreign .download caller handleId → ∀ data,
    Refused (state.writeDownloadChunk instants caller handleId now data)
      (state.purgeExpired instants).2
      ((state.purgeExpired instants).1.inner.refusal .download handleId)
      ((state.purgeExpired instants).1.inner.touchOwner caller now)
  finishDownloadHandle : state.inner.Foreign .download caller handleId →
    Refused (state.finishDownloadHandle instants caller handleId now)
      (state.purgeExpired instants).2
      ((state.purgeExpired instants).1.inner.refusal .download handleId)
      (state.purgeExpired instants).1.inner
  abortDownloadHandle : state.inner.Foreign .download caller handleId →
    Refused (state.abortDownloadHandle caller handleId now) (ret ())
      (state.inner.refusal .download handleId) state.inner

theorem declinesOthers (inner : TrzszStateInner) (caller handleId : Str) :
    DeclinesOthers inner caller handleId where
  readUploadChunk := declined_readUploadChunk
  closeUploadHandle := declined_closeUploadHandle
  writeDownloadChunk := declined_writeDownloadChunk
  finishDownloadHandle h now := declined_takeDownloadHandle h now _
  abortDownloadHandle h now := declined_takeDownloadHandle h now _

theorem foreign_purgeExpired {state : TrzszState} {kind : HandleKind} {caller handleId : Str}
    (instants : Instants) (h : state.inner.Foreign kind caller handleId) :
    (state.purgeExpired instants).1.inner.Foreign kind caller handleId :=
  (kept_collectExpiredCleanup state.inner state.handleTtl instants).foreign h

theorem refused_afterPurge {α : Type} {state : TrzszState} {instants : Instants}
    {work : TrzszStateInner → TrzszStateInner × FileProc α} {error : TrzszError}
    {inner : TrzszStateInner}
    (h : Declined (work (state.purgeExpired instants).1.inner) error inner) :
    Refused (state.afterPurge instants work) (state.purgeExpired instants).2 error inner := by
  rw [afterPurge_eq, h.program]
  exact ⟨rfl, h.same⟩

theorem refusesOthers (state : TrzszState) (caller handleId : Str) (instants : Instants)
    (now : Nat) : RefusesOthers state caller handleId instants now := by
  have hdeclines := declinesOthers (state.purgeExpired instants).1.inner caller handleId
  constructor
  · intro h offset length
    exact refused_afterPurge
      (hdeclines.readUploadChunk (foreign_purgeExpired instants h) offset length now)
  · intro h
    exact refused_afterPurge (hdeclines.closeUploadHandle (foreign_purgeExpired instants h) now)
  · intro h data
    exact refused_afterPurge
      (hdeclines.writeDownloadChunk (foreign_purgeExpired instants h) data now)
  · intro h
    exact refused_afterPurge (hdeclines.finishDownloadHandle (foreign_purgeExpired instants h) now)
  · intro h
    have hdeclined := (declinesOthers state.inner caller handleId).abortDownloadHandle h now
    exact ⟨hdeclined.program, hdeclined.same⟩

/-- **The handles of a transfer belong to its owner**, after every run of the methods and of the
    janitor. `Uuid::new_v4` draws no identifier twice. -/
theorem handles_owned (handleTtl : Nat) (accesses : List Access)
    (hfresh : (accesses.flatMap Access.uuids).Nodup) :
    ((withTtl handleTtl).run accesses).inner.WellOwned ∧
      ∀ caller handleId,
        DeclinesOthers ((withTtl handleTtl).run accesses).inner caller handleId ∧
        ∀ instants now,
          RefusesOthers ((withTtl handleTtl).run accesses) caller handleId instants now := by
  have hopened := opened_run (withTtl handleTtl) opened_empty hfresh
  refine ⟨hopened.consistent.wellOwned, fun caller handleId => ⟨?_, fun instants now => ?_⟩⟩
  · exact declinesOthers _ caller handleId
  · exact refusesOthers _ caller handleId instants now

def firstHandle : Str := "5f0c2e0a-7d0b-4c4e-9d43-1f6f0f6c9a01".toList

def secondHandle : Str := "5f0c2e0a-7d0b-4c4e-9d43-1f6f0f6c9a02".toList

/-- One owner uploads and downloads, another has only authorized paths. -/
def twoOwners : List Access :=
  [.registerUploadHandle ['a'] firstHandle ⟨1⟩ 3 0,
    .registerDownloadHandle ['a'] secondHandle ['f'] ['f'] [.rootDir] [.rootDir, .normal ['f']]
      [.rootDir, .normal ['t']] false ⟨2⟩ 0,
    .setAuthorizedUploadPaths ['b'] ∅ 0]

/-- The times of a purge at `now`. -/
def allAt (now : Nat) : Instants := ⟨now, fun _ => now⟩

theorem handles_owned_two :
    (new.run twoOwners).inner.WellOwned ∧ ∀ caller handleId,
      DeclinesOthers (new.run twoOwners).inner caller handleId ∧
      ∀ instants now, RefusesOthers (new.run twoOwners) caller handleId instants now :=
  handles_owned defaultHandleTtl twoOwners (by decide)

/-- The use of a foreign handle does not leave everything as it is: a read touches the owner that
    asks, and a late close finds the handle expired. -/
theorem foreign_use_changes :
    ((new.run twoOwners).inner.ownerOf .upload firstHandle = some ['a']) ∧
      ¬ Same (new.run twoOwners).inner
        ((new.run twoOwners).readUploadChunk (allAt 1) ['b'] firstHandle 1 0 3).1.inner ∧
      ¬ Same (new.run twoOwners).inner
        ((new.run twoOwners).closeUploadHandle (allAt defaultHandleTtl) ['b'] firstHandle
          defaultHandleTtl).1.inner := by
  refine ⟨by decide, fun hread => ?_, fun hclose => ?_⟩
  · have htouched := congrArg (Option.map (·.touchedAt)) (hread.owners ['b'])
    exact absurd htouched (by decide)
  · have hexpired := congrArg Option.isSome (hclose.uploadHandles firstHandle)
    exact absurd hexpired (by decide)

end TrzszState

end Hapcli.Trzsz
