/-
  Subject:   What is under the destination after an attempt to upload, and over a history of attempts
             to one destination.

  * **`destination_eq`** -- after an attempt that returned, the destination is what it took over and the
    rest of the local file; `exact_iff` is when that is the file;
  * **`uploads_exact`** -- histories.
-/
import Hapcli.Lib.Runs
import Hapcli.Sftp.Upload

namespace Hapcli.Sftp

open Hapcli.Rust
open Hapcli.Lib
open Hapcli.Lib.AsyncAction
open Hapcli.Lib.Runs

theorem writeAt_length (bytes data : List UInt8) :
    writeAt bytes bytes.length data = bytes ++ data := by
  simp [writeAt]

namespace Upload

variable {codec : RmpSerde} {canonicalRemote : Str} {upload : Upload}

/-! ## 1. Requests -/

section Requests

variable {P E : UploadWorld → Prop}

theorem ensures_look (hE : ∀ w, P w → E w) :
    Action.Ensures (fun s => P s.world) look (fun _ s => P s.world) fun s => E s.world :=
  ensures_await hE fun _ _ _ _ hw h => by
    cases h
    exact ⟨hw, hE _ hw⟩

theorem ensures_transact {message : Str} {transaction : RedbTables → Option RedbTables}
    (hfiles : ∀ w tables, P w → P { w with tables := tables }) (hE : ∀ w, P w → E w) :
    Action.Ensures (fun s => P s.world) (transact message transaction) (fun _ s => P s.world)
      fun s => E s.world := by
  refine ensures_await hE ?_
  intro _ w _ w' hw h
  split at h
  · cases h
  · cases h
    exact ⟨hfiles _ _ hw, hE _ (hfiles _ _ hw)⟩

theorem ensures_listIncomplete {sessionId : Str} (hE : ∀ w, P w → E w) :
    Action.Ensures (fun s => P s.world) (listIncomplete codec sessionId) (fun _ s => P s.world)
      fun s => E s.world := by
  refine ensures_await hE ?_
  intro _ w _ w' hw h
  split at h
  · cases h
  · cases h
    exact ⟨hw, hE _ hw⟩

theorem ensures_loadProgress {id : Str} (hE : ∀ w, P w → E w) :
    Action.Ensures (fun s => P s.world) (loadProgress codec id) (fun _ s => P s.world)
      fun s => E s.world := by
  refine ensures_await hE ?_
  intro _ w _ w' hw h
  split at h
  · cases h
  · cases h
    exact ⟨hw, hE _ hw⟩

end Requests

/-! ## 2. The loop -/

theorem sendChunks_nil (write : Nat → List UInt8 → UploadAction Unit)
    (report : Nat → UploadAction Unit) (fuel transferred : Nat) :
    sendChunks write report fuel [] transferred = (do
      let _ ← look
      let _ ← look
      pure transferred) := by
  cases fuel <;> rfl

/-- The loop sends what is left. `At` says of a world that the file that is written has these
    bytes. -/
theorem ensures_sendChunks (At : List UInt8 → UploadWorld → Prop) {E : UploadWorld → Prop}
    {write : Nat → List UInt8 → UploadAction Unit} {report : Nat → UploadAction Unit}
    {final : List UInt8} (hE : ∀ bytes w, bytes <+: final → At bytes w → E w)
    (hwrite : ∀ bytes data, bytes ++ data <+: final →
      Action.Ensures (fun s => At bytes s.world) (write bytes.length data)
        (fun _ s => At (bytes ++ data) s.world) fun s => E s.world)
    (hreport : ∀ bytes transferred, bytes <+: final →
      Action.Ensures (fun s => At bytes s.world) (report transferred)
        (fun _ s => At bytes s.world) fun s => E s.world)
    (fuel : Nat) (bytes rest : List UInt8) (hfinal : bytes ++ rest = final) :
    Action.Ensures (fun s => At bytes s.world) (sendChunks write report fuel rest bytes.length)
      (fun _ s => At final s.world) fun s => E s.world := by
  induction fuel generalizing bytes rest with
  | zero =>
    have hbefore : ∀ w, At bytes w → E w := fun w => hE bytes w ⟨rest, hfinal⟩
    cases rest with
    | nil =>
      obtain rfl : bytes = final := (List.append_nil bytes).symm.trans hfinal
      rw [sendChunks_nil]
      refine (ensures_look hbefore).bind fun _ => ?_
      exact (ensures_look hbefore).bind fun _ => Action.Ensures.pure fun _ hs => hs
    | cons byte rest => exact Action.Ensures.throw fun s => hbefore s.world
  | succ fuel ih =>
    have hbefore : ∀ w, At bytes w → E w := fun w => hE bytes w ⟨rest, hfinal⟩
    cases rest with
    | nil =>
      obtain rfl : bytes = final := (List.append_nil bytes).symm.trans hfinal
      rw [sendChunks_nil]
      refine (ensures_look hbefore).bind fun _ => ?_
      exact (ensures_look hbefore).bind fun _ => Action.Ensures.pure fun _ hs => hs
    | cons byte rest =>
      refine (ensures_look hbefore).bind fun _ => ?_
      refine (ensures_look hbefore).bind fun read => ?_
      -- the piece that was read, and what is left after it
      have hsplit := List.prefix_iff_eq_append.mp (List.take_prefix (max 1 read) (byte :: rest))
      generalize (byte :: rest).take (max 1 read) = chunk at hsplit
      have hchunk : bytes ++ chunk ++ (byte :: rest).drop chunk.length = final := by
        rw [List.append_assoc, hsplit, hfinal]
      refine (hwrite bytes chunk ⟨_, hchunk⟩).bind fun _ => ?_
      refine (hreport (bytes ++ chunk) (bytes.length + chunk.length) ⟨_, hchunk⟩).bind
        fun _ => ?_
      rw [← List.length_append]
      exact ih (bytes ++ chunk) _ hchunk

/-! ## 3. The files -/

/-- The part, where there is one, is of a kind. -/
def PartIs (K : List UInt8 → Prop) (w : UploadWorld) : Prop := ∀ bytes, w.part = some bytes → K bytes

/-- What an attempt has done that returns: the part that is left, if there is one, is of the kind,
    and the destination has these bytes. -/
def Sent (K : List UInt8 → Prop) (final : List UInt8) (w : UploadWorld) : Prop :=
  PartIs K w ∧ w.destination = some final

section Files

variable {K : List UInt8 → Prop} {final : List UInt8}

variable {bytes taken : List UInt8}

variable {data : List UInt8} {w : UploadWorld}

theorem partIs_of_eq (hpart : w.part = some bytes) (hbytes : K bytes) : PartIs K w := by
  intro found hfound
  rw [hpart] at hfound
  cases hfound
  exact hbytes

theorem partIs_none (hpart : w.part = none) : PartIs K w := by
  intro found hfound
  rw [hpart] at hfound
  cases hfound

theorem ensures_deletePart :
    Action.Ensures (fun s => PartIs K s.world) (deletePart canonicalRemote)
      (fun _ s => PartIs K s.world) fun s => PartIs K s.world := by
  refine ensures_await (fun _ hw => hw) ?_
  intro _ w _ w' hw h
  split at h
  · cases h
  · cases h
    exact ⟨partIs_none rfl, partIs_none rfl⟩

theorem ensures_openAt (hbegins : taken <+: final) (hK : ∀ bytes, bytes <+: final → K bytes) :
    Action.Ensures
      (fun s => PartIs K s.world ∧ (0 < taken.length → s.world.part = some taken))
      (openAt canonicalRemote taken.length) (fun _ s => s.world.part = some taken)
      fun s => PartIs K s.world := by
  unfold openAt
  split
  · rename_i hpos
    refine Action.Ensures.weaken (P := fun s => s.world.part = some taken)
      (Q := fun _ s => s.world.part = some taken) (E := fun s => PartIs K s.world) ?_
      (fun s hs => hs.2 hpos) (fun _ _ hs => hs) fun _ hs => hs
    refine ensures_await (P := fun w => w.part = some taken) (Q := fun _ w => w.part = some taken)
      (E := PartIs K) (fun _ hw => partIs_of_eq hw (hK _ hbegins)) ?_
    intro _ w _ w' hw h
    split at h
    · cases h
    · cases h
      exact ⟨hw, partIs_of_eq hw (hK _ hbegins)⟩
  · rename_i hpos
    obtain rfl := List.length_eq_zero_iff.mp (Nat.eq_zero_of_not_pos hpos)
    refine Action.Ensures.weaken (P := fun s => PartIs K s.world)
      (Q := fun _ s => s.world.part = some []) (E := fun s => PartIs K s.world) ?_
      (fun s hs => hs.1) (fun _ _ hs => hs) fun _ hs => hs
    refine ensures_await (P := PartIs K) (Q := fun _ w => w.part = some []) (E := PartIs K)
      (fun _ hw => hw) ?_
    intro _ w _ w' hw h
    cases h
    exact ⟨rfl, partIs_of_eq rfl (hK _ hbegins)⟩

theorem ensures_writePart (hbegins : bytes ++ data <+: final)
    (hK : ∀ bytes, bytes <+: final → K bytes) :
    Action.Ensures (fun s => s.world.part = some bytes) (writePart bytes.length data)
      (fun _ s => s.world.part = some (bytes ++ data)) fun s => PartIs K s.world := by
  refine ensures_await (P := fun w => w.part = some bytes)
    (Q := fun _ w => w.part = some (bytes ++ data)) (E := PartIs K)
    (fun _ hw => partIs_of_eq hw (hK _ ((List.prefix_append _ _).trans hbegins))) ?_
  intro _ w _ w' hw h
  cases h
  have hpart : w.part.map (fun bytes' => writeAt bytes' bytes.length data) =
      some (bytes ++ data) := by
    rw [hw, Option.map_some, writeAt_length]
  exact ⟨hpart, partIs_of_eq hpart (hK _ hbegins)⟩

theorem ensures_report (progress : StoredTransferProgress) (transferred : Nat) (hbytes : K bytes) :
    Action.Ensures (fun s => s.world.part = some bytes) (upload.report codec progress transferred)
      (fun _ s => s.world.part = some bytes) fun s => PartIs K s.world := by
  have hE : ∀ w : UploadWorld, w.part = some bytes → PartIs K w := fun _ hw => partIs_of_eq hw hbytes
  unfold report
  refine (ensures_look (P := fun w => w.part = some bytes) hE).bind fun due => ?_
  split
  · exact Action.Ensures.pure fun _ hs => hs
  · exact ensures_transact (P := fun w => w.part = some bytes) (fun _ _ hw => hw) hE

theorem ensures_uploadFileResumeInner (hfinal : taken ++ upload.content.drop taken.length = final)
    (hK : ∀ bytes, bytes <+: final → K bytes) (progress : StoredTransferProgress) :
    Action.Ensures
      (fun s => PartIs K s.world ∧ (0 < taken.length → s.world.part = some taken))
      (upload.uploadFileResumeInner codec canonicalRemote taken.length progress)
      (fun _ s => s.world.part = some final) fun s => PartIs K s.world := by
  have hbegins : taken <+: final := ⟨_, hfinal⟩
  have hE : ∀ bytes w, bytes <+: final → UploadWorld.part w = some bytes → PartIs K w :=
    fun bytes w hbytes hw => partIs_of_eq hw (hK bytes hbytes)
  have hsent : ∀ w : UploadWorld, w.part = some final → PartIs K w :=
    fun w => hE final w (List.prefix_refl _)
  refine (ensures_look
    (P := fun w => PartIs K w ∧ (0 < taken.length → w.part = some taken))
    fun _ hw => hw.1).bind fun _ => ?_
  refine (ensures_openAt hbegins hK).bind fun _ => ?_
  refine (ensures_sendChunks (fun bytes w => w.part = some bytes) hE
    (fun bytes data hdata => ensures_writePart hdata hK)
    (fun bytes transferred hbytes => ensures_report progress transferred (hK bytes hbytes))
    upload.content.length taken _ hfinal).bind fun transferred => ?_
  refine (ensures_look (P := fun w => w.part = some final) hsent).bind fun _ => ?_
  refine (ensures_transact (P := fun w => w.part = some final) (fun _ _ hw => hw) hsent).bind
    fun _ => ?_
  exact Action.Ensures.pure fun _ hs => hs

theorem ensures_writeDestination :
    Action.Ensures (fun s => Sent K bytes s.world) (writeDestination bytes.length data)
      (fun _ s => Sent K (bytes ++ data) s.world) fun s => PartIs K s.world := by
  refine ensures_await (P := Sent K bytes) (Q := fun _ => Sent K (bytes ++ data)) (E := PartIs K)
    (fun _ hw => hw.1) ?_
  intro _ w _ w' hw h
  cases h
  have hdestination : w.destination.map (fun bytes' => writeAt bytes' bytes.length data) =
      some (bytes ++ data) := by
    rw [hw.2, Option.map_some, writeAt_length]
  exact ⟨⟨hw.1, hdestination⟩, hw.1⟩

theorem ensures_uploadFileInner :
    Action.Ensures (fun s => PartIs K s.world) upload.uploadFileInner
      (fun _ s => Sent K upload.content s.world) fun s => PartIs K s.world := by
  have hcreate : Action.Ensures (fun s => PartIs K s.world) createDestination
      (fun _ s => Sent K [] s.world) fun s => PartIs K s.world := by
    refine ensures_await (P := PartIs K) (Q := fun _ => Sent K []) (E := PartIs K)
      (fun _ hw => hw) ?_
    intro _ w _ w' hw h
    cases h
    exact ⟨⟨hw, rfl⟩, hw⟩
  refine (ensures_look (P := PartIs K) fun _ hw => hw).bind fun _ => ?_
  refine hcreate.bind fun _ => ?_
  refine (ensures_sendChunks (Sent K) (E := PartIs K) (fun _ _ _ hw => hw.1)
    (fun bytes data _ => ensures_writeDestination)
    (fun _ _ _ => Action.Ensures.pure fun _ hs => hs)
    upload.content.length [] upload.content rfl).bind fun _ => ?_
  exact (ensures_look (P := Sent K upload.content) fun _ hw => hw.1).bind fun _ =>
    Action.Ensures.pure fun _ hs => hs

theorem ensures_replaceRemoteFile (hfinal : K final) :
    Action.Ensures (fun s => s.world.part = some final) (replaceRemoteFile canonicalRemote)
      (fun _ s => Sent K final s.world) fun s => PartIs K s.world := by
  have hkeep : ∀ w : UploadWorld, w.part = some final → PartIs K w :=
    fun _ hw => partIs_of_eq hw hfinal
  have hremove : Action.Ensures (fun s => s.world.part = some final)
      (removeDestination canonicalRemote) (fun _ s => s.world.part = some final)
      fun s => s.world.part = some final := by
    refine ensures_await (P := fun w : UploadWorld => w.part = some final)
      (Q := fun _ w => w.part = some final) (E := fun w => w.part = some final) (fun _ hw => hw) ?_
    intro _ w _ w' hw h
    split at h
    · cases h
    · cases h
      exact ⟨hw, hw⟩
  have hrename : Action.Ensures (fun s => s.world.part = some final) (renamePart canonicalRemote)
      (fun _ s => Sent K final s.world) fun s => PartIs K s.world := by
    refine ensures_await (P := fun w => w.part = some final) (Q := fun _ => Sent K final)
      (E := PartIs K) hkeep ?_
    intro _ w _ w' hw h
    split at h
    · cases h
    · rename_i bytes hbytes
      cases h
      obtain rfl : bytes = final := Option.some.inj (hbytes.symm.trans hw)
      exact ⟨⟨partIs_none rfl, rfl⟩, partIs_none rfl⟩
  have houtcome := (ensures_outcome hremove).weaken (fun _ hs => hs) (fun _ _ hs => hs)
    fun s => hkeep s.world
  refine houtcome.bind fun result => ?_
  match result with
  | .ok () => exact hrename
  | .error (.fileNotFound _) => exact hrename
  | .error (.permissionDenied _) | .error (.directoryNotFound _) | .error (.ioError _)
  | .error (.channelError _) | .error (.protocolError _) | .error (.invalidPath _)
  | .error .transferCancelled | .error (.transferInterrupted _) | .error (.storageError _) =>
    exact Action.Ensures.throw fun s => hkeep s.world

/-! ## 4. An attempt -/

theorem ensures_finish {transferred : Nat} (hfinal : K final) :
    Action.Ensures (fun s => s.world.part = some final)
      (upload.finish codec canonicalRemote transferred) (fun _ s => Sent K final s.world)
      fun s => PartIs K s.world := by
  refine (ensures_replaceRemoteFile hfinal).bind fun _ => ?_
  refine (ensures_transact (P := Sent K final) (fun _ _ hw => hw) fun _ hw => hw.1).bind fun _ => ?_
  exact Action.Ensures.pure fun _ hs => hs

theorem ensures_outcome_deletePart :
    Action.Ensures (fun s => PartIs K s.world) (outcome (deletePart canonicalRemote))
      (fun _ s => PartIs K s.world) fun s => PartIs K s.world :=
  (ensures_outcome ensures_deletePart).weaken (fun _ hs => hs)
    (fun result s hs => by cases result <;> exact hs) fun _ hs => hs

theorem ensures_deleteProgress {id : Str} :
    Action.Ensures (fun s => PartIs K s.world) (deleteProgress codec id)
      (fun _ s => PartIs K s.world) fun s => PartIs K s.world :=
  ensures_transact (P := PartIs K) (fun _ _ hw => hw) fun _ hw => hw

/-- After an error an attempt that returns has sent the whole file, and had begun at the front. -/
theorem ensures_recover {offset : Nat} {error : SftpError}
    (hfinal : offset = 0 → final = upload.content) :
    Action.Ensures (fun s => PartIs K s.world)
      (upload.recover codec canonicalRemote offset error) (fun _ s => Sent K final s.world)
      fun s => PartIs K s.world := by
  unfold recover
  split
  · rename_i hretry
    have hoffset : offset = 0 := by
      simp only [shouldRetryUploadWithoutTemporaryFile, Bool.and_eq_true, decide_eq_true_eq] at hretry
      exact hretry.1
    obtain rfl := hfinal hoffset
    refine (ensures_outcome_deletePart).bind fun _ => ?_
    refine (ensures_deleteProgress).bind fun _ => ?_
    exact (ensures_uploadFileInner).bind fun _ => Action.Ensures.pure fun _ hs => hs
  · split
    · refine (ensures_outcome_deletePart).bind fun _ => ?_
      exact (ensures_deleteProgress).bind fun _ => Action.Ensures.throw fun _ hs => hs
    · have hload : Action.Ensures (fun s => PartIs K s.world)
          (outcome (loadProgress codec upload.transferId)) (fun _ s => PartIs K s.world)
          fun s => PartIs K s.world :=
        (ensures_outcome (ensures_loadProgress (P := PartIs K) fun _ hw => hw)).weaken
          (fun _ hs => hs) (fun result s hs => by cases result <;> exact hs) fun _ hs => hs
      have hsave : ∀ progress, Action.Ensures (fun s => PartIs K s.world)
          (outcome (save codec progress)) (fun _ s => PartIs K s.world) fun s => PartIs K s.world :=
        fun progress =>
          (ensures_outcome (ensures_transact (P := PartIs K) (fun _ _ hw => hw) fun _ hw => hw)).weaken
            (fun _ hs => hs) (fun result s hs => by cases result <;> exact hs) fun _ hs => hs
      refine hload.bind fun result => ?_
      match result with
      | .ok (some progress) =>
        exact (hsave _).bind fun _ => Action.Ensures.throw fun _ hs => hs
      | .ok none => exact Action.Ensures.throw fun _ hs => hs
      | .error _ => exact Action.Ensures.throw fun _ hs => hs

theorem ensures_sendFrom (hfinal : taken ++ upload.content.drop taken.length = final)
    (hK : ∀ bytes, bytes <+: final → K bytes) :
    Action.Ensures
      (fun s => PartIs K s.world ∧ (0 < taken.length → s.world.part = some taken))
      (upload.sendFrom codec canonicalRemote taken.length) (fun _ s => Sent K final s.world)
      fun s => PartIs K s.world := by
  have hwhole : taken.length = 0 → final = upload.content := by
    intro hzero
    obtain rfl := List.length_eq_zero_iff.mp hzero
    exact hfinal.symm
  refine (ensures_transact
    (P := fun w => PartIs K w ∧ (0 < taken.length → w.part = some taken))
    (fun _ _ hw => hw) fun _ hw => hw.1).bind fun _ => ?_
  refine (ensures_outcome (ensures_uploadFileResumeInner hfinal hK _)).bind fun result => ?_
  cases result with
  | ok transferred => exact ensures_finish (hK _ (List.prefix_refl _))
  | error error => exact ensures_recover hwhole

/-- What `findPart` tells is the size of the part, or 0. -/
def Found (found : Option Nat) (w : UploadWorld) : Prop :=
  ∀ size, found = some size →
    ∃ bytes, w.part = some bytes ∧ (size = bytes.length ∨ size = 0)

theorem ensures_discardOther (progress : Option StoredTransferProgress) :
    Action.Ensures (fun s => PartIs K s.world)
      (upload.discardOther codec canonicalRemote progress) (fun _ s => PartIs K s.world)
      fun s => PartIs K s.world := by
  unfold discardOther
  split
  · exact Action.Ensures.pure fun _ hs => hs
  · split
    · exact Action.Ensures.pure fun _ hs => hs
    · refine (ensures_deleteProgress).bind fun _ => ?_
      exact (ensures_outcome_deletePart).bind fun _ => Action.Ensures.pure fun _ hs => hs

theorem ensures_findPart :
    Action.Ensures (fun s => PartIs K s.world) (upload.findPart codec canonicalRemote)
      (fun found s => PartIs K s.world ∧ Found found s.world) fun s => PartIs K s.world := by
  have hstat : Action.Ensures (fun s => PartIs K s.world) (statPart canonicalRemote)
      (fun size s => PartIs K s.world ∧ Found (some size) s.world) fun s => PartIs K s.world := by
    refine ensures_await (P := PartIs K) (Q := fun size w => PartIs K w ∧ Found (some size) w)
      (E := PartIs K) (fun _ hw => hw) ?_
    intro told w size w' hw h
    split at h
    · cases h
    · rename_i bytes hbytes
      cases h
      refine ⟨⟨hw, ?_⟩, hw⟩
      intro size hsize
      cases hsize
      refine ⟨bytes, hbytes, ?_⟩
      split
      · exact .inr rfl
      · exact .inl rfl
  refine (ensures_look (P := PartIs K) fun _ hw => hw).bind fun _ => ?_
  refine (ensures_look (P := PartIs K) fun _ hw => hw).bind fun _ => ?_
  refine (ensures_listIncomplete (P := PartIs K) fun _ hw => hw).bind fun listed => ?_
  refine (ensures_discardOther _).bind fun _ => ?_
  refine (ensures_outcome hstat).bind fun result => ?_
  cases result with
  | ok size => exact Action.Ensures.pure fun _ hs => hs
  | error error => exact Action.Ensures.pure fun _ hs => ⟨hs, nofun⟩

end Files

/-- The bytes of the part that are not sent again, when its size is what was found. -/
def takenOver (upload : Upload) (found : Option Nat) (w : UploadWorld) : List UInt8 :=
  match found with
  | none => []
  | some size =>
    if upload.content.length ≤ size then w.part.getD [] else (w.part.getD []).take size

theorem ensures_resume {K : List UInt8 → Prop} {taken : List UInt8} (found : Option Nat)
    (hK : ∀ bytes, bytes <+: taken ++ upload.content.drop taken.length → K bytes) :
    Action.Ensures
      (fun s => (PartIs K s.world ∧ Found found s.world) ∧ upload.takenOver found s.world = taken)
      (upload.resume codec canonicalRemote found)
      (fun _ s => Sent K (taken ++ upload.content.drop taken.length) s.world)
      fun s => PartIs K s.world := by
  unfold resume
  split
  · rename_i size
    split
    · rename_i hsize
      refine (ensures_finish (hK _ (List.prefix_refl _))).weaken ?_ (fun _ _ hs => hs)
        fun _ hs => hs
      rintro s ⟨⟨-, hfound⟩, htaken⟩
      obtain ⟨bytes, hbytes, hlength⟩ := hfound size rfl
      obtain rfl : bytes = taken := by
        rw [← htaken, takenOver]
        simp only [if_pos hsize, hbytes, Option.getD_some]
      -- nothing of the file is left
      have hrest : upload.content.drop bytes.length = [] := by
        rw [List.drop_eq_nil_iff]
        omega
      rw [hrest, List.append_nil, hbytes]
    · rename_i hsize
      intro s hs
      obtain ⟨⟨hpart, hfound⟩, htaken⟩ := hs
      obtain ⟨bytes, hbytes, hlength⟩ := hfound size rfl
      have htake : bytes.take size = taken := by
        rw [← htaken, takenOver]
        simp only [if_neg hsize, hbytes, Option.getD_some]
      have hoffset : taken.length = size := by
        rw [← htake, List.length_take]
        omega
      rw [← hoffset]
      refine ensures_sendFrom rfl hK s ⟨hpart, ?_⟩
      intro hpos
      obtain rfl : bytes = taken := by
        rw [← htake, List.take_of_length_le]
        omega
      exact hbytes
  · intro s hs
    obtain ⟨⟨hpart, -⟩, rfl⟩ := hs
    exact @ensures_sendFrom codec canonicalRemote upload K _ [] rfl hK s ⟨hpart, nofun⟩

/-- The bytes that an attempt takes over from the part it finds. -/
def takesOver (codec : RmpSerde) (canonicalRemote : Str) (upload : Upload)
    (s : Served UploadWorld SftpError) : List UInt8 :=
  match upload.findPart codec canonicalRemote s with
  | (.ok found, s') => upload.takenOver found s'.world
  | (.error _, _) => []

variable {s s' : Served UploadWorld SftpError} {transferred : Nat}

theorem destination_eq
    (hrun : upload.uploadWithResume codec canonicalRemote s = (.ok transferred, s')) :
    s'.world.destination = some (upload.takesOver codec canonicalRemote s ++
      upload.content.drop (upload.takesOver codec canonicalRemote s).length) := by
  have hfind := @ensures_findPart codec canonicalRemote upload (fun _ => True) s fun _ _ => trivial
  unfold takesOver
  unfold uploadWithResume at hrun
  rcases hfound : upload.findPart codec canonicalRemote s with ⟨stop | found, mid⟩
  · rw [Action.bind_error hfound] at hrun
    cases hrun
  · rw [Action.bind_ok hfound] at hrun
    rw [hfound] at hfind
    exact ((ensures_resume (K := fun _ => True) found fun _ _ => trivial).ok
      ⟨hfind, rfl⟩ hrun).2

/-- What is kept of another file is a beginning of this one, or the result is not this one. -/
theorem append_drop_eq_iff {taken content : List UInt8} :
    taken ++ content.drop taken.length = content ↔ taken <+: content :=
  List.prefix_iff_eq_append.symm

theorem exact_iff (hrun : upload.uploadWithResume codec canonicalRemote s = (.ok transferred, s')) :
    s'.world.destination = some upload.content ↔
      upload.takesOver codec canonicalRemote s <+: upload.content := by
  rw [destination_eq hrun, Option.some_inj, append_drop_eq_iff]

end Upload

/-! ## 5. Histories -/

/-- The files and the stored progress after some attempts to upload to one destination, and the last
    attempt: the bytes of its file, and what came of it. -/
structure UploadHistory where
  world : UploadWorld
  last : Option (List UInt8 × Except (Stop SftpError) Nat)

/-- An attempt with the answers it gets; or something else happens to the store: another transfer,
    or a new start of the program. -/
inductive UploadEvent where
  | attempt (upload : Upload) (answers : List (Answer SftpError))
  | storeChanged (tables : RedbTables)

namespace UploadHistory

variable (codec : RmpSerde) (canonicalRemote : Str)

/-- No attempt yet: the files are any that were there. -/
def start (world : UploadWorld) : UploadHistory := ⟨world, none⟩

def next (history : UploadHistory) : UploadEvent → Option UploadHistory
  | .attempt upload answers =>
    let (result, s) := upload.uploadWithResume codec canonicalRemote ⟨history.world, answers⟩
    some ⟨s.world, some (upload.content, result)⟩
  | .storeChanged tables => some ⟨{ history.world with tables := tables }, none⟩

/-- If the last attempt has returned, the destination is its file. -/
def Exact (history : UploadHistory) : Prop :=
  ∀ content transferred, history.last = some (content, .ok transferred) →
    history.world.destination = some content

/-- What the attempt takes over is a beginning of its own file. -/
def TakesItsOwn (history : UploadHistory) : UploadEvent → Prop
  | .attempt upload answers =>
    upload.takesOver codec canonicalRemote ⟨history.world, answers⟩ <+: upload.content
  | .storeChanged _ => True

instance (history : UploadHistory) (event : UploadEvent) :
    Decidable (TakesItsOwn codec canonicalRemote history event) := by
  cases event <;> (unfold TakesItsOwn; infer_instance)

variable {codec} {canonicalRemote} {history history' : UploadHistory}

variable {content : List UInt8} {event : UploadEvent}

theorem exact_next (hnext : history.next codec canonicalRemote event = some history')
    (hown : history.TakesItsOwn codec canonicalRemote event) : history'.Exact := by
  intro content transferred hlast
  cases event with
  | storeChanged tables =>
    obtain rfl := Option.some.inj hnext
    cases hlast
  | attempt upload answers =>
    rcases hrun : upload.uploadWithResume codec canonicalRemote ⟨history.world, answers⟩
      with ⟨result, s⟩
    simp only [next, hrun] at hnext
    obtain rfl := Option.some.inj hnext
    obtain ⟨rfl, rfl⟩ := Prod.mk.inj (Option.some.inj hlast)
    exact (Upload.exact_iff hrun).mpr hown

/-- **Every attempt that returns has made the destination equal to its local file**, in a history in
    which each takes over a beginning of its own file only. -/
theorem uploads_exact (codec : RmpSerde) (canonicalRemote : Str) (world : UploadWorld)
    (events : List UploadEvent)
    (hown : Meets (next codec canonicalRemote) (TakesItsOwn codec canonicalRemote) (start world)
      events) : Throughout (next codec canonicalRemote) Exact (start world) events :=
  throughout_of_meets (fun hnext hown _ => exact_next hnext hown) hown nofun

/-! ## 6. A part that another file has left -/

/-- Two bytes of a file that is to be uploaded to `/r`. -/
def fileA : Upload := ⟨['a'], "/a".toList, [1, 2], ['s'], 0⟩

/-- Another file of the same size. -/
def fileB : Upload := ⟨['b'], "/b".toList, [8, 9], ['s'], 0⟩

/-- The encoding of the first row that an upload of `fileA` stores. -/
def rowBytes : List UInt8 :=
  let fixstr (text : String) := UInt8.ofNat (0xa0 + text.length) :: asBytes text.toList
  0x8c :: fixstr "transfer_id" ++ fixstr "a" ++ fixstr "transfer_type" ++ fixstr "Upload" ++
    fixstr "protocol" ++ fixstr "sftp" ++ fixstr "strategy" ++ fixstr "file" ++
    fixstr "source_path" ++ fixstr "/a" ++ fixstr "destination_path" ++ fixstr "/r" ++
    fixstr "transferred_bytes" ++ [0] ++ fixstr "total_bytes" ++ [2] ++
    fixstr "status" ++ fixstr "Active" ++ fixstr "last_updated" ++ fixstr "1970-01-01T00:00:00Z" ++
    fixstr "session_id" ++ fixstr "s" ++ fixstr "error" ++ [0xc0]

/-- `rmp_serde` on that row. -/
def oneRow : RmpSerde where
  toVecNamed progress :=
    if progress = fileA.storedProgress "/r".toList 0 then some rowBytes else none
  fromSlice bytes := if bytes = rowBytes then some (fileA.storedProgress "/r".toList 0) else none

theorem lawful_oneRow : oneRow.Lawful := by
  intro progress bytes h
  simp only [oneRow] at h ⊢
  split at h
  · rename_i hrow
    cases h
    rw [if_pos rfl, hrow]
  · cases h

/-- An attempt that sends both bytes and is dropped before the handle is closed. -/
def cutOff : List (Answer SftpError) :=
  [.ok 0, .ok 0, .ok 0, .ok 1, .ok 0, .ok 0, .ok 0, .ok 0, .ok 2, .ok 0, .ok 0]

/-- An attempt that finds both bytes there and renames the part. -/
def renames : List (Answer SftpError) := [.ok 0, .ok 0, .ok 0, .ok 1, .ok 0, .ok 0, .ok 0]

/-- Nothing is there, and nothing is stored. -/
def nothing : UploadWorld := ⟨none, none, RedbTables.new⟩

theorem uploads_exact_cut_off :
    Throughout (next oneRow "/r".toList) Exact (start nothing)
      [.attempt fileA cutOff, .attempt fileA renames] :=
  uploads_exact oneRow "/r".toList nothing _ (by decide +kernel)

/-- **The second attempt takes over the part of the first**, whose file was another one: it returns,
    and the destination is the other file. -/
theorem part_of_another_file :
    ¬ ∀ codec : RmpSerde, codec.Lawful → ∀ canonicalRemote events,
      Throughout (next codec canonicalRemote) Exact (start nothing) events := by
  intro hall
  have hafter : (run (next oneRow "/r".toList) (start nothing)
      [.attempt fileA cutOff, .attempt fileB renames]).any fun history =>
        decide (history.last = some ([8, 9], .ok 2) ∧ history.world.destination = some [1, 2]) := by
    decide +kernel
  obtain ⟨history, hrun, hhistory⟩ := (Option.any_eq_true _ _).mp hafter
  obtain ⟨hlast, hdestination⟩ := of_decide_eq_true hhistory
  have hexact := throughout_iff.mp (hall oneRow lawful_oneRow "/r".toList _) _ [] history
    (List.append_nil _).symm hrun
  exact nomatch hdestination.symm.trans (hexact _ _ hlast)

end UploadHistory

end Hapcli.Sftp
