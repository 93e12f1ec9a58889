/-
  Subject:   Uploads over SCP (`scp.rs`): a file, a directory tree, and how many bytes follow the
             record that announces a file.

  * **`upload_framed_iff`** -- the bytes sent are those announced just where each file gives as many
    bytes as its metadata say.
-/
import Hapcli.Sftp.ScpChannel

namespace Hapcli.Sftp

open Hapcli.Process Hapcli.Rust Proc

/-! ## 1. Transfers -/

/-- The loop that sends what the open file gives, with the count of bytes. -/
def sendContents : Nat → ScpProc Nat :=
  loop fun transferred => do
    checkControl
    let bytes ← act .read io
    if bytes = [] then ret (.done transferred)
    else do
      sendData (.data bytes)
      ret (.again (saturatingAdd transferred bytes.length))

/-- A file: its record, its contents and the byte behind them. -/
def sendFile (path name : Str) (size transferred : Nat) (channel : ScpChannel) :
    ScpProc (Nat × ScpChannel) := do
  sendControlLine (.file size name)
  let channel ← readResponse channel
  act (.openFile path) io
  let transferred ← sendContents transferred
  sendData .status
  let channel ← readResponse channel
  ret (transferred, channel)

def uploadFileToRemotePath (localPath fileName remoteTemp : Str) (totalBytes : Nat) :
    ScpProc ScpTransferResult := do
  let channel ← openScpChannel ("scp -t -- ".toList ++ shellQuote remoteTemp)
  let channel ← readResponse channel
  let (_, channel) ← sendFile localPath fileName totalBytes 0 channel
  sendEof
  finish channel
  ret ⟨totalBytes, 1⟩

section Transfers

-- how `{:?}` writes a text
variable (debug : Str → Str)

/-- `upload_directory_tree`, by the number of levels that are left for the depth. -/
def uploadDirectoryTree : Nat → Str → Str → ScpTransferResult × ScpChannel →
    ScpProc (ScpTransferResult × ScpChannel)
  | 0, _, _, _ => fail (.protocolError "SCP directory nesting limit exceeded".toList)
  | levels + 1, localPath, remoteName, (progress, channel) => do
      ofExcept (validateReceivedName debug remoteName)
      sendControlLine (.directory remoteName)
      let channel ← readResponse channel
      let progress ← ofExcept (countItem progress)
      act (.readDir localPath) io
      let (progress, channel) ← loop (fun state => do
        match ← act (.nextEntry localPath) io with
        | none => ret (.done state)
        | some path => do
            checkControl
            let metadata ← act (.symlinkMetadata path) io
            if metadata.isSymlink = true then
              fail (.invalidPath
                ("SCP recursive upload does not follow symlink: ".toList ++ path))
            else do
              let name ← ofExcept (safeLocalFileName debug path)
              if metadata.isDir = true then do
                let state ← uploadDirectoryTree levels path name state
                ret (.again state)
              else if metadata.isFile = true then do
                let (bytes, channel) ← sendFile path name metadata.len state.1.bytes state.2
                let progress ← ofExcept (countItem { state.1 with bytes })
                ret (.again (progress, channel))
              else ret (.again state)) (progress, channel)
      sendControlLine .endDirectory
      let channel ← readResponse channel
      ret (progress, channel)

def scpUploadFile (uuid : Uuid) (localPath remotePath : Str) : ScpProc ScpTransferResult := do
  checkControl
  let metadata ← act (.symlinkMetadata localPath) io
  if metadata.isFile = false ∨ metadata.isSymlink = true then
    fail (.invalidPath "SCP file upload requires a regular, non-symlink file".toList)
  else do
    let fileName ← ofExcept (safeLocalFileName debug localPath)
    ofExcept (validateRemotePath remotePath)
    let remoteTemp ← ofExcept (remoteTemporaryPath debug uuid remotePath)
    let cleanup := "rm -f -- ".toList ++ shellQuote remoteTemp
    match ← (uploadFileToRemotePath localPath fileName remoteTemp metadata.len).attempt with
    | .ok result => do
        let finalize := "mv -f -- ".toList ++ shellQuote remoteTemp ++ ' ' :: shellQuote remotePath
        match ← (runRequiredExec finalize "finalize SCP upload".toList).attempt with
        | .ok () => ret result
        | .error error => act (.execExit0 cleanup) fun _ => fail error
    | .error error => act (.execExit0 cleanup) fun _ => fail error

def remoteDirectoryReplaceCommand (source destination backup : Str) : Str :=
  let source := shellQuote source
  let destination := shellQuote destination
  let backup := shellQuote backup
  "if [ -e ".toList ++ destination ++ " ]; then mv -- ".toList ++ destination ++ ' ' :: backup ++
    " || exit $?; if mv -- ".toList ++ source ++ ' ' :: destination ++
    "; then rm -rf -- ".toList ++ backup ++ " || :; else status=$?; mv -- ".toList ++ backup ++
    ' ' :: destination ++ "; exit \"$status\"; fi; else mv -- ".toList ++ source ++
    ' ' :: destination ++ "; fi".toList

def cleanupRemoteDirectory (path : Str) : ScpProc Unit :=
  act (.execExit0 ("rm -rf -- ".toList ++ shellQuote path)) fun _ => ret ()

/-- What `scp_upload_directory` sends. -/
def sendDirectory (localPath remoteTemp rootName : Str) : ScpProc ScpTransferResult := do
  let channel ← openScpChannel ("scp -tr -- ".toList ++ shellQuote (remoteParentPath remoteTemp))
  let channel ← readResponse channel
  let (progress, channel) ←
    uploadDirectoryTree debug (scpMaxDirectoryDepth + 1) localPath rootName (⟨0, 0⟩, channel)
  sendEof
  finish channel
  ret progress

/-- `scp_upload_directory`. The two generated paths have their own `Uuid`s. -/
def scpUploadDirectory (uuidTemp uuidBackup : Uuid) (localPath remotePath : Str) :
    ScpProc ScpTransferResult := do
  checkControl
  ofExcept (validateRemotePath remotePath)
  let metadata ← act (.symlinkMetadata localPath) io
  if metadata.isDir = false ∨ metadata.isSymlink = true then
    fail (.invalidPath "SCP directory upload requires a real directory".toList)
  else do
    let remoteTemp ← ofExcept (remoteTemporaryDirectoryPath debug uuidTemp remotePath)
    let remoteBackup ← ofExcept (remoteBackupDirectoryPath debug uuidBackup remotePath)
    let rootName ← ofExcept (safeLocalFileName debug remoteTemp)
    let _ ← act (.directoryTotalSize localPath) fun total => ofExcept total
    match ← (sendDirectory debug localPath remoteTemp rootName).attempt with
    | .ok progress => do
        let finalize := remoteDirectoryReplaceCommand remoteTemp remotePath remoteBackup
        match ← (runRequiredExec finalize "finalize SCP directory upload".toList).attempt with
        | .ok () => ret progress
        | .error error => do
            cleanupRemoteDirectory remoteTemp
            fail error
    | .error error => do
        cleanupRemoteDirectory remoteTemp
        fail error

end Transfers

/-! ## 2. What is sent for a file, and what the file gives -/

/-- The size a record announces and the bytes that follow it. -/
abbrev FileBytes := Nat × Nat

/-- What has been sent: the files with their status byte, the file without, and whether everything
    came in its place. -/
structure Framing where
  files : List FileBytes
  current : Option FileBytes
  inOrder : Bool
  deriving DecidableEq

/-- One more message. -/
def Framing.sent (f : Framing) : Sent → Framing
  | .control (.file size _) =>
    { f with current := some (size, 0), inOrder := f.inOrder && f.current.isNone }
  | .control _ => { f with inOrder := f.inOrder && f.current.isNone }
  | .data bytes =>
    match f.current with
    | some (size, count) => { f with current := some (size, count + bytes.length) }
    | none => { f with inOrder := false }
  | .status =>
    match f.current with
    | some file => { f with files := f.files ++ [file], current := none }
    | none => { f with inOrder := false }

/-- What the local files have given: those read to their end, the last size, and the bytes of the
    open file so far. -/
structure LocalReads where
  files : List FileBytes
  len : Nat
  read : Nat
  deriving DecidableEq

/-- One more event. -/
def Framing.next (f : Framing) : Event ScpOp ScpOp.Ans → Framing
  | ⟨.send message, _⟩ => f.sent message
  | _ => f

/-- One more event. -/
def LocalReads.next (r : LocalReads) : Event ScpOp ScpOp.Ans → LocalReads
  | ⟨.symlinkMetadata _, .ok metadata⟩ => { r with len := metadata.len }
  | ⟨.openFile _, .ok _⟩ => { r with read := 0 }
  | ⟨.read, .ok []⟩ => { r with files := r.files ++ [(r.len, r.read)] }
  | ⟨.read, .ok bytes⟩ => { r with read := r.read + bytes.length }
  | _ => r

def framing (h : ScpHist) : Framing := h.foldl Framing.next ⟨[], none, true⟩

def localReads (h : ScpHist) : LocalReads := h.foldl LocalReads.next ⟨[], 0, 0⟩

/-- As many as announced. -/
def Exact (files : List FileBytes) : Prop := ∀ file ∈ files, file.1 = file.2

instance {files : List FileBytes} : Decidable (Exact files) :=
  inferInstanceAs (Decidable (∀ file ∈ files, file.1 = file.2))

/-! ## 3. Phases of an upload -/

/-- What is known of both accounts. -/
abbrev Phase := Framing → LocalReads → Prop

/-- After a history. -/
def Phase.after (phase : Phase) (h : ScpHist) : Prop := phase (framing h) (localReads h)

/-- The files that have their status byte are those that were read to their end. -/
def settled : Phase := fun f r => f.inOrder = true ∧ f.files = r.files

/-- Outside of a file. -/
def between : Phase := fun f r => f = ⟨r.files, none, true⟩

/-- Outside of a file, with the metadata of the next one at hand. -/
def measured (size : Nat) : Phase := fun f r => between f r ∧ r.len = size

/-- The record is sent. -/
def announced (size : Nat) : Phase := fun f r => f = ⟨r.files, some (size, 0), true⟩ ∧ r.len = size

/-- A piece is read and not yet sent. -/
def holding (piece : Nat) : Phase := fun f r =>
  ∃ count, f = ⟨r.files, some (r.len, count), true⟩ ∧ r.read = count + piece

/-- The local file is at its end. -/
def atEnd : Phase := fun f r =>
  ∃ files file, f = ⟨files, some file, true⟩ ∧ r.files = files ++ [file]

/-- Any of these. -/
def tracked : Phase := fun f r => settled f r ∨ atEnd f r

/-- What an ended program leaves. -/
def leaves {α : Type} (post : α → Phase) : Except ScpError α → Phase
  | .ok a => post a
  | .error _ => settled

/-- **From `pre` the program gets to `post`**, and leaves things settled when it fails. -/
def Does {α : Type} (pre : Phase) (p : ScpProc α) (post : α → Phase) : Prop :=
  ∀ h, pre.after h → Safe tracked.after (fun result => (leaves post result).after) h p

/-- Operations that concern neither account. -/
def Quiet : ScpOp → Prop
  | .send _ | .symlinkMetadata _ | .openFile _ | .read => False
  | _ => True

section Rules

variable {α β σ : Type} {pre mid : Phase} {post : α → Phase}

theorem framing_append (h : ScpHist) (e : Event ScpOp ScpOp.Ans) :
    framing (h ++ [e]) = (framing h).next e := by
  rw [framing, List.foldl_append]
  rfl

theorem localReads_append (h : ScpHist) (e : Event ScpOp ScpOp.Ans) :
    localReads (h ++ [e]) = (localReads h).next e := by
  rw [localReads, List.foldl_append]
  rfl

variable {phase : Phase} {h : ScpHist} {e : Event ScpOp ScpOp.Ans}

theorem after_append :
    phase.after (h ++ [e]) ↔ phase ((framing h).next e) ((localReads h).next e) := by
  rw [Phase.after, framing_append, localReads_append]

theorem after_quiet (hquiet : Quiet e.1) (hphase : phase.after h) : phase.after (h ++ [e]) := by
  rw [after_append]
  obtain ⟨op, answer⟩ := e
  cases op <;> first | exact hphase | exact hquiet.elim

variable {f : Framing} {p : ScpProc α} {r : LocalReads}

theorem settled_between (h : between f r) : settled f r := by
  subst h
  exact ⟨rfl, rfl⟩

theorem settled_measured {size : Nat} (h : measured size f r) : settled f r := settled_between h.1

theorem settled_announced {size : Nat} (h : announced size f r) : settled f r := by
  obtain ⟨rfl, -⟩ := h
  exact ⟨rfl, rfl⟩

theorem settled_holding {piece : Nat} (h : holding piece f r) : settled f r := by
  obtain ⟨count, rfl, -⟩ := h
  exact ⟨rfl, rfl⟩

theorem does_ret {a : α} (hpost : ∀ f r, pre f r → post a f r)
    (htracked : ∀ f r, pre f r → tracked f r) : Does pre (ret a) post :=
  fun _ h => safe_ret (htracked _ _ h) (hpost _ _ h)

theorem does_fail {error : ScpError} (hsettled : ∀ f r, pre f r → settled f r) :
    Does pre (fail error) post :=
  fun _ h => safe_fail (.inl (hsettled _ _ h)) (hsettled _ _ h)

theorem does_bind {p : ScpProc β} {Q : β → Phase} {g : β → ScpProc α} (hp : Does pre p Q)
    (hg : ∀ b, Does (Q b) (g b) post) : Does pre (p.bind g) post :=
  fun h hpre => safe_bind (hp h hpre) (fun b h _ hb => hg b h hb) fun _ _ _ herror => herror

theorem does_quiet (hp : Uses Quiet p) (hsettled : ∀ f r, pre f r → settled f r) :
    Does pre p fun _ => pre := by
  intro h hpre
  have hsafe : Safe tracked.after (fun _ => pre.after) h p :=
    safe_of_uses hp (fun _ _ hquiet hphase => after_quiet hquiet hphase)
      (fun _ hphase => .inl (hsettled _ _ hphase)) hpre
  refine hsafe.mono fun result h _ hphase => ?_
  cases result with
  | ok a => exact hphase
  | error error => exact hsettled _ _ hphase

theorem does_act {op : ScpOp} {k : ScpOp.Ans op → ScpProc α}
    (htracked : ∀ f r, pre f r → tracked f r) (hk : ∀ answer h, pre.after h →
      Safe tracked.after (fun result => (leaves post result).after) (h ++ [⟨op, answer⟩]) (k answer)) :
    Does pre (act op k) post :=
  fun h hpre => safe_act (htracked _ _ hpre) fun answer => hk answer h hpre

theorem does_loop {body : σ → ScpProc (Turn σ α)} {s : σ}
    (hbody : ∀ s, Does pre (body s) fun | .again _ => pre | .done a => post a) :
    Does pre (loop body s) post := by
  intro h hpre
  refine safe_loop (fun _ => pre.after) hpre fun s h hs => (hbody s h hs).mono ?_
  rintro (error | (s' | a)) h - hr
  · exact hr
  · exact hr
  · exact hr

theorem Does.weaken {pre' : Phase} (hp : Does pre p post) (hpre : ∀ f r, pre' f r → pre f r) :
    Does pre' p post :=
  fun h h' => hp h (hpre _ _ h')

theorem does_attempt (hp : Does pre p post) : Does pre p.attempt (leaves post) := by
  intro h hpre
  refine (safe_attempt (hp h hpre)).mono fun result h _ hresult => ?_
  cases result with
  | ok result => exact hresult
  | error error => exact hresult.elim

end Rules

/-! ## 4. The programs, phase by phase -/

section Programs

variable {α : Type}

theorem quiet_of_waits (op : ScpOp) (h : Waits op) : Quiet op := by
  cases op <;> first | exact trivial | exact h.elim

theorem quiet_readResponse (channel : ScpChannel) : Uses Quiet (readResponse channel) :=
  (uses_readResponse channel).mono quiet_of_waits

theorem quiet_finish (channel : ScpChannel) : Uses Quiet (finish channel) :=
  (uses_finish channel).mono quiet_of_waits

theorem quiet_checkControl : Uses Quiet checkControl :=
  uses_act trivial fun _ => uses_ofExcept _

variable (command path : Str)

theorem quiet_openScpChannel : Uses Quiet (openScpChannel command) :=
  uses_act trivial fun _ => uses_bind (uses_ofExcept _) fun _ =>
    uses_act trivial fun _ => uses_bind (uses_ofExcept _) fun _ => uses_ret _

theorem quiet_sendEof : Uses Quiet sendEof := uses_act trivial fun _ => uses_ofExcept _

theorem does_sendData {pre post : Phase} {message : Sent} (htracked : ∀ f r, pre f r → tracked f r)
    (hsent : ∀ f r, pre f r → post (f.sent message) r ∧ settled (f.sent message) r) :
    Does pre (sendData message) fun _ => post := by
  refine does_act htracked fun answer h hpre => ?_
  have hnext := hsent _ _ hpre
  cases answer with
  | ok _ => exact safe_ret ((after_append).mpr (.inl hnext.2)) ((after_append).mpr hnext.1)
  | error error => exact safe_fail ((after_append).mpr (.inl hnext.2)) ((after_append).mpr hnext.2)

theorem does_metadata :
    Does between (act (.symlinkMetadata path) io) fun metadata => measured metadata.len := by
  refine does_act (fun f r h => .inl (settled_between h)) fun answer h hpre => ?_
  cases answer with
  | ok metadata =>
    have hmeasured : (measured metadata.len).after (h ++ [⟨.symlinkMetadata path, .ok metadata⟩]) :=
      (after_append).mpr ⟨hpre, rfl⟩
    exact safe_ret (.inl (settled_measured hmeasured)) hmeasured
  | error error =>
    have hsettled : settled.after (h ++ [⟨.symlinkMetadata path, .error error⟩]) :=
      (after_append).mpr (settled_between hpre)
    exact safe_fail (.inl hsettled) hsettled

theorem does_openFile (size : Nat) :
    Does (announced size) (act (.openFile path) io) fun _ => holding 0 := by
  refine does_act (fun f r h => .inl (settled_announced h)) fun answer h hpre => ?_
  cases answer with
  | ok _ =>
    have hholding : (holding 0).after (h ++ [⟨.openFile path, .ok ()⟩]) := by
      obtain ⟨hframing, hlen⟩ := hpre
      refine (after_append).mpr ⟨0, ?_, rfl⟩
      rw [← hlen] at hframing
      exact hframing
    exact safe_ret (.inl (settled_holding hholding)) hholding
  | error error =>
    have hsettled : settled.after (h ++ [⟨.openFile path, .error error⟩]) :=
      (after_append).mpr (settled_announced hpre)
    exact safe_fail (.inl hsettled) hsettled

theorem does_read :
    Does (holding 0) (act .read io) fun bytes =>
      if bytes = [] then atEnd else holding bytes.length := by
  refine does_act (fun f r h => .inl (settled_holding h)) fun answer h hpre => ?_
  cases answer with
  | error error =>
    have hsettled : settled.after (h ++ [⟨.read, .error error⟩]) :=
      (after_append).mpr (settled_holding hpre)
    exact safe_fail (.inl hsettled) hsettled
  | ok bytes =>
    obtain ⟨count, hframing, hread⟩ := hpre
    cases bytes with
    | nil =>
      have hend : atEnd.after (h ++ [⟨.read, .ok []⟩]) := by
        refine (after_append).mpr ⟨_, _, hframing, ?_⟩
        show (localReads h).files ++ [((localReads h).len, (localReads h).read)] = _
        rw [hread, Nat.add_zero]
      exact safe_ret (.inr hend) hend
    | cons byte bytes =>
      have hholding : (holding (byte :: bytes).length).after
          (h ++ [⟨.read, .ok (byte :: bytes)⟩]) := by
        refine (after_append).mpr ⟨count, hframing, ?_⟩
        show (localReads h).read + (byte :: bytes).length = _
        rw [hread, Nat.add_zero]
      exact safe_ret (.inl (settled_holding hholding)) hholding

theorem does_sendContents (transferred : Nat) :
    Does (holding 0) (sendContents transferred) fun _ => atEnd := by
  refine does_loop fun transferred => ?_
  refine does_bind (does_quiet quiet_checkControl fun f r => settled_holding) fun _ => ?_
  refine does_bind does_read fun bytes => ?_
  by_cases hbytes : bytes = []
  · rw [if_pos hbytes, if_pos hbytes]
    exact does_ret (fun f r h => h) fun f r h => .inr h
  · rw [if_neg hbytes, if_neg hbytes]
    refine does_bind (Q := fun _ => holding 0) (does_sendData (fun f r h => .inl (settled_holding h)) ?_)
      fun _ => does_ret (fun f r h => h) fun f r h => .inl (settled_holding h)
    rintro f r ⟨count, rfl, hread⟩
    exact ⟨⟨_, rfl, hread⟩, rfl, rfl⟩

theorem does_sendFile (path name : Str) (size transferred : Nat) (channel : ScpChannel) :
    Does (measured size) (sendFile path name size transferred channel) fun _ => between := by
  have hrecord : Does (measured size) (sendControlLine (.file size name)) fun _ => announced size := by
    unfold sendControlLine
    split
    · exact does_fail fun f r => settled_measured
    · refine does_sendData (fun f r h => .inl (settled_measured h)) ?_
      rintro f r ⟨rfl, hlen⟩
      exact ⟨⟨rfl, hlen⟩, rfl, rfl⟩
  have hstatus : Does atEnd (sendData .status) fun _ => between := by
    refine does_sendData (fun f r h => .inr h) ?_
    rintro f r ⟨files, file, rfl, hfiles⟩
    have hnext : between ((⟨files, some file, true⟩ : Framing).sent .status) r := by
      show (⟨files ++ [file], none, true⟩ : Framing) = _
      rw [← hfiles]
    exact ⟨hnext, settled_between hnext⟩
  refine does_bind hrecord fun _ => ?_
  refine does_bind (does_quiet (quiet_readResponse channel) fun f r => settled_announced)
    fun channel => ?_
  refine does_bind (does_openFile path size) fun _ => ?_
  refine does_bind (does_sendContents transferred) fun transferred => ?_
  refine does_bind hstatus fun _ => ?_
  refine does_bind (does_quiet (quiet_readResponse channel) fun f r => settled_between)
    fun channel => ?_
  exact does_ret (fun f r h => h) fun f r h => .inl (settled_between h)

theorem does_directoryLine {record : ControlRecord}
    (hrecord : ∀ size name, record ≠ .file size name) :
    Does between (sendControlLine record) fun _ => between := by
  unfold sendControlLine
  split
  · exact does_fail fun f r => settled_between
  · refine does_sendData (fun f r h => .inl (settled_between h)) ?_
    rintro f r rfl
    cases record with
    | file size name => exact absurd rfl (hrecord size name)
    | directory name => exact ⟨rfl, rfl, rfl⟩
    | endDirectory => exact ⟨rfl, rfl, rfl⟩

variable (debug : Str → Str)

theorem does_uploadDirectoryTree (levels : Nat) (localPath remoteName : Str)
    (state : ScpTransferResult × ScpChannel) :
    Does between (uploadDirectoryTree debug levels localPath remoteName state) fun _ => between := by
  induction levels generalizing localPath remoteName state with
  | zero => exact does_fail fun f r => settled_between
  | succ levels ih =>
    obtain ⟨progress, channel⟩ := state
    refine does_bind (does_quiet (uses_ofExcept _) fun f r => settled_between) fun _ => ?_
    refine does_bind (does_directoryLine nofun) fun _ => ?_
    refine does_bind (does_quiet (quiet_readResponse channel) fun f r => settled_between)
      fun channel => ?_
    refine does_bind (does_quiet (uses_ofExcept _) fun f r => settled_between) fun progress => ?_
    refine does_bind (does_quiet (uses_act trivial fun _ => uses_ofExcept _)
      fun f r => settled_between) fun _ => ?_
    refine does_bind (Q := fun _ => between) (does_loop fun state => ?_)
      fun (progress, channel) => ?_
    · refine does_bind (does_quiet (uses_act trivial fun _ => uses_ofExcept _)
        fun f r => settled_between) fun entry => ?_
      cases entry with
      | none => exact does_ret (fun f r h => h) fun f r h => .inl (settled_between h)
      | some path =>
        refine does_bind (does_quiet quiet_checkControl fun f r => settled_between) fun _ => ?_
        refine does_bind (does_metadata path) fun metadata => ?_
        dsimp only
        split
        · exact does_fail fun f r => settled_measured
        · refine does_bind (does_quiet (uses_ofExcept _) fun f r => settled_measured)
            fun name => ?_
          split
          · refine (does_bind (ih path name state) fun state => ?_).weaken fun f r h => h.1
            exact does_ret (fun f r h => h) fun f r h => .inl (settled_between h)
          · split
            · refine does_bind (does_sendFile path name metadata.len _ _)
                fun (bytes, channel) => ?_
              refine does_bind (does_quiet (uses_ofExcept _) fun f r => settled_between)
                fun progress => ?_
              exact does_ret (fun f r h => h) fun f r h => .inl (settled_between h)
            · exact does_ret (fun f r h => h.1) fun f r h => .inl (settled_measured h)
    · refine does_bind (does_directoryLine nofun) fun _ => ?_
      refine does_bind (does_quiet (quiet_readResponse channel) fun f r => settled_between)
        fun channel => ?_
      exact does_ret (fun f r h => h) fun f r h => .inl (settled_between h)

theorem quiet_runRequiredExec (command operation : Str) : Uses Quiet
    (runRequiredExec command operation) := by
  refine uses_act trivial fun exit0 => ?_
  split
  · exact uses_ret _
  · exact uses_fail _

theorem does_giveUp {post : α → Phase} (error : ScpError) :
    Does settled (act (.execExit0 command) fun _ => fail error) post := by
  intro h hsettled
  have hnext (answer : ScpOp.Ans (.execExit0 command)) :
      settled.after (h ++ [⟨.execExit0 command, answer⟩]) := after_quiet trivial hsettled
  exact safe_act (.inl hsettled) fun answer => safe_fail (.inl (hnext answer)) (hnext answer)

theorem does_uploadFileToRemotePath (localPath fileName remoteTemp : Str) (totalBytes : Nat) :
    Does (measured totalBytes) (uploadFileToRemotePath localPath fileName remoteTemp totalBytes)
      fun _ => between := by
  refine does_bind (does_quiet (quiet_openScpChannel _) fun f r => settled_measured) fun channel => ?_
  refine does_bind (does_quiet (quiet_readResponse channel) fun f r => settled_measured)
    fun channel => ?_
  refine does_bind (does_sendFile localPath fileName totalBytes 0 channel) fun (_, channel) => ?_
  refine does_bind (does_quiet quiet_sendEof fun f r => settled_between) fun _ => ?_
  refine does_bind (does_quiet (quiet_finish channel) fun f r => settled_between) fun _ => ?_
  exact does_ret (fun f r h => h) fun f r h => .inl (settled_between h)

theorem does_sendDirectory (localPath remoteTemp rootName : Str) :
    Does between (sendDirectory debug localPath remoteTemp rootName) fun _ => between := by
  refine does_bind (does_quiet (quiet_openScpChannel _) fun f r => settled_between) fun channel => ?_
  refine does_bind (does_quiet (quiet_readResponse channel) fun f r => settled_between)
    fun channel => ?_
  refine does_bind (does_uploadDirectoryTree debug _ localPath rootName _) fun (progress, channel) => ?_
  refine does_bind (does_quiet quiet_sendEof fun f r => settled_between) fun _ => ?_
  refine does_bind (does_quiet (quiet_finish channel) fun f r => settled_between) fun _ => ?_
  exact does_ret (fun f r h => h) fun f r h => .inl (settled_between h)

/-- The remote side puts a transferred file or tree in place, or is told to remove it. -/
theorem does_finalize (finalize operation cleanup : Str) (result : ScpTransferResult) :
    Does between ((runRequiredExec finalize operation).attempt.bind fun
      | .ok () => ret result
      | .error error => act (.execExit0 cleanup) fun _ => fail error) fun _ => between := by
  refine does_bind (does_attempt (does_quiet (quiet_runRequiredExec finalize operation)
    fun f r => settled_between)) fun outcome => ?_
  cases outcome with
  | ok _ => exact does_ret (fun f r h => h) fun f r h => .inl (settled_between h)
  | error error => exact does_giveUp cleanup error

theorem does_scpUploadFile (uuid : Uuid) (localPath remotePath : Str) :
    Does between (scpUploadFile debug uuid localPath remotePath) fun _ => between := by
  refine does_bind (does_quiet quiet_checkControl fun f r => settled_between) fun _ => ?_
  refine does_bind (does_metadata localPath) fun metadata => ?_
  dsimp only
  split
  · exact does_fail fun f r => settled_measured
  · refine does_bind (does_quiet (uses_ofExcept _) fun f r => settled_measured) fun fileName => ?_
    refine does_bind (does_quiet (uses_ofExcept _) fun f r => settled_measured) fun _ => ?_
    refine does_bind (does_quiet (uses_ofExcept _) fun f r => settled_measured) fun remoteTemp => ?_
    refine does_bind (does_attempt (does_uploadFileToRemotePath _ _ _ _)) fun result => ?_
    cases result with
    | ok result => exact does_finalize _ _ _ result
    | error error => exact does_giveUp _ error

theorem does_scpUploadDirectory (uuidTemp uuidBackup : Uuid) (localPath remotePath : Str) :
    Does between (scpUploadDirectory debug uuidTemp uuidBackup localPath remotePath)
      fun _ => between := by
  refine does_bind (does_quiet quiet_checkControl fun f r => settled_between) fun _ => ?_
  refine does_bind (does_quiet (uses_ofExcept _) fun f r => settled_between) fun _ => ?_
  refine does_bind (does_metadata localPath) fun metadata => ?_
  dsimp only
  split
  · exact does_fail fun f r => settled_measured
  · refine does_bind (does_quiet (uses_ofExcept _) fun f r => settled_measured) fun remoteTemp => ?_
    refine does_bind (does_quiet (uses_ofExcept _) fun f r => settled_measured) fun remoteBackup => ?_
    refine does_bind (does_quiet (uses_ofExcept _) fun f r => settled_measured) fun rootName => ?_
    refine does_bind (does_quiet (uses_act trivial fun _ => uses_ofExcept _)
      fun f r => settled_measured) fun _ => ?_
    refine does_bind (does_attempt ((does_sendDirectory debug _ _ _).weaken fun f r h => h.1))
      fun result => ?_
    cases result with
    | ok result => exact does_finalize _ _ _ result
    | error error => exact does_giveUp _ error

end Programs

/-! ## 5. As many bytes as announced -/

/-- Each file that has its status byte is as long as its record says, and a file without one is left
    by a failure only. -/
def Framed {α : Type} (h : ScpHist) (result : Except ScpError α) : Prop :=
  (framing h).inOrder = true ∧ Exact (framing h).files ∧
    ∀ a, result = .ok a → (framing h).current = none

/-- Each local file that was read to its end gave as many bytes as its metadata said. -/
def Steady (h : ScpHist) : Prop := Exact (localReads h).files

instance (h : ScpHist) : Decidable (Steady h) :=
  inferInstanceAs (Decidable (Exact (localReads h).files))

/-- Along every run, and at its end. -/
def FramedWhenSteady {α : Type} (p : ScpProc α) : Prop :=
  (∀ n h q, Run n p h q → Steady h → (framing h).inOrder = true ∧ Exact (framing h).files) ∧
    ∀ n h result, Run n p h (ofExcept result) → (Framed h result ↔ Steady h)

theorem framedWhenSteady_of_does {α : Type} {p : ScpProc α} (hp : Does between p fun _ => between) :
    FramedWhenSteady p := by
  have hstart : between.after [] := rfl
  refine ⟨fun n h q hrun hsteady => ?_, fun n h result hrun => ?_⟩
  · obtain ⟨htracked, -, -⟩ := hp [] hstart n h q hrun
    obtain ⟨horder, hfiles⟩ | ⟨files, file, hframing, hfiles⟩ := htracked
    · rw [List.nil_append] at horder hfiles
      exact ⟨horder, hfiles ▸ hsteady⟩
    · rw [List.nil_append] at hframing hfiles
      rw [hframing]
      refine ⟨rfl, fun file hfile => hsteady file ?_⟩
      rw [hfiles]
      exact List.mem_append_left _ hfile
  · obtain ⟨-, hok, herror⟩ := hp [] hstart n h _ hrun
    rw [List.nil_append] at hok herror
    cases result with
    | ok a =>
      have hbetween : framing h = ⟨(localReads h).files, none, true⟩ := hok a rfl
      rw [Framed, Steady, hbetween]
      exact ⟨fun hframed => hframed.2.1, fun hsteady => ⟨rfl, hsteady, fun _ _ => rfl⟩⟩
    | error error =>
      obtain ⟨horder, hfiles⟩ : settled.after h := herror error rfl
      rw [Framed, Steady, hfiles]
      exact ⟨fun hframed => hframed.2.1, fun hsteady => ⟨horder, hsteady, nofun⟩⟩

/-- **The bytes between a record and its status byte are as many as announced just where each local
    file gives as many bytes as its metadata say.** -/
theorem upload_framed_iff (debug : Str → Str) (uuidTemp uuidBackup : Uuid)
    (localPath remotePath : Str) :
    FramedWhenSteady (scpUploadFile debug uuidTemp localPath remotePath) ∧
      FramedWhenSteady (scpUploadDirectory debug uuidTemp uuidBackup localPath remotePath) :=
  ⟨framedWhenSteady_of_does (does_scpUploadFile debug uuidTemp localPath remotePath),
    framedWhenSteady_of_does (does_scpUploadDirectory debug uuidTemp uuidBackup localPath remotePath)⟩

/-- A server that accepts everything, and a file that was empty when its metadata were read and has
    grown by one byte when it is. -/
def grownFile : Env ScpOp ScpOp.Ans := fun h op =>
  match op with
  | .checkControl | .openExecChannel | .exec _ | .send _ | .sendEof | .openFile _ | .readDir _
  | .createDirAll _ | .createDir _ | .createFile _ | .write _ | .flush | .syncAll | .rename _ _
  | .removeDirAll _ => .ok ()
  | .directoryTotalSize _ => .ok 0
  | .wait => some (.data [0])
  | .waitInTime => if h.any (fun e => e.1 = .waitInTime) then some (some .close)
      else some (some (.exitStatus 0))
  | .closeChannel => ()
  | .execExit0 _ => true
  | .symlinkMetadata _ => .ok ⟨true, false, false, 0⟩
  | .read => if h.any (fun e => e.1 = .read) then .ok [] else .ok [120]
  | .nextEntry _ => .ok none
  | .tryExists _ => .ok false

/-- **An upload that returns although the file has grown**: one byte is sent under a record that
    announces none. -/
theorem upload_framed_counterexample :
    ∃ (debug : Str → Str) (uuid : Uuid) (n : Nat) (h : ScpHist) (result : ScpTransferResult),
      Run n (scpUploadFile debug uuid "/a".toList "/b".toList) h (ret result) ∧
        (framing h).files = [(0, 1)] ∧ ¬ Framed h (.ok result : Except ScpError _) := by
  let uuid : Uuid := ⟨"550e8400-e29b-41d4-a716-446655440000".toList, by decide⟩
  obtain ⟨n, h, r, hrun, hfound⟩ :=
    run_of_trial_any grownFile 20 (scpUploadFile id uuid "/a".toList "/b".toList)
      (fun (r, h) => r = .ok ⟨0, 1⟩ ∧ (framing h).files = [(0, 1)]) (by decide +kernel)
  obtain ⟨rfl, hfiles⟩ := of_decide_eq_true hfound
  refine ⟨id, uuid, n, h, ⟨0, 1⟩, hrun, hfiles, fun hframed => ?_⟩
  have hexact := hframed.2.1 (0, 1) (by rw [hfiles]; exact List.mem_singleton_self _)
  cases hexact

end Hapcli.Sftp
