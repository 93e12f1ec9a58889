/-
  Subject:   The download of a directory over SCP (`scp.rs`): what is created on this side, whatever
             the remote side sends.

  * **`download_contained`** -- only safe paths below the staging directory, within the limits, each
    file with the announced bytes; the destination is replaced after a whole tree and the exit
    status 0.
-/
import Hapcli.Sftp.ScpStream

namespace Hapcli.Sftp

open Hapcli.Process Hapcli.Lib Hapcli.Rust Proc

/-! ## 1. Local paths -/

/-- Pieces of a path that are no components. -/
def isSkipped (piece : Str) : Bool := piece = [] ∨ piece = ['.']

/-- `Path::parent` of a path that has a file name. -/
def parentPath (path : Str) : Str :=
  match slashPieces path with
  | [] => []
  | first :: rest =>
    match rest.reverse.dropWhile isSkipped with
    | [] => []
    | _ :: before =>
      let kept := (before.dropWhile isSkipped).reverse
      if first = [] ∧ kept = [] then ['/'] else joinSlash (first :: kept)

/-- `Path::join`. -/
def joinPath (parent name : Str) : Str :=
  if isAbsolutePath name = true then name
  else if parent = [] ∨ parent.getLast? = some '/' then parent ++ name
  else parent ++ '/' :: name

/-- `Path::with_file_name`. -/
def withFileName (path name : Str) : Str :=
  joinPath (if (pathFileName path).isSome = true then parentPath path else path) name

section Transfer

-- how `{:?}` writes a text
variable (debug : Str → Str)

def localDirectoryTemporaryPath (uuid : Uuid) (localPath : Str) : Except ScpError Str := do
  let name ← safeLocalFileName debug localPath
  return withFileName localPath (temporaryName uuid name "part-dir".toList)

def containedChildPath (parent name : Str) : Except ScpError Str := do
  validateReceivedName debug name
  if ['.', '.'] ∈ slashPieces (joinPath parent name) then
    .error (.protocolError "SCP path escaped the destination directory".toList)
  else .ok (joinPath parent name)

/-! ## 2. The transfer -/

def copyExactToFile (size : Nat) (channel : ScpChannel) : ScpProc ScpChannel :=
  loop (fun (remaining, channel) =>
    if remaining = 0 then ret (.done channel)
    else do
      checkControl
      let channel ← ensureBuffered channel
      let take := min remaining channel.buffered.length
      act (.write (channel.buffered.take take)) io
      ret (.again (remaining - take, { channel with buffered := channel.buffered.drop take })))
    (size, channel)

/-- A file record: the file, its bytes and the byte behind them. -/
def receiveFile (child : Str) (size : Nat) (channel : ScpChannel) : ScpProc ScpChannel := do
  act (.createFile child) io
  sendAck
  let channel ← copyExactToFile size channel
  act .flush io
  act .syncAll io
  -- `expect_sender_status`
  let channel ← readResponse channel
  sendAck
  ret channel

/-- `receive_directory_contents`, by the number of levels that are left for the depth. -/
def receiveDirectoryContents : Nat → Str → ScpTransferResult × ScpChannel →
    ScpProc (ScpTransferResult × ScpChannel)
  | 0, _, _ => fail (.protocolError "SCP directory nesting limit exceeded".toList)
  | levels + 1, localDirectory, (progress, channel) => do
      let progress ← ofExcept (countItem progress)
      loop (fun (progress, channel) => do
        checkControl
        let (record, channel) ← readNextRecord debug channel
        match record with
        | .times => do
            sendAck
            ret (.again (progress, channel))
        | .endDirectory => do
            sendAck
            ret (.done (progress, channel))
        | .directory _ name => do
            ofExcept (validateReceivedName debug name)
            let child ← ofExcept (containedChildPath debug localDirectory name)
            act (.createDir child) io
            sendAck
            let state ← receiveDirectoryContents levels child (progress, channel)
            ret (.again state)
        | .file _ size name => do
            ofExcept (validateReceivedName debug name)
            let child ← ofExcept (containedChildPath debug localDirectory name)
            let channel ← receiveFile child size channel
            let progress ← ofExcept (countItem
              { progress with bytes := saturatingAdd progress.bytes size })
            ret (.again (progress, channel))) (progress, channel)

def receiveDirectoryRoot (localRoot : Str) (progress : ScpTransferResult) (channel : ScpChannel) :
    ScpProc (ScpTransferResult × ScpChannel) := do
  let (record, channel) ← readNextRecord debug channel
  match record with
  | .directory _ name => do
      ofExcept (validateReceivedName debug name)
      sendAck
      receiveDirectoryContents debug (scpMaxDirectoryDepth + 1) localRoot (progress, channel)
  | _ => fail (.protocolError "SCP source did not send a directory record".toList)

/-- What `scp_download_directory` receives. -/
def receiveDirectory (remotePath localTemp : Str) : ScpProc ScpTransferResult := do
  let channel ← openScpChannel ("scp -fr -- ".toList ++ shellQuote remotePath)
  sendAck
  let (progress, channel) ← receiveDirectoryRoot debug localTemp ⟨0, 0⟩ channel
  finish channel
  ret progress

def replaceLocalDirectory (uuid : Uuid) (source destination : Str) : ScpProc Unit := do
  let destinationExists ← act (.tryExists destination) io
  if destinationExists = true then do
    let name := (pathFileName destination).getD "directory".toList
    let backup := withFileName destination (temporaryName uuid name "backup-dir".toList)
    act (.rename destination backup) io
    match ← (act (.rename source destination) io : ScpProc Unit).attempt with
    | .ok () => act (.removeDirAll backup) fun _ => ret ()
    | .error error => act (.rename backup destination) fun _ => fail error
  else act (.rename source destination) io

/-- The staging directory, made anew. -/
def prepareStaging (localPath localTemp : Str) : ScpProc Unit := do
  if parentPath localPath = [] then ret () else act (.createDirAll (parentPath localPath)) io
  act (.removeDirAll localTemp) fun _ => act (.createDirAll localTemp) io

/-- `scp_download_directory`. The two generated paths have their own `Uuid`s. -/
def scpDownloadDirectory (uuidTemp uuidBackup : Uuid) (localPath remotePath : Str) :
    ScpProc ScpTransferResult := do
  checkControl
  ofExcept (validateRemotePath remotePath)
  let localTemp ← ofExcept (localDirectoryTemporaryPath debug uuidTemp localPath)
  prepareStaging localPath localTemp
  match ← (receiveDirectory debug remotePath localTemp).attempt with
  | .ok result => do
      replaceLocalDirectory uuidBackup localTemp localPath
      ret result
  | .error error => act (.removeDirAll localTemp) fun _ => fail error

end Transfer

/-! ## 3. What has come, and what has been made of it -/

/-- What has been created: a directory, or a file with what was written to it. -/
inductive Made where
  | directory (path : Str)
  | file (path : Str) (contents : List UInt8)
  deriving DecidableEq

def Made.path : Made → Str
  | directory path => path
  | file path _ => path

/-- Some bytes more. -/
def Made.append (bytes : List UInt8) : Made → Made
  | directory path => directory path
  | file path contents => file path (contents ++ bytes)

/-- Some bytes more for what was created last. -/
def writeLast (made : List Made) (bytes : List UInt8) : List Made :=
  match made.getLast? with
  | some last => made.dropLast ++ [last.append bytes]
  | none => []

/-- What the remote side has sent, its exit status, what has been created, and whether anything has
    been renamed. -/
structure Account where
  received : List UInt8
  exitStatus : Option Nat
  made : List Made
  renamed : Bool
  deriving DecidableEq

/-- A message. -/
def Account.message (a : Account) : ChannelMsg → Account
  | .data bytes => { a with received := a.received ++ bytes }
  | .exitStatus status => { a with exitStatus := some status }
  | _ => a

/-- One more event. -/
def Account.next (a : Account) : Event ScpOp ScpOp.Ans → Account
  | ⟨.wait, some message⟩ => a.message message
  | ⟨.waitInTime, some (some message)⟩ => a.message message
  | ⟨.createDir path, _⟩ => { a with made := a.made ++ [.directory path] }
  | ⟨.createFile path, _⟩ => { a with made := a.made ++ [.file path []] }
  | ⟨.write bytes, _⟩ => { a with made := writeLast a.made bytes }
  | ⟨.rename _ _, _⟩ => { a with renamed := true }
  | _ => a

def account (h : ScpHist) : Account := h.foldl Account.next ⟨[], none, [], false⟩

/-! ## 4. The channel gives the bytes in order -/

/-- The bytes that were taken from the channel, the others in its buffer, and what was made. -/
def Taken (consumed : List UInt8) (made : List Made) (channel : ScpChannel) (h : ScpHist) : Prop :=
  account h = ⟨consumed ++ channel.buffered, channel.exitStatus, made, false⟩

/-- These bytes have come, and perhaps more. -/
def Come (consumed : List UInt8) (made : List Made) (h : ScpHist) : Prop :=
  ∃ rest status, account h = ⟨consumed ++ rest, status, made, false⟩

/-- Operations that the account does not show. -/
def Still : ScpOp → Prop
  | .wait | .waitInTime | .createDir _ | .createFile _ | .write _ | .rename _ _ => False
  | _ => True

theorem account_append (h : ScpHist) (e : Event ScpOp ScpOp.Ans) :
    account (h ++ [e]) = (account h).next e := by
  rw [account, List.foldl_append]
  rfl

variable {h : ScpHist}

variable {e : Event ScpOp ScpOp.Ans}

theorem account_still (hstill : Still e.1) :
    account (h ++ [e]) = account h := by
  rw [account_append]
  obtain ⟨op, answer⟩ := e
  cases op <;> first | rfl | exact hstill.elim

theorem Taken.come {consumed : List UInt8} {made : List Made} {channel : ScpChannel}
    (hh : Taken consumed made channel h) : Come consumed made h := ⟨_, _, hh⟩

theorem Come.earlier {consumed more : List UInt8} {made : List Made}
    (hh : Come (consumed ++ more) made h) : Come consumed made h := by
  obtain ⟨rest, status, haccount⟩ := hh
  rw [List.append_assoc] at haccount
  exact ⟨_, _, haccount⟩

variable {α : Type} {channel : ScpChannel}

section Channel

variable {I : ScpHist → Prop} {consumed : List UInt8} {made : List Made}

theorem safe_still {p : ScpProc α} {a : Account} (hp : Uses Still p)
    (hI : ∀ h, account h = a → I h) (hh : account h = a) :
    Safe I (onReturn fun _ h => account h = a) h p := by
  have hsafe : Safe I (fun _ h => account h = a) h p :=
    safe_of_uses hp (fun _ _ hstill hbefore => (account_still hstill).trans hbefore) hI hh
  refine hsafe.mono fun result h _ hresult => ?_
  cases result with
  | ok a => exact hresult
  | error error => trivial

theorem still_checkControl : Uses Still checkControl := uses_act trivial fun _ => uses_ofExcept _

theorem still_sendAck : Uses Still sendAck := uses_act trivial fun _ => uses_ofExcept _

section Reads

-- what the invariant asks of these steps
variable (hI : ∀ h, Come consumed made h → I h)

include hI

section

variable (hh : Taken consumed made channel h)

include hh

theorem safe_receiveMessage :
    Safe I (onReturn fun channel h => Taken consumed made channel h) h (receiveMessage channel) := by
  refine safe_act (hI h hh.come) fun answer => ?_
  have haccount := account_append h ⟨.wait, answer⟩
  rw [hh] at haccount
  have hreturn {channel : ScpChannel} {h : ScpHist} (hnext : Taken consumed made channel h) :
      Safe I (onReturn fun channel h => Taken consumed made channel h) h
        (ret channel : ScpProc ScpChannel) := safe_ret (hI _ hnext.come) hnext
  split
  · refine hreturn ?_
    rw [Taken, haccount, ← List.append_assoc]
    rfl
  · exact hreturn haccount
  · exact hreturn haccount
  · exact hreturn haccount
  · exact safe_failure (hI _ ⟨_, _, haccount⟩)
  · exact safe_failure (hI _ ⟨_, _, haccount⟩)
  · exact hreturn haccount
  · exact hreturn haccount

theorem safe_ensureBuffered :
    Safe I (onReturn fun channel h => Taken consumed made channel h) h (ensureBuffered channel) := by
  refine safe_repeat (fun channel h => Taken consumed made channel h) hh fun channel h hh => ?_
  split
  · refine safe_then (safe_receiveMessage hI hh) fun channel h hh => ?_
    exact safe_ret (hI h hh.come) hh
  · exact safe_ret (hI h hh.come) hh

theorem safe_readByte :
    Safe I (onReturn fun (byte, channel) h => Taken (consumed ++ [byte]) made channel h) h
      (readByte channel) := by
  refine safe_then (safe_ensureBuffered hI hh) fun channel h hh => ?_
  obtain ⟨buffered, stderr, exitStatus, closed⟩ := channel
  cases buffered with
  | nil => exact safe_failure (hI h hh.come)
  | cons byte buffered =>
    have hnext : Taken (consumed ++ [byte]) made ⟨buffered, stderr, exitStatus, closed⟩ h := by
      rw [Taken, List.append_assoc]
      exact hh
    exact safe_ret (hI h hh.come) hnext

end

/-- A line, in the bytes that were taken for it. -/
def LineTaken (consumed : List UInt8) (made : List Made) :
    Str × ScpChannel → ScpHist → Prop := fun (line, channel) h =>
  ∃ text, 10 ∉ text ∧ text.length ≤ scpMaxControlLineBytes ∧ fromUtf8 text = .ok line ∧
    Taken (consumed ++ (text ++ [10])) made channel h

omit hI in
theorem takeControlLine_ok {buffer rest : List UInt8} {line : Str}
    (h : takeControlLine buffer = .ok (some (line, rest))) :
    ∃ text, 10 ∉ text ∧ text.length ≤ scpMaxControlLineBytes ∧ fromUtf8 text = .ok line ∧
      buffer = text ++ 10 :: rest := by
  unfold takeControlLine at h
  split at h
  · split at h <;> cases h
  · next index hindex =>
      split at h
      · cases h
      · next hshort =>
          split at h
          · next line htext =>
              cases h
              obtain ⟨hlt, hbyte, hbefore⟩ := List.findIdx?_eq_some_iff_getElem.mp hindex
              have hbyte : buffer[index] = 10 := by simpa using hbyte
              refine ⟨buffer.take index, fun hmem => ?_, ?_, htext, ?_⟩
              · obtain ⟨j, hj, hten⟩ := List.mem_take_iff_getElem.mp hmem
                have := hbefore j (by omega)
                rw [hten] at this
                exact absurd this (by decide)
              · rw [List.length_take]
                omega
              · rw [← hbyte, List.getElem_cons_drop, List.take_append_drop]
          · cases h

theorem safe_readLine (hh : Taken consumed made channel h) :
    Safe I (onReturn (LineTaken consumed made)) h (readLine channel) := by
  refine safe_repeat (fun channel h => Taken consumed made channel h) hh fun channel h hh => ?_
  refine safe_then (P := fun taken h => takeControlLine channel.buffered = .ok taken ∧
    Taken consumed made channel h) (safe_check (hI h hh.come) fun taken htaken => ⟨htaken, hh⟩) ?_
  rintro taken h ⟨htaken, hh⟩
  cases taken with
  | none =>
    refine safe_then (safe_receiveMessage hI hh) fun channel h hh => ?_
    exact safe_ret (hI h hh.come) hh
  | some taken =>
    obtain ⟨line, rest⟩ := taken
    obtain ⟨text, hten, hlength, hline, hbuffer⟩ := takeControlLine_ok htaken
    refine safe_ret (hI h hh.come) ⟨text, hten, hlength, hline, ?_⟩
    rw [Taken, hh, hbuffer, List.append_assoc, List.append_assoc]
    rfl

/-- A record, in the bytes that were taken for it. -/
def RecordTaken (consumed : List UInt8) (made : List Made) :
    ScpRecord × ScpChannel → ScpHist → Prop := fun (record, channel) h =>
  ∃ kind text, kind ∈ recordKinds ∧ 10 ∉ text ∧ recordOf kind text = some record ∧
    Taken (consumed ++ kind :: text ++ [10]) made channel h

theorem safe_readNextRecord (debug : Str → Str) (hh : Taken consumed made channel h) :
    Safe I (onReturn (RecordTaken consumed made)) h (readNextRecord debug channel) := by
  refine safe_then (safe_readByte hI hh) fun (kind, channel) h hh => ?_
  have hlater (h : ScpHist) (hcome : Come (consumed ++ [kind]) made h) : I h := hI h hcome.earlier
  dsimp only
  split
  · next hkind =>
      refine safe_then (safe_readLine hlater hh) fun (line, channel) h hh => ?_
      obtain ⟨text, hten, hlength, hline, hh⟩ := hh
      have htaken (record : ScpRecord) (hrecord : parseRecord debug kind line = .ok record) :
          RecordTaken consumed made (record, channel) h := by
        refine ⟨kind, text, mem_recordKinds hkind hrecord, hten, ?_, ?_⟩
        · rw [recordOf, if_neg (Nat.not_lt.mpr hlength), hline]
          dsimp only
          rw [parseRecord_debug hrecord]
          rfl
        · rw [List.append_assoc] at hh
          rw [List.append_assoc]
          exact hh
      refine safe_then (P := fun record h => RecordTaken consumed made (record, channel) h)
        (safe_check (hlater h hh.come.earlier) htaken) fun record h hrecord => ?_
      obtain ⟨_, _, _, _, _, hcome⟩ := id hrecord
      rw [List.append_assoc] at hcome
      exact safe_ret (hI h hcome.come.earlier) hrecord
  · exact safe_failure (hlater h hh.come)

theorem safe_readResponse (hh : Taken consumed made channel h) :
    Safe I (onReturn fun channel h => Taken (consumed ++ [0]) made channel h) h
      (readResponse channel) := by
  refine safe_then (safe_readByte hI hh) fun (byte, channel) h hh => ?_
  have hlater (h : ScpHist) (hcome : Come (consumed ++ [byte]) made h) : I h := hI h hcome.earlier
  dsimp only
  split
  · next hzero =>
      subst hzero
      exact safe_ret (hlater h hh.come) hh
  · split
    · exact safe_then (safe_readLine hlater hh) fun (line, channel) h hline =>
        safe_failure (hlater h (hline.choose_spec.2.2.2.come.earlier))
    · exact safe_failure (hlater h hh.come)

end Reads

end Channel

/-! ## 5. What is created is what the stream describes -/

/-- A path below the staging directory. -/
def below (staging : Str) (place : List Str) : Str := staging ++ place.flatMap ('/' :: ·)

/-- What is made of an entry. -/
def Entry.made (staging : Str) : Entry → Made
  | .directory place => .directory (below staging place)
  | .file place _ contents => .file (below staging place) contents

/-- The limits. -/
structure Limited (entries : List Entry) : Prop where
  count : entries.length ≤ scpMaxDirectoryEntries
  depth : ∀ place ∈ entries.map Entry.place, place.length ≤ scpMaxDirectoryDepth + 1

/-- **What is known after any number of steps**: some of the bytes that have come describe what has
    been made, and all of them the tree where something has been renamed. -/
def Sound (staging : Str) (h : ScpHist) : Prop :=
  ∃ consumed rest s, Reads consumed s ∧ (account h).received = consumed ++ rest ∧
    (account h).made = s.entries.map (Entry.made staging) ∧ Limited s.entries ∧
    ((account h).renamed = true → s.place = .finished ∧ (account h).exitStatus = some 0)

/-- The bytes taken from the channel lead to this place and describe what has been made. -/
structure Standing (staging : Str) (here : Place) (entries : List Entry) (channel : ScpChannel)
    (h : ScpHist) : Prop where
  taken : ∃ consumed, Reads consumed ⟨here, entries⟩ ∧
    Taken consumed (entries.map (Entry.made staging)) channel h
  limited : Limited entries

/-- A record has been read, and nothing has been made of it. -/
structure Recorded (staging : Str) (place : Option (List Str)) (entries : List Entry)
    (record : ScpRecord) (channel : ScpChannel) (h : ScpHist) : Prop where
  taken : ∃ consumed, (∀ s, recorded entries place record = some s → Reads consumed s) ∧
    Taken consumed (entries.map (Entry.made staging)) channel h
  limited : Limited entries
  sound : Sound staging h

variable {staging : Str}

section Stands

variable {here : Place} {entries : List Entry} {h' : ScpHist}

theorem below_concat (staging : Str) (place : List Str) (name : Str) :
    below staging (place ++ [name]) = below staging place ++ '/' :: name := by
  rw [below, below, List.flatMap_append, List.append_assoc, List.flatMap_singleton]

theorem made_append (entry : Entry) (bytes : List UInt8) :
    (entry.append bytes).made staging = (entry.made staging).append bytes := by
  cases entry <;> rfl

theorem made_appendLast (entries : List Entry) (bytes : List UInt8) :
    (appendLast entries bytes).map (Entry.made staging) =
      writeLast (entries.map (Entry.made staging)) bytes := by
  cases entries using List.reverseRecOn with
  | nil => rfl
  | append_singleton entries entry =>
    rw [appendLast_concat, List.map_append, List.map_append, writeLast]
    rw [List.map_singleton, List.map_singleton, List.getLast?_concat, List.dropLast_concat,
      made_append]

theorem sound_of_come {consumed : List UInt8} {s : Stream} (hreads : Reads consumed s)
    (hlimited : Limited s.entries) (hcome : Come consumed (s.entries.map (Entry.made staging)) h) :
    Sound staging h := by
  obtain ⟨rest, status, haccount⟩ := hcome
  refine ⟨consumed, rest, s, hreads, ?_, ?_, hlimited, ?_⟩
  · rw [haccount]
  · rw [haccount]
  · rw [haccount]
    exact nofun

theorem Standing.sound (hh : Standing staging here entries channel h) : Sound staging h := by
  obtain ⟨⟨consumed, hreads, htaken⟩, hlimited⟩ := hh
  exact sound_of_come hreads hlimited htaken.come

theorem Standing.congr (hh : Standing staging here entries channel h)
    (haccount : account h' = account h) : Standing staging here entries channel h' := by
  obtain ⟨⟨consumed, hreads, htaken⟩, hlimited⟩ := hh
  exact ⟨⟨consumed, hreads, haccount.trans htaken⟩, hlimited⟩

theorem sound_congr (hh : Sound staging h) (haccount : account h' = account h) :
    Sound staging h' := by
  rw [Sound, haccount]
  exact hh

theorem safe_standing {p : ScpProc α} (hp : Uses Still p)
    (hh : Standing staging here entries channel h) :
    Safe (Sound staging) (onReturn fun _ h => Standing staging here entries channel h) h p :=
  (safe_still hp (fun _ haccount => (hh.congr haccount).sound) rfl).mono fun result _ _ hresult => by
    cases result with
    | ok a => exact hh.congr hresult
    | error error => trivial

theorem still_flush : Uses Still
    (act .flush io : ScpProc Unit) := uses_act trivial fun _ => uses_ofExcept _

theorem still_syncAll : Uses Still
    (act .syncAll io : ScpProc Unit) := uses_act trivial fun _ => uses_ofExcept _

variable (debug : Str → Str)

theorem safe_record {place : Option (List Str)}
    (hh : Standing staging (.record place) entries channel h) :
    Safe (Sound staging) (onReturn fun (record, channel) h =>
      Recorded staging place entries record channel h) h (readNextRecord debug channel) := by
  obtain ⟨⟨consumed, hreads, htaken⟩, hlimited⟩ := hh
  refine (safe_readNextRecord (fun _ hcome => sound_of_come hreads hlimited hcome) debug
    htaken).mono fun result h hsound hresult => ?_
  cases result with
  | error error => trivial
  | ok result =>
    obtain ⟨kind, text, hkind, hten, hrecord, htaken⟩ := hresult
    exact ⟨⟨_, fun s hs => reads_line hreads hkind hten hrecord hs, htaken⟩, hlimited, hsound⟩

variable {name : Str} {place : List Str} {record : ScpRecord}

theorem Recorded.standing {place : Option (List Str)}
    (hh : Recorded staging place entries record channel h)
    (hrecord : recorded entries place record = some ⟨here, entries⟩) :
    Standing staging here entries channel h := by
  obtain ⟨⟨consumed, hreads, htaken⟩, hlimited, -⟩ := hh
  exact ⟨⟨consumed, hreads _ hrecord, htaken⟩, hlimited⟩

theorem Recorded.made {place : Option (List Str)} {entry : Entry}
    (hh : Recorded staging place entries record channel h)
    (hrecord : recorded entries place record = some ⟨here, entries ++ [entry]⟩)
    (hlimited : Limited (entries ++ [entry]))
    (hnext : ∀ a : Account, a.next e = { a with made := a.made ++ [entry.made staging] }) :
    Standing staging here (entries ++ [entry]) channel (h ++ [e]) := by
  obtain ⟨⟨consumed, hreads, htaken⟩, -, -⟩ := hh
  refine ⟨⟨consumed, hreads _ hrecord, ?_⟩, hlimited⟩
  rw [Taken, account_append, htaken, hnext, List.map_append]
  rfl

theorem limited_concat {entry : Entry} (hlimited : Limited entries)
    (hcount : entries.length < scpMaxDirectoryEntries) (hplace : entry.place = place ++ [name])
    (hdepth : place.length ≤ scpMaxDirectoryDepth) : Limited (entries ++ [entry]) := by
  refine ⟨?_, fun other hother => ?_⟩
  · rw [List.length_append, List.length_singleton]
    exact hcount
  · rw [List.map_append, List.mem_append] at hother
    obtain hother | hother := hother
    · exact hlimited.depth other hother
    · rw [List.map_singleton, List.mem_singleton] at hother
      rw [hother, hplace, List.length_append, List.length_singleton]
      exact Nat.succ_le_succ hdepth

theorem safe_copyExactToFile {size : Nat}
    (hh : Standing staging (.file place size) entries channel h) :
    Safe (Sound staging) (onReturn fun channel h => ∃ entries', entries'.length = entries.length ∧
      Standing staging (.status place) entries' channel h) h (copyExactToFile size channel) := by
  refine safe_repeat (fun (remaining, channel) h => ∃ entries', entries'.length = entries.length ∧
    Standing staging (.file place remaining) entries' channel h) ⟨entries, rfl, hh⟩ ?_
  rintro ⟨remaining, channel⟩ h ⟨entries', hlength, hh⟩
  dsimp only
  split
  · next hzero =>
      rw [hzero] at hh
      exact safe_ret hh.sound ⟨entries', hlength, hh⟩
  · refine safe_then (safe_standing still_checkControl hh) fun _ h hh => ?_
    obtain ⟨⟨consumed, hreads, htaken⟩, hlimited⟩ := hh
    refine safe_then (safe_ensureBuffered (fun _ hcome => sound_of_come hreads hlimited hcome) htaken)
      fun channel h htaken => ?_
    obtain ⟨buffered, stderr, exitStatus, closed⟩ := channel
    have hsize : (buffered.take (min remaining buffered.length)).length =
        min remaining buffered.length := by
      rw [List.length_take]
      omega
    have hnext (answer : ScpOp.Ans (.write (buffered.take (min remaining buffered.length)))) :
        Standing staging (.file place (remaining - min remaining buffered.length))
          (appendLast entries' (buffered.take (min remaining buffered.length)))
          ⟨buffered.drop (min remaining buffered.length), stderr, exitStatus, closed⟩
          (h ++ [⟨_, answer⟩]) := by
      have hgrown := reads_contents hreads (hsize.trans_le (Nat.min_le_left _ _))
      rw [hsize] at hgrown
      refine ⟨⟨_, hgrown, ?_⟩, ?_, ?_⟩
      · rw [Taken, account_append, htaken, made_appendLast, List.append_assoc, List.take_append_drop]
        rfl
      · rw [length_appendLast]
        exact hlimited.count
      · rw [place_appendLast]
        exact hlimited.depth
    refine safe_act (sound_of_come hreads hlimited htaken.come) fun answer => ?_
    cases answer with
    | error error => exact safe_failure (hnext (.error error)).sound
    | ok _ =>
      refine safe_ret (hnext (.ok ())).sound ⟨_, ?_, hnext (.ok ())⟩
      rw [length_appendLast]
      exact hlength

theorem safe_receiveFile {mode size : Nat}
    (hh : Recorded staging (some place) entries (.file mode size name) channel h)
    (hcount : entries.length < scpMaxDirectoryEntries)
    (hdepth : place.length ≤ scpMaxDirectoryDepth) :
    Safe (Sound staging) (onReturn fun channel h => ∃ entries', entries'.length = entries.length + 1 ∧
      Standing staging (.record (some place)) entries' channel h) h
      (receiveFile (below staging (place ++ [name])) size channel) := by
  have hmade (answer : ScpOp.Ans (.createFile (below staging (place ++ [name])))) :
      Standing staging (.file place size) (entries ++ [.file (place ++ [name]) size []]) channel
        (h ++ [⟨_, answer⟩]) :=
    hh.made rfl (limited_concat hh.limited hcount rfl hdepth) fun _ => rfl
  refine safe_then (P := fun _ h => Standing staging (.file place size)
    (entries ++ [.file (place ++ [name]) size []]) channel h) ?_ fun _ h hh => ?_
  · refine safe_act hh.sound fun answer => ?_
    cases answer with
    | error error => exact safe_failure (hmade (.error error)).sound
    | ok _ => exact safe_ret (hmade (.ok ())).sound (hmade (.ok ()))
  · refine safe_then (safe_standing still_sendAck hh) fun _ h hh => ?_
    refine safe_then (safe_copyExactToFile hh) fun channel h ⟨entries', hlength, hh⟩ => ?_
    refine safe_then (safe_standing still_flush hh) fun _ h hh => ?_
    refine safe_then (safe_standing still_syncAll hh) fun _ h hh => ?_
    obtain ⟨⟨consumed, hreads, htaken⟩, hlimited⟩ := hh
    refine safe_then (safe_readResponse (fun _ hcome => sound_of_come hreads hlimited hcome) htaken)
      fun channel h htaken => ?_
    have hh : Standing staging (.record (some place)) entries' channel h :=
      ⟨⟨_, reads_status hreads, htaken⟩, hlimited⟩
    refine safe_then (safe_standing still_sendAck hh) fun _ h hh => ?_
    refine safe_ret hh.sound ⟨entries', hlength.trans ?_, hh⟩
    rw [List.length_append, List.length_singleton]

/-- A path to which a name can be appended. -/
def Appendable (path : Str) : Prop := path ≠ [] ∧ path.getLast? ≠ some '/'

theorem joinPath_appendable {path : Str} (hpath : Appendable path)
    (hname : isAbsolutePath name = false) : joinPath path name = path ++ '/' :: name := by
  rw [joinPath, if_neg (by rw [hname]; decide), if_neg (not_or.mpr hpath)]

theorem isAbsolutePath_plain (hplain : '/' ∉ name) : isAbsolutePath name = false := by
  cases name with
  | nil => rfl
  | cons c rest =>
    rw [List.mem_cons, not_or] at hplain
    exact beq_eq_false_iff_ne.mpr fun heq => hplain.1 (Option.some.inj heq).symm

theorem appendable_append {front : Str} (hne : name ≠ []) (hplain : '/' ∉ name) :
    Appendable (front ++ name) := by
  refine ⟨List.append_ne_nil_of_right_ne_nil _ hne, fun hlast => ?_⟩
  rw [List.getLast?_append_of_ne_nil _ hne] at hlast
  exact hplain (List.mem_of_getLast? hlast)

theorem appendable_joinPath (parent : Str) (hne : name ≠ []) (hplain : '/' ∉ name) :
    Appendable (joinPath parent name) := by
  rw [joinPath, if_neg (by rw [isAbsolutePath_plain hplain]; decide)]
  split
  · exact appendable_append hne hplain
  · rw [List.append_cons]
    exact appendable_append hne hplain

section

variable (hstaging : Appendable staging) (hsafe : ∀ name ∈ place, SafeName name)

include hstaging hsafe

theorem appendable_below : Appendable (below staging place) := by
  cases place using List.reverseRecOn with
  | nil =>
    rw [below, List.flatMap_nil, List.append_nil]
    exact hstaging
  | append_singleton place name =>
    obtain ⟨hne, -, -, hplain, -, -⟩ :=
      hsafe name (List.mem_append_right _ (List.mem_singleton_self _))
    rw [below_concat, List.append_cons]
    exact appendable_append hne hplain

theorem containedChildPath_ok {debug : Str → Str} {child : Str}
    (hchild : containedChildPath debug (below staging place) name = .ok child) :
    child = below staging (place ++ [name]) := by
  unfold containedChildPath at hchild
  cases hvalid : validateReceivedName debug name with
  | error error =>
    rw [hvalid] at hchild
    cases hchild
  | ok _ =>
    rw [hvalid] at hchild
    change (if _ then _ else _) = _ at hchild
    split at hchild
    · cases hchild
    · cases hchild
      obtain ⟨-, -, -, hplain, -, -⟩ := safeName_of_validateReceivedName hvalid
      rw [below_concat]
      exact joinPath_appendable (appendable_below hstaging hsafe) (isAbsolutePath_plain hplain)

end

theorem countItem_ok {progress counted : ScpTransferResult} (h : countItem progress = .ok counted) :
    counted.items = progress.items + 1 ∧ progress.items < scpMaxDirectoryEntries := by
  unfold countItem at h
  dsimp only at h
  cases hlimit : ensureEntryLimit (saturatingAdd progress.items 1) with
  | error error =>
    rw [hlimit] at h
    cases h
  | ok _ =>
    rw [hlimit] at h
    cases h
    rw [ensureEntryLimit] at hlimit
    split at hlimit
    · cases hlimit
    · next hfits =>
        rw [saturatingAdd, scpMaxDirectoryEntries, u64Max] at hfits
        show saturatingAdd progress.items 1 = progress.items + 1 ∧ _
        rw [saturatingAdd, scpMaxDirectoryEntries, u64Max]
        omega

/-- Between two records of a directory, with the count of what has been described. -/
def AtRecord (staging : Str) (place : List Str) : ScpTransferResult × ScpChannel → ScpHist → Prop :=
  fun (progress, channel) h => ∃ entries, Standing staging (.record (some place)) entries channel h ∧
    progress.items = entries.length + 1 ∧ entries.length < scpMaxDirectoryEntries

/-- Behind the end record of a directory. -/
def AtEnd (staging : Str) (place : List Str) : ScpTransferResult × ScpChannel → ScpHist → Prop :=
  fun (progress, channel) h => ∃ entries,
    Standing staging (if place = [] then .finished else .record (some place.dropLast)) entries channel h ∧
    progress.items = entries.length + 1 ∧ entries.length < scpMaxDirectoryEntries

theorem safe_childPath (hstaging : Appendable staging) (hsafe : ∀ name ∈ place, SafeName name)
    (hh : Recorded staging (some place) entries record channel h) {f : Str → ScpProc α}
    {P : α → ScpHist → Prop}
    (hf : SafeName name → Safe (Sound staging) (onReturn P) h (f (below staging (place ++ [name])))) :
    Safe (Sound staging) (onReturn P) h (do
      ofExcept (validateReceivedName debug name)
      let child ← ofExcept (containedChildPath debug (below staging place) name)
      f child) := by
  cases hvalid : validateReceivedName debug name with
  | error error => exact safe_failure hh.sound
  | ok _ =>
    cases hchild : containedChildPath debug (below staging place) name with
    | error error => exact safe_failure hh.sound
    | ok child =>
      rw [containedChildPath_ok hstaging hsafe hchild]
      exact hf (safeName_of_validateReceivedName hvalid)

theorem safe_receiveDirectoryContents (hstaging : Appendable staging)
    (levels : Nat) (place : List Str) (hlevels : place.length + levels = scpMaxDirectoryDepth + 1)
    (hsafe : ∀ name ∈ place, SafeName name) (progress : ScpTransferResult)
    (hh : Standing staging (.record (some place)) entries channel h)
    (hitems : progress.items = entries.length) :
    Safe (Sound staging) (onReturn (AtEnd staging place)) h
      (receiveDirectoryContents debug levels (below staging place) (progress, channel)) := by
  induction levels generalizing place progress entries channel h with
  | zero => exact safe_failure hh.sound
  | succ levels ih =>
    have hdepth : place.length ≤ scpMaxDirectoryDepth := by omega
    refine safe_then (P := fun progress h => AtRecord staging place (progress, channel) h)
      (safe_check hh.sound fun counted hcounted => ?_) fun counted h hh => ?_
    · obtain ⟨hcount, hlimit⟩ := countItem_ok hcounted
      rw [hitems] at hcount hlimit
      exact ⟨entries, hh, hcount, hlimit⟩
    refine safe_repeat (AtRecord staging place) hh ?_
    rintro ⟨progress, channel⟩ h ⟨entries, hh, hitems, hcount⟩
    refine safe_then (safe_standing still_checkControl hh) fun _ h hh => ?_
    refine safe_then (safe_record debug hh) fun (record, channel) h hrecord => ?_
    cases record with
    | times =>
      refine safe_then (safe_standing still_sendAck (hrecord.standing rfl)) fun _ h hh => ?_
      exact safe_ret hh.sound ⟨entries, hh, hitems, hcount⟩
    | endDirectory =>
      have hend : Standing staging (if place = [] then .finished else .record (some place.dropLast))
          entries channel h := by
        refine hrecord.standing ?_
        rw [recorded]
        split
        · rfl
        · rfl
      refine safe_then (safe_standing still_sendAck hend) fun _ h hh => ?_
      exact safe_ret hh.sound ⟨entries, hh, hitems, hcount⟩
    | directory mode name =>
      refine safe_childPath debug hstaging hsafe hrecord fun hname => ?_
      have hmade (answer : ScpOp.Ans (.createDir (below staging (place ++ [name])))) :
          Standing staging (.record (some (place ++ [name])))
            (entries ++ [.directory (place ++ [name])]) channel (h ++ [⟨_, answer⟩]) :=
        hrecord.made rfl (limited_concat hrecord.limited hcount rfl hdepth) fun _ => rfl
      refine safe_then (P := fun _ h => Standing staging (.record (some (place ++ [name])))
        (entries ++ [.directory (place ++ [name])]) channel h) ?_ fun _ h hh => ?_
      · refine safe_act hrecord.sound fun answer => ?_
        cases answer with
        | error error => exact safe_failure (hmade (.error error)).sound
        | ok _ => exact safe_ret (hmade (.ok ())).sound (hmade (.ok ()))
      · refine safe_then (safe_standing still_sendAck hh) fun _ h hh => ?_
        refine safe_then (ih (place ++ [name])
          (by rw [List.length_append, List.length_singleton]; omega)
          (safe_concat hsafe hname) progress hh
          (by rw [hitems, List.length_append, List.length_singleton])) ?_
        rintro ⟨progress, channel⟩ h ⟨entries, hh, hitems, hcount⟩
        rw [if_neg (List.concat_ne_nil _ _), List.dropLast_concat] at hh
        exact safe_ret hh.sound ⟨entries, hh, hitems, hcount⟩
    | file mode size name =>
      refine safe_childPath debug hstaging hsafe hrecord fun _ => ?_
      refine safe_then (safe_receiveFile hrecord hcount hdepth)
        fun channel h ⟨entries', hlength, hh⟩ => ?_
      refine safe_then (P := fun progress h => AtRecord staging place (progress, channel) h)
        (safe_check hh.sound fun counted hcounted => ?_) fun counted h hh => ?_
      · obtain ⟨hcount, hlimit⟩ := countItem_ok hcounted
        have hitems : progress.items = entries'.length := hitems.trans hlength.symm
        exact ⟨entries', hh, hcount.trans (congrArg (· + 1) hitems), hitems ▸ hlimit⟩
      · obtain ⟨_, hstanding, _⟩ := id hh
        exact safe_ret hstanding.sound hh

/-- The tree has been received, and its end record. -/
def ReceivedTree (staging : Str) (channel : ScpChannel) (h : ScpHist) : Prop :=
  ∃ entries, Standing staging .finished entries channel h

theorem safe_receiveDirectoryRoot (hstaging : Appendable staging)
    (hh : Standing staging (.record none) [] channel h) :
    Safe (Sound staging) (onReturn fun (_, channel) h => ReceivedTree staging channel h) h
      (receiveDirectoryRoot debug staging ⟨0, 0⟩ channel) := by
  refine safe_then (safe_record debug hh) fun (record, channel) h hrecord => ?_
  cases record with
  | file mode size name => exact safe_failure hrecord.sound
  | endDirectory => exact safe_failure hrecord.sound
  | times => exact safe_failure hrecord.sound
  | directory mode name =>
    have hroot : Standing staging (.record (some [])) [] channel h := hrecord.standing rfl
    have hbelow : below staging [] = staging := List.append_nil _
    refine safe_then (P := fun _ h => Standing staging (.record (some [])) [] channel h)
      (safe_check hroot.sound fun _ _ => hroot) fun _ h hh => ?_
    refine safe_then (safe_standing still_sendAck hh) fun _ h hh => ?_
    have hcontents := safe_receiveDirectoryContents debug hstaging (scpMaxDirectoryDepth + 1) []
      (Nat.zero_add _) (List.forall_mem_nil _) ⟨0, 0⟩ hh rfl
    rw [hbelow] at hcontents
    refine hcontents.mono fun result h _ hresult => ?_
    cases result with
    | error error => trivial
    | ok result =>
      obtain ⟨entries, hh, -, -⟩ := hresult
      exact ⟨entries, hh⟩

/-- The end of the channel with the exit status 0 has come too. -/
def Exited (staging : Str) (h : ScpHist) : Prop :=
  ∃ consumed rest entries, Reads consumed ⟨.finished, entries⟩ ∧
    (account h).received = consumed ++ rest ∧
    (account h).made = entries.map (Entry.made staging) ∧ Limited entries ∧
    (account h).exitStatus = some 0

theorem Exited.sound (hh : Exited staging h) : Sound staging h := by
  obtain ⟨consumed, rest, entries, hreads, hreceived, hmade, hlimited, hstatus⟩ := hh
  exact ⟨consumed, rest, _, hreads, hreceived, hmade, hlimited, fun _ => ⟨rfl, hstatus⟩⟩

theorem safe_finish (hh : ReceivedTree staging channel h) :
    Safe (Sound staging) (onReturn fun _ h => Exited staging h) h (finish channel) := by
  obtain ⟨entries, ⟨consumed, hreads, htaken⟩, hlimited⟩ := hh
  have hsound (h : ScpHist) (hcome : Come consumed (entries.map (Entry.made staging)) h) :
      Sound staging h := sound_of_come hreads hlimited hcome
  -- the bytes that still come are not kept: only those before them describe the tree
  let Drained (channel : ScpChannel) (h : ScpHist) : Prop :=
    ∃ rest, account h = ⟨consumed ++ rest, channel.exitStatus, entries.map (Entry.made staging), false⟩
  have hcome {channel : ScpChannel} {h : ScpHist} (hh : Drained channel h) :
      Come consumed (entries.map (Entry.made staging)) h := ⟨hh.choose, _, hh.choose_spec⟩
  refine safe_then (P := Drained) (safe_repeat Drained ⟨_, htaken⟩ ?_) ?_
  · intro channel h hh
    unfold drainTurn
    split
    · exact safe_ret (hsound h (hcome hh)) hh
    · refine safe_act (hsound h (hcome hh)) fun answer => ?_
      have haccount := account_append h ⟨.waitInTime, answer⟩
      obtain ⟨rest, hrest⟩ := hh
      rw [hrest] at haccount
      have hagain {channel : ScpChannel} {h : ScpHist} (hnext : Drained channel h) :
          Safe (Sound staging) (onReturn (onFlow Drained Drained)) h
            (ret (.again channel) : ScpProc (Turn ScpChannel ScpChannel)) :=
        safe_ret (hsound _ (hcome hnext)) hnext
      split
      · exact safe_failure (hsound _ ⟨_, _, haccount⟩)
      · exact hagain ⟨_, haccount⟩
      · exact hagain ⟨_, haccount⟩
      · exact hagain ⟨_, haccount⟩
      · exact hagain ⟨_, haccount⟩
      · next message hstderr hstatus hclose =>
          have hrest : ∃ rest, account (h ++ [⟨.waitInTime, some (some message)⟩]) =
              ⟨consumed ++ rest, channel.exitStatus, entries.map (Entry.made staging), false⟩ := by
            rw [haccount]
            cases message with
            | data bytes => exact ⟨rest ++ bytes, by rw [← List.append_assoc]; rfl⟩
            | extendedData bytes ext => exact ⟨rest, rfl⟩
            | exitStatus status => exact absurd rfl (hstatus status)
            | eof => exact ⟨rest, rfl⟩
            | close => exact ⟨rest, rfl⟩
            | other => exact ⟨rest, rfl⟩
          exact hagain hrest
  · intro channel h hh
    refine safe_then (P := fun _ h => Drained channel h) ?_ fun _ h hh => ?_
    · refine safe_act (hsound h (hcome hh)) fun answer => ?_
      have hnext : Drained channel (h ++ [⟨.closeChannel, answer⟩]) :=
        ⟨hh.choose, (account_still (e := ⟨.closeChannel, answer⟩) trivial).trans hh.choose_spec⟩
      exact safe_ret (hsound _ (hcome hnext)) hnext
    · split
      · next hzero =>
          obtain ⟨rest, hrest⟩ := id hh
          refine safe_ret (hsound h (hcome hh)) ⟨consumed, rest, entries, hreads, ?_, ?_, hlimited, ?_⟩
          · rw [hrest]
          · rw [hrest]
          · rw [hrest]
            exact hzero
      · exact safe_failure (hsound h (hcome hh))

/-- Nothing has come, and nothing has been made. -/
def start : Account := ⟨[], none, [], false⟩

theorem reads_nil : Reads [] ⟨.record none, []⟩ := rfl

theorem sound_start (hh : account h = start) : Sound staging h :=
  sound_of_come reads_nil ⟨Nat.zero_le _, List.forall_mem_nil _⟩ ⟨[], none, hh⟩

theorem safe_openScpChannel (command : Str) (hh : account h = start) :
    Safe (Sound staging) (onReturn fun channel h => Standing staging (.record none) [] channel h) h
      (openScpChannel command) := by
  have hnext {h : ScpHist} {e : Event ScpOp ScpOp.Ans} (hstill : Still e.1)
      (hh : account h = start) : account (h ++ [e]) = start := (account_still hstill).trans hh
  refine safe_act (sound_start hh) fun opened => ?_
  have hopened := hnext (e := ⟨.openExecChannel, opened⟩) trivial hh
  cases opened with
  | error error => exact safe_failure (sound_start hopened)
  | ok _ =>
    refine safe_act (sound_start hopened) fun started => ?_
    have hstarted := hnext (e := ⟨.exec command, started⟩) trivial hopened
    cases started with
    | error error => exact safe_failure (sound_start hstarted)
    | ok _ =>
      exact safe_ret (sound_start hstarted)
        ⟨⟨[], reads_nil, hstarted⟩, Nat.zero_le _, List.forall_mem_nil _⟩

theorem safe_receiveDirectory (hstaging : Appendable staging) (remotePath : Str)
    (hh : account h = start) :
    Safe (Sound staging) (onReturn fun _ h => Exited staging h) h
      (receiveDirectory debug remotePath staging) := by
  refine safe_then (safe_openScpChannel _ hh) fun channel h hh => ?_
  refine safe_then (safe_standing still_sendAck hh) fun _ h hh => ?_
  refine safe_then (safe_receiveDirectoryRoot debug hstaging hh) fun (progress, channel) h hh => ?_
  refine safe_then (safe_finish hh) fun _ h hh => ?_
  exact safe_ret hh.sound hh

/-- Operations on the destination. -/
def Places : ScpOp → Prop
  | .tryExists _ | .rename _ _ | .removeDirAll _ => True
  | _ => False

theorem places_replaceLocalDirectory (uuid : Uuid) (source destination : Str) :
    Uses Places (replaceLocalDirectory uuid source destination) := by
  refine uses_bind (uses_act trivial fun _ => uses_ofExcept _) fun destinationExists => ?_
  split
  · refine uses_bind (uses_act trivial fun _ => uses_ofExcept _) fun _ => ?_
    refine uses_bind (uses_act trivial fun answer => ?_) fun outcome => ?_
    · cases answer with
      | ok _ => exact uses_ret _
      | error error => exact uses_ret _
    · cases outcome with
      | ok _ => exact uses_act trivial fun _ => uses_ret _
      | error error => exact uses_act trivial fun _ => uses_fail _
  · exact uses_act trivial fun _ => uses_ofExcept _

theorem exited_append (hplaces : Places e.1) (hh : Exited staging h) :
    Exited staging (h ++ [e]) := by
  rw [Exited, account_append]
  obtain ⟨op, answer⟩ := e
  cases op <;> first | exact hh | exact hplaces.elim

theorem sound_removeDirAll {path : Str} {answer : ScpOp.Ans (.removeDirAll path)}
    (hh : Sound staging h) : Sound staging (h ++ [⟨.removeDirAll path, answer⟩]) :=
  sound_congr hh (account_still (e := ⟨.removeDirAll path, answer⟩) trivial)

end Stands

/-! ## 6. Containment -/

variable {localPath : Str}

theorem appendable_localDirectoryTemporaryPath {debug : Str → Str} {uuid : Uuid}
    (h : localDirectoryTemporaryPath debug uuid localPath = .ok staging) : Appendable staging := by
  unfold localDirectoryTemporaryPath at h
  cases hname : safeLocalFileName debug localPath with
  | error error =>
    rw [hname] at h
    cases h
  | ok name =>
    rw [hname] at h
    cases h
    have hplain := (@temporaryName_spec debug uuid name "part-dir".toList
      (safeLocalFileName_ok hname).2 (by decide)).1
    exact appendable_joinPath _ nofun hplain

/-- **What is created stays below the staging directory, within the limits, and is what the stream
    describes; the destination is replaced for a whole tree only.** -/
structure Contained (staging : Str) (h : ScpHist) : Prop where
  paths : ∀ made ∈ (account h).made, ∃ place, place ≠ [] ∧
    place.length ≤ scpMaxDirectoryDepth + 1 ∧ (∀ name ∈ place, SafeName name) ∧
    made.path = below staging place
  count : (account h).made.length ≤ scpMaxDirectoryEntries
  described : ∃ consumed rest s, (account h).received = consumed ++ rest ∧ Reads consumed s ∧
    (account h).made = s.entries.map (Entry.made staging) ∧
    (∀ entry ∈ s.entries, entry.Fits) ∧ (∀ entry ∈ s.entries.dropLast, entry.Complete) ∧
    ((account h).renamed = true → WellFormed consumed ∧ (∀ entry ∈ s.entries, entry.Complete) ∧
      (account h).exitStatus = some 0)

theorem path_made (staging : Str) (entry : Entry) :
    (entry.made staging).path = below staging entry.place := by
  cases entry <;> rfl

theorem contained_of_sound (hh : Sound staging h) : Contained staging h := by
  obtain ⟨consumed, rest, s, hreads, hreceived, hmade, hlimited, hrenamed⟩ := hh
  have hshaped := shaped_of_reads hreads
  refine ⟨fun made hmem => ?_, ?_, consumed, rest, s, hreceived, hreads, hmade, hshaped.fits,
    hshaped.complete, fun hdone => ?_⟩
  · rw [hmade] at hmem
    obtain ⟨entry, hentry, rfl⟩ := List.mem_map.mp hmem
    obtain ⟨hne, hsafe⟩ := hshaped.contained entry hentry
    exact ⟨entry.place, hne, hlimited.depth _ (List.mem_map_of_mem hentry), hsafe,
      path_made staging entry⟩
  · rw [hmade, List.length_map]
    exact hlimited.count
  · obtain ⟨hplace, hstatus⟩ := hrenamed hdone
    obtain ⟨place, entries⟩ := s
    cases hplace
    exact ⟨⟨entries, hreads⟩, hshaped.described, hstatus⟩

/-- The same where the staging directory has a path; nothing is created where it has none. -/
def ContainedIn (staging : Except ScpError Str) (h : ScpHist) : Prop :=
  match staging with
  | .ok staging => Contained staging h
  | .error _ => (account h).made = [] ∧ (account h).renamed = false

theorem still_prepareStaging (localPath localTemp : Str) :
    Uses Still (prepareStaging localPath localTemp) := by
  have hcreate : Uses Still (act (.removeDirAll localTemp) fun _ =>
      act (.createDirAll localTemp) io : ScpProc Unit) :=
    uses_act trivial fun _ => uses_act trivial fun _ => uses_ofExcept _
  unfold prepareStaging
  split
  · exact hcreate
  · exact uses_bind (uses_act trivial fun _ => uses_ofExcept _) fun _ => hcreate

variable (debug : Str → Str)

theorem safe_scpDownloadDirectory (uuidTemp uuidBackup : Uuid) (remotePath : Str)
    (hlocal : localDirectoryTemporaryPath debug uuidTemp localPath = .ok staging) :
    Safe (Sound staging) (onReturn fun _ _ => True) []
      (scpDownloadDirectory debug uuidTemp uuidBackup localPath remotePath) := by
  have hstaging := appendable_localDirectoryTemporaryPath hlocal
  refine safe_then (safe_still still_checkControl (fun _ => sound_start) rfl) fun _ h hh => ?_
  refine safe_then (safe_still (uses_ofExcept _) (fun _ => sound_start) hh) fun _ h hh => ?_
  rw [hlocal]
  refine safe_then (P := fun localTemp h => localTemp = staging ∧ account h = start)
    (safe_ret (sound_start hh) ⟨rfl, hh⟩) ?_
  rintro localTemp h ⟨rfl, hh⟩
  refine safe_then (safe_still (still_prepareStaging localPath localTemp) (fun _ => sound_start) hh)
    fun _ h hh => ?_
  refine safe_bind (safe_attempt (safe_receiveDirectory debug hstaging remotePath hh)) ?_
    fun _ _ _ _ => trivial
  intro result h hsound hresult
  cases result with
  | error error =>
    exact safe_act hsound fun answer => safe_failure (sound_removeDirAll hsound)
  | ok result =>
    have hreplace : Safe (Sound localTemp) (fun _ h => Exited localTemp h) h
        (replaceLocalDirectory uuidBackup localTemp localPath) :=
      safe_of_uses (places_replaceLocalDirectory _ _ _) (fun _ _ => exited_append)
        (fun _ => Exited.sound) hresult
    exact safe_bind hreplace (fun _ h hsound _ => safe_ret hsound trivial) fun _ _ _ _ => trivial

theorem safe_scpDownloadDirectory_error (uuidTemp uuidBackup : Uuid)
    (remotePath : Str) {error : ScpError}
    (hlocal : localDirectoryTemporaryPath debug uuidTemp localPath = .error error) :
    Safe (fun h => account h = start) (onReturn fun _ _ => True) []
      (scpDownloadDirectory debug uuidTemp uuidBackup localPath remotePath) := by
  refine safe_then (safe_still still_checkControl (fun _ => id) rfl) fun _ h hh => ?_
  refine safe_then (safe_still (uses_ofExcept _) (fun _ => id) hh) fun _ h hh => ?_
  rw [hlocal]
  exact safe_failure hh

/-- **Whatever the remote side sends**, and whatever else is answered, a download of a directory stays
    contained at each of its steps. -/
theorem download_contained (uuidTemp uuidBackup : Uuid) (localPath remotePath : Str) :
    Safe (ContainedIn (localDirectoryTemporaryPath debug uuidTemp localPath)) (fun _ _ => True) []
      (scpDownloadDirectory debug uuidTemp uuidBackup localPath remotePath) := by
  cases hlocal : localDirectoryTemporaryPath debug uuidTemp localPath with
  | ok staging =>
    have hsafe := safe_scpDownloadDirectory debug uuidTemp uuidBackup remotePath hlocal
    exact (hsafe.mono fun _ _ _ _ => trivial).imp fun h => contained_of_sound
  | error error =>
    have hsafe := safe_scpDownloadDirectory_error debug uuidTemp uuidBackup remotePath hlocal
    refine (hsafe.mono fun _ _ _ _ => trivial).imp fun h hh => ?_
    rw [ContainedIn, hh]
    exact ⟨rfl, rfl⟩

/-! ## 7. What follows the tree -/

/-- A server that sends a directory, its end record and one more byte, and exits with status 0. -/
def trailingServer : Env ScpOp ScpOp.Ans := fun h op =>
  match op with
  | .checkControl | .openExecChannel | .exec _ | .send _ | .sendEof | .openFile _ | .readDir _
  | .createDirAll _ | .createDir _ | .createFile _ | .write _ | .flush | .syncAll | .rename _ _
  | .removeDirAll _ => .ok ()
  | .directoryTotalSize _ => .ok 0
  | .wait => some (.data (asBytes "D0755 0 d\nE\nX".toList))
  | .waitInTime => if h.any (fun e => e.1 = .waitInTime) then some (some .close)
      else some (some (.exitStatus 0))
  | .closeChannel => ()
  | .execExit0 _ => true
  | .symlinkMetadata _ => .ok ⟨true, false, false, 0⟩
  | .read => .ok []
  | .nextEntry _ => .ok none
  | .tryExists _ => .ok false

/-- **The destination is replaced although a byte follows the tree.** -/
theorem download_trailing_bytes :
    ∃ (debug : Str → Str) (uuid : Uuid) (n : Nat) (h : ScpHist) (result : ScpTransferResult),
      Run n (scpDownloadDirectory debug uuid uuid "/a".toList "/b".toList) h (ret result) ∧
        (account h).renamed = true ∧ ¬ WellFormed (account h).received := by
  let uuid : Uuid := ⟨"550e8400-e29b-41d4-a716-446655440000".toList, by decide⟩
  obtain ⟨n, h, r, hrun, hfound⟩ :=
    run_of_trial_any trailingServer 40 (scpDownloadDirectory id uuid uuid "/a".toList "/b".toList)
      (fun (r, h) => r = .ok ⟨0, 1⟩ ∧ (account h).renamed = true ∧
        (account h).received = asBytes "D0755 0 d\nE\nX".toList) (by decide +kernel)
  obtain ⟨rfl, hrenamed, hreceived⟩ := of_decide_eq_true hfound
  refine ⟨id, uuid, n, h, ⟨0, 1⟩, hrun, hrenamed, fun ⟨entries, hreads⟩ => ?_⟩
  rw [hreceived] at hreads
  have hrefused : Runs.run Stream.next ⟨.record none, []⟩
      (asBytes "D0755 0 d\nE\nX".toList) = none := by decide +kernel
  exact absurd (hreads.symm.trans hrefused) nofun

end Hapcli.Sftp
