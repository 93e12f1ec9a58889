/-
  Subject:   Quick commands (`hapcli-quick-commands`: `model.rs`, `store.rs`): the records, what a
             snapshot is checked for, and how it is read from its file and written to it.

  * `sanitizeSnapshot` -- the check; `tidySnapshot` is what it leaves of a snapshot that passes, and
    **`sanitizeSnapshot_ok`** says so;
  * `defaultSnapshot` -- the built-in records, and **`sanitize_default`**: they pass their own check.
-/
import Hapcli.Rust.ByteOffsets

namespace Hapcli.QuickCommands

open Hapcli.Rust

/-! ## 1. Records -/

def quickCommandsSchemaVersion : Nat := 1

inductive QuickCommandIcon where
  | terminal
  | server
  | folder
  | docker
  | zap
  deriving DecidableEq

structure QuickCommandCategory where
  id : Str
  name : Str
  icon : QuickCommandIcon
  deriving DecidableEq

structure QuickCommand where
  id : Str
  name : Str
  command : Str
  category : Str
  description : Option Str
  hostPattern : Option Str
  createdAt : Nat
  updatedAt : Nat
  deriving DecidableEq

structure QuickCommandsSnapshot where
  version : Nat
  categories : List QuickCommandCategory
  commands : List QuickCommand
  updatedAt : Nat
  deriving DecidableEq

variable (snapshot : QuickCommandsSnapshot)

/-- The ids of the categories. -/
def QuickCommandsSnapshot.categoryIds : List Str :=
  snapshot.categories.map (·.id)

/-- The ids of the commands. -/
def QuickCommandsSnapshot.commandIds : List Str :=
  snapshot.commands.map (·.id)

/-! ## 2. The check -/

def maxQuickCommandsFileBytes : Nat := 512 * 1024
def maxCategories : Nat := 100
def maxCommands : Nat := 1000
def maxIdLen : Nat := 128
def maxNameLen : Nat := 160
def maxCommandLen : Nat := 4096
def maxDescriptionLen : Nat := 1024
def maxHostPatternLen : Nat := 256

/-- The category that takes the commands without one. -/
def custom : Str := "custom".toList

/-- The error for a field that is too long. -/
def exceedsLimit (field : String) (maxLen : Nat) : Str :=
  "Quick Commands field ".toList ++ field.toList ++ " exceeds limit ".toList ++ numToString maxLen

def boundedRequired (value : Str) (field : String) (maxLen : Nat) : Except Str Str :=
  let trimmed := trim value
  if trimmed = [] then
    .error ("Quick Commands field ".toList ++ field.toList ++ " cannot be empty".toList)
  else if maxLen < byteLen trimmed then .error (exceedsLimit field maxLen)
  else .ok trimmed

def boundedOptional (value : Option Str) (field : String) (maxLen : Nat) :
    Except Str (Option Str) :=
  match value.map trim with
  | none => .ok none
  | some item =>
    if item = [] then .ok none
    else if maxLen < byteLen item then .error (exceedsLimit field maxLen)
    else .ok (some item)

def sanitizeCategory (category : QuickCommandCategory) : Except Str QuickCommandCategory := do
  let id ← boundedRequired category.id "category.id" maxIdLen
  let name ← boundedRequired category.name "category.name" maxNameLen
  return ⟨id, name, category.icon⟩

def sanitizeCommand (categoryIds : List Str) (command : QuickCommand) : Except Str QuickCommand := do
  let category ← boundedRequired command.category "command.category" maxIdLen
  let id ← boundedRequired command.id "command.id" maxIdLen
  let name ← boundedRequired command.name "command.name" maxNameLen
  let text ← boundedRequired command.command "command.command" maxCommandLen
  let description ← boundedOptional command.description "command.description" maxDescriptionLen
  let hostPattern ← boundedOptional command.hostPattern "command.hostPattern" maxHostPatternLen
  return {
    id, name, command := text
    category := if category ∈ categoryIds then category else custom
    description, hostPattern
    createdAt := command.createdAt
    updatedAt := command.updatedAt }

def sanitizeSnapshot : Except Str QuickCommandsSnapshot :=
  if snapshot.version ≠ quickCommandsSchemaVersion then
    .error ("Unsupported Quick Commands schema version ".toList ++ numToString snapshot.version)
  else if maxCategories < snapshot.categories.length then
    .error ("Quick Commands category count exceeds limit ".toList ++ numToString maxCategories)
  else if maxCommands < snapshot.commands.length then
    .error ("Quick Commands command count exceeds limit ".toList ++ numToString maxCommands)
  else do
    let categories ← snapshot.categories.mapM sanitizeCategory
    let commands ← snapshot.commands.mapM (sanitizeCommand (categories.map (·.id)))
    return ⟨quickCommandsSchemaVersion, categories, commands, snapshot.updatedAt⟩

/-! ## 3. What the check leaves -/

/-- A category with its texts trimmed. -/
def tidyCategory (category : QuickCommandCategory) : QuickCommandCategory :=
  ⟨trim category.id, trim category.name, category.icon⟩

/-- The category of a command, or the one for commands without. -/
def keptCategory (categoryIds : List Str) (category : Str) : Str :=
  if category ∈ categoryIds then category else custom

/-- An optional text trimmed, and none where nothing is left. -/
def tidyOptional (value : Option Str) : Option Str := (value.map trim).filter (· ≠ [])

/-- A command with its texts trimmed and its category one of these. -/
def tidyCommand (categoryIds : List Str) (command : QuickCommand) : QuickCommand :=
  { command with
    id := trim command.id
    name := trim command.name
    command := trim command.command
    category := keptCategory categoryIds (trim command.category)
    description := tidyOptional command.description
    hostPattern := tidyOptional command.hostPattern }

/-- A snapshot with its records tidied. -/
def tidySnapshot : QuickCommandsSnapshot :=
  { snapshot with
    categories := snapshot.categories.map tidyCategory
    commands := snapshot.commands.map (tidyCommand (snapshot.categories.map (trim ·.id))) }

theorem except_bind_ok {ε α β : Type} {x : Except ε α} {f : α → Except ε β} {b : β}
    (h : x >>= f = .ok b) : ∃ a, x = .ok a ∧ f a = .ok b := by
  cases x with
  | error e => cases h
  | ok a => exact ⟨a, rfl, h⟩

theorem mapM_ok {ε α β : Type} {f : α → Except ε β} {g : α → β}
    (hf : ∀ a b, f a = .ok b → b = g a) {l : List α} {l' : List β} (h : l.mapM f = .ok l') :
    l' = l.map g := by
  induction l generalizing l' with
  | nil =>
    cases h
    rfl
  | cons a rest ih =>
    rw [List.mapM_cons] at h
    obtain ⟨b, hb, h⟩ := except_bind_ok h
    obtain ⟨bs, hbs, h⟩ := except_bind_ok h
    cases h
    rw [List.map_cons, hf a b hb, ih hbs]

theorem boundedRequired_ok {value trimmed : Str} {field : String} {maxLen : Nat}
    (h : boundedRequired value field maxLen = .ok trimmed) : trimmed = trim value := by
  unfold boundedRequired at h
  dsimp only at h
  split_ifs at h
  exact (Except.ok.inj h).symm

theorem boundedOptional_ok {value trimmed : Option Str} {field : String} {maxLen : Nat}
    (h : boundedOptional value field maxLen = .ok trimmed) : trimmed = tidyOptional value := by
  unfold boundedOptional at h
  unfold tidyOptional
  cases hvalue : value.map trim with
  | none =>
    rw [hvalue] at h
    exact (Except.ok.inj h).symm
  | some item =>
    rw [hvalue] at h
    dsimp only at h
    split_ifs at h with hempty
    · rw [← Except.ok.inj h, hempty]
      rfl
    · rw [← Except.ok.inj h, Option.filter_some, if_pos (by simpa using hempty)]

theorem sanitizeCategory_ok {category category' : QuickCommandCategory}
    (h : sanitizeCategory category = .ok category') : category' = tidyCategory category := by
  obtain ⟨id, hid, h⟩ := except_bind_ok h
  obtain ⟨name, hname, h⟩ := except_bind_ok h
  cases h
  rw [boundedRequired_ok hid, boundedRequired_ok hname, tidyCategory]

theorem sanitizeCommand_ok {categoryIds : List Str} {command command' : QuickCommand}
    (h : sanitizeCommand categoryIds command = .ok command') :
    command' = tidyCommand categoryIds command := by
  obtain ⟨category, hcategory, h⟩ := except_bind_ok h
  obtain ⟨id, hid, h⟩ := except_bind_ok h
  obtain ⟨name, hname, h⟩ := except_bind_ok h
  obtain ⟨text, htext, h⟩ := except_bind_ok h
  obtain ⟨description, hdescription, h⟩ := except_bind_ok h
  obtain ⟨hostPattern, hhostPattern, h⟩ := except_bind_ok h
  cases h
  rw [boundedRequired_ok hcategory, boundedRequired_ok hid, boundedRequired_ok hname,
    boundedRequired_ok htext, boundedOptional_ok hdescription, boundedOptional_ok hhostPattern]
  rfl

theorem sanitizeSnapshot_ok {snapshot snapshot' : QuickCommandsSnapshot}
    (h : sanitizeSnapshot snapshot = .ok snapshot') : snapshot' = tidySnapshot snapshot := by
  unfold sanitizeSnapshot at h
  split_ifs at h with hversion
  obtain ⟨categories, hcategories, h⟩ := except_bind_ok h
  obtain ⟨commands, hcommands, h⟩ := except_bind_ok h
  cases h
  have hcategories := mapM_ok (fun _ _ => sanitizeCategory_ok) hcategories
  have hcommands := mapM_ok (fun _ _ => sanitizeCommand_ok) hcommands
  have hids : categories.map (·.id) = snapshot.categories.map (trim ·.id) := by
    rw [hcategories, List.map_map]
    rfl
  rw [hids] at hcommands
  rw [tidySnapshot, hcategories, hcommands, Classical.not_not.mp hversion]

/-! ## 4. The file -/

/-- The file of the quick commands. -/
inductive StoredFile where
  | missing
  | present (contents : List UInt8)
  deriving DecidableEq

/-- A write that fails, before or after the file was replaced. -/
inductive WriteFault where
  | before (error : Str)
  | after (error : Str)
  deriving DecidableEq

/-- What goes wrong with the file system: the texts of the errors. -/
structure Faults where
  stat : Option Str := none
  read : Option Str := none
  createDir : Option Str := none
  write : Option WriteFault := none

/-- `serde_json` for the type of the snapshots. -/
structure SnapshotJson where
  fromStr : Str → Except Str QuickCommandsSnapshot
  toVecPretty : QuickCommandsSnapshot → Except Str (List UInt8)

section File

variable (serde : SnapshotJson) (faults : Faults)

/-- `fs::read_to_string`. -/
def readToString (contents : List UInt8) : Except Str Str :=
  match faults.read with
  | some error => .error error
  | none =>
    (fromUtf8 contents).mapError fun _ => "stream did not contain valid UTF-8".toList

def loadSnapshotFromPath (file : StoredFile) : Except Str (Option QuickCommandsSnapshot) :=
  match faults.stat, file with
  | some error, _ => .error ("failed to stat Quick Commands file: ".toList ++ error)
  | none, .missing => .ok none
  | none, .present contents =>
    if maxQuickCommandsFileBytes < contents.length then
      .error "Quick Commands file exceeds size limit".toList
    else do
      let text ← (readToString faults contents).mapError
        ("failed to read Quick Commands file: ".toList ++ ·)
      if trim text = [] then return none
      let snapshot ← (serde.fromStr text).mapError
        ("failed to parse Quick Commands file: ".toList ++ ·)
      return some (← sanitizeSnapshot snapshot)

/-- `atomic_write_file`: what it returns and what becomes of the file. -/
def atomicWriteFile (file : StoredFile) (bytes : List UInt8) : Except Str Unit × StoredFile :=
  match faults.write with
  | none => (.ok (), .present bytes)
  | some (.before error) => (.error error, file)
  | some (.after error) => (.error error, .present bytes)

/-- `save_snapshot_to_path`: what it returns and what becomes of the file. -/
def saveSnapshotToPath (file : StoredFile) (snapshot : QuickCommandsSnapshot) :
    Except Str Unit × StoredFile :=
  match sanitizeSnapshot snapshot with
  | .error error => (.error error, file)
  | .ok snapshot =>
    match faults.createDir with
    | some error => (.error ("failed to create Quick Commands directory: ".toList ++ error), file)
    | none =>
      match serde.toVecPretty snapshot with
      | .error error => (.error ("failed to serialize Quick Commands: ".toList ++ error), file)
      | .ok json =>
        if maxQuickCommandsFileBytes < json.length then
          (.error "Quick Commands snapshot exceeds size limit".toList, file)
        else
          let (result, file') := atomicWriteFile faults file json
          (result.mapError ("failed to replace Quick Commands file: ".toList ++ ·), file')

variable {serde faults}

theorem loadSnapshotFromPath_some {file : StoredFile} {loaded : QuickCommandsSnapshot}
    (h : loadSnapshotFromPath serde faults file = .ok (some loaded)) :
    ∃ snapshot, sanitizeSnapshot snapshot = .ok loaded := by
  unfold loadSnapshotFromPath at h
  split at h
  · cases h
  · cases h
  · split_ifs at h
    obtain ⟨text, -, h⟩ := except_bind_ok h
    split_ifs at h
    · cases h
    · obtain ⟨snapshot, -, h⟩ := except_bind_ok h
      obtain ⟨checked, hchecked, h⟩ := except_bind_ok h
      cases h
      exact ⟨snapshot, hchecked⟩

/-- A save leaves the file with an error, or the checked snapshot in it, as the writer writes
    it. -/
theorem saveSnapshotToPath_cases (serde : SnapshotJson) (faults : Faults) (file : StoredFile)
    (snapshot : QuickCommandsSnapshot) :
    (∃ error, saveSnapshotToPath serde faults file snapshot = (.error error, file)) ∨
    ∃ stored json, sanitizeSnapshot snapshot = .ok stored ∧ serde.toVecPretty stored = .ok json ∧
      (saveSnapshotToPath serde faults file snapshot).2 = .present json := by
  unfold saveSnapshotToPath
  cases hsanitize : sanitizeSnapshot snapshot with
  | error error => exact .inl ⟨_, rfl⟩
  | ok stored =>
    cases hdir : faults.createDir with
    | some error => exact .inl ⟨_, rfl⟩
    | none =>
      cases hjson : serde.toVecPretty stored with
      | error error =>
        simp only [hjson]
        exact .inl ⟨_, rfl⟩
      | ok json =>
        by_cases hsize : maxQuickCommandsFileBytes < json.length
        · simp only [hjson, if_pos hsize]
          exact .inl ⟨_, rfl⟩
        · simp only [hjson, if_neg hsize, atomicWriteFile]
          rcases hwrite : faults.write with _ | error | error
          · exact .inr ⟨stored, json, rfl, hjson, rfl⟩
          · exact .inl ⟨_, rfl⟩
          · exact .inr ⟨stored, json, rfl, hjson, rfl⟩

end File

/-! ## 5. The built-in records -/

def quickCategory (id name : String) (icon : QuickCommandIcon) : QuickCommandCategory :=
  ⟨id.toList, name.toList, icon⟩

def quickCommand (id name command category description : String) : QuickCommand where
  id := id.toList
  name := name.toList
  command := command.toList
  category := category.toList
  description := some description.toList
  hostPattern := none
  createdAt := 0
  updatedAt := 0

def defaultQuickCommandCategories : List QuickCommandCategory :=
  [quickCategory "system" "System" .server,
   quickCategory "network" "Network" .terminal,
   quickCategory "files" "Files" .folder,
   quickCategory "docker" "Docker" .docker,
   quickCategory "custom" "Custom" .zap]

def defaultQuickCommands : List QuickCommand :=
  [quickCommand "qc-pwd" "Print Working Directory" "pwd" "files" "Show the current directory.",
   quickCommand "qc-ls-la" "List Files" "ls -la" "files" "List files with details.",
   quickCommand "qc-df-h" "Disk Usage" "df -h" "system" "Show mounted filesystem usage.",
   quickCommand "qc-free-h" "Memory Usage" "free -h" "system" "Show memory usage.",
   quickCommand "qc-uptime" "Uptime" "uptime" "system" "Show uptime and load average.",
   quickCommand "qc-whoami" "Current User" "whoami" "system" "Show the current user.",
   quickCommand "qc-ip-addr" "IP Addresses" "ip addr" "network"
     "Show network interface addresses.",
   quickCommand "qc-ifconfig" "Interface Config" "ifconfig" "network"
     "Show network interfaces on systems without iproute2.",
   quickCommand "qc-docker-ps" "Docker Containers" "docker ps" "docker"
     "List running containers.",
   quickCommand "qc-git-status" "Git Status" "git status" "files" "Show repository status.",
   quickCommand "qc-journal-errors" "Recent Journal Errors" "journalctl -xe --no-pager" "system"
     "Show recent system journal errors."]

/-- `default_snapshot`, at this time. -/
def defaultSnapshot (now : Nat) : QuickCommandsSnapshot :=
  ⟨quickCommandsSchemaVersion, defaultQuickCommandCategories, defaultQuickCommands, now⟩

theorem sanitize_default (now : Nat) :
    sanitizeSnapshot (defaultSnapshot now) = .ok (defaultSnapshot now) := by
  have hcategories : defaultQuickCommandCategories.mapM sanitizeCategory =
      .ok defaultQuickCommandCategories := by decide +kernel
  have hcommands : defaultQuickCommands.mapM
      (sanitizeCommand (defaultQuickCommandCategories.map (·.id))) = .ok defaultQuickCommands := by
    decide +kernel
  have hversion : ¬ quickCommandsSchemaVersion ≠ quickCommandsSchemaVersion := by decide
  have hfew : ¬ maxCategories < defaultQuickCommandCategories.length := by decide
  have hfew' : ¬ maxCommands < defaultQuickCommands.length := by decide
  simp only [sanitizeSnapshot, defaultSnapshot, if_neg hversion, if_neg hfew, if_neg hfew',
    hcategories, hcommands, bind, Except.bind, pure, Except.pure]

end Hapcli.QuickCommands
