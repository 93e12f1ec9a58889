/-
  Subject:   Importing quick commands (`apply_snapshot_json` of `store.rs`): what is stored
             after an import that reports no error.

  * **`applySnapshotJson_stores`** -- every import without error into a file that can be read.
-/
import Hapcli.QuickCommands.Merge

namespace Hapcli.QuickCommands

open Hapcli.Lib Hapcli.Rust

/-! ## 1. The import -/

structure QuickCommandImportResult where
  imported : Nat
  skipped : Nat
  errors : List Str
  deriving DecidableEq

section Import

variable (serde : SnapshotJson) (faults : Faults) (toLowercase : Str → Str) (clock : Clock)

def loadSnapshot (file : StoredFile) : Except Str QuickCommandsSnapshot :=
  (loadSnapshotFromPath serde faults file).map (·.getD (defaultSnapshot clock.loadedAt))

/-- The snapshot an import starts from: a file that cannot be read counts as none. -/
def currentSnapshot (file : StoredFile) : QuickCommandsSnapshot :=
  match loadSnapshotFromPath serde faults file with
  | .ok (some snapshot) => snapshot
  | _ => defaultSnapshot clock.loadedAt

/-- `apply_snapshot_json`: what it returns and what becomes of the file. -/
def applySnapshotJson (file : StoredFile) (snapshotJson : Str)
    (strategy : QuickCommandImportStrategy) : QuickCommandImportResult × StoredFile :=
  match serde.fromStr snapshotJson >>= sanitizeSnapshot with
  | .error error => (⟨0, 0, [error]⟩, file)
  | .ok incoming =>
    let current := currentSnapshot serde faults clock file
    let merge := mergeSnapshot toLowercase clock strategy current incoming
    match saveSnapshotToPath serde faults file merge.snapshot with
    | (.error error, file') => (⟨0, merge.skipped, [error]⟩, file')
    | (.ok _, file') => (⟨merge.imported, merge.skipped, []⟩, file')

end Import

/-! ## 2. What is stored -/

section Stored

variable (toLowercase : Str → Str) (clock : Clock) (strategy : QuickCommandImportStrategy)

/-- **What an import makes of the stored snapshot.** -/
structure ImportedInto (loaded incoming stored : QuickCommandsSnapshot) : Prop where
  /-- The ids of the categories stay distinct, where no generated one is in use. -/
  categoryIds : loaded.categoryIds.Nodup →
    (∀ k, newQuickCategoryId (clock.draws k) ∉ loaded.categoryIds ++ incoming.categoryIds) →
    stored.categoryIds.Nodup
  /-- So do those of the commands. -/
  commandIds : loaded.commandIds.Nodup →
    (∀ k, newQuickCommandId (clock.draws k) ∉ loaded.commandIds ++ incoming.commandIds) →
    stored.commandIds.Nodup
  /-- A command is under a stored category or under `custom`. -/
  inCategory : ∀ command ∈ stored.commands,
    command.category ∈ stored.categoryIds ∨ command.category = custom
  /-- No loaded command is gone. -/
  kept : ∀ id ∈ loaded.commandIds, id ∈ stored.commandIds
  /-- Every incoming category is remapped to a stored one. -/
  counterpart : ∀ id ∈ incoming.categoryIds, ∃ target ∈ stored.categoryIds,
    (mergeCategories toLowercase clock strategy loaded.categories
      incoming.categories).categoryRemap.lookup id = some target
  /-- Where conflicts overwrite, an incoming command is there under its remapped category, unless a
      later one of the batch took its record over. -/
  present : Overwrites strategy →
    let merged := mergeCategories toLowercase clock strategy loaded.categories incoming.categories
    ∀ before command after, incoming.commands = before ++ command :: after →
      (∃ record ∈ stored.commands, SameText record (remapped merged command)) ∨
      ∃ between later rest, after = between ++ later :: rest ∧
        TakenOver (mergeCommands toLowercase clock strategy merged loaded.commands
          (before ++ command :: between)) (remapped merged later) (remapped merged command)

end Stored

variable {id : Str} {command : QuickCommand}

section Tidy

variable {snapshot : QuickCommandsSnapshot}

theorem trim_categoryId (h : id ∈ (tidySnapshot snapshot).categoryIds) :
    trim id = id := by
  obtain ⟨_, hcategory, rfl⟩ := List.mem_map.mp h
  obtain ⟨category, -, rfl⟩ := List.mem_map.mp hcategory
  exact trim_trim category.id

theorem trim_commandId (h : id ∈ (tidySnapshot snapshot).commandIds) : trim id = id := by
  obtain ⟨_, hcommand, rfl⟩ := List.mem_map.mp h
  obtain ⟨command, -, rfl⟩ := List.mem_map.mp hcommand
  exact trim_trim command.id

theorem trim_texts (h : command ∈ (tidySnapshot snapshot).commands) :
    trim command.name = command.name ∧ trim command.command = command.command := by
  obtain ⟨command, -, rfl⟩ := List.mem_map.mp h
  exact ⟨trim_trim _, trim_trim _⟩

end Tidy

section Counterparts

variable (toLowercase : Str → Str) (clock : Clock) (strategy : QuickCommandImportStrategy)

theorem mergeCategory_remap (state : CategoryMerge) (incoming : QuickCommandCategory) :
    ∃ target ∈ (mergeCategory toLowercase clock strategy state incoming).ids,
      (mergeCategory toLowercase clock strategy state incoming).categoryRemap =
        state.categoryRemap.insert incoming.id target := by
  have hbegins := (mergeCategory_step toLowercase clock strategy state incoming).begins
  have hold : ∀ id ∈ state.ids, id ∈ (mergeCategory toLowercase clock strategy state incoming).ids :=
    fun id hid => hbegins.subset hid
  unfold mergeCategory at hold ⊢
  cases hconflict : categoryConflict state.categories incoming with
  | none => exact ⟨incoming.id, by simp [CategoryMerge.ids], rfl⟩
  | some conflict =>
    have hmem : conflict.id ∈ state.ids :=
      List.mem_map_of_mem (List.mem_of_find?_eq_some hconflict)
    rw [hconflict] at hold
    cases strategy with
    | rename =>
      dsimp only at hold ⊢
      split_ifs
      · exact ⟨conflict.id, hmem, rfl⟩
      · exact ⟨_, by simp [CategoryMerge.ids], rfl⟩
    | skip => exact ⟨conflict.id, hold _ hmem, rfl⟩
    | replace => exact ⟨conflict.id, hold _ hmem, rfl⟩
    | merge => exact ⟨conflict.id, hold _ hmem, rfl⟩

theorem counterpart_foldl {state : CategoryMerge} {incoming : List QuickCommandCategory}
    (h : id ∈ incoming.map (·.id) ∨ ∃ target ∈ state.ids, state.categoryRemap.lookup id = some target) :
    ∃ target ∈ (incoming.foldl (mergeCategory toLowercase clock strategy) state).ids,
      (incoming.foldl (mergeCategory toLowercase clock strategy) state).categoryRemap.lookup id =
        some target := by
  induction incoming generalizing state with
  | nil => exact h.resolve_left (List.not_mem_nil (a := id))
  | cons category rest ih =>
    refine ih (or_iff_not_imp_left.mpr fun hlater => ?_)
    obtain ⟨target, htarget, hremap⟩ :=
      mergeCategory_remap toLowercase clock strategy state category
    rw [hremap, Map.lookup_insert_eq]
    by_cases hid : id = category.id
    · exact ⟨target, htarget, if_pos hid⟩
    · rw [if_neg hid]
      rcases h with h | ⟨old, hold, hlookup⟩
      · exact absurd (List.mem_cons.mp h) (not_or.mpr ⟨hid, hlater⟩)
      · have hbegins := (mergeCategory_step toLowercase clock strategy state category).begins
        exact ⟨old, hbegins.subset hold, hlookup⟩

end Counterparts

/-! ## 3. The import as a whole -/

section Whole

variable {serde : SnapshotJson} {faults : Faults} {toLowercase : Str → Str} {clock : Clock}
  {strategy : QuickCommandImportStrategy} {file : StoredFile}

theorem loadSnapshot_ok {loaded : QuickCommandsSnapshot}
    (h : loadSnapshot serde faults clock file = .ok loaded) :
    currentSnapshot serde faults clock file = loaded ∧ ∃ snapshot, loaded = tidySnapshot snapshot := by
  unfold loadSnapshot at h
  unfold currentSnapshot
  cases hload : loadSnapshotFromPath serde faults file with
  | error error => rw [hload] at h; cases h
  | ok read =>
    rw [hload] at h
    cases h
    cases read with
    | none => exact ⟨rfl, _, sanitizeSnapshot_ok (sanitize_default clock.loadedAt)⟩
    | some snapshot =>
      obtain ⟨snapshot', hsnapshot'⟩ := loadSnapshotFromPath_some hload
      exact ⟨rfl, snapshot', sanitizeSnapshot_ok hsnapshot'⟩

theorem trim_mergedCategoryId {loaded incoming : QuickCommandsSnapshot}
    (hid : id ∈ (mergeCategories toLowercase clock strategy (tidySnapshot loaded).categories
      (tidySnapshot incoming).categories).ids) : trim id = id := by
  rcases Register.mem_foldl (mergeCategory_step toLowercase clock strategy) hid with
    hid | ⟨category, hcategory, rfl⟩ | ⟨k, rfl⟩
  · exact trim_categoryId hid
  · exact trim_categoryId (List.mem_map_of_mem hcategory)
  · exact trim_generated (by decide) _ _

theorem trim_mergedCommandId {loaded incoming : QuickCommandsSnapshot} {merged : CategoryMerge}
    (hid : id ∈ (mergeCommands toLowercase clock strategy merged
      (tidySnapshot loaded).commands (tidySnapshot incoming).commands).ids) : trim id = id := by
  rcases Register.mem_foldl (mergeCommand_step toLowercase clock strategy) hid with
    hid | ⟨placed, hplaced, rfl⟩ | ⟨k, rfl⟩
  · exact trim_commandId hid
  · obtain ⟨command, hcommand, rfl⟩ := List.mem_map.mp hplaced
    have hid : command.id ∈ (tidySnapshot incoming).commandIds := List.mem_map_of_mem hcommand
    exact trim_commandId hid
  · exact trim_generated (by decide) _ _

theorem ids_tidy_merge (toLowercase : Str → Str) (clock : Clock)
    (strategy : QuickCommandImportStrategy) (loaded incoming : QuickCommandsSnapshot) :
    let merged := mergeCategories toLowercase clock strategy (tidySnapshot loaded).categories
      (tidySnapshot incoming).categories
    let stored := tidySnapshot (mergeSnapshot toLowercase clock strategy (tidySnapshot loaded)
      (tidySnapshot incoming)).snapshot
    stored.categoryIds = merged.ids ∧
      stored.commandIds = (mergeCommands toLowercase clock strategy merged
        (tidySnapshot loaded).commands (tidySnapshot incoming).commands).ids := by
  intro merged stored
  have hmap : ∀ {α : Type} (f : α → α) (id : α → Str) (l : List α),
      (∀ a, id (f a) = trim (id a)) → (∀ a ∈ l, trim (id a) = id a) → (l.map f).map id = l.map id := by
    intro α f id l hf htrim
    rw [List.map_map]
    exact List.map_congr_left fun a ha => (hf a).trans (htrim a ha)
  refine ⟨hmap _ _ _ (fun _ => rfl) fun category hcategory => ?_,
    hmap _ _ _ (fun _ => rfl) fun command hcommand => ?_⟩
  · exact trim_mergedCategoryId (List.mem_map_of_mem hcategory)
  · exact trim_mergedCommandId (List.mem_map_of_mem hcommand)

theorem keptCategory_mem (categoryIds : List Str) (category : Str) :
    keptCategory categoryIds category ∈ categoryIds ∨ keptCategory categoryIds category = custom := by
  unfold keptCategory
  split_ifs with h
  · exact .inl h
  · exact .inr rfl

theorem sameText_tidy {loaded incoming : QuickCommandsSnapshot} {record : QuickCommand}
    (hcommand : command ∈ (tidySnapshot incoming).commands) :
    let merged := mergeCategories toLowercase clock strategy (tidySnapshot loaded).categories
      (tidySnapshot incoming).categories
    SameText record (remapped merged command) →
      SameText (tidyCommand (merged.categories.map (trim ·.id)) record) (remapped merged command) := by
  intro merged ⟨hname, htext, hcategory⟩
  obtain ⟨htrimName, htrimText⟩ := trim_texts hcommand
  refine ⟨(congrArg trim hname).trans htrimName, (congrArg trim htext).trans htrimText, ?_⟩
  have hids : merged.categories.map (trim ·.id) = merged.ids :=
    List.map_congr_left fun category hmem => trim_mergedCategoryId (List.mem_map_of_mem hmem)
  show keptCategory (merged.categories.map (trim ·.id)) (trim record.category) = _
  rw [hids, hcategory]
  show keptCategory merged.ids (trim (remappedCategory merged command.category)) =
    remappedCategory merged command.category
  rcases keptCategory_mem merged.ids ((merged.categoryRemap.lookup command.category).getD
    command.category) with hmem | hcustom
  · rw [remappedCategory, trim_mergedCategoryId hmem]
    exact if_pos hmem
  · rw [remappedCategory, hcustom]
    have htrim : trim custom = custom := by decide
    rw [htrim, keptCategory, ite_self]

/-- The checked merge of two checked snapshots is what an import makes of the loaded one. -/
theorem importedInto_tidy (loaded incoming : QuickCommandsSnapshot) :
    ImportedInto toLowercase clock strategy (tidySnapshot loaded) (tidySnapshot incoming)
      (tidySnapshot (mergeSnapshot toLowercase clock strategy (tidySnapshot loaded)
        (tidySnapshot incoming)).snapshot) := by
  obtain ⟨hcategoryIds, hcommandIds⟩ := ids_tidy_merge toLowercase clock strategy loaded incoming
  refine ⟨fun hnodup hnew => ?_, fun hnodup hnew => ?_, fun command hcommand => ?_,
    fun id hid => ?_, fun id hid => ?_, ?_⟩
  · rw [hcategoryIds]
    refine Register.nodup_foldl (mergeCategory_step toLowercase clock strategy)
      (generated_inj clock "qcg-".toList)
      ⟨hnodup, fun k _ hmem => hnew k (List.mem_append_left _ hmem)⟩ fun category hcategory k heq => ?_
    exact hnew k (List.mem_append_right _ (heq ▸ List.mem_map_of_mem hcategory))
  · rw [hcommandIds]
    refine Register.nodup_foldl (mergeCommand_step toLowercase clock strategy)
      (generated_inj clock "qc-".toList)
      ⟨hnodup, fun k _ hmem => hnew k (List.mem_append_left _ hmem)⟩ fun placed hplaced k heq => ?_
    obtain ⟨command, hcommand, rfl⟩ := List.mem_map.mp hplaced
    have hid : command.id ∈ (tidySnapshot incoming).commandIds := List.mem_map_of_mem hcommand
    exact hnew k (List.mem_append_right _ (heq ▸ hid))
  · obtain ⟨record, -, rfl⟩ := List.mem_map.mp hcommand
    rw [QuickCommandsSnapshot.categoryIds, tidySnapshot, List.map_map]
    exact keptCategory_mem _ _
  · rw [hcommandIds]
    exact (Register.prefix_foldl (mergeCommand_step toLowercase clock strategy) _ _).subset hid
  · rw [hcategoryIds]
    exact counterpart_foldl toLowercase clock strategy (.inl hid)
  · intro hover merged before command after hincoming
    have hcommand : command ∈ (tidySnapshot incoming).commands := by
      rw [hincoming]
      exact List.mem_append_right _ List.mem_cons_self
    have hrun : ∀ rest : List QuickCommand,
        mergeCommands toLowercase clock strategy merged (tidySnapshot loaded).commands
          (before ++ command :: rest) =
        (rest.map (remapped merged)).foldl (mergeCommand toLowercase clock strategy)
          (mergeCommand toLowercase clock strategy (mergeCommands toLowercase clock strategy merged
            (tidySnapshot loaded).commands before) (remapped merged command)) := by
      intro rest
      rw [mergeCommands, List.map_append, List.foldl_append]
      rfl
    obtain ⟨id, hholds⟩ := mergeCommand_holds toLowercase clock hover
      (mergeCommands toLowercase clock strategy merged (tidySnapshot loaded).commands before)
      (remapped merged command)
    rcases holds_or_takenOver toLowercase clock hover hholds (after.map (remapped merged)) with
      hend | ⟨between, later, rest, hafter, htaken⟩
    · obtain ⟨record, hrecord, hid⟩ := hend.stored
      have hsame := hend.same record hrecord hid
      rw [← hrun after, ← hincoming] at hrecord
      exact .inl ⟨_, List.mem_map_of_mem hrecord, sameText_tidy hcommand hsame⟩
    · obtain ⟨between, tail, rfl, rfl, htail⟩ := List.map_eq_append_iff.mp hafter
      obtain ⟨later, rest, rfl, rfl, -⟩ := List.map_eq_cons_iff.mp htail
      exact .inr ⟨between, later, rest, rfl, hrun between ▸ htaken⟩

/-- **Every import into a file that can be read**: it leaves the file with an error, or stores what
    `ImportedInto` says. -/
theorem applySnapshotJson_stores {loaded : QuickCommandsSnapshot}
    (hload : loadSnapshot serde faults clock file = .ok loaded) (snapshotJson : Str) :
    ((applySnapshotJson serde faults toLowercase clock file snapshotJson strategy).1.errors ≠ [] ∧
      (applySnapshotJson serde faults toLowercase clock file snapshotJson strategy).2 = file) ∨
    ∃ incoming stored json, (serde.fromStr snapshotJson >>= sanitizeSnapshot) = .ok incoming ∧
      serde.toVecPretty stored = .ok json ∧
      (applySnapshotJson serde faults toLowercase clock file snapshotJson strategy).2 =
        .present json ∧
      ImportedInto toLowercase clock strategy loaded incoming stored := by
  obtain ⟨hcurrent, source, rfl⟩ := loadSnapshot_ok hload
  unfold applySnapshotJson
  cases hincoming : serde.fromStr snapshotJson >>= sanitizeSnapshot with
  | error error => exact .inl ⟨List.cons_ne_nil _ _, rfl⟩
  | ok incoming =>
    obtain ⟨parsed, -, hparsed⟩ := except_bind_ok hincoming
    obtain rfl := sanitizeSnapshot_ok hparsed
    dsimp only
    rw [hcurrent]
    generalize hmerge : mergeSnapshot toLowercase clock strategy (tidySnapshot source)
      (tidySnapshot parsed) = merge
    rcases saveSnapshotToPath_cases serde faults file merge.snapshot with
      ⟨error, hsave⟩ | ⟨stored, json, hstored, hjson, hfile⟩
    · rw [hsave]
      exact .inl ⟨List.cons_ne_nil _ _, rfl⟩
    · refine .inr ⟨_, stored, json, rfl, hjson, ?_, ?_⟩
      · rw [← hfile]
        rcases saveSnapshotToPath serde faults file merge.snapshot with ⟨_ | _, _⟩ <;> rfl
      · rw [sanitizeSnapshot_ok hstored, ← hmerge]
        exact importedInto_tidy source parsed

end Whole

/-! ## 4. Ids, categories and texts that are lost -/

section Examples

/-- The lines of a JSON object or array, indented. -/
def jsonBlock (opening closing : Char) (depth : Nat) (items : List Str) : Str :=
  let indent := fun n => List.replicate (2 * n) ' '
  if items = [] then [opening, closing]
  else opening :: '\n' :: List.intercalate ",\n".toList (items.map (indent (depth + 1) ++ ·)) ++
    '\n' :: indent depth ++ [closing]

/-- A text in quotes, with nothing in it to escape. -/
def quoted (text : Str) : Str := '"' :: text ++ ['"']

/-- A field of a JSON object. -/
def jsonField (key : String) (value : Str) : Str := quoted key.toList ++ ": ".toList ++ value

/-- The name of an icon. -/
def iconName : QuickCommandIcon → String
  | .terminal => "terminal"
  | .server => "server"
  | .folder => "folder"
  | .docker => "docker"
  | .zap => "zap"

/-- A snapshot whose texts need no escapes, as `serde_json::to_string_pretty` writes it. -/
def prettyJson (snapshot : QuickCommandsSnapshot) : Str :=
  let category := fun category : QuickCommandCategory => jsonBlock '\x7b' '\x7d' 2
    [jsonField "id" (quoted category.id), jsonField "name" (quoted category.name),
     jsonField "icon" (quoted (iconName category.icon).toList)]
  let optional := fun key (value : Option Str) =>
    (value.map fun text => jsonField key (quoted text)).toList
  let command := fun command : QuickCommand => jsonBlock '\x7b' '\x7d' 2
    ([jsonField "id" (quoted command.id), jsonField "name" (quoted command.name),
      jsonField "command" (quoted command.command),
      jsonField "category" (quoted command.category)] ++
     optional "description" command.description ++ optional "hostPattern" command.hostPattern ++
     [jsonField "createdAt" (numToString command.createdAt),
      jsonField "updatedAt" (numToString command.updatedAt)])
  jsonBlock '\x7b' '\x7d' 0
    [jsonField "version" (numToString snapshot.version),
     jsonField "categories" (jsonBlock '[' ']' 1 (snapshot.categories.map category)),
     jsonField "commands" (jsonBlock '[' ']' 1 (snapshot.commands.map command)),
     jsonField "updatedAt" (numToString snapshot.updatedAt)]

/-- JSON as `serde_json` reads and writes it, as far as the texts of these snapshots go. -/
def jsonOf (snapshots : List QuickCommandsSnapshot) : SnapshotJson where
  fromStr text :=
    match snapshots.find? (prettyJson · = text) with
    | some snapshot => .ok snapshot
    | none => .error "expected value at line 1 column 1".toList
  toVecPretty snapshot := .ok (asBytes (prettyJson snapshot))

/-- A command without description and host pattern. -/
def plainCommand (id name command category : String) (time : Nat) : QuickCommand :=
  ⟨id.toList, name.toList, command.toList, category.toList, none, none, time, time⟩

/-- A clock and a counter. -/
def exampleClock : Clock := ⟨5, 6, fun k => ⟨5, k, 6⟩, fun _ _ h => h⟩

/-- Two commands of one id, under a category there is none of. -/
def storedTwice : QuickCommandsSnapshot :=
  ⟨1, [], [plainCommand "a" "One" "date" "x" 1, plainCommand "a" "Two" "id" "x" 1], 1⟩

/-- Two commands whose names differ in their case only. -/
def incomingTwice : QuickCommandsSnapshot :=
  ⟨1, [quickCategory "ops" "Ops" .zap],
    [plainCommand "b" "Up" "uptime" "ops" 2, plainCommand "c" "up" "uptime -p" "ops" 2], 2⟩

/-- A command with the id that is generated next. -/
def storedGenerated : QuickCommandsSnapshot :=
  ⟨1, [quickCategory "custom" "Custom" .zap], [plainCommand "qc-5-0" "Up" "uptime" "custom" 1], 1⟩

/-- Another command of this name. -/
def incomingNamesake : QuickCommandsSnapshot :=
  ⟨1, [quickCategory "custom" "Custom" .zap], [plainCommand "b" "Up" "uptime -p" "custom" 2], 2⟩

/-- What the import of the first pair stores. -/
def mergedTwice : QuickCommandsSnapshot :=
  ⟨1, [quickCategory "ops" "Ops" .zap],
    [plainCommand "a" "One" "date" "custom" 1, plainCommand "a" "Two" "id" "custom" 1,
     { plainCommand "b" "up" "uptime -p" "ops" 2 with updatedAt := 6 }], 6⟩

/-- What the import of the second stores. -/
def mergedGenerated : QuickCommandsSnapshot :=
  ⟨1, [quickCategory "custom" "Custom" .zap],
    [plainCommand "qc-5-0" "Up" "uptime" "custom" 1,
     plainCommand "qc-5-0" "Up (Imported)" "uptime -p" "custom" 2], 6⟩

/-- The import of one of these snapshots into a file with another. -/
def importExample (stored incoming : QuickCommandsSnapshot) (strategy : QuickCommandImportStrategy) :
    QuickCommandImportResult × StoredFile :=
  applySnapshotJson (jsonOf [stored, incoming]) {} (List.map Char.toLower) exampleClock
    (.present (asBytes (prettyJson stored))) (prettyJson incoming) strategy

theorem length_asBytes_le (s : Str) : (asBytes s).length ≤ 4 * s.length := by
  induction s with
  | nil => exact Nat.le_refl 0
  | cons c rest ih =>
    have hc : (String.utf8EncodeChar c).length ≤ 4 := by
      rw [String.length_utf8EncodeChar]
      exact c.utf8Size_le_four
    rw [asBytes, List.flatMap_cons, List.length_append, List.length_cons]
    exact (Nat.add_le_add hc ih).trans (by omega)

theorem trim_prettyJson (snapshot : QuickCommandsSnapshot) : trim (prettyJson snapshot) ≠ [] := by
  have hfirst : ∃ rest, prettyJson snapshot = '\x7b' :: rest := ⟨_, rfl⟩
  obtain ⟨rest, hrest⟩ := hfirst
  intro hblank
  rw [trim, trimMatches, List.reverse_eq_nil_iff, List.dropWhile_eq_nil_iff] at hblank
  have hbrace := hblank '\x7b'
  rw [List.mem_reverse, hrest, List.dropWhile_cons_of_neg (by decide)] at hbrace
  exact absurd (hbrace List.mem_cons_self) (by decide)

theorem not_oversized {snapshot : QuickCommandsSnapshot} (h : (prettyJson snapshot).length ≤ 2000) :
    ¬ maxQuickCommandsFileBytes < (asBytes (prettyJson snapshot)).length := by
  have := length_asBytes_le (prettyJson snapshot)
  unfold maxQuickCommandsFileBytes
  omega

theorem load_example {stored incoming loaded : QuickCommandsSnapshot}
    (hshort : (prettyJson stored).length ≤ 2000) (hloaded : sanitizeSnapshot stored = .ok loaded) :
    loadSnapshotFromPath (jsonOf [stored, incoming]) {} (.present (asBytes (prettyJson stored))) =
      .ok (some loaded) := by
  have hread : (jsonOf [stored, incoming]).fromStr (prettyJson stored) = .ok stored := by
    simp [jsonOf]
  unfold loadSnapshotFromPath readToString
  simp only [if_neg (not_oversized hshort), fromUtf8_asBytes, Except.mapError, bind, Except.bind,
    if_neg (trim_prettyJson stored), hread, hloaded]
  rfl

/-- An import, step by step: both texts are read and checked, and the merge is checked and
    written. -/
theorem importExample_eq (stored incoming loaded checked merged saved : QuickCommandsSnapshot)
    (strategy : QuickCommandImportStrategy) {imported skipped : Nat}
    (hdiffer : prettyJson stored ≠ prettyJson incoming) (hshort : (prettyJson stored).length ≤ 2000)
    (hloaded : sanitizeSnapshot stored = .ok loaded)
    (hchecked : sanitizeSnapshot incoming = .ok checked)
    (hmerge : mergeSnapshot (List.map Char.toLower) exampleClock strategy loaded checked =
      ⟨merged, imported, skipped⟩) (hsaved : sanitizeSnapshot merged = .ok saved)
    (hshort' : (prettyJson saved).length ≤ 2000) :
    importExample stored incoming strategy =
      (⟨imported, skipped, []⟩, .present (asBytes (prettyJson saved))) := by
  have hread : (jsonOf [stored, incoming]).fromStr (prettyJson incoming) = .ok incoming := by
    simp [jsonOf, hdiffer]
  unfold importExample applySnapshotJson currentSnapshot
  simp only [hread, bind, Except.bind, hchecked, load_example hshort hloaded, hmerge]
  unfold saveSnapshotToPath
  simp only [hsaved]
  simp only [jsonOf, if_neg (not_oversized hshort')]
  rfl

/-- **Ids stored twice stay so, a command can be under no category, the later of two incoming
    commands takes the record of the first, and a generated id may be in use.** -/
theorem import_counterexample :
    (importExample storedTwice incomingTwice .merge =
        (⟨2, 0, []⟩, .present (asBytes (prettyJson mergedTwice))) ∧
      ¬ mergedTwice.commandIds.Nodup ∧
      (∃ command ∈ mergedTwice.commands, command.category ∉ mergedTwice.categoryIds) ∧
      ¬ ∃ record ∈ mergedTwice.commands,
        SameText record (plainCommand "b" "Up" "uptime" "ops" 2)) ∧
    importExample storedGenerated incomingNamesake .rename =
        (⟨1, 1, []⟩, .present (asBytes (prettyJson mergedGenerated))) ∧
      storedGenerated.commandIds.Nodup ∧ ¬ mergedGenerated.commandIds.Nodup := by
  refine ⟨⟨?_, by decide, by decide, by decide⟩, ?_, by decide, by decide⟩
  · exact importExample_eq storedTwice incomingTwice (tidySnapshot storedTwice) incomingTwice
      mergedTwice mergedTwice .merge (by decide +kernel) (by decide +kernel) (by rfl) (by rfl) (by rfl)
      (by rfl) (by decide +kernel)
  · exact importExample_eq storedGenerated incomingNamesake storedGenerated incomingNamesake
      mergedGenerated mergedGenerated .rename (by decide +kernel) (by decide +kernel) (by rfl) (by rfl)
      (by rfl) (by rfl) (by decide +kernel)

theorem applySnapshotJson_stores_example :
    ((importExample storedGenerated incomingNamesake .rename).1.errors ≠ [] ∧
      (importExample storedGenerated incomingNamesake .rename).2 =
        .present (asBytes (prettyJson storedGenerated))) ∨
    ∃ incoming stored json,
      ((jsonOf [storedGenerated, incomingNamesake]).fromStr (prettyJson incomingNamesake) >>=
        sanitizeSnapshot) = .ok incoming ∧
      (jsonOf [storedGenerated, incomingNamesake]).toVecPretty stored = .ok json ∧
      (importExample storedGenerated incomingNamesake .rename).2 = .present json ∧
      ImportedInto (List.map Char.toLower) exampleClock .rename storedGenerated incoming stored := by
  have hload : loadSnapshot (jsonOf [storedGenerated, incomingNamesake]) {} exampleClock
      (.present (asBytes (prettyJson storedGenerated))) = .ok storedGenerated := by
    rw [loadSnapshot, load_example (by decide +kernel) (by rfl)]
    rfl
  unfold importExample
  exact applySnapshotJson_stores hload (prettyJson incomingNamesake)

end Examples

end Hapcli.QuickCommands
