/-
  Subject:   Merging an imported snapshot of quick commands into the stored one (`merge_snapshot` of
             `store.rs`).

  * **`holds_or_takenOver`** -- where conflicts overwrite, an imported record is there at the end, unless a
    later command of the batch took it over.
-/
import Hapcli.Lib.Register
import Hapcli.QuickCommands.Store
import Hapcli.Rust.Maps

namespace Hapcli.QuickCommands

open Hapcli.Lib Hapcli.Rust

/-! ## 1. The merge -/

inductive QuickCommandImportStrategy where
  | rename
  | skip
  | replace
  | merge
  deriving DecidableEq

/-- What is read when an id is generated: the time, the counter, and the time again where no number
    makes the name unique. -/
structure Draw where
  time : Nat
  counter : Nat
  namedAt : Nat

/-- The times an import reads, and what it reads for each id it generates: `QUICK_COMMAND_ID_COUNTER`
    never gives a number twice. -/
structure Clock where
  loadedAt : Nat
  mergedAt : Nat
  draws : Nat → Draw
  distinct : Function.Injective fun k => (draws k).counter

def newQuickCommandId (draw : Draw) : Str :=
  "qc-".toList ++ numToString draw.time ++ '-' :: numToString draw.counter

def newQuickCategoryId (draw : Draw) : Str :=
  "qcg-".toList ++ numToString draw.time ++ '-' :: numToString draw.counter

/-- `str::eq_ignore_ascii_case`. -/
def eqIgnoreAsciiCase (a b : Str) : Bool := a.map Char.toLower = b.map Char.toLower

def builtinCategoryIds : List Str :=
  ["system".toList, "network".toList, "files".toList, "docker".toList, custom]

def isBuiltinCategoryId (id : Str) : Bool := id ∈ builtinCategoryIds

def sameCommandContent (a b : QuickCommand) : Bool :=
  a.id = b.id ∧ trim a.name = trim b.name ∧ trim a.command = trim b.command ∧
    a.category = b.category ∧ a.description.map trim = b.description.map trim ∧
    a.hostPattern.map trim = b.hostPattern.map trim

/-- The name of an imported record that is renamed. -/
def importedName (name : Str) : Str := name ++ " (Imported)".toList

section Names

-- `str::to_lowercase`, which needs the tables of Unicode
variable (toLowercase : Str → Str)

def uniqueName (now : Nat) (desiredName : Str) (existingLowerNames : List Str) : Str :=
  let numbered := fun n => desiredName ++ " (".toList ++ numToString n ++ ")".toList
  let free := fun name => toLowercase (trim name) ∉ existingLowerNames
  if free desiredName then desiredName
  else (((List.range' 2 998).map numbered).find? (free ·)).getD (numbered now)

def uniqueCategoryName (now : Nat) (categories : List QuickCommandCategory) (desiredName : Str) :
    Str :=
  uniqueName toLowercase now desiredName
    (categories.map fun category => toLowercase (trim category.name))

def uniqueCommandName (now : Nat) (commands : List QuickCommand) (category desiredName : Str) : Str :=
  uniqueName toLowercase now desiredName
    ((commands.filter (·.category = category)).map fun command => toLowercase (trim command.name))

end Names

/-- The first category that an incoming one conflicts with. -/
def categoryConflict (categories : List QuickCommandCategory) (incoming : QuickCommandCategory) :
    Option QuickCommandCategory :=
  categories.find? fun category =>
    category.id = incoming.id || eqIgnoreAsciiCase (trim category.name) (trim incoming.name)

/-- The first command that an incoming one conflicts with. -/
def commandConflict (commands : List QuickCommand) (incoming : QuickCommand) :
    Option QuickCommand :=
  commands.find? fun command =>
    command.id = incoming.id ||
      (command.category = incoming.category &&
        eqIgnoreAsciiCase (trim command.name) (trim incoming.name))

/-- The variables of the loop over the categories. -/
structure CategoryMerge where
  categories : List QuickCommandCategory
  categoryRemap : Map Str Str := ∅
  imported : Nat := 0
  skipped : Nat := 0
  drawn : Nat := 0

/-- The ids of the categories merged so far. -/
def CategoryMerge.ids (state : CategoryMerge) : List Str := state.categories.map (·.id)

/-- The variables of the loop over the commands. -/
structure CommandMerge where
  commands : List QuickCommand
  imported : Nat
  skipped : Nat
  drawn : Nat

/-- The ids of the commands merged so far. -/
def CommandMerge.ids (state : CommandMerge) : List Str := state.commands.map (·.id)

structure MergeResult where
  snapshot : QuickCommandsSnapshot
  imported : Nat
  skipped : Nat

section Merge

variable (toLowercase : Str → Str) (clock : Clock) (strategy : QuickCommandImportStrategy)

/-- The loop over the categories: one incoming category. -/
def mergeCategory (state : CategoryMerge) (incoming : QuickCommandCategory) : CategoryMerge :=
  match categoryConflict state.categories incoming, strategy with
  | none, _ =>
    { state with
      categoryRemap := state.categoryRemap.insert incoming.id incoming.id
      categories := state.categories ++ [incoming] }
  | some conflict, .skip =>
    { state with
      categoryRemap := state.categoryRemap.insert incoming.id conflict.id
      skipped := state.skipped + 1 }
  | some conflict, .rename =>
    -- the built-in categories are containers, and the local ones are used again
    if isBuiltinCategoryId incoming.id then
      { state with
        categoryRemap := state.categoryRemap.insert incoming.id conflict.id
        skipped := state.skipped + 1 }
    else
      let draw := clock.draws state.drawn
      let renamed : QuickCommandCategory :=
        { id := newQuickCategoryId draw
          name := uniqueCategoryName toLowercase draw.namedAt state.categories
            (importedName incoming.name)
          icon := incoming.icon }
      { categoryRemap := state.categoryRemap.insert incoming.id renamed.id
        categories := state.categories ++ [renamed]
        imported := state.imported + 1
        skipped := state.skipped
        drawn := state.drawn + 1 }
  | some conflict, .replace | some conflict, .merge =>
    { state with
      categoryRemap := state.categoryRemap.insert incoming.id conflict.id
      categories := state.categories.map fun category =>
        if category.id = conflict.id then
          { category with name := incoming.name, icon := incoming.icon }
        else category
      imported := state.imported + 1 }

/-- The category that the commands of an incoming category come to. -/
def remappedCategory (merged : CategoryMerge) (category : Str) : Str :=
  keptCategory merged.ids ((merged.categoryRemap.lookup category).getD category)

/-- An incoming command under its remapped category. -/
def remapped (merged : CategoryMerge) (command : QuickCommand) : QuickCommand :=
  { command with category := remappedCategory merged command.category }

/-- What an incoming command makes of the record it conflicts with. -/
def overwritten (conflict incoming : QuickCommand) : QuickCommand :=
  { incoming with
    id := conflict.id
    createdAt := if strategy = .merge then conflict.createdAt else incoming.createdAt
    updatedAt := clock.mergedAt }

/-- The loop over the commands: one incoming command, under its remapped category. -/
def mergeCommand (state : CommandMerge) (incoming : QuickCommand) : CommandMerge :=
  match commandConflict state.commands incoming, strategy with
  | none, _ =>
    { state with commands := state.commands ++ [incoming], imported := state.imported + 1 }
  | some _, .skip => { state with skipped := state.skipped + 1 }
  | some conflict, .rename =>
    if sameCommandContent conflict incoming then { state with skipped := state.skipped + 1 }
    else
      let draw := clock.draws state.drawn
      let renamed : QuickCommand :=
        { incoming with
          id := newQuickCommandId draw
          name := uniqueCommandName toLowercase draw.namedAt state.commands incoming.category
            (importedName incoming.name) }
      { commands := state.commands ++ [renamed]
        imported := state.imported + 1
        skipped := state.skipped
        drawn := state.drawn + 1 }
  | some conflict, .replace | some conflict, .merge =>
    { state with
      commands := state.commands.map fun command =>
        if command.id = conflict.id then overwritten clock strategy conflict incoming else command
      imported := state.imported + 1 }

/-- The loop over the categories. -/
def mergeCategories (current incoming : List QuickCommandCategory) : CategoryMerge :=
  incoming.foldl (mergeCategory toLowercase clock strategy) { categories := current }

/-- The loop over the commands. -/
def mergeCommands (merged : CategoryMerge) (current incoming : List QuickCommand) : CommandMerge :=
  (incoming.map (remapped merged)).foldl (mergeCommand toLowercase clock strategy)
    ⟨current, merged.imported, merged.skipped, merged.drawn⟩

def mergeSnapshot (current incoming : QuickCommandsSnapshot) : MergeResult :=
  let merged := mergeCategories toLowercase clock strategy current.categories incoming.categories
  let state := mergeCommands toLowercase clock strategy merged current.commands incoming.commands
  { snapshot :=
      ⟨quickCommandsSchemaVersion, merged.categories, state.commands, clock.mergedAt⟩
    imported := state.imported
    skipped := state.skipped }

end Merge

/-! ## 2. The ids -/

theorem generated_inj (clock : Clock) (kind : Str) :
    Function.Injective fun k => kind ++ numToString (clock.draws k).time ++
      '-' :: numToString (clock.draws k).counter := by
  intro j k heq
  have hdigits : ∀ n : Nat, '-' ∉ numToString n := fun n hmem =>
    absurd (isDigit_of_mem_numToString hmem) (by decide)
  exact clock.distinct (numToString_inj (append_cons_inj (hdigits _) (hdigits _) heq).2)

theorem trim_generated {kind : Str} (hkind : kind.all (!isWhitespace ·) = true)
    (time counter : Nat) :
    trim (kind ++ numToString time ++ '-' :: numToString counter) =
      kind ++ numToString time ++ '-' :: numToString counter := by
  have hdigits : ∀ n, ∀ c ∈ numToString n, isWhitespace c = false := fun n c hc =>
    not_whitespace_of_isDigit (isDigit_of_mem_numToString hc)
  refine trim_of_no_whitespace fun c hc => ?_
  rcases List.mem_append.mp hc with hc | hc
  · rcases List.mem_append.mp hc with hc | hc
    · simpa using List.all_eq_true.mp hkind c hc
    · exact hdigits _ c hc
  · rcases List.mem_cons.mp hc with rfl | hc
    · decide
    · exact hdigits _ c hc

section Ids

variable (toLowercase : Str → Str) (clock : Clock) (strategy : QuickCommandImportStrategy)

theorem categoryConflict_none {categories : List QuickCommandCategory}
    {incoming : QuickCommandCategory} (h : categoryConflict categories incoming = none) :
    incoming.id ∉ categories.map (·.id) := by
  intro hmem
  obtain ⟨category, hcategory, hid⟩ := List.mem_map.mp hmem
  have := List.find?_eq_none.mp h category hcategory
  simp [hid] at this

theorem commandConflict_none {commands : List QuickCommand} {incoming : QuickCommand}
    (h : commandConflict commands incoming = none) : incoming.id ∉ commands.map (·.id) := by
  intro hmem
  obtain ⟨command, hcommand, hid⟩ := List.mem_map.mp hmem
  have := List.find?_eq_none.mp h command hcommand
  simp [hid] at this

theorem map_id_of_kept {α : Type} {f : α → α} {id : α → Str} (l : List α)
    (hf : ∀ a, id (f a) = id a) : (l.map f).map id = l.map id := by
  rw [List.map_map]
  exact List.map_congr_left fun a _ => hf a

theorem mergeCategory_step (state : CategoryMerge) (incoming : QuickCommandCategory) :
    Register.Step (fun k => newQuickCategoryId (clock.draws k)) incoming.id
      (state.ids, state.drawn)
      ((mergeCategory toLowercase clock strategy state incoming).ids,
        (mergeCategory toLowercase clock strategy state incoming).drawn) := by
  have hoverwritten : ∀ conflict : QuickCommandCategory,
      (state.categories.map fun category => if category.id = conflict.id then
        { category with name := incoming.name, icon := incoming.icon } else category).map (·.id) =
        state.ids := fun conflict =>
    map_id_of_kept _ fun category => by split_ifs <;> rfl
  unfold mergeCategory
  cases hconflict : categoryConflict state.categories incoming with
  | none =>
    have hstep : Register.Step (fun k => newQuickCategoryId (clock.draws k)) incoming.id
        (state.ids, state.drawn) (state.ids ++ [incoming.id], state.drawn) :=
      .entered (categoryConflict_none hconflict) state.drawn
    simpa only [CategoryMerge.ids, List.map_append, List.map_cons, List.map_nil] using hstep
  | some conflict =>
    cases strategy with
    | skip => exact .kept _ _
    | rename =>
      dsimp only
      split_ifs
      · exact .kept _ _
      · simpa only [CategoryMerge.ids, List.map_append, List.map_cons, List.map_nil] using
          Register.Step.generated state.ids state.drawn
    | replace =>
      dsimp only [CategoryMerge.ids]
      rw [hoverwritten]
      exact .kept _ _
    | merge =>
      dsimp only [CategoryMerge.ids]
      rw [hoverwritten]
      exact .kept _ _

theorem mergeCommand_step (state : CommandMerge) (incoming : QuickCommand) :
    Register.Step (fun k => newQuickCommandId (clock.draws k)) incoming.id
      (state.ids, state.drawn)
      ((mergeCommand toLowercase clock strategy state incoming).ids,
        (mergeCommand toLowercase clock strategy state incoming).drawn) := by
  have hoverwritten : ∀ conflict : QuickCommand,
      (state.commands.map fun command => if command.id = conflict.id then
        overwritten clock strategy conflict incoming else command).map (·.id) =
        state.ids := fun conflict =>
    map_id_of_kept _ fun command => by
      split_ifs with hid
      · exact hid.symm
      · rfl
  unfold mergeCommand
  cases hconflict : commandConflict state.commands incoming with
  | none =>
    have hstep : Register.Step (fun k => newQuickCommandId (clock.draws k)) incoming.id
        (state.ids, state.drawn) (state.ids ++ [incoming.id], state.drawn) :=
      .entered (commandConflict_none hconflict) state.drawn
    simpa only [CommandMerge.ids, List.map_append, List.map_cons, List.map_nil] using hstep
  | some conflict =>
    cases strategy with
    | skip => exact .kept _ _
    | rename =>
      dsimp only
      split_ifs
      · exact .kept _ _
      · simpa only [CommandMerge.ids, List.map_append, List.map_cons, List.map_nil] using
          Register.Step.generated state.ids state.drawn
    | replace =>
      dsimp only [CommandMerge.ids]
      rw [hoverwritten]
      exact .kept _ _
    | merge =>
      dsimp only [CommandMerge.ids]
      rw [hoverwritten]
      exact .kept _ _

end Ids

/-! ## 3. What becomes of an incoming command -/

/-- The two commands have one name, one text and one category. -/
def SameText (a b : QuickCommand) : Prop :=
  a.name = b.name ∧ a.command = b.command ∧ a.category = b.category

instance (a b : QuickCommand) : Decidable (SameText a b) := inferInstanceAs (Decidable (_ ∧ _ ∧ _))

/-- The record with this id has the name, the text and the category of the command. -/
structure Holds (commands : List QuickCommand) (id : Str) (command : QuickCommand) : Prop where
  stored : ∃ record ∈ commands, record.id = id
  same : ∀ record ∈ commands, record.id = id → SameText record command

/-- The first record that the later command conflicts with is one with the name, the text and the
    category of the command. -/
def TakenOver (state : CommandMerge) (later command : QuickCommand) : Prop :=
  ∃ record, commandConflict state.commands later = some record ∧ SameText record command

/-- A conflict overwrites the record. -/
def Overwrites (strategy : QuickCommandImportStrategy) : Prop :=
  strategy = .replace ∨ strategy = .merge

section Texts

variable (toLowercase : Str → Str) (clock : Clock) {strategy : QuickCommandImportStrategy}

variable {state : CommandMerge}

theorem mergeCommand_none (strategy : QuickCommandImportStrategy) {incoming : QuickCommand}
    (h : commandConflict state.commands incoming = none) :
    (mergeCommand toLowercase clock strategy state incoming).commands =
      state.commands ++ [incoming] := by
  unfold mergeCommand
  rw [h]

section

variable (hover : Overwrites strategy)

include hover

theorem mergeCommand_overwrites {incoming conflict : QuickCommand}
    (h : commandConflict state.commands incoming = some conflict) :
    (mergeCommand toLowercase clock strategy state incoming).commands =
      state.commands.map fun command =>
        if command.id = conflict.id then overwritten clock strategy conflict incoming
        else command := by
  unfold mergeCommand
  rw [h]
  rcases hover with rfl | rfl <;> rfl

/-- After its turn, a record has the name, the text and the category of the incoming command. -/
theorem mergeCommand_holds (state : CommandMerge) (incoming : QuickCommand) :
    ∃ id, Holds (mergeCommand toLowercase clock strategy state incoming).commands id incoming := by
  cases hconflict : commandConflict state.commands incoming with
  | none =>
    rw [mergeCommand_none toLowercase clock strategy hconflict]
    refine ⟨incoming.id, ⟨incoming, by simp, rfl⟩, fun record hrecord hid => ?_⟩
    rcases List.mem_append.mp hrecord with hrecord | hrecord
    · refine absurd ?_ (commandConflict_none hconflict)
      exact hid ▸ List.mem_map_of_mem hrecord
    · rw [List.mem_singleton.mp hrecord]
      exact ⟨rfl, rfl, rfl⟩
  | some conflict =>
    rw [mergeCommand_overwrites toLowercase clock hover hconflict]
    have hmem : conflict ∈ state.commands := List.mem_of_find?_eq_some hconflict
    refine ⟨conflict.id, ⟨_, List.mem_map_of_mem hmem, ?_⟩, fun record hrecord hid => ?_⟩
    · rw [if_pos rfl]
      rfl
    · obtain ⟨command, hcommand, rfl⟩ := List.mem_map.mp hrecord
      by_cases hsame : command.id = conflict.id
      · rw [if_pos hsame]
        exact ⟨rfl, rfl, rfl⟩
      · rw [if_neg hsame] at hid
        exact absurd hid hsame

theorem Holds.step {id : Str} {command later : QuickCommand} (h : Holds state.commands id command)
    (hother : ∀ conflict, commandConflict state.commands later = some conflict → conflict.id ≠ id) :
    Holds (mergeCommand toLowercase clock strategy state later).commands id command := by
  obtain ⟨record, hrecord, hid⟩ := h.stored
  cases hconflict : commandConflict state.commands later with
  | none =>
    rw [mergeCommand_none toLowercase clock strategy hconflict]
    refine ⟨⟨record, List.mem_append_left _ hrecord, hid⟩, fun other hmem hsame => ?_⟩
    rcases List.mem_append.mp hmem with hmem | hmem
    · exact h.same other hmem hsame
    · rw [List.mem_singleton.mp hmem] at hsame
      refine absurd ?_ (commandConflict_none hconflict)
      rw [hsame, ← hid]
      exact List.mem_map_of_mem hrecord
  | some conflict =>
    rw [mergeCommand_overwrites toLowercase clock hover hconflict]
    have hne := hother conflict hconflict
    refine ⟨⟨record, List.mem_map.mpr ⟨record, hrecord, ?_⟩, hid⟩, fun other hmem hsame => ?_⟩
    · exact if_neg fun heq => hne (heq.symm.trans hid)
    · obtain ⟨command', hcommand', rfl⟩ := List.mem_map.mp hmem
      by_cases heq : command'.id = conflict.id
      · rw [if_pos heq] at hsame
        exact absurd hsame hne
      · rw [if_neg heq] at hsame ⊢
        exact h.same command' hcommand' hsame

/-- Such a record is there at the end, or a later command of the batch took it over. -/
theorem holds_or_takenOver {id : Str} {command : QuickCommand}
    (h : Holds state.commands id command) (batch : List QuickCommand) :
    Holds (batch.foldl (mergeCommand toLowercase clock strategy) state).commands id command ∨
      ∃ between later rest, batch = between ++ later :: rest ∧
        TakenOver (between.foldl (mergeCommand toLowercase clock strategy) state) later command := by
  induction batch generalizing state with
  | nil => exact .inl h
  | cons later rest ih =>
    by_cases htaken : ∃ conflict, commandConflict state.commands later = some conflict ∧
        conflict.id = id
    · obtain ⟨conflict, hconflict, hid⟩ := htaken
      have hsame := h.same conflict (List.mem_of_find?_eq_some hconflict) hid
      exact .inr ⟨[], later, rest, rfl, conflict, hconflict, hsame⟩
    · have hnext := h.step toLowercase clock hover
        fun conflict hconflict hid => htaken ⟨conflict, hconflict, hid⟩
      rcases ih hnext with hend | ⟨between, taker, tail, hbatch, htaken⟩
      · exact .inl hend
      · exact .inr ⟨later :: between, taker, tail, congrArg (later :: ·) hbatch, htaken⟩

end

end Texts

end Hapcli.QuickCommands
