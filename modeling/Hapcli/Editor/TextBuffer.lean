/-
  Subject:   `TextBuffer`: transactions, undo and redo over a piece table, with the line index kept
             along.

  `none` is a panic: the slice of a string off its boundaries. A history stack has its top first.

  * `exists_edited` -- **the edits that pass the checks** are sorted and lie on boundaries;
  * **`inverseLoop_eq`** -- the edits that take them back make the text before them;
  * **`line_starts_of_text`** -- every state that commands reach is consistent, and none panics;
  * **`refused_transaction`** -- a transaction that is refused changes nothing.
-/
import Hapcli.Editor.PieceTable
import Hapcli.Editor.LineIndex

namespace Hapcli.Editor

open Hapcli.Rust

/-! ## 1. The buffer -/

/-- `EditorError`, as far as edits raise it. -/
inductive EditorError where
  | offsetOutOfBounds (offset len : Nat)
  | invalidUtf8Boundary (offset : Nat)
  | invalidRange (start stop : Nat)
  | overlappingEdits (offset : Nat)
  | editDeltaOverflow
  deriving DecidableEq

structure HistoryEntry where
  edits : List TextEdit
  beforeRevision : UInt64
  afterRevision : UInt64
  deriving DecidableEq

structure TextBuffer where
  storage : PieceTableTextBuffer
  textCache : Option Str
  lineStarts : List Nat
  version : UInt64
  contentRevision : UInt64
  savedRevision : UInt64
  nextContentRevision : UInt64
  undoStack : List HistoryEntry
  redoStack : List HistoryEntry
  deriving DecidableEq

structure Selection where
  anchor : Nat
  head : Nat
  deriving DecidableEq

def Selection.range (selection : Selection) : TextRange := .new selection.anchor selection.head

def Selection.caret (offset : Nat) : Selection := { anchor := offset, head := offset }

/-- `u64::saturating_add(1)`. -/
def saturatingSucc (n : UInt64) : UInt64 := if n.toNat + 1 < 2 ^ 64 then n + 1 else n

/-! ## 2. Edits -/

def validateOffsetForStorage (storage : PieceTableTextBuffer) (offset : Nat) :
    Except EditorError Unit :=
  if storage.len < offset then .error (.offsetOutOfBounds offset storage.len)
  else if storage.isCharBoundary offset = false then .error (.invalidUtf8Boundary offset)
  else .ok ()

/-- The loop of `normalize_edits_for_storage`. -/
def validateEdits (storage : PieceTableTextBuffer) : List TextEdit → Nat → Except EditorError Unit
  | [], _ => .ok ()
  | edit :: edits, previousEnd => do
      validateOffsetForStorage storage edit.range.start
      validateOffsetForStorage storage edit.range.stop
      if edit.range.stop < edit.range.start then
        throw (.invalidRange edit.range.start edit.range.stop)
      if edit.range.start < previousEnd then throw (.overlappingEdits edit.range.start)
      validateEdits storage edits edit.range.stop

/-- The order of `normalize_edits_for_storage`: by start, then by end. -/
def rangeLe (left right : TextEdit) : Bool :=
  left.range.start < right.range.start ||
    (left.range.start == right.range.start && left.range.stop ≤ right.range.stop)

def normalizeEditsForStorage (edits : List TextEdit) (storage : PieceTableTextBuffer) :
    Except EditorError (List TextEdit) := do
  let edits := edits.mergeSort rangeLe
  validateEdits storage edits 0
  return edits

/-- `apply_delta`. A sum is an offset of a text in memory and does not overflow. -/
def applyDelta (offset : Nat) (delta : Int) : Except EditorError Nat :=
  if delta < 0 then
    if delta.natAbs ≤ offset then .ok (offset - delta.natAbs) else .error .editDeltaOverflow
  else .ok (offset + delta.toNat)

/-- The loop of `apply_edits_internal` over the text before the edits: those that take them back. -/
def inverseLoop (storage : PieceTableTextBuffer) :
    List TextEdit → Int → Option (Except EditorError (List TextEdit))
  | [], _ => some (.ok [])
  | edit :: edits, delta => do
      let original ← storage.sliceToString edit.range.start edit.range.stop
      match applyDelta edit.range.start delta with
      | .error e => return .error e
      | .ok startAfter =>
        let endAfter := startAfter + byteLen edit.replacement
        let rest ← inverseLoop storage edits
          (delta + (byteLen edit.replacement - edit.range.len))
        return rest.map ({ range := .new startAfter endAfter, replacement := original } :: ·)

/-- `for edit in edits.iter().rev() { self.storage.replace(..) }`. -/
def replaceEdits (storage : PieceTableTextBuffer) (edits : List TextEdit) : PieceTableTextBuffer :=
  edits.foldr
    (fun edit storage => storage.replace edit.range.start edit.range.stop edit.replacement) storage

/-! ## 3. Commands -/

namespace TextBuffer

def new (text : Str) : TextBuffer :=
  { storage := .new text
    textCache := some text
    lineStarts := computeLineStarts text
    version := 0
    contentRevision := 0
    savedRevision := 0
    nextContentRevision := 1
    undoStack := []
    redoStack := [] }

/-- `text`, which materializes the cache. -/
def text (b : TextBuffer) : Option (Str × TextBuffer) :=
  match b.textCache with
  | some text => some (text, b)
  | none => do
      let text ← b.storage.toText
      return (text, { b with textCache := some text })

variable (b : TextBuffer)

def isDirty : Bool := b.contentRevision != b.savedRevision

def markSaved : TextBuffer := { b with savedRevision := b.contentRevision }

def applyEditsInternal (edits : List TextEdit) :
    Option (Except EditorError (List TextEdit) × TextBuffer) :=
  match normalizeEditsForStorage edits b.storage with
  | .error e => some (.error e, b)
  | .ok edits => do
      match ← inverseLoop b.storage edits 0 with
      | .error e => return (.error e, b)
      | .ok inverse =>
        return (.ok inverse,
          { b with
            storage := replaceEdits b.storage edits
            textCache := none
            lineStarts := updateLineStartsAfterEdits b.lineStarts edits
            version := saturatingSucc b.version })

/-- `apply_transaction`, with `allocate_content_revision`. -/
def applyTransaction (transaction : List TextEdit) :
    Option (Except EditorError Unit × TextBuffer) :=
  if transaction.isEmpty then some (.ok (), b)
  else do
    let beforeRevision := b.contentRevision
    let afterRevision := b.nextContentRevision
    let b := { b with nextContentRevision := saturatingSucc b.nextContentRevision }
    match ← b.applyEditsInternal transaction with
    | (.error e, b) => return (.error e, b)
    | (.ok inverse, b) =>
      return (.ok (),
        { b with
          contentRevision := afterRevision
          undoStack := { edits := inverse, beforeRevision, afterRevision } :: b.undoStack
          redoStack := [] })

def replaceSelection (selection : Selection) (replacement : Str) :
    Option (Except EditorError Selection × TextBuffer) := do
  let range := selection.range
  let caret := range.start + byteLen replacement
  let (result, b) ← b.applyTransaction [{ range, replacement }]
  return (result.map fun _ => .caret caret, b)

/-- `undo`. The entry is off the stack before its edits are tried. -/
def undo : Option (Except EditorError Bool × TextBuffer) :=
  match b.undoStack with
  | [] => some (.ok false, b)
  | entry :: undoStack => do
      match ← { b with undoStack }.applyEditsInternal entry.edits with
      | (.error e, b) => return (.error e, b)
      | (.ok redo, b) =>
        return (.ok true,
          { b with
            contentRevision := entry.beforeRevision
            redoStack := { entry with edits := redo } :: b.redoStack })

def redo : Option (Except EditorError Bool × TextBuffer) :=
  match b.redoStack with
  | [] => some (.ok false, b)
  | entry :: redoStack => do
      match ← { b with redoStack }.applyEditsInternal entry.edits with
      | (.error e, b) => return (.error e, b)
      | (.ok undo, b) =>
        return (.ok true,
          { b with
            contentRevision := entry.afterRevision
            undoStack := { entry with edits := undo } :: b.undoStack })

end TextBuffer

/-- What is done to a buffer. -/
inductive Command where
  | transaction (edits : List TextEdit)
  | replaceSelection (selection : Selection) (replacement : Str)
  | undo
  | redo
  | markSaved
  | text

namespace TextBuffer

/-- The buffer a command leaves, whatever it returns. -/
def step (b : TextBuffer) : Command → Option TextBuffer
  | .transaction edits => (b.applyTransaction edits).map Prod.snd
  | .replaceSelection selection replacement =>
    (b.replaceSelection selection replacement).map Prod.snd
  | .undo => b.undo.map Prod.snd
  | .redo => b.redo.map Prod.snd
  | .markSaved => some b.markSaved
  | .text => b.text.map Prod.snd

/-- The buffer a sequence of commands leaves. -/
def run (b : TextBuffer) : List Command → Option TextBuffer
  | [] => some b
  | command :: commands => do
      let b ← b.step command
      b.run commands

end TextBuffer

/-! ## 4. Checked edits -/

variable {edits : List TextEdit} {front text : Str} {storage : PieceTableTextBuffer}

variable {delta : Int} {edited : Str} {offset position previousEnd shifted : Nat}

theorem validateOffsetForStorage_eq_ok :
    validateOffsetForStorage storage offset = .ok () ↔
      offset ≤ storage.len ∧ storage.isCharBoundary offset = true := by
  unfold validateOffsetForStorage
  split_ifs with hlen hboundary
  · simp [Nat.not_le_of_lt hlen]
  · simp [hboundary]
  · have hboundary : storage.isCharBoundary offset = true := by simpa using hboundary
    simp [Nat.le_of_not_lt hlen, hboundary]

theorem validateEdits_cons {edit : TextEdit}
    (h : validateEdits storage (edit :: edits) previousEnd = .ok ()) :
    storage.isCharBoundary edit.range.start = true ∧ storage.isCharBoundary edit.range.stop = true ∧
      edit.range.start ≤ edit.range.stop ∧ previousEnd ≤ edit.range.start ∧
      validateEdits storage edits edit.range.stop = .ok () := by
  rw [validateEdits] at h
  cases hstart : validateOffsetForStorage storage edit.range.start with
  | error e =>
    rw [hstart] at h
    cases h
  | ok =>
    cases hstop : validateOffsetForStorage storage edit.range.stop with
    | error e =>
      rw [hstart, hstop] at h
      cases h
    | ok =>
      rw [hstart, hstop] at h
      by_cases hrange : edit.range.stop < edit.range.start
      · simp [hrange, bind, Except.bind, throw, throwThe, MonadExceptOf.throw] at h
      · by_cases hoverlap : edit.range.start < previousEnd
        · simp [hrange, hoverlap, bind, Except.bind, throw, throwThe,
            MonadExceptOf.throw] at h
        · simp only [hrange, hoverlap, if_false] at h
          exact ⟨((validateOffsetForStorage_eq_ok).mp hstart).2,
            ((validateOffsetForStorage_eq_ok).mp hstop).2, Nat.le_of_not_lt hrange,
            Nat.le_of_not_lt hoverlap, h⟩

/-- Edits that pass the checks lie on boundaries of the text, sorted and apart. -/
theorem exists_edited (h : Represents storage (front ++ text))
    (hfront : byteLen front = previousEnd)
    (hvalid : validateEdits storage edits previousEnd = .ok ()) :
    ∃ edited, Edited previousEnd text edits edited := by
  induction edits generalizing front text previousEnd with
  | nil => exact ⟨text, .nil previousEnd text⟩
  | cons edit edits ih =>
    obtain ⟨hstart, hstop, hrange, hprevious, hvalid⟩ := validateEdits_cons hvalid
    have hboundary : ∀ {offset}, previousEnd ≤ offset → storage.isCharBoundary offset = true →
        isCharBoundary text (offset - previousEnd) = true := by
      intro offset hle hoffset
      rw [isCharBoundary_eq h, show offset = byteLen front + (offset - previousEnd) by omega,
        isCharBoundary_append] at hoffset
      exact hoffset
    obtain ⟨kept, removed, rest, rfl, hkept, hremoved⟩ :=
      exists_strSlice (Nat.sub_le_sub_right hrange previousEnd) (hboundary hprevious hstart)
        (hboundary (by omega) hstop)
    have hrest : Represents storage ((front ++ kept ++ removed) ++ rest) := by
      simpa using h
    obtain ⟨edited, hedited⟩ := ih hrest (by simp only [byteLen_append]; omega) hvalid
    exact ⟨_, .cons (by omega) (by omega) hedited⟩

theorem exists_edited_of_normalize {sorted : List TextEdit} (h : Represents storage text)
    (hnormal : normalizeEditsForStorage edits storage = .ok sorted) :
    ∃ edited, Edited 0 text sorted edited := by
  simp only [normalizeEditsForStorage] at hnormal
  cases hvalid : validateEdits storage (edits.mergeSort rangeLe) 0 with
  | error e =>
    rw [hvalid] at hnormal
    cases hnormal
  | ok =>
    rw [hvalid] at hnormal
    cases hnormal
    have hrepresents : Represents storage ([] ++ text) := h
    exact exists_edited hrepresents rfl hvalid

theorem represents_replaceEdits (h : Represents storage (front ++ text))
    (hfront : byteLen front = position) (hedited : Edited position text edits edited) :
    Represents (replaceEdits storage edits) (front ++ edited) := by
  induction hedited generalizing front with
  | nil => exact h
  | @cons position kept removed rest edited edit edits hstart hstop _ ih =>
    have hrest : Represents storage ((front ++ kept ++ removed) ++ rest) := by simpa using h
    have hreplaced := ih hrest (by simp only [byteLen_append]; omega)
    refine represents_replace hreplaced (replaceRange_eq_some.mpr
      ⟨front ++ kept, removed, edited, rfl, ?_, hstop.symm, by simp⟩)
    rw [byteLen_append, hfront, hstart]

theorem applyDelta_eq (h : (shifted : Int) = offset + delta) :
    applyDelta offset delta = .ok shifted := by
  unfold applyDelta
  by_cases hneg : delta < 0
  · rw [if_pos hneg, if_pos (by omega)]
    congr 1
    omega
  · rw [if_neg hneg]
    congr 1
    omega

theorem inverseLoop_eq (h : Represents storage (front ++ text)) (hfront : byteLen front = position)
    (hedited : Edited position text edits edited) (hshift : (shifted : Int) = position + delta) :
    ∃ inverse, inverseLoop storage edits delta = some (.ok inverse) ∧
      Edited shifted edited inverse text := by
  induction hedited generalizing front shifted delta with
  | nil position text => exact ⟨[], rfl, .nil shifted text⟩
  | @cons position kept removed rest edited edit edits hstart hstop _ ih =>
    have hslice : storage.sliceToString edit.range.start edit.range.stop = some removed := by
      refine sliceToString_eq h (strSlice_eq_some.mpr ⟨front ++ kept, rest, by simp, ?_, ?_⟩)
      · rw [byteLen_append, hfront, hstart]
      · exact hstop.symm
    have hrest : Represents storage ((front ++ kept ++ removed) ++ rest) := by simpa using h
    have hlen : edit.range.len = byteLen removed := by
      rw [TextRange.len, hstop]
      omega
    have hstart' : ((shifted + byteLen kept : Nat) : Int) = edit.range.start + delta := by omega
    have hstop' : ((shifted + byteLen kept + byteLen edit.replacement : Nat) : Int) =
        edit.range.stop + (delta + (byteLen edit.replacement - edit.range.len)) := by omega
    obtain ⟨inverse, hinverse, hback⟩ := ih hrest (by simp only [byteLen_append]; omega) hstop'
    have hrange : TextRange.new (shifted + byteLen kept)
        (shifted + byteLen kept + byteLen edit.replacement) =
        ⟨shifted + byteLen kept, shifted + byteLen kept + byteLen edit.replacement⟩ :=
      if_pos (Nat.le_add_right _ _)
    refine ⟨⟨⟨shifted + byteLen kept, shifted + byteLen kept + byteLen edit.replacement⟩,
      removed⟩ :: inverse, ?_, .cons rfl rfl hback⟩
    rw [inverseLoop, hslice]
    simp [applyDelta_eq hstart', hinverse, hrange, Except.map]

/-! ## 5. States -/

namespace TextBuffer

/-- What `apply_edits_internal` makes of the buffer. -/
def withEdits (b : TextBuffer) (edits : List TextEdit) : TextBuffer :=
  { b with
    storage := replaceEdits b.storage edits
    textCache := none
    lineStarts := updateLineStartsAfterEdits b.lineStarts edits
    version := saturatingSucc b.version }

/-- The storage and the cache are the text, and the line index is that of the text. -/
structure Consistent (b : TextBuffer) (text : Str) : Prop where
  represents : Represents b.storage text
  cache : ∀ cached, b.textCache = some cached → cached = text
  lineStarts : b.lineStarts = computeLineStarts text

section Consistent

variable {b : TextBuffer} {text : Str}

theorem consistent_new (text : Str) : (new text).Consistent text :=
  ⟨represents_new text, fun _ hcached => (Option.some.inj hcached).symm, rfl⟩

section

variable (h : b.Consistent text)

include h

theorem Consistent.congr {b' : TextBuffer} (hstorage : b'.storage = b.storage)
    (hcache : b'.textCache = b.textCache)
    (hstarts : b'.lineStarts = b.lineStarts) : b'.Consistent text :=
  ⟨hstorage ▸ h.represents, hcache ▸ h.cache, hstarts.trans h.lineStarts⟩

theorem Consistent.text_eq : b.text = some (text, { b with textCache := some text }) := by
  cases hcache : b.textCache with
  | none =>
    rw [TextBuffer.text, hcache]
    show (b.storage.toText >>= _) = _
    rw [toText_eq h.represents]
    rfl
  | some cached =>
    have hcached : cached = text := h.cache cached hcache
    subst hcached
    have hself : { b with textCache := some cached } = b := by rw [← hcache]
    rw [hself, TextBuffer.text, hcache]

theorem Consistent.applyEditsInternal_cases (edits : List TextEdit) :
    (∃ e, normalizeEditsForStorage edits b.storage = .error e ∧
      b.applyEditsInternal edits = some (.error e, b)) ∨
    ∃ sorted inverse edited, normalizeEditsForStorage edits b.storage = .ok sorted ∧
      Edited 0 text sorted edited ∧ Edited 0 edited inverse text ∧
      b.applyEditsInternal edits = some (.ok inverse, b.withEdits sorted) := by
  unfold applyEditsInternal
  cases hnormal : normalizeEditsForStorage edits b.storage with
  | error e => exact .inl ⟨e, rfl, rfl⟩
  | ok sorted =>
    obtain ⟨edited, hedited⟩ := exists_edited_of_normalize h.represents hnormal
    have hrepresents : Represents b.storage ([] ++ text) := h.represents
    have hshift : ((0 : Nat) : Int) = (0 : Nat) + 0 := rfl
    obtain ⟨inverse, hinverse, hback⟩ := inverseLoop_eq hrepresents rfl hedited hshift
    refine .inr ⟨sorted, inverse, edited, rfl, hedited, hback, ?_⟩
    simp only [hinverse]
    rfl

theorem Consistent.withEdits {sorted : List TextEdit}
    (hedited : Edited 0 text sorted edited) : (b.withEdits sorted).Consistent edited := by
  have hrepresents : Represents b.storage ([] ++ text) := h.represents
  refine ⟨represents_replaceEdits hrepresents rfl hedited, fun _ hcached => (nomatch hcached), ?_⟩
  show updateLineStartsAfterEdits b.lineStarts sorted = computeLineStarts edited
  rw [h.lineStarts]
  exact updateLineStartsAfterEdits_eq hedited

theorem Consistent.applyEditsInternal (edits : List TextEdit) :
    ∃ result b' text', b.applyEditsInternal edits = some (result, b') ∧ b'.Consistent text' := by
  rcases h.applyEditsInternal_cases edits with
    ⟨e, -, happly⟩ | ⟨sorted, inverse, edited, -, hedited, -, happly⟩
  · exact ⟨.error e, b, text, happly, h⟩
  · exact ⟨.ok inverse, b.withEdits sorted, edited, happly, h.withEdits hedited⟩

theorem Consistent.applyTransaction (transaction : List TextEdit) :
    ∃ result b' text', b.applyTransaction transaction = some (result, b') ∧
      b'.Consistent text' := by
  unfold TextBuffer.applyTransaction
  by_cases hempty : transaction.isEmpty = true
  · rw [if_pos hempty]
    exact ⟨_, b, text, rfl, h⟩
  · rw [if_neg hempty]
    have hnext : { b with
        nextContentRevision := saturatingSucc b.nextContentRevision }.Consistent text :=
      h.congr rfl rfl rfl
    obtain ⟨result, b', text', happly, hconsistent⟩ := hnext.applyEditsInternal transaction
    cases result with
    | error e => exact ⟨.error e, b', text', by simp [happly], hconsistent⟩
    | ok inverse =>
      refine ⟨.ok (), _, text', by simp only [happly]; rfl, ?_⟩
      exact hconsistent.congr rfl rfl rfl

theorem Consistent.undo : ∃ result b' text', b.undo = some (result, b') ∧ b'.Consistent text' := by
  unfold TextBuffer.undo
  split
  · exact ⟨_, b, text, rfl, h⟩
  · rename_i entry undoStack hstack
    have hpopped : { b with undoStack }.Consistent text := h.congr rfl rfl rfl
    obtain ⟨result, b', text', happly, hconsistent⟩ := hpopped.applyEditsInternal entry.edits
    cases result with
    | error e => exact ⟨.error e, b', text', by simp [happly], hconsistent⟩
    | ok redo =>
      refine ⟨.ok true, _, text', by simp only [happly]; rfl, ?_⟩
      exact hconsistent.congr rfl rfl rfl

theorem Consistent.redo : ∃ result b' text', b.redo = some (result, b') ∧ b'.Consistent text' := by
  unfold TextBuffer.redo
  split
  · exact ⟨_, b, text, rfl, h⟩
  · rename_i entry redoStack hstack
    have hpopped : { b with redoStack }.Consistent text := h.congr rfl rfl rfl
    obtain ⟨result, b', text', happly, hconsistent⟩ := hpopped.applyEditsInternal entry.edits
    cases result with
    | error e => exact ⟨.error e, b', text', by simp [happly], hconsistent⟩
    | ok undo =>
      refine ⟨.ok true, _, text', by simp only [happly]; rfl, ?_⟩
      exact hconsistent.congr rfl rfl rfl

theorem Consistent.step (command : Command) :
    ∃ b' text', b.step command = some b' ∧ b'.Consistent text' := by
  cases command with
  | transaction edits =>
    obtain ⟨result, b', text', happly, hconsistent⟩ := h.applyTransaction edits
    exact ⟨b', text', by simp [TextBuffer.step, happly], hconsistent⟩
  | replaceSelection selection replacement =>
    obtain ⟨result, b', text', happly, hconsistent⟩ :=
      h.applyTransaction [{ range := selection.range, replacement }]
    exact ⟨b', text', by simp [TextBuffer.step, TextBuffer.replaceSelection, happly], hconsistent⟩
  | undo =>
    obtain ⟨result, b', text', hundo, hconsistent⟩ := h.undo
    exact ⟨b', text', by simp [TextBuffer.step, hundo], hconsistent⟩
  | redo =>
    obtain ⟨result, b', text', hredo, hconsistent⟩ := h.redo
    exact ⟨b', text', by simp [TextBuffer.step, hredo], hconsistent⟩
  | markSaved => exact ⟨b.markSaved, text, rfl, h.congr rfl rfl rfl⟩
  | text =>
    refine ⟨{ b with textCache := some text }, text, by simp [TextBuffer.step, h.text_eq], ?_⟩
    exact ⟨h.represents, fun _ hcached => (Option.some.inj hcached).symm, h.lineStarts⟩

theorem Consistent.run (commands : List Command) :
    ∃ b' text', b.run commands = some b' ∧ b'.Consistent text' := by
  induction commands generalizing b text with
  | nil => exact ⟨b, text, rfl, h⟩
  | cons command commands ih =>
    obtain ⟨b', text', hstep, hconsistent⟩ := h.step command
    obtain ⟨last, text'', hrun, hlast⟩ := ih hconsistent
    exact ⟨last, text'', by simp [TextBuffer.run, hstep, hrun], hlast⟩

end

end Consistent

/-- **The line index is that of the text**, and its update that of the edited text. -/
theorem line_starts_of_text :
    (∀ (original : Str) (commands : List Command), ∃ b text, (new original).run commands = some b ∧
      b.storage.toText = some text ∧ b.text.map Prod.fst = some text ∧
      b.lineStarts = computeLineStarts text) ∧
    ∀ (text edited : Str) (edits : List TextEdit), Edited 0 text edits edited →
      updateLineStartsAfterEdits (computeLineStarts text) edits = computeLineStarts edited := by
  refine ⟨fun original commands => ?_, fun _ _ _ => updateLineStartsAfterEdits_eq⟩
  obtain ⟨b, text, hrun, hconsistent⟩ := (consistent_new original).run commands
  exact ⟨b, text, hrun, toText_eq hconsistent.represents, by rw [hconsistent.text_eq]; rfl,
    hconsistent.lineStarts⟩

/-- The newline of a text removed, and another one inserted where it was. -/
theorem line_starts_of_text_two_edits :
    let edits : List TextEdit := [⟨⟨1, 2⟩, []⟩, ⟨⟨2, 2⟩, ['c', '\n']⟩]
    Edited 0 ['a', '\n', 'b'] edits ['a', 'c', '\n', 'b'] ∧
      updateLineStartsAfterEdits [0, 2] edits = [0, 3] := by
  intro edits
  have hsecond : Edited 2 ([] ++ [] ++ ['b']) [⟨⟨2, 2⟩, ['c', '\n']⟩]
      ([] ++ ['c', '\n'] ++ ['b']) := .cons rfl rfl (.nil 2 ['b'])
  have hfirst : Edited 0 (['a'] ++ ['\n'] ++ ['b']) edits (['a'] ++ [] ++ ['c', '\n', 'b']) :=
    .cons rfl rfl hsecond
  exact ⟨hfirst, line_starts_of_text.2 _ _ edits hfirst⟩

theorem applyEditsInternal_error {b b' : TextBuffer} {e : EditorError}
    (h : b.applyEditsInternal edits = some (.error e, b')) : b' = b := by
  unfold applyEditsInternal at h
  split at h
  · cases h
    rfl
  · cases hinverse : inverseLoop b.storage _ 0 with
    | none =>
      rw [hinverse] at h
      cases h
    | some result =>
      rw [hinverse] at h
      cases result with
      | error e => cases h; rfl
      | ok inverse => cases h

/-- **A refused transaction** leaves the text, the index, the stacks, the version and the dirty flag
    as they were. -/
theorem refused_transaction {b b' : TextBuffer} {transaction : List TextEdit} {e : EditorError}
    (h : b.applyTransaction transaction = some (.error e, b')) :
    b'.text.map Prod.fst = b.text.map Prod.fst ∧ b'.storage = b.storage ∧
      b'.lineStarts = b.lineStarts ∧ b'.undoStack = b.undoStack ∧ b'.redoStack = b.redoStack ∧
      b'.version = b.version ∧ b'.isDirty = b.isDirty := by
  unfold applyTransaction at h
  split at h
  · cases h
  · dsimp only at h
    cases happly : applyEditsInternal
        { b with nextContentRevision := saturatingSucc b.nextContentRevision } transaction with
    | none =>
      rw [happly] at h
      cases h
    | some outcome =>
      rw [happly] at h
      obtain ⟨result, after⟩ := outcome
      cases result with
      | ok inverse => cases h
      | error e =>
        cases h
        obtain rfl := applyEditsInternal_error happly
        refine ⟨?_, rfl, rfl, rfl, rfl, rfl, rfl⟩
        unfold text
        cases b.textCache with
        | some cached => rfl
        | none => cases b.storage.toText <;> rfl

/-- A good edit in front of one past the end. -/
theorem refused_transaction_past_end :
    let edits : List TextEdit := [⟨⟨0, 1⟩, ['b']⟩, ⟨⟨1, 9⟩, []⟩]
    ∃ b', (new ['a', 'c']).applyTransaction edits = some (.error (.offsetOutOfBounds 9 2), b') ∧
      b'.storage = (new ['a', 'c']).storage ∧ b'.isDirty = (new ['a', 'c']).isDirty := by
  intro edits
  have hsorted : edits.mergeSort rangeLe = edits := List.mergeSort_of_pairwise (by decide)
  have herror : ∃ b', (new ['a', 'c']).applyTransaction edits =
      some (.error (.offsetOutOfBounds 9 2), b') := by
    refine ⟨{ new ['a', 'c'] with nextContentRevision := 2 }, ?_⟩
    rw [applyTransaction, if_neg (by decide)]
    simp only [applyEditsInternal, normalizeEditsForStorage, hsorted]
    rfl
  obtain ⟨b', happly⟩ := herror
  obtain ⟨-, hstorage, -, -, -, -, hdirty⟩ := refused_transaction happly
  exact ⟨b', happly, hstorage, hdirty⟩

end TextBuffer

end Hapcli.Editor
