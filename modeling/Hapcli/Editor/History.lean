/-
  Subject:   Undo and redo of `TextBuffer`, and its revisions.

  * **`undo_redo_restore`** -- undo takes a transaction back, redo takes the undo back, and neither
    is ever refused;
  * **`clean_text_is_saved`** -- a buffer that is not dirty holds the text that was saved.
-/
import Hapcli.Editor.TextBuffer

namespace Hapcli.Editor

open Hapcli.Rust

/-! ## 1. Edits that need no sorting -/

variable {edited text : Str} {edits : List TextEdit} {position : Nat}

section

variable (h : Edited position text edits edited)

include h

theorem Edited.le_start :
    ∀ edit ∈ edits, position ≤ edit.range.start ∧ edit.range.start ≤ edit.range.stop := by
  induction h with
  | nil => simp
  | cons hstart hstop _ ih =>
    refine List.forall_mem_cons.mpr ⟨by omega, fun edit hedit => ?_⟩
    have := ih edit hedit
    omega

theorem Edited.unique {edited' : Str} (h' : Edited position text edits edited') :
    edited' = edited := by
  induction h generalizing edited' with
  | nil =>
    cases h'
    rfl
  | @cons position kept removed rest edited edit edits hstart hstop _ ih =>
    generalize htext : kept ++ removed ++ rest = text at h'
    cases h' with
    | @cons _ kept' removed' rest' edited' _ _ hstart' hstop' hrest' =>
      rw [List.append_assoc, List.append_assoc] at htext
      obtain ⟨rfl, hback⟩ := append_inj_of_byteLen htext (by omega)
      obtain ⟨rfl, rfl⟩ := append_inj_of_byteLen hback (by omega)
      rw [ih hrest']

theorem Edited.pairwise : edits.Pairwise fun a b => rangeLe a b = true := by
  induction h with
  | nil => exact .nil
  | @cons _ _ _ _ _ edit _ hstart hstop hrest ih =>
    refine .cons (fun later hlater => ?_) ih
    have hafter := hrest.le_start later hlater
    simp only [rangeLe, Bool.or_eq_true, decide_eq_true_eq, Bool.and_eq_true, beq_iff_eq]
    omega

end

variable {storage : PieceTableTextBuffer}

theorem validateOffset_of_boundary {offset : Nat} (h : Represents storage text)
    (hboundary : isCharBoundary text offset = true) :
    validateOffsetForStorage storage offset = .ok () :=
  validateOffsetForStorage_eq_ok.mpr
    ⟨h.len ▸ isCharBoundary_le hboundary, (isCharBoundary_eq h offset).trans hboundary⟩

theorem Edited.validateEdits {front : Str} (hedited : Edited position text edits edited)
    (h : Represents storage (front ++ text)) (hfront : byteLen front = position) :
    validateEdits storage edits position = .ok () := by
  induction hedited generalizing front with
  | nil => rfl
  | @cons position kept removed rest edited edit edits hstart hstop _ ih =>
    have hrest : Represents storage ((front ++ kept ++ removed) ++ rest) := by simpa using h
    have hboundary : ∀ (before after : Str) {offset : Nat},
        before ++ after = front ++ (kept ++ removed ++ rest) → byteLen before = offset →
        validateOffsetForStorage storage offset = .ok () := by
      intro before after offset heq hoffset
      exact validateOffset_of_boundary h
        (isCharBoundary_iff.mpr ⟨before, after, heq.symm, hoffset⟩)
    have hfirst : validateOffsetForStorage storage edit.range.start = .ok () :=
      hboundary (front ++ kept) (removed ++ rest) (by simp)
        (by rw [byteLen_append]; omega)
    have hsecond : validateOffsetForStorage storage edit.range.stop = .ok () :=
      hboundary (front ++ kept ++ removed) rest (by simp)
        (by simp only [byteLen_append]; omega)
    have hlater := ih hrest (by simp only [byteLen_append]; omega)
    rw [Editor.validateEdits, hfirst, hsecond]
    simp only [show ¬edit.range.stop < edit.range.start by omega,
      show ¬edit.range.start < position by omega, if_false]
    exact hlater

theorem Edited.normalize (hedited : Edited 0 text edits edited) (h : Represents storage text) :
    normalizeEditsForStorage edits storage = .ok edits := by
  have hrepresents : Represents storage ([] ++ text) := h
  have hvalid := hedited.validateEdits hrepresents rfl
  simp only [normalizeEditsForStorage, List.mergeSort_of_pairwise hedited.pairwise, hvalid]
  rfl

/-! ## 2. Commands that succeed -/

variable {b : TextBuffer} {entries : List HistoryEntry}

namespace TextBuffer

section Commands

theorem Consistent.applyEditsInternal_of_edited
    (h : b.Consistent text) (hedited : Edited 0 text edits edited) :
    ∃ inverse, Edited 0 edited inverse text ∧
      b.applyEditsInternal edits = some (.ok inverse, b.withEdits edits) := by
  have hnormal := hedited.normalize h.represents
  rcases h.applyEditsInternal_cases edits with
    ⟨e, herror, -⟩ | ⟨sorted, inverse, edited', hsorted, hedited', hback, happly⟩
  · rw [hnormal] at herror
    cases herror
  · rw [hnormal] at hsorted
    cases hsorted
    exact ⟨inverse, hedited.unique hedited' ▸ hback, happly⟩

/-- A transaction that is not empty is refused, or can be taken back. -/
theorem Consistent.applyTransaction_cases {transaction : List TextEdit} (h : b.Consistent text)
    (hne : transaction ≠ []) :
    (∃ e, b.applyTransaction transaction = some (.error e,
      { b with nextContentRevision := saturatingSucc b.nextContentRevision })) ∨
    ∃ b' inverse edited, b.applyTransaction transaction = some (.ok (), b') ∧
      b'.Consistent edited ∧ Edited 0 edited inverse text ∧
      b'.undoStack = ⟨inverse, b.contentRevision, b.nextContentRevision⟩ :: b.undoStack ∧
      b'.redoStack = [] ∧ b'.contentRevision = b.nextContentRevision ∧
      b'.savedRevision = b.savedRevision ∧
      b'.nextContentRevision = saturatingSucc b.nextContentRevision := by
  have hempty : ¬transaction.isEmpty = true := by simpa using hne
  have hnext : { b with
      nextContentRevision := saturatingSucc b.nextContentRevision }.Consistent text :=
    h.congr rfl rfl rfl
  rcases hnext.applyEditsInternal_cases transaction with
    ⟨e, -, happly⟩ | ⟨sorted, inverse, edited, -, hedited, hback, happly⟩
  · refine .inl ⟨e, ?_⟩
    rw [TextBuffer.applyTransaction, if_neg hempty]
    simp only [happly]
    rfl
  · have hok : b.applyTransaction transaction = some (.ok (),
        { b.withEdits sorted with
          contentRevision := b.nextContentRevision
          nextContentRevision := saturatingSucc b.nextContentRevision
          undoStack := ⟨inverse, b.contentRevision, b.nextContentRevision⟩ :: b.undoStack
          redoStack := [] }) := by
      rw [TextBuffer.applyTransaction, if_neg hempty]
      simp only [happly]
      rfl
    exact .inr ⟨_, inverse, edited, hok, (h.withEdits hedited).congr rfl rfl rfl, hback, rfl, rfl,
      rfl, rfl, rfl⟩

variable {entry : HistoryEntry}

theorem Consistent.undo_eq {previous : Str} (h : b.Consistent text)
    (hstack : b.undoStack = entry :: entries) (hedited : Edited 0 text entry.edits previous) :
    ∃ b' redo, b.undo = some (.ok true, b') ∧ b'.Consistent previous ∧
      Edited 0 previous redo text ∧ b'.undoStack = entries ∧
      b'.redoStack = { entry with edits := redo } :: b.redoStack ∧
      b'.contentRevision = entry.beforeRevision ∧ b'.savedRevision = b.savedRevision ∧
      b'.nextContentRevision = b.nextContentRevision := by
  have hpopped : { b with undoStack := entries }.Consistent text := h.congr rfl rfl rfl
  obtain ⟨redo, hback, happly⟩ := hpopped.applyEditsInternal_of_edited hedited
  have hundo : b.undo = some (.ok true,
      { b.withEdits entry.edits with
        contentRevision := entry.beforeRevision
        undoStack := entries
        redoStack := { entry with edits := redo } :: b.redoStack }) := by
    rw [TextBuffer.undo, hstack]
    simp only [happly]
    rfl
  exact ⟨_, redo, hundo, (h.withEdits hedited).congr rfl rfl rfl, hback, rfl, rfl, rfl, rfl, rfl⟩

theorem Consistent.redo_eq {next : Str} (h : b.Consistent text)
    (hstack : b.redoStack = entry :: entries) (hedited : Edited 0 text entry.edits next) :
    ∃ b' undo, b.redo = some (.ok true, b') ∧ b'.Consistent next ∧ Edited 0 next undo text ∧
      b'.redoStack = entries ∧ b'.undoStack = { entry with edits := undo } :: b.undoStack ∧
      b'.contentRevision = entry.afterRevision ∧ b'.savedRevision = b.savedRevision ∧
      b'.nextContentRevision = b.nextContentRevision := by
  have hpopped : { b with redoStack := entries }.Consistent text := h.congr rfl rfl rfl
  obtain ⟨undo, hback, happly⟩ := hpopped.applyEditsInternal_of_edited hedited
  have hredo : b.redo = some (.ok true,
      { b.withEdits entry.edits with
        contentRevision := entry.afterRevision
        redoStack := entries
        undoStack := { entry with edits := undo } :: b.undoStack }) := by
    rw [TextBuffer.redo, hstack]
    simp only [happly]
    rfl
  exact ⟨_, undo, hredo, (h.withEdits hedited).congr rfl rfl rfl, hback, rfl, rfl, rfl, rfl, rfl⟩

end Commands

end TextBuffer

/-! ## 3. The history -/

/-- A history stack, from the current text on: each entry leads to the next text, and `P` holds of
    it and the texts on its two sides. -/
inductive Chain (P : HistoryEntry → Str → Str → Prop) : Str → List HistoryEntry → Prop where
  | nil (text : Str) : Chain P text []
  | cons {text far : Str} {entry : HistoryEntry} {entries : List HistoryEntry}
      (hedited : Edited 0 text entry.edits far) (hknown : P entry text far)
      (hrest : Chain P far entries) : Chain P text (entry :: entries)

variable {P : HistoryEntry → Str → Str → Prop}

theorem Chain.mono {Q : HistoryEntry → Str → Str → Prop} (h : Chain P text entries)
    (hPQ : ∀ entry here there, P entry here there → Q entry here there) : Chain Q text entries := by
  induction h with
  | nil text => exact .nil text
  | cons hedited hknown _ ih => exact .cons hedited (hPQ _ _ _ hknown) ih

theorem Chain.uncons {entry : HistoryEntry} (h : Chain P text (entry :: entries)) :
    ∃ far, Edited 0 text entry.edits far ∧ P entry text far ∧ Chain P far entries := by
  cases h with
  | cons hedited hknown hrest => exact ⟨_, hedited, hknown, hrest⟩

variable {K : UInt64 → Str → Prop}

namespace TextBuffer

/-- The stacks lead from the text to others, and `K` says which text each revision stands for. -/
structure Tracked (K : UInt64 → Str → Prop) (b : TextBuffer) (text : Str) : Prop where
  consistent : b.Consistent text
  content : K b.contentRevision text
  undo : Chain (fun entry here there => K entry.afterRevision here ∧ K entry.beforeRevision there)
    text b.undoStack
  redo : Chain (fun entry here there => K entry.beforeRevision here ∧ K entry.afterRevision there)
    text b.redoStack

section Tracked

theorem tracked_new {original : Str} (h : K 0 original) : (new original).Tracked K original :=
  ⟨consistent_new original, h, .nil original, .nil original⟩

section

variable (h : b.Tracked K text)

include h

theorem Tracked.mono {K' : UInt64 → Str → Prop}
    (hK : ∀ revision text, K revision text → K' revision text) : b.Tracked K' text :=
  ⟨h.consistent, hK _ _ h.content, h.undo.mono fun _ _ _ hk => ⟨hK _ _ hk.1, hK _ _ hk.2⟩,
    h.redo.mono fun _ _ _ hk => ⟨hK _ _ hk.1, hK _ _ hk.2⟩⟩

theorem Tracked.congr {b' : TextBuffer} (hconsistent : b'.Consistent text)
    (hcontent : b'.contentRevision = b.contentRevision) (hundo : b'.undoStack = b.undoStack)
    (hredo : b'.redoStack = b.redoStack) : b'.Tracked K text :=
  ⟨hconsistent, hcontent ▸ h.content, hundo ▸ h.undo, hredo ▸ h.redo⟩

theorem Tracked.undo_cases : (b.undoStack = [] ∧ b.undo = some (.ok false, b)) ∨
    ∃ b' previous entry, b.undo = some (.ok true, b') ∧ b'.Tracked K previous ∧
      b'.redoStack = entry :: b.redoStack ∧ Edited 0 previous entry.edits text ∧
      b'.savedRevision = b.savedRevision ∧ b'.nextContentRevision = b.nextContentRevision := by
  cases hstack : b.undoStack with
  | nil => exact .inl ⟨rfl, by rw [TextBuffer.undo, hstack]⟩
  | cons entry entries =>
    obtain ⟨previous, hedited, hknown, hrest⟩ := (hstack ▸ h.undo).uncons
    obtain ⟨b', redo, hundo, hconsistent, hback, hundos, hredos, hcontent, hsaved, hnext⟩ :=
      h.consistent.undo_eq hstack hedited
    refine .inr ⟨b', previous, _, hundo, ⟨hconsistent, ?_, ?_, ?_⟩, hredos, hback, hsaved, hnext⟩
    · rw [hcontent]
      exact hknown.2
    · rw [hundos]
      exact hrest
    · rw [hredos]
      exact .cons hback ⟨hknown.2, hknown.1⟩ h.redo

theorem Tracked.redo_cases : (b.redoStack = [] ∧ b.redo = some (.ok false, b)) ∨
    ∃ b' next, b.redo = some (.ok true, b') ∧ b'.Tracked K next ∧
      b'.savedRevision = b.savedRevision ∧ b'.nextContentRevision = b.nextContentRevision := by
  cases hstack : b.redoStack with
  | nil => exact .inl ⟨rfl, by rw [TextBuffer.redo, hstack]⟩
  | cons entry entries =>
    obtain ⟨next, hedited, hknown, hrest⟩ := (hstack ▸ h.redo).uncons
    obtain ⟨b', undo, hredo, hconsistent, hback, hredos, hundos, hcontent, hsaved, hnext⟩ :=
      h.consistent.redo_eq hstack hedited
    refine .inr ⟨b', next, hredo, ⟨hconsistent, ?_, ?_, ?_⟩, hsaved, hnext⟩
    · rw [hcontent]
      exact hknown.2
    · rw [hundos]
      exact .cons hback ⟨hknown.2, hknown.1⟩ h.undo
    · rw [hredos]
      exact hrest

theorem Tracked.applyTransaction_cases {transaction : List TextEdit} (hne : transaction ≠ []) :
    ∃ result b' text', b.applyTransaction transaction = some (result, b') ∧
      b'.savedRevision = b.savedRevision ∧
      b'.nextContentRevision = saturatingSucc b.nextContentRevision ∧
      ∀ K' : UInt64 → Str → Prop, (∀ revision text, K revision text → K' revision text) →
        K' b.nextContentRevision text' → b'.Tracked K' text' := by
  rcases h.consistent.applyTransaction_cases hne with
    ⟨e, happly⟩ | ⟨b', inverse, edited, happly, hconsistent, hback, hundos, hredos, hcontent,
      hsaved, hnext⟩
  · refine ⟨.error e, _, text, happly, rfl, rfl, fun K' hK _ => ?_⟩
    exact (h.mono hK).congr (h.consistent.congr rfl rfl rfl) rfl rfl rfl
  · refine ⟨.ok (), b', edited, happly, hsaved, hnext, fun K' hK hnew => ?_⟩
    have hold := h.mono hK
    refine ⟨hconsistent, hcontent ▸ hnew, ?_, ?_⟩
    · rw [hundos]
      exact .cons hback ⟨hnew, hold.content⟩ hold.undo
    · rw [hredos]
      exact .nil edited

end

end Tracked

end TextBuffer

/-! ## 4. Runs -/

/-- A command that may use up a revision. -/
def Command.isTransaction : Command → Bool
  | .transaction _ | .replaceSelection _ _ => true
  | .undo | .redo | .markSaved | .text => false

namespace TextBuffer

section Runs

/-- What a command leaves: every revision stands for its text, one that it used up for the text it
    left. -/
def Follows (K : UInt64 → Str → Prop) (b : TextBuffer) (command : Command) (b' : TextBuffer)
    (text' : Str) : Prop :=
  (b'.Tracked K text' ∧ b'.nextContentRevision = b.nextContentRevision) ∨
  (command.isTransaction = true ∧
    b'.nextContentRevision = saturatingSucc b.nextContentRevision ∧
    ∀ K' : UInt64 → Str → Prop, (∀ revision text, K revision text → K' revision text) →
      K' b.nextContentRevision text' → b'.Tracked K' text')

theorem Tracked.transaction_follows (h : b.Tracked K text) (transaction : List TextEdit)
    (command : Command) (hcommand : command.isTransaction = true) :
    ∃ result b' text', b.applyTransaction transaction = some (result, b') ∧
      b'.savedRevision = b.savedRevision ∧ Follows K b command b' text' := by
  by_cases hempty : transaction = []
  · subst hempty
    exact ⟨.ok (), b, text, rfl, rfl, .inl ⟨h, rfl⟩⟩
  · obtain ⟨result, b', text', happly, hsaved, hnext, htracked⟩ := h.applyTransaction_cases hempty
    exact ⟨result, b', text', happly, hsaved, .inr ⟨hcommand, hnext, htracked⟩⟩

theorem Tracked.step (h : b.Tracked K text) (command : Command) :
    ∃ b' text', b.step command = some b' ∧ Follows K b command b' text' ∧
      (command ≠ .markSaved → b'.savedRevision = b.savedRevision) := by
  cases command with
  | transaction edits =>
    obtain ⟨result, b', text', happly, hsaved, hfollows⟩ :=
      h.transaction_follows edits (.transaction edits) rfl
    exact ⟨b', text', by simp [TextBuffer.step, happly], hfollows, fun _ => hsaved⟩
  | replaceSelection selection replacement =>
    obtain ⟨result, b', text', happly, hsaved, hfollows⟩ :=
      h.transaction_follows [{ range := selection.range, replacement }]
        (.replaceSelection selection replacement) rfl
    exact ⟨b', text', by simp [TextBuffer.step, TextBuffer.replaceSelection, happly], hfollows,
      fun _ => hsaved⟩
  | undo =>
    rcases h.undo_cases with ⟨-, hundo⟩ | ⟨b', previous, -, hundo, htracked, -, -, hsaved, hnext⟩
    · exact ⟨b, text, by simp [TextBuffer.step, hundo], .inl ⟨h, rfl⟩, fun _ => rfl⟩
    · exact ⟨b', previous, by simp [TextBuffer.step, hundo], .inl ⟨htracked, hnext⟩,
        fun _ => hsaved⟩
  | redo =>
    rcases h.redo_cases with ⟨-, hredo⟩ | ⟨b', next, hredo, htracked, hsaved, hnext⟩
    · exact ⟨b, text, by simp [TextBuffer.step, hredo], .inl ⟨h, rfl⟩, fun _ => rfl⟩
    · exact ⟨b', next, by simp [TextBuffer.step, hredo], .inl ⟨htracked, hnext⟩, fun _ => hsaved⟩
  | markSaved =>
    exact ⟨b.markSaved, text, rfl,
      .inl ⟨h.congr (h.consistent.congr rfl rfl rfl) rfl rfl rfl, rfl⟩, fun hne => (hne rfl).elim⟩
  | text =>
    have hconsistent : { b with textCache := some text }.Consistent text :=
      ⟨h.consistent.represents, fun _ hcached => (Option.some.inj hcached).symm,
        h.consistent.lineStarts⟩
    exact ⟨{ b with textCache := some text }, text,
      by simp [TextBuffer.step, h.consistent.text_eq],
      .inl ⟨h.congr hconsistent rfl rfl rfl, rfl⟩, fun _ => rfl⟩

theorem Tracked.run (h : b.Tracked (fun _ _ => True) text) (commands : List Command) :
    ∃ b' text', b.run commands = some b' ∧ b'.Tracked (fun _ _ => True) text' := by
  induction commands generalizing b text with
  | nil => exact ⟨b, text, rfl, h⟩
  | cons command commands ih =>
    obtain ⟨b', text', hstep, hfollows, -⟩ := h.step command
    have htracked : b'.Tracked (fun _ _ => True) text' := by
      rcases hfollows with ⟨htracked, -⟩ | ⟨-, -, htracked⟩
      · exact htracked
      · exact htracked _ (fun _ _ hK => hK) trivial
    obtain ⟨last, text'', hrun, hlast⟩ := ih htracked
    exact ⟨last, text'', by simp [TextBuffer.run, hstep, hrun], hlast⟩

end Runs

/-! ## 5. Undo and redo -/

theorem Consistent.same_text {b' : TextBuffer} (h : b.Consistent text) (h' : b'.Consistent text) :
    b'.text.map Prod.fst = b.text.map Prod.fst ∧ b'.lineStarts = b.lineStarts := by
  refine ⟨?_, h'.lineStarts.trans h.lineStarts.symm⟩
  rw [h.text_eq, h'.text_eq]
  rfl

/-- **Undo and redo restore**, in every state that commands reach, and neither returns an error. -/
theorem undo_redo_restore (original : Str) (commands : List Command) :
    ∃ b, (new original).run commands = some b ∧
      (∀ transaction b', transaction ≠ [] →
        b.applyTransaction transaction = some (.ok (), b') →
        ∃ b'', b'.undo = some (.ok true, b'') ∧
          b''.text.map Prod.fst = b.text.map Prod.fst ∧ b''.lineStarts = b.lineStarts) ∧
      (∀ b', b.undo = some (.ok true, b') →
        ∃ b'', b'.redo = some (.ok true, b'') ∧
          b''.text.map Prod.fst = b.text.map Prod.fst ∧ b''.lineStarts = b.lineStarts) ∧
      (∃ undone b', b.undo = some (.ok undone, b')) ∧
      ∃ redone b', b.redo = some (.ok redone, b') := by
  have hnew : (new original).Tracked (fun _ _ => True) original := tracked_new trivial
  obtain ⟨b, text, hrun, h⟩ := hnew.run commands
  refine ⟨b, hrun, ?_, ?_, ?_, ?_⟩
  · intro transaction b' hne happly
    rcases h.consistent.applyTransaction_cases hne with
      ⟨e, herror⟩ | ⟨b₁, inverse, edited, hok, hconsistent, hback, hundos, -⟩
    · rw [happly] at herror
      cases herror
    · rw [happly] at hok
      cases hok
      obtain ⟨b'', -, hundo, hrestored, -⟩ := hconsistent.undo_eq hundos hback
      exact ⟨b'', hundo, h.consistent.same_text hrestored⟩
  · intro b' hundo
    rcases h.undo_cases with ⟨-, hnone⟩ | ⟨b₁, previous, entry, hundo₁, h₁, hstack, hedited, -, -⟩
    · rw [hundo] at hnone
      cases hnone
    · rw [hundo] at hundo₁
      cases hundo₁
      obtain ⟨b'', -, hredo, hrestored, -⟩ := h₁.consistent.redo_eq hstack hedited
      exact ⟨b'', hredo, h.consistent.same_text hrestored⟩
  · rcases h.undo_cases with ⟨-, hundo⟩ | ⟨b', -, -, hundo, -⟩
    · exact ⟨false, b, hundo⟩
    · exact ⟨true, b', hundo⟩
  · rcases h.redo_cases with ⟨-, hredo⟩ | ⟨b', -, hredo, -⟩
    · exact ⟨false, b, hredo⟩
    · exact ⟨true, b', hredo⟩

/-- A transaction without edits succeeds and leaves nothing to undo: undo then takes back the one
    before it. -/
theorem empty_transaction_not_undone :
    ¬∀ (original : Str) (commands : List Command) (b b' : TextBuffer)
      (transaction : List TextEdit), (new original).run commands = some b →
      b.applyTransaction transaction = some (.ok (), b') →
      ∃ undone b'', b'.undo = some (.ok undone, b'') ∧
        b''.text.map Prod.fst = b.text.map Prod.fst ∧ b''.lineStarts = b.lineStarts := by
  intro h
  let commands : List Command := [.transaction [⟨⟨0, 0⟩, ['a']⟩]]
  have hbefore : ((new []).run commands).bind (fun b => b.text.map Prod.fst) = some ['a'] := by
    decide +kernel
  have hafter : ((new []).run commands).bind
      (fun b => b.undo.bind fun result => result.2.text.map Prod.fst) = some [] := by
    decide +kernel
  obtain ⟨b, hrun, htext⟩ := Option.bind_eq_some_iff.mp hbefore
  obtain ⟨undone, b'', hundo, hsame, -⟩ := h [] commands b b [] hrun rfl
  rw [hrun, Option.bind_some, hundo, Option.bind_some, hsame, htext] at hafter
  cases hafter

/-! ## 6. Revisions -/

theorem saturatingSucc_toNat (n : UInt64) :
    (saturatingSucc n).toNat = min (n.toNat + 1) (2 ^ 64 - 1) := by
  have hlt := n.toNat_lt
  unfold saturatingSucc
  split
  · rw [UInt64.toNat_add, UInt64.toNat_one]
    omega
  · omega

/-- Of the revisions up to `k`, the text each stands for. -/
def Known (texts : UInt64 → Str) (k : Nat) (revision : UInt64) (text : Str) : Prop :=
  revision.toNat ≤ k ∧ texts revision = text

/-- `k` revisions are used up. -/
structure Numbered (texts : UInt64 → Str) (k : Nat) (b : TextBuffer) (text : Str) : Prop where
  tracked : b.Tracked (Known texts k) text
  next : b.nextContentRevision.toNat = min (k + 1) (2 ^ 64 - 1)

section Numbered

variable {texts : UInt64 → Str} {k : Nat}

theorem numbered_new (original : Str) : Numbered (fun _ => original) 0 (new original) original :=
  ⟨tracked_new ⟨Nat.le_refl 0, rfl⟩, rfl⟩

theorem Numbered.step (h : Numbered texts k b text) (command : Command)
    (hk : k + (if command.isTransaction then 1 else 0) < 2 ^ 64) :
    ∃ b' text' texts' k', b.step command = some b' ∧ Numbered texts' k' b' text' ∧ k ≤ k' ∧
      k' ≤ k + (if command.isTransaction then 1 else 0) ∧
      (∀ revision : UInt64, revision.toNat ≤ k → texts' revision = texts revision) ∧
      (command ≠ .markSaved → b'.savedRevision = b.savedRevision) := by
  obtain ⟨b', text', hstep, hfollows, hsaved⟩ := h.tracked.step command
  rcases hfollows with ⟨htracked, hnext⟩ | ⟨htransaction, hnext, htracked⟩
  · exact ⟨b', text', texts, k, hstep, ⟨htracked, hnext ▸ h.next⟩, Nat.le_refl k,
      Nat.le_add_right .., fun _ _ => rfl, hsaved⟩
  · rw [htransaction, if_pos rfl] at hk ⊢
    have hfresh : b.nextContentRevision.toNat = k + 1 := by
      rw [h.next]
      omega
    have hold : ∀ revision : UInt64, revision.toNat ≤ k →
        (if revision = b.nextContentRevision then text' else texts revision) = texts revision := by
      intro revision hle
      refine if_neg fun heq => ?_
      rw [heq] at hle
      omega
    refine ⟨b', text', fun revision =>
      if revision = b.nextContentRevision then text' else texts revision, k + 1, hstep,
      ⟨htracked _ ?_ ?_, ?_⟩, Nat.le_succ k, Nat.le_refl _, hold, hsaved⟩
    · rintro revision known ⟨hle, rfl⟩
      exact ⟨Nat.le_succ_of_le hle, hold revision hle⟩
    · exact ⟨Nat.le_of_eq hfresh, if_pos rfl⟩
    · rw [hnext, saturatingSucc_toNat, hfresh]

theorem Numbered.run (h : Numbered texts k b text) (commands : List Command)
    (hk : k + commands.countP Command.isTransaction < 2 ^ 64) :
    ∃ b' text' texts' k', b.run commands = some b' ∧ Numbered texts' k' b' text' ∧
      k' ≤ k + commands.countP Command.isTransaction ∧
      (∀ revision : UInt64, revision.toNat ≤ k → texts' revision = texts revision) ∧
      (.markSaved ∉ commands → b'.savedRevision = b.savedRevision) := by
  induction commands generalizing texts k b text with
  | nil => exact ⟨b, text, texts, k, rfl, h, Nat.le_refl k, fun _ _ => rfl, fun _ => rfl⟩
  | cons command commands ih =>
    rw [List.countP_cons] at hk ⊢
    obtain ⟨b₁, text₁, texts₁, k₁, hstep, h₁, hle₁, hk₁, hold₁, hsaved₁⟩ :=
      h.step command (by omega)
    obtain ⟨b₂, text₂, texts₂, k₂, hrun, h₂, hk₂, hold₂, hsaved₂⟩ := ih h₁ (by omega)
    refine ⟨b₂, text₂, texts₂, k₂, by simp [TextBuffer.run, hstep, hrun], h₂, by omega, ?_, ?_⟩
    · intro revision hle
      rw [hold₂ revision (Nat.le_trans hle hle₁), hold₁ revision hle]
    · intro hmem
      rw [List.mem_cons, not_or] at hmem
      rw [hsaved₂ hmem.2, hsaved₁ fun heq => hmem.1 heq.symm]

end Numbered

theorem run_append (b : TextBuffer) (before after : List Command) :
    b.run (before ++ after) = b.run before >>= fun b => b.run after := by
  induction before generalizing b with
  | nil => rfl
  | cons command before ih =>
    rw [List.cons_append, TextBuffer.run, TextBuffer.run]
    cases b.step command with
    | none => rfl
    | some b' => exact ih b'

theorem same_revision_same_text (original : Str) (before after : List Command)
    (hcount : (before ++ after).countP Command.isTransaction < 2 ^ 64) :
    ∃ b₁ b₂, (new original).run before = some b₁ ∧ b₁.run after = some b₂ ∧
      (b₂.contentRevision = b₁.contentRevision →
        b₂.text.map Prod.fst = b₁.text.map Prod.fst) ∧
      (.markSaved ∉ after → b₂.savedRevision = b₁.savedRevision) := by
  rw [List.countP_append] at hcount
  obtain ⟨b₁, text₁, texts₁, k₁, hrun₁, h₁, hk₁, -, -⟩ :=
    (numbered_new original).run before (by omega)
  obtain ⟨b₂, text₂, texts₂, k₂, hrun₂, h₂, -, hold, hsaved⟩ := h₁.run after (by omega)
  refine ⟨b₁, b₂, hrun₁, hrun₂, fun heq => ?_, hsaved⟩
  have htext : text₂ = text₁ := by
    obtain ⟨hle₁, heq₁⟩ := h₁.tracked.content
    obtain ⟨-, heq₂⟩ := h₂.tracked.content
    rw [← heq₂, heq, hold _ hle₁, heq₁]
  subst htext
  exact (h₁.tracked.consistent.same_text h₂.tracked.consistent).1

/-- **A clean buffer holds the saved text**: the text at the last `mark_saved`, or the initial one;
    and two states of one run with one revision hold one text. -/
theorem clean_text_is_saved (original : Str) (commands : List Command)
    (hcount : commands.countP Command.isTransaction < 2 ^ 64) :
    ∃ b, (new original).run commands = some b ∧
      (b.isDirty = false →
        (.markSaved ∉ commands → b.text.map Prod.fst = some original) ∧
        ∀ before after, commands = before ++ .markSaved :: after → .markSaved ∉ after →
          ∃ saved, (new original).run before = some saved ∧
            b.text.map Prod.fst = saved.text.map Prod.fst) ∧
      ∀ before after, commands = before ++ after →
        ∃ earlier, (new original).run before = some earlier ∧
          (b.contentRevision = earlier.contentRevision →
            b.text.map Prod.fst = earlier.text.map Prod.fst) := by
  have hnil : (commands ++ []).countP Command.isTransaction < 2 ^ 64 := by simpa using hcount
  obtain ⟨b, -, hrun, -⟩ := same_revision_same_text original commands [] hnil
  have hearlier : ∀ before after, commands = before ++ after →
      ∃ earlier, (new original).run before = some earlier ∧
        (b.contentRevision = earlier.contentRevision →
          b.text.map Prod.fst = earlier.text.map Prod.fst) ∧
        (.markSaved ∉ after → b.savedRevision = earlier.savedRevision) := by
    rintro before after rfl
    obtain ⟨earlier, later, hbefore, hafter, htext, hsaved⟩ :=
      same_revision_same_text original before after hcount
    rw [run_append, hbefore] at hrun
    obtain rfl : later = b := Option.some.inj (hafter.symm.trans hrun)
    exact ⟨earlier, hbefore, htext, hsaved⟩
  refine ⟨b, hrun, fun hclean => ⟨fun hnever => ?_, fun before after hsplit hlast => ?_⟩, ?_⟩
  · obtain ⟨earlier, hbefore, htext, hsaved⟩ := hearlier [] commands rfl
    obtain rfl : new original = earlier := Option.some.inj hbefore
    have hcontent : b.contentRevision = b.savedRevision := by simpa [isDirty] using hclean
    exact htext (hcontent.trans (hsaved hnever))
  · obtain ⟨saved, hbefore, htext, -⟩ := hearlier before (.markSaved :: after) hsplit
    have hsplit' : commands = (before ++ [.markSaved]) ++ after := by simpa using hsplit
    obtain ⟨marked, hmarked, -, hsaved⟩ := hearlier (before ++ [.markSaved]) after hsplit'
    rw [run_append, hbefore] at hmarked
    obtain rfl : saved.markSaved = marked := Option.some.inj hmarked
    have hcontent : b.contentRevision = b.savedRevision := by simpa [isDirty] using hclean
    exact ⟨saved, hbefore, htext (hcontent.trans (hsaved hlast))⟩
  · intro before after hsplit
    obtain ⟨earlier, hbefore, htext, -⟩ := hearlier before after hsplit
    exact ⟨earlier, hbefore, htext⟩

theorem clean_text_is_saved_undone :
    let commands :=
      [.transaction [⟨⟨0, 0⟩, ['a']⟩], .markSaved, .transaction [⟨⟨1, 1⟩, ['b']⟩], .undo]
    ∃ b, (new []).run commands = some b ∧ b.isDirty = false ∧
      ∃ saved, (new []).run [.transaction [⟨⟨0, 0⟩, ['a']⟩]] = some saved ∧
        b.text.map Prod.fst = saved.text.map Prod.fst := by
  intro commands
  obtain ⟨b, hrun, hclean, -⟩ := clean_text_is_saved [] commands (by decide)
  have hnotDirty : b.isDirty = false := by
    have hdecide : ((new []).run commands).map isDirty = some false := by decide +kernel
    rw [hrun] at hdecide
    exact Option.some.inj hdecide
  exact ⟨b, hrun, hnotDirty, (hclean hnotDirty).2 [_] [_, _] rfl (by simp)⟩

end TextBuffer

end Hapcli.Editor
