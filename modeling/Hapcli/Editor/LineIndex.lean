/-
  Subject:   The line index of a text: computed from the whole text, and updated from the edits
             alone.

  * `updateLoop_eq` -- **one edit and then the rest**, from any offset on;
  * **`updateLineStartsAfterEdits_eq`** -- the update is the index of the edited text.
-/
import Hapcli.Rust.ByteOffsets

namespace Hapcli.Editor

open Hapcli.Rust

/-! ## 1. Edits -/

/-- `TextRange`. The offsets count bytes; nothing orders them. -/
structure TextRange where
  start : Nat
  stop : Nat
  deriving DecidableEq

def TextRange.new (start stop : Nat) : TextRange :=
  if start ≤ stop then { start, stop } else { start := stop, stop := start }

def TextRange.len (range : TextRange) : Nat := range.stop - range.start

structure TextEdit where
  range : TextRange
  replacement : Str
  deriving DecidableEq

/-- The text from an offset on, and what the edits make of it: they are sorted, and none reaches
    into the next. -/
inductive Edited : Nat → Str → List TextEdit → Str → Prop where
  | nil (position : Nat) (text : Str) : Edited position text [] text
  | cons {position : Nat} {kept removed rest edited : Str} {edit : TextEdit} {edits : List TextEdit}
      (hstart : edit.range.start = position + byteLen kept)
      (hstop : edit.range.stop = edit.range.start + byteLen removed)
      (hrest : Edited edit.range.stop rest edits edited) :
      Edited position (kept ++ removed ++ rest) (edit :: edits)
        (kept ++ edit.replacement ++ edited)

/-! ## 2. The index -/

/-- The loop of `compute_line_starts`, over bytes from `index` on. -/
@[grind] def newlineStarts (index : Nat) : List UInt8 → List Nat
  | [] => []
  | byte :: bytes =>
    if byte = 0x0a then (index + 1) :: newlineStarts (index + 1) bytes
    else newlineStarts (index + 1) bytes

def computeLineStarts (text : Str) : List Nat := 0 :: newlineStarts 0 (asBytes text)

def pushLineStart (starts : List Nat) (offset : Nat) : List Nat :=
  if starts.getLast? = some offset then starts else starts ++ [offset]

def applyLineShift (offset : Nat) (shift : Int) : Nat :=
  if shift < 0 then offset - shift.natAbs else offset + shift.toNat

/-- A start in front of an edit, or behind the last one. -/
def keepLineStart (previousOldOffset : Nat) (shift : Int) (starts : List Nat) (lineStart : Nat) :
    List Nat :=
  if previousOldOffset < lineStart then pushLineStart starts (applyLineShift lineStart shift)
  else starts

/-- The loop of `update_line_starts_after_edits`; `oldStarts` are those it has not reached. -/
def updateLoop : List TextEdit → List Nat → Nat → Int → List Nat → List Nat
  | [], oldStarts, previousOldOffset, shift, starts =>
    oldStarts.foldl (keepLineStart previousOldOffset shift) starts
  | edit :: edits, oldStarts, previousOldOffset, shift, starts =>
    let starts := (oldStarts.takeWhile (· ≤ edit.range.start)).foldl
      (keepLineStart previousOldOffset shift) starts
    let oldStarts := oldStarts.dropWhile (· ≤ edit.range.start)
    let replacementBase := applyLineShift edit.range.start shift
    let starts :=
      (newlineStarts replacementBase (asBytes edit.replacement)).foldl pushLineStart starts
    let oldStarts := oldStarts.dropWhile (· ≤ edit.range.stop)
    updateLoop edits oldStarts edit.range.stop
      (shift + (byteLen edit.replacement - edit.range.len)) starts

def updateLineStartsAfterEdits (oldStarts : List Nat) (edits : List TextEdit) : List Nat :=
  if edits = [] then oldStarts else updateLoop edits (oldStarts.drop 1) 0 0 [0]

/-! ## 3. Starts of a text in parts -/

theorem newlineStarts_append (index : Nat) (front back : List UInt8) :
    newlineStarts index (front ++ back) =
      newlineStarts index front ++ newlineStarts (index + front.length) back := by
  induction front generalizing index with
  | nil => rfl
  | cons byte front ih =>
    have hlen : index + (byte :: front).length = index + 1 + front.length := by
      rw [List.length_cons]
      omega
    rw [List.cons_append, newlineStarts, newlineStarts, ih, hlen]
    split <;> rfl

variable {bytes : List UInt8} {index shifted : Nat} {shift : Int} {starts : List Nat}

variable {back front : List UInt8} {bound offset : Nat} {edited text : Str} {edits : List TextEdit}

theorem mem_newlineStarts (h : offset ∈ newlineStarts index bytes) :
    index < offset ∧ offset ≤ index + bytes.length := by
  induction bytes generalizing index with
  | nil => cases h
  | cons byte bytes ih =>
    rw [List.length_cons]
    have hrest : offset ∈ newlineStarts (index + 1) bytes →
        index < offset ∧ offset ≤ index + (bytes.length + 1) := fun hoffset => by
      have := ih hoffset
      omega
    rw [newlineStarts] at h
    split at h
    · rcases List.mem_cons.mp h with rfl | h
      · omega
      · exact hrest h
    · exact hrest h

theorem takeWhile_newlineStarts (hbound : bound = index + front.length) :
    (newlineStarts index (front ++ back)).takeWhile (· ≤ bound) = newlineStarts index front := by
  have hfront : ∀ offset ∈ newlineStarts index front, decide (offset ≤ bound) = true := by
    intro offset hoffset
    have := mem_newlineStarts hoffset
    exact decide_eq_true (by omega)
  have hback : (newlineStarts bound back).takeWhile (· ≤ bound) = [] := by
    cases hstarts : newlineStarts bound back with
    | nil => rfl
    | cons first rest =>
      have hmem : first ∈ newlineStarts bound back := by simp [hstarts]
      have := mem_newlineStarts hmem
      exact List.takeWhile_cons_of_neg (by simpa using this.1)
  rw [newlineStarts_append, ← hbound, List.takeWhile_append_of_pos hfront, hback,
    List.append_nil]

theorem dropWhile_newlineStarts (hbound : bound = index + front.length) :
    (newlineStarts index (front ++ back)).dropWhile (· ≤ bound) = newlineStarts bound back := by
  have hsplit := List.takeWhile_append_dropWhile (p := fun offset => decide (offset ≤ bound))
    (l := newlineStarts index (front ++ back))
  rw [takeWhile_newlineStarts hbound, newlineStarts_append, ← hbound] at hsplit
  rw [newlineStarts_append, ← hbound]
  exact List.append_cancel_left hsplit

/-! ## 4. The loops -/

theorem applyLineShift_eq (h : (shifted : Int) = offset + shift) :
    applyLineShift offset shift = shifted := by
  unfold applyLineShift
  split <;> omega

theorem foldl_pushLineStart (hstarts : ∀ start ∈ starts, start ≤ index) :
    (newlineStarts index bytes).foldl pushLineStart starts =
      starts ++ newlineStarts index bytes := by
  induction bytes generalizing index starts with
  | nil => exact (List.append_nil _).symm
  | cons byte bytes ih =>
    rw [newlineStarts]
    split
    · have hpush : pushLineStart starts (index + 1) = starts ++ [index + 1] := by
        refine if_neg fun hlast => ?_
        have := hstarts _ (List.mem_of_getLast? hlast)
        omega
      have hpushed : ∀ start ∈ starts ++ [index + 1], start ≤ index + 1 := by
        intro start hstart
        rcases List.mem_append.mp hstart with hstart | hstart
        · exact Nat.le_succ_of_le (hstarts start hstart)
        · exact Nat.le_of_eq (List.mem_singleton.mp hstart)
      rw [List.foldl_cons, hpush, ih hpushed, List.append_assoc]
      rfl
    · exact ih fun start hstart => Nat.le_succ_of_le (hstarts start hstart)

theorem foldl_keepLineStart {previous : Nat} (hshift : (shifted : Int) = index + shift)
    (hprevious : previous ≤ index) :
    (newlineStarts index bytes).foldl (keepLineStart previous shift) starts =
      (newlineStarts shifted bytes).foldl pushLineStart starts := by
  induction bytes generalizing index shifted starts with
  | nil => rfl
  | cons byte bytes ih =>
    have hshift' : ((shifted + 1 : Nat) : Int) = (index + 1 : Nat) + shift := by omega
    rw [newlineStarts, newlineStarts]
    split
    · have hkeep : keepLineStart previous shift starts (index + 1) =
          pushLineStart starts (shifted + 1) := by
        rw [keepLineStart, if_pos (by omega), applyLineShift_eq hshift']
      rw [List.foldl_cons, List.foldl_cons, hkeep]
      exact ih hshift' (by omega)
    · exact ih hshift' (by omega)

/-! ## 5. The update -/

theorem updateLoop_eq {position : Nat} (hedited : Edited position text edits edited)
    (hshift : (shifted : Int) = position + shift) (hstarts : ∀ start ∈ starts, start ≤ shifted) :
    updateLoop edits (newlineStarts position (asBytes text)) position shift starts =
      starts ++ newlineStarts shifted (asBytes edited) := by
  induction hedited generalizing shifted shift starts with
  | nil position text =>
    rw [updateLoop, foldl_keepLineStart hshift (Nat.le_refl _), foldl_pushLineStart hstarts]
  | @cons position kept removed rest edited edit edits hstart hstop _ ih =>
    have hkept : edit.range.start = position + (asBytes kept).length := hstart
    have hremoved : edit.range.stop = edit.range.start + (asBytes removed).length := hstop
    have hbase : ((shifted + byteLen kept : Nat) : Int) = edit.range.start + shift := by omega
    have hend : ((shifted + byteLen kept + byteLen edit.replacement : Nat) : Int) =
        edit.range.stop + (shift + (byteLen edit.replacement - edit.range.len)) := by
      have hlen : edit.range.len = byteLen removed := by
        rw [TextRange.len, hstop]
        omega
      omega
    -- the starts of the edited text up to the replacement, and up to its end
    have hfront : ∀ start ∈ starts ++ newlineStarts shifted (asBytes kept),
        start ≤ shifted + byteLen kept := by
      intro start hmem
      rcases List.mem_append.mp hmem with hmem | hmem
      · exact Nat.le_add_right_of_le (hstarts start hmem)
      · exact (mem_newlineStarts hmem).2
    have hback : ∀ start ∈ starts ++ newlineStarts shifted (asBytes kept) ++
        newlineStarts (shifted + byteLen kept) (asBytes edit.replacement),
        start ≤ shifted + byteLen kept + byteLen edit.replacement := by
      intro start hmem
      rcases List.mem_append.mp hmem with hmem | hmem
      · exact Nat.le_add_right_of_le (hfront start hmem)
      · exact (mem_newlineStarts hmem).2
    rw [updateLoop]
    simp only [asBytes_append, List.append_assoc, takeWhile_newlineStarts hkept,
      dropWhile_newlineStarts hkept, dropWhile_newlineStarts hremoved, applyLineShift_eq hbase]
    rw [foldl_keepLineStart hshift (Nat.le_refl _), foldl_pushLineStart hstarts,
      foldl_pushLineStart hfront, ih hend hback]
    simp only [newlineStarts_append, List.append_assoc]
    rfl

theorem updateLineStartsAfterEdits_eq (h : Edited 0 text edits edited) :
    updateLineStartsAfterEdits (computeLineStarts text) edits = computeLineStarts edited := by
  by_cases hempty : edits = []
  · subst hempty
    cases h
    rfl
  · rw [updateLineStartsAfterEdits, if_neg hempty]
    exact updateLoop_eq h rfl (by simp)

end Hapcli.Editor
