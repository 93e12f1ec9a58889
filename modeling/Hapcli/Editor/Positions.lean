/-
  Subject:   Positions in a text: `offset_to_line_col` and `line_col_to_offset` (`buffer.rs`),
             `byte_index_for_utf16` and `utf16_offset_for_byte_index` (`utf16.rs`).

  A column counts bytes. `none` is a panic: an index or a slice off its bounds.

  * `Place` -- the lines and columns a text has;
  * **`positions_inverse`** -- each conversion takes back the other one.
-/
import Hapcli.Editor.History
import Hapcli.Editor.Utf16
import Mathlib.Order.Monotone.Basic
import Mathlib.Order.Bounds.Defs

namespace Hapcli.Editor

open Hapcli.Rust

/-! ## 1. Conversions -/

structure LineCol where
  line : Nat
  column : Nat
  deriving DecidableEq

/-- `EditorError`, as far as positions raise it. -/
inductive PositionError where
  | edit (error : EditorError)
  | invalidLine (line lineCount : Nat)
  | invalidColumn (line column lineLen : Nat)
  deriving DecidableEq

/-- `slice::binary_search` of a sorted slice without duplicates. -/
def binarySearch (starts : List Nat) (offset : Nat) : Except Nat Nat :=
  let upTo := (starts.takeWhile (· ≤ offset)).length
  if starts[upTo - 1]? = some offset then .ok (upTo - 1) else .error upTo

namespace TextBuffer

variable (b : TextBuffer)

def offsetToLineCol (offset : Nat) : Option (Except PositionError LineCol) :=
  match validateOffsetForStorage b.storage offset with
  | .error error => some (.error (.edit error))
  | .ok () => do
    let line :=
      match binarySearch b.lineStarts offset with
      | .ok line => line
      | .error nextLine => nextLine - 1
    let start ← b.lineStarts[line]?
    if offset < start then none else return .ok ⟨line, offset - start⟩

def lineEndOffset (line : Nat) : Option Nat := do
  let start ← b.lineStarts[line]?
  return max ((b.lineStarts[line + 1]?.map (· - 1)).getD b.storage.len) start

def lineColToOffset (position : LineCol) : Except PositionError Nat :=
  match b.lineStarts[position.line]?, b.lineEndOffset position.line with
  | some start, some lineEnd =>
    let offset := start + position.column
    if lineEnd < offset then
      .error (.invalidColumn position.line position.column (lineEnd - start))
    else
      match validateOffsetForStorage b.storage offset with
      | .error error => .error (.edit error)
      | .ok () => .ok offset
  | _, _ => .error (.invalidLine position.line b.lineStarts.length)

end TextBuffer

def byteIndexForUtf16 (value : Str) (offset : Nat) : Nat := byteLen (cutLoop offset 0 value).1

def floorCharBoundary (value : Str) : Nat → Nat
  | 0 => 0
  | n + 1 => if isCharBoundary value (n + 1) then n + 1 else floorCharBoundary value n

def utf16OffsetForByteIndex (value : Str) (byteOffset : Nat) : Option Nat :=
  let byteOffset := floorCharBoundary value (min byteOffset (byteLen value))
  (splitAtByte byteOffset value).map fun parts => utf16Len parts.1

/-! ## 2. Lines -/

/-- The text has the line and the column, at an offset: `before` ends where the line starts. -/
inductive Place : Str → LineCol → Nat → Prop where
  | intro {before within rest : Str} (hbefore : before = [] ∨ before.getLast? = some '\n')
      (hwithin : '\n' ∉ within) :
      Place (before ++ within ++ rest) ⟨before.count '\n', byteLen within⟩
        (byteLen (before ++ within))

variable {before rest text within : Str} {b : TextBuffer} {index offset : Nat}

theorem newlineStarts_line (index : Nat) (hwithin : '\n' ∉ within) :
    newlineStarts index (asBytes within) = [] := by
  have hbytes : (0x0a : UInt8) ∉ asBytes within := by
    intro hmem
    obtain ⟨c, hc, hnewline⟩ := mem_asBytes_ascii (by decide) hmem
    obtain rfl : c = '\n' := Char.toNat_inj.mp hnewline
    exact hwithin hc
  generalize asBytes within = bytes at hbytes
  induction bytes generalizing index with
  | nil => rfl
  | cons byte bytes ih =>
    rw [List.mem_cons, not_or] at hbytes
    rw [newlineStarts, if_neg (Ne.symm hbytes.1), ih _ hbytes.2]

theorem length_newlineStarts (index : Nat) (s : Str) :
    (newlineStarts index (asBytes s)).length = s.count '\n' := by
  induction s generalizing index with
  | nil => rfl
  | cons c s ih =>
    have hfirst : asBytes (c :: s) = asBytes [c] ++ asBytes s := by simp
    rw [hfirst, newlineStarts_append, List.length_append, ih, List.count_cons]
    by_cases hc : c = '\n'
    · subst hc
      exact Nat.add_comm ..
    · rw [newlineStarts_line _ (by simpa using Ne.symm hc)]
      simp [hc]

/-- The line of a place: the last start up to it. -/
theorem computeLineStarts_place (hbefore : before = [] ∨ before.getLast? = some '\n')
    (hwithin : '\n' ∉ within) (rest : Str) :
    ∃ earlier, computeLineStarts (before ++ within ++ rest) =
        earlier ++ byteLen before ::
          newlineStarts (byteLen (before ++ within)) (asBytes rest) ∧
      earlier.length = before.count '\n' ∧
      (computeLineStarts (before ++ within ++ rest)).takeWhile (· ≤ byteLen (before ++ within)) =
        earlier ++ [byteLen before] := by
  have hlen : ∀ s : Str, 0 + (asBytes s).length = byteLen s := fun s => Nat.zero_add _
  have hup : ∃ earlier, computeLineStarts before = earlier ++ [byteLen before] ∧
      earlier.length = before.count '\n' := by
    rcases hbefore with rfl | hlast
    · exact ⟨[], rfl, rfl⟩
    · obtain ⟨front, rfl⟩ := List.getLast?_eq_some_iff.mp hlast
      refine ⟨computeLineStarts front, ?_, ?_⟩
      · simp only [computeLineStarts]
        rw [asBytes_append, newlineStarts_append, hlen, byteLen_append]
        rfl
      · rw [computeLineStarts, List.length_cons, length_newlineStarts]
        simp
  have hline : newlineStarts 0 (asBytes (before ++ within)) = newlineStarts 0 (asBytes before) := by
    rw [asBytes_append, newlineStarts_append, newlineStarts_line _ hwithin, List.append_nil]
  obtain ⟨earlier, hearlier, hlength⟩ := hup
  rw [computeLineStarts] at hearlier
  refine ⟨earlier, ?_, hlength, ?_⟩
  · rw [computeLineStarts, asBytes_append, newlineStarts_append, hlen, hline, ← List.cons_append,
      hearlier, List.append_assoc]
    rfl
  · rw [computeLineStarts, List.takeWhile_cons_of_pos (by simp), asBytes_append,
      takeWhile_newlineStarts (hlen _).symm, hline, hearlier]

variable {position : LineCol}

theorem Place.isCharBoundary (hplace : Place text position offset) :
    Rust.isCharBoundary text offset = true := by
  obtain ⟨-, -⟩ := hplace
  exact isCharBoundary_iff.mpr ⟨_, _, rfl, rfl⟩

/-- Every boundary is a place. -/
theorem exists_place (h : isCharBoundary text offset = true) :
    ∃ position, Place text position offset := by
  obtain ⟨front, back, rfl, rfl⟩ := isCharBoundary_iff.mp h
  suffices h : ∃ before within, front = before ++ within ∧
      (before = [] ∨ before.getLast? = some '\n') ∧ '\n' ∉ within by
    obtain ⟨before, within, rfl, hbefore, hwithin⟩ := h
    exact ⟨_, .intro hbefore hwithin⟩
  clear h
  induction front using List.reverseRecOn with
  | nil => exact ⟨[], [], rfl, .inl rfl, List.not_mem_nil⟩
  | append_singleton front c ih =>
    by_cases hc : c = '\n'
    · subst hc
      exact ⟨front ++ ['\n'], [], (List.append_nil _).symm, .inr (by simp), List.not_mem_nil⟩
    · obtain ⟨before, within, rfl, hbefore, hwithin⟩ := ih
      exact ⟨before, within ++ [c], List.append_assoc .., hbefore, by simp [hwithin, Ne.symm hc]⟩

namespace TextBuffer

section

variable (h : b.Consistent text) (hplace : Place text position offset)

include h hplace

theorem Consistent.lineStarts_place :
    ∃ start, b.lineStarts[position.line]? = some start ∧ offset = start + position.column ∧
      (b.lineStarts.takeWhile (· ≤ offset)).length = position.line + 1 ∧
      ∀ next, b.lineStarts[position.line + 1]? = some next → offset < next := by
  obtain ⟨hbefore, hwithin⟩ := hplace
  rename_i before within rest
  obtain ⟨earlier, hstarts, hlength, htake⟩ := computeLineStarts_place hbefore hwithin rest
  rw [h.lineStarts, htake, hstarts, ← hlength]
  refine ⟨byteLen before, by simp, byteLen_append .., by simp, fun next hnext => ?_⟩
  rw [List.getElem?_append_right (Nat.le_succ _), Nat.succ_sub (Nat.le_refl _), Nat.sub_self,
    List.getElem?_cons_succ] at hnext
  exact (mem_newlineStarts (List.mem_of_getElem? hnext)).1

theorem Consistent.offsetToLineCol : b.offsetToLineCol offset = some (.ok position) := by
  obtain ⟨line, column⟩ := position
  obtain ⟨start, hstart, rfl, htake, -⟩ := h.lineStarts_place hplace
  have hvalid := validateOffset_of_boundary h.represents hplace.isCharBoundary
  by_cases hexact : b.lineStarts[line]? = some (start + column)
  · have hsearch : binarySearch b.lineStarts (start + column) = .ok line := by
      simp [binarySearch, htake, hexact]
    simp [TextBuffer.offsetToLineCol, hvalid, hsearch, hstart]
  · have hsearch : binarySearch b.lineStarts (start + column) = .error (line + 1) := by
      simp only [binarySearch, htake, Nat.add_sub_cancel, if_neg hexact]
    simp [TextBuffer.offsetToLineCol, hvalid, hsearch, hstart]

theorem Consistent.lineColToOffset : b.lineColToOffset position = .ok offset := by
  obtain ⟨start, hstart, rfl, -, hnext⟩ := h.lineStarts_place hplace
  have hboundary := hplace.isCharBoundary
  have hend : ∃ lineEnd, b.lineEndOffset position.line = some lineEnd ∧
      start + position.column ≤ lineEnd := by
    refine ⟨_, by rw [TextBuffer.lineEndOffset, hstart]; rfl, le_trans ?_ (le_max_left ..)⟩
    cases hlater : b.lineStarts[position.line + 1]? with
    | none => exact (isCharBoundary_le hboundary).trans_eq h.represents.len.symm
    | some next => exact Nat.le_sub_one_of_lt (hnext next hlater)
  obtain ⟨lineEnd, hend, hle⟩ := hend
  simp only [TextBuffer.lineColToOffset, hstart, hend, if_neg (Nat.not_lt.mpr hle),
    validateOffset_of_boundary h.represents hboundary]

end

end TextBuffer

/-! ## 3. UTF-16 -/

theorem cutLoop_front (count : Nat) (front back : Str) :
    cutLoop (count + utf16Len front) count (front ++ back) = (front, back) := by
  induction front generalizing count with
  | nil => cases back <;> simp [cutLoop]
  | cons ch front ih =>
    have hpos := lenUtf16_pos ch
    rw [utf16Len_cons, List.cons_append, cutLoop, if_neg (by omega), ← Nat.add_assoc, ih]

theorem cutLoop_mono {offset' : Nat} (h : offset ≤ offset') (count : Nat) (value : Str) :
    byteLen (cutLoop offset count value).1 ≤ byteLen (cutLoop offset' count value).1 := by
  induction value generalizing count with
  | nil => exact Nat.le_refl _
  | cons ch value ih =>
    rw [cutLoop, cutLoop]
    by_cases hle : offset ≤ count
    · rw [if_pos hle]
      exact Nat.zero_le _
    · rw [if_neg hle, if_neg fun h' => hle (h.trans h'), byteLen_cons, byteLen_cons]
      exact Nat.add_le_add_left (ih _) _

theorem floorCharBoundary_isGreatest (value : Str) (n : Nat) :
    IsGreatest {m | isCharBoundary value m = true ∧ m ≤ n} (floorCharBoundary value n) := by
  induction n with
  | zero => exact ⟨⟨isCharBoundary_zero value, Nat.le_refl 0⟩, fun m hm => hm.2⟩
  | succ n ih =>
    rw [floorCharBoundary]
    split
    · rename_i hboundary
      exact ⟨⟨hboundary, Nat.le_refl _⟩, fun m hm => hm.2⟩
    · rename_i hboundary
      refine ⟨⟨ih.1.1, ih.1.2.trans (Nat.le_succ n)⟩, fun m hm => ih.2 ⟨hm.1, ?_⟩⟩
      have hne : m ≠ n + 1 := fun heq => hboundary (heq ▸ hm.1)
      exact Nat.le_of_lt_succ (Nat.lt_of_le_of_ne hm.2 hne)

/-- The offset is that of the largest boundary not above the byte index. -/
theorem utf16OffsetForByteIndex_spec (value : Str) (byteOffset : Nat) :
    ∃ front back, value = front ++ back ∧
      utf16OffsetForByteIndex value byteOffset = some (utf16Len front) ∧
      IsGreatest {m | isCharBoundary value m = true ∧ m ≤ byteOffset} (byteLen front) := by
  have hfloor := floorCharBoundary_isGreatest value (min byteOffset (byteLen value))
  obtain ⟨front, back, hvalue, hlen⟩ := isCharBoundary_iff.mp hfloor.1.1
  refine ⟨front, back, hvalue, ?_, ?_⟩
  · rw [utf16OffsetForByteIndex, splitAtByte_eq_some.mpr ⟨hvalue, hlen⟩]
    rfl
  · rw [hlen]
    refine ⟨⟨hfloor.1.1, hfloor.1.2.trans (Nat.min_le_left ..)⟩, fun m hm => hfloor.2 ⟨hm.1, ?_⟩⟩
    exact Nat.le_min.mpr ⟨hm.2, isCharBoundary_le hm.1⟩

/-! ## 4. Round trips -/

/-- **Positions convert back**: byte offsets and line columns of every buffer that commands reach,
    and byte indices and UTF-16 offsets of every text. -/
theorem positions_inverse :
    (∀ (original : Str) (commands : List Command), ∃ b text,
      (TextBuffer.new original).run commands = some b ∧ b.text.map Prod.fst = some text ∧
      (∀ offset, isCharBoundary text offset = true → ∃ position,
        b.offsetToLineCol offset = some (.ok position) ∧ b.lineColToOffset position = .ok offset) ∧
      ∀ position, (∃ offset, Place text position offset) → ∃ offset,
        b.lineColToOffset position = .ok offset ∧
        b.offsetToLineCol offset = some (.ok position)) ∧
    ∀ text : Str,
      (∀ byteOffset, ∃ offset, utf16OffsetForByteIndex text byteOffset = some offset ∧
        IsGreatest {m | isCharBoundary text m = true ∧ m ≤ byteOffset}
          (byteIndexForUtf16 text offset)) ∧
      Monotone (byteIndexForUtf16 text) ∧
      ∀ low high lowOffset highOffset, low ≤ high →
        utf16OffsetForByteIndex text low = some lowOffset →
        utf16OffsetForByteIndex text high = some highOffset → lowOffset ≤ highOffset := by
  refine ⟨fun original commands => ?_, fun text => ⟨fun byteOffset => ?_, ?_, ?_⟩⟩
  · obtain ⟨b, text, hrun, hb⟩ := (TextBuffer.consistent_new original).run commands
    refine ⟨b, text, hrun, by rw [hb.text_eq]; rfl, fun offset hoffset => ?_, ?_⟩
    · obtain ⟨position, hplace⟩ := exists_place hoffset
      exact ⟨position, hb.offsetToLineCol hplace, hb.lineColToOffset hplace⟩
    · rintro position ⟨offset, hplace⟩
      exact ⟨offset, hb.lineColToOffset hplace, hb.offsetToLineCol hplace⟩
  · obtain ⟨front, back, rfl, hoffset, hgreatest⟩ := utf16OffsetForByteIndex_spec text byteOffset
    refine ⟨utf16Len front, hoffset, ?_⟩
    have hcut := cutLoop_front 0 front back
    rw [Nat.zero_add] at hcut
    rwa [byteIndexForUtf16, hcut]
  · exact fun low high hle => cutLoop_mono hle 0 text
  · intro low high lowOffset highOffset hle hlow hhigh
    obtain ⟨front, back, htext, hfront, hgreatest⟩ := utf16OffsetForByteIndex_spec text low
    obtain ⟨front', back', htext', hfront', hgreatest'⟩ := utf16OffsetForByteIndex_spec text high
    rw [hlow] at hfront
    rw [hhigh] at hfront'
    obtain rfl := Option.some.inj hfront
    obtain rfl := Option.some.inj hfront'
    have hlen : byteLen front ≤ byteLen front' :=
      hgreatest'.2 ⟨hgreatest.1.1, hgreatest.1.2.trans hle⟩
    obtain ⟨between, rfl, -⟩ := exists_append_of_byteLen_le (htext.symm.trans htext') hlen
    rw [utf16Len_append]
    exact Nat.le_add_right ..

end Hapcli.Editor
