/-
  Subject:   `PieceTableTextBuffer`: a text as pieces of two strings, the original one and one to
             which every inserted text is appended; and that it is the text.

  Offsets count bytes. `none` is the panic of slicing a string at an offset that is not a character
  boundary. Lengths are those of strings in memory, so no sum of them leaves `usize`.

  * **`represents_replace`** -- replacing a range of the pieces replaces it in the text;
  * **`piece_table_refines_string`** -- the same for every sequence of replacements.
-/
import Hapcli.Rust.ByteOffsets

namespace Hapcli.Editor

open Hapcli.Rust

/-! ## 1. Pieces -/

inductive PieceSource where
  | original
  | add
  deriving DecidableEq

/-- `Piece`. None is empty. -/
structure Piece where
  source : PieceSource
  start : Nat
  len : Nat
  nonempty : 0 < len
  deriving DecidableEq

namespace Piece

def new (source : PieceSource) (start len : Nat) : Option Piece :=
  if h : 0 < len then some ⟨source, start, len, h⟩ else none

def slice (piece : Piece) (offset len : Nat) : Option Piece :=
  new piece.source (piece.start + offset) len

/-- `Piece::end`. -/
def stop (piece : Piece) : Nat := piece.start + piece.len

/-- The piece with the bytes of one that follows it in its source. -/
def extend (piece next : Piece) : Piece :=
  { piece with len := piece.len + next.len, nonempty := Nat.add_pos_left piece.nonempty _ }

end Piece

def pushPiece (pieces : List Piece) (piece : Piece) : List Piece :=
  match pieces.getLast? with
  | some previous =>
    if previous.source = piece.source ∧ previous.stop = piece.start then
      pieces.dropLast ++ [previous.extend piece]
    else pieces ++ [piece]
  | none => pieces ++ [piece]

/-- `if let Some(piece) = piece { push_piece(&mut pieces, piece) }`. -/
def pushSome (pieces : List Piece) : Option Piece → List Piece
  | some piece => pushPiece pieces piece
  | none => pieces

/-! ## 2. The buffer -/

structure PieceTableTextBuffer where
  original : Str
  add : Str
  pieces : List Piece
  len : Nat
  deriving DecidableEq

namespace PieceTableTextBuffer

def new (original : Str) : PieceTableTextBuffer :=
  { original, add := [], pieces := (Piece.new .original 0 (byteLen original)).toList
    len := byteLen original }

variable (t : PieceTableTextBuffer)

def sourceText : PieceSource → Str
  | .original => t.original
  | .add => t.add

/-- The loop of `to_text`. -/
def textOf (sources : PieceSource → Str) : List Piece → Option Str
  | [] => some []
  | piece :: pieces => do
      let part ← strSlice (sources piece.source) piece.start piece.stop
      let rest ← textOf sources pieces
      return part ++ rest

def toText : Option Str := textOf t.sourceText t.pieces

/-- The loop of `slice_to_string`, from the piece at `position` on. -/
def sliceLoop (sources : PieceSource → Str) (start stop : Nat) : List Piece → Nat → Option Str
  | [], _ => some []
  | piece :: pieces, position =>
    let pieceEnd := position + piece.len
    if pieceEnd ≤ start then sliceLoop sources start stop pieces pieceEnd
    else if stop ≤ position then some []
    else do
      let localStart := max start position - position
      let localEnd := min stop pieceEnd - position
      let part ← strSlice (sources piece.source) (piece.start + localStart)
        (piece.start + localEnd)
      let rest ← sliceLoop sources start stop pieces pieceEnd
      return part ++ rest

def sliceToString (start stop : Nat) : Option Str :=
  if stop ≤ start then some [] else sliceLoop t.sourceText start stop t.pieces 0

/-- The loop of `is_char_boundary`. -/
def boundaryLoop (sources : PieceSource → Str) (offset : Nat) : List Piece → Nat → Bool
  | [], _ => false
  | piece :: pieces, position =>
    let pieceEnd := position + piece.len
    if offset < position then false
    else if offset = position ∨ offset = pieceEnd then true
    else if offset < pieceEnd then
      Rust.isCharBoundary (sources piece.source) (piece.start + (offset - position))
    else boundaryLoop sources offset pieces pieceEnd

def isCharBoundary (offset : Nat) : Bool :=
  if t.len < offset then false
  else if offset = t.len then true
  else boundaryLoop t.sourceText offset t.pieces 0

/-- The loop of `replace`: whether the replacement is inserted, and the pieces so far. -/
def replaceLoop (start stop : Nat) (replacementPiece : Option Piece) :
    List Piece → Nat → Bool → List Piece → Bool × List Piece
  | [], _, inserted, next => (inserted, next)
  | piece :: pieces, position, inserted, next =>
    let pieceEnd := position + piece.len
    if pieceEnd ≤ start then
      replaceLoop start stop replacementPiece pieces pieceEnd inserted (pushPiece next piece)
    else if stop ≤ position then
      let next := if inserted then next else pushSome next replacementPiece
      replaceLoop start stop replacementPiece pieces pieceEnd true (pushPiece next piece)
    else
      let next :=
        if inserted then next
        else
          let next :=
            if position < start then pushSome next (piece.slice 0 (start - position)) else next
          pushSome next replacementPiece
      let next :=
        if stop < pieceEnd then
          pushSome next (piece.slice (stop - position) (pieceEnd - stop))
        else next
      replaceLoop start stop replacementPiece pieces pieceEnd true next

/-- `replace`, with `append_add_piece` in front. -/
def replace (start stop : Nat) (replacement : Str) : PieceTableTextBuffer :=
  let replacementPiece := Piece.new .add (byteLen t.add) (byteLen replacement)
  let (inserted, next) := replaceLoop start stop replacementPiece t.pieces 0 false []
  { t with
    add := t.add ++ replacement
    pieces := if inserted then next else pushSome next replacementPiece
    len := t.len - (stop - start) + byteLen replacement }

end PieceTableTextBuffer

/-! ## 3. What pieces denote -/

/-- The piece is this text in its source. -/
def Reads (sources : PieceSource → Str) (piece : Piece) (text : Str) : Prop :=
  strSlice (sources piece.source) piece.start piece.stop = some text

/-- The pieces are this text. -/
inductive Denotes (sources : PieceSource → Str) : List Piece → Str → Prop where
  | nil : Denotes sources [] []
  | cons {piece : Piece} {pieces : List Piece} {part rest : Str} (hpart : Reads sources piece part)
      (hrest : Denotes sources pieces rest) : Denotes sources (piece :: pieces) (part ++ rest)

variable {sources : PieceSource → Str} {part text back : Str} {pieces : List Piece}

section Denotes

variable {piece : Piece}

theorem reads_iff :
    Reads sources piece text ↔ ∃ front back, sources piece.source = front ++ text ++ back ∧
      byteLen front = piece.start ∧ byteLen text = piece.len := by
  rw [Reads, strSlice_eq_some]
  simp only [Piece.stop, Nat.add_left_cancel_iff]

theorem Reads.byteLen (h : Reads sources piece text) : byteLen text = piece.len := by
  obtain ⟨front, back, -, -, hlen⟩ := (reads_iff).mp h
  exact hlen

theorem Reads.slice {front : Str} (h : Reads sources piece (front ++ part ++ back))
    (hpart : part ≠ []) :
    ∃ sliced, piece.slice (Rust.byteLen front) (Rust.byteLen part) = some sliced ∧
      Reads sources sliced part := by
  obtain ⟨before, behind, hsource, hstart, -⟩ := (reads_iff).mp h
  refine ⟨⟨piece.source, piece.start + Rust.byteLen front, Rust.byteLen part, byteLen_pos hpart⟩,
    dif_pos (byteLen_pos hpart), (reads_iff).mpr ⟨before ++ front, back ++ behind, ?_, ?_, rfl⟩⟩
  · rw [hsource]
    simp
  · rw [byteLen_append, hstart]

theorem Reads.extend {next : Piece} {more : Str} (h : Reads sources piece text)
    (hnext : Reads sources next more) (hsource : piece.source = next.source)
    (htouch : piece.stop = next.start) : Reads sources (piece.extend next) (text ++ more) := by
  obtain ⟨front, back, heq, hstart, hlen⟩ := (reads_iff).mp h
  obtain ⟨front', back', heq', hstart', hlen'⟩ := (reads_iff).mp hnext
  have hfront : front ++ text = front' ∧ back = more ++ back' := by
    refine append_inj_of_byteLen ?_ ?_
    · rw [← heq, ← List.append_assoc, ← heq', hsource]
    · rw [byteLen_append, hstart, hlen, hstart', ← htouch, Piece.stop]
  refine (reads_iff).mpr ⟨front, back', ?_, hstart, ?_⟩
  · show sources piece.source = _
    rw [heq, hfront.2]
    simp
  · rw [byteLen_append, hlen, hlen']
    rfl

theorem Denotes.nil_eq (h : Denotes sources [] text) : text = [] := by
  cases h
  rfl

theorem Denotes.uncons (h : Denotes sources (piece :: pieces) text) :
    ∃ part rest, text = part ++ rest ∧ Reads sources piece part ∧ Denotes sources pieces rest := by
  cases h with
  | cons hpart hrest => exact ⟨_, _, rfl, hpart, hrest⟩

theorem Denotes.append {more : List Piece} (h : Denotes sources pieces text)
    (hback : Denotes sources more back) : Denotes sources (pieces ++ more) (text ++ back) := by
  induction h with
  | nil => exact hback
  | cons hpart _ ih =>
    rw [List.append_assoc]
    exact .cons hpart ih

theorem Denotes.concat (h : Denotes sources pieces text) (hpart : Reads sources piece part) :
    Denotes sources (pieces ++ [piece]) (text ++ part) := by
  have hlast : Denotes sources [piece] (part ++ []) := .cons hpart .nil
  rw [List.append_nil] at hlast
  exact h.append hlast

theorem Denotes.last (h : Denotes sources (pieces ++ [piece]) text) :
    ∃ front part, text = front ++ part ∧ Denotes sources pieces front ∧
      Reads sources piece part := by
  induction pieces generalizing text with
  | nil =>
    cases h with
    | cons hpart hrest =>
      cases hrest
      exact ⟨[], _, by simp, .nil, hpart⟩
  | cons head pieces ih =>
    cases h with
    | cons hhead hrest =>
      obtain ⟨front, part, rfl, hfront, hpart⟩ := ih hrest
      exact ⟨_, part, (List.append_assoc ..).symm, .cons hhead hfront, hpart⟩

theorem Denotes.pushPiece (h : Denotes sources pieces text) (hpart : Reads sources piece part) :
    Denotes sources (pushPiece pieces piece) (text ++ part) := by
  unfold Editor.pushPiece
  split
  · rename_i previous hlast
    split
    · rename_i htouch
      obtain ⟨init, rfl⟩ := List.getLast?_eq_some_iff.mp hlast
      obtain ⟨front, part', rfl, hfront, hprevious⟩ := h.last
      rw [List.append_assoc, List.dropLast_concat]
      exact hfront.concat (hprevious.extend hpart htouch.1 htouch.2)
    · exact h.concat hpart
  · exact h.concat hpart

theorem Denotes.pushSome {piece : Option Piece} (h : Denotes sources pieces text)
    (hpart : (part = [] ∧ piece = none) ∨ ∃ p, piece = some p ∧ Reads sources p part) :
    Denotes sources (pushSome pieces piece) (text ++ part) := by
  rcases hpart with ⟨rfl, rfl⟩ | ⟨p, rfl, hpart⟩
  · rw [List.append_nil]
    exact h
  · exact h.pushPiece hpart

end Denotes

/-! ## 4. Replacing -/

variable {position start stop : Nat}

section Replace

open PieceTableTextBuffer

theorem reads_slice_or_nil {piece : Piece} (front part back : Str) {offset len : Nat}
    (h : Reads sources piece (front ++ part ++ back)) (hoffset : offset = byteLen front)
    (hlen : len = byteLen part) :
    (part = [] ∧ piece.slice offset len = none) ∨
      ∃ p, piece.slice offset len = some p ∧ Reads sources p part := by
  subst hoffset hlen
  by_cases hpart : part = []
  · subst hpart
    exact .inl ⟨rfl, by simp [Piece.slice, Piece.new]⟩
  · exact .inr (h.slice hpart)

variable {out removed : Str} {next : List Piece} {replacementPiece : Option Piece}

theorem replaceLoop_true (hpieces : Denotes sources pieces (removed ++ back))
    (hnext : Denotes sources next out) (hstart : start ≤ position)
    (hstop : position + byteLen removed = stop ∨ removed = [] ∧ stop ≤ position) :
    ∃ last, replaceLoop start stop replacementPiece pieces position true next = (true, last) ∧
      Denotes sources last (out ++ back) := by
  induction pieces generalizing position next removed back out with
  | nil =>
    obtain ⟨-, rfl⟩ := List.append_eq_nil_iff.mp hpieces.nil_eq
    rw [List.append_nil]
    exact ⟨next, rfl, hnext⟩
  | cons piece pieces ih =>
    obtain ⟨part, rest, heq, hpart, hrest⟩ := hpieces.uncons
    have hlen : byteLen part = piece.len := hpart.byteLen
    have hnonempty := piece.nonempty
    rw [replaceLoop]
    dsimp only
    rw [if_neg (by omega)]
    by_cases hpast : stop ≤ position
    · have hremoved : removed = [] := by
        rcases hstop with hstop | hstop
        · exact byteLen_eq_zero.mp (by omega)
        · exact hstop.1
      subst hremoved
      obtain rfl : back = part ++ rest := heq
      rw [if_pos hpast, ← List.append_assoc]
      have hrest : Denotes sources pieces ([] ++ rest) := hrest
      exact ih hrest (hnext.pushPiece hpart) (by omega) (.inr ⟨rfl, by omega⟩)
    · have hstop : position + byteLen removed = stop := hstop.resolve_right fun h => hpast h.2
      rw [if_neg hpast]
      by_cases hright : stop < position + piece.len
      · -- the range ends in this piece
        obtain ⟨right, rfl, rfl⟩ := exists_append_of_byteLen_le heq (by omega)
        rw [byteLen_append] at hlen
        have hoffset : stop - position = byteLen removed := by omega
        have hsize : position + piece.len - stop = byteLen right := by omega
        have hpart : Reads sources piece (removed ++ right ++ []) := by
          rw [List.append_nil]
          exact hpart
        have hpushed := hnext.pushSome (reads_slice_or_nil removed right [] hpart hoffset hsize)
        have hrest : Denotes sources pieces ([] ++ rest) := hrest
        rw [if_pos rfl, if_pos hright, ← List.append_assoc]
        exact ih hrest hpushed (by omega) (.inr ⟨rfl, by omega⟩)
      · obtain ⟨more, rfl, rfl⟩ := exists_append_of_byteLen_le heq.symm (by omega)
        rw [byteLen_append] at hstop
        rw [if_pos rfl, if_neg hright]
        exact ih hrest hnext (by omega) (.inl (by omega))

theorem replaceLoop_false {front replacement : Str}
    (hpieces : Denotes sources pieces (front ++ removed ++ back)) (hnext : Denotes sources next out)
    (hreplacement : (replacement = [] ∧ replacementPiece = none) ∨
      ∃ p, replacementPiece = some p ∧ Reads sources p replacement)
    (hstart : position + byteLen front = start) (hstop : start + byteLen removed = stop) :
    ∃ inserted last,
      replaceLoop start stop replacementPiece pieces position false next = (inserted, last) ∧
      Denotes sources (if inserted then last else pushSome last replacementPiece)
        (out ++ front ++ replacement ++ back) := by
  induction pieces generalizing position next front out with
  | nil =>
    obtain ⟨hfront, rfl⟩ := List.append_eq_nil_iff.mp hpieces.nil_eq
    obtain ⟨rfl, rfl⟩ := List.append_eq_nil_iff.mp hfront
    refine ⟨false, next, rfl, ?_⟩
    simp only [List.append_nil]
    exact hnext.pushSome hreplacement
  | cons piece pieces ih =>
    obtain ⟨part, rest, heq, hpart, hrest⟩ := hpieces.uncons
    have hlen : byteLen part = piece.len := hpart.byteLen
    have hnonempty := piece.nonempty
    rw [replaceLoop]
    dsimp only
    rw [List.append_assoc] at heq
    by_cases hbefore : position + piece.len ≤ start
    · -- the piece is in front of the range
      obtain ⟨more, rfl, rfl⟩ := exists_append_of_byteLen_le heq.symm (by omega)
      rw [if_pos hbefore, ← List.append_assoc]
      rw [byteLen_append] at hstart
      rw [← List.append_assoc] at hrest
      exact ih hrest (hnext.pushPiece hpart) (by omega)
    · rw [if_neg hbefore]
      by_cases hpast : stop ≤ position
      · -- an insertion at the start of the piece
        have hfront : front = [] := byteLen_eq_zero.mp (by omega)
        have hremoved : removed = [] := byteLen_eq_zero.mp (by omega)
        subst hfront hremoved
        obtain rfl : back = part ++ rest := heq
        have hpushed := (hnext.pushSome hreplacement).pushPiece hpart
        have hrest : Denotes sources pieces ([] ++ rest) := hrest
        rw [if_pos hpast]
        obtain ⟨last, hlast, hdenotes⟩ :
            ∃ last, replaceLoop start stop replacementPiece pieces (position + piece.len) true
              (pushPiece (pushSome next replacementPiece) piece) = (true, last) ∧ _ :=
          replaceLoop_true hrest hpushed (by omega) (.inr ⟨rfl, by omega⟩)
        exact ⟨true, last, hlast, by simpa using hdenotes⟩
      · rw [if_neg hpast]
        -- the range starts in this piece
        obtain ⟨inner, rfl, hinner⟩ := exists_append_of_byteLen_le heq (by omega)
        rw [byteLen_append] at hlen
        have hleft : Denotes sources
            (if position < start then pushSome next (piece.slice 0 (start - position)) else next)
            (out ++ front) := by
          split
          · have hsize : start - position = byteLen front := by omega
            have hpart : Reads sources piece ([] ++ front ++ inner) := hpart
            exact hnext.pushSome (reads_slice_or_nil [] front inner hpart rfl hsize)
          · have hfront : front = [] := byteLen_eq_zero.mp (by omega)
            rw [hfront, List.append_nil]
            exact hnext
        have hinserted := hleft.pushSome hreplacement
        by_cases hright : stop < position + piece.len
        · -- and ends in it
          obtain ⟨right, rfl, rfl⟩ := exists_append_of_byteLen_le hinner (by omega)
          rw [byteLen_append] at hlen
          have hoffset : stop - position = byteLen (front ++ removed) := by
            rw [byteLen_append]
            omega
          have hsize : position + piece.len - stop = byteLen right := by omega
          have hpart : Reads sources piece ((front ++ removed) ++ right ++ []) := by
            rw [List.append_nil, List.append_assoc]
            exact hpart
          have hpushed := hinserted.pushSome
            (reads_slice_or_nil (front ++ removed) right [] hpart hoffset hsize)
          have hrest : Denotes sources pieces ([] ++ rest) := hrest
          rw [if_pos hright]
          obtain ⟨last, hlast, hdenotes⟩ :=
            replaceLoop_true hrest hpushed (show start ≤ position + piece.len by omega)
              (.inr ⟨rfl, show stop ≤ position + piece.len by omega⟩)
          exact ⟨true, last, hlast, by simpa using hdenotes⟩
        · obtain ⟨more, rfl, rfl⟩ := exists_append_of_byteLen_le hinner.symm (by omega)
          rw [byteLen_append] at hstop
          rw [if_neg hright]
          obtain ⟨last, hlast, hdenotes⟩ :=
            replaceLoop_true hrest hinserted (show start ≤ position + piece.len by omega)
              (.inl (show position + piece.len + byteLen more = stop by omega))
          exact ⟨true, last, hlast, by simpa using hdenotes⟩

end Replace

/-! ## 5. Queries -/

section Queries

open PieceTableTextBuffer

variable {front : Str}

theorem textOf_eq_some : textOf sources pieces = some text ↔ Denotes sources pieces text := by
  constructor
  · intro h
    induction pieces generalizing text with
    | nil =>
      cases h
      exact .nil
    | cons piece pieces ih =>
      obtain ⟨part, hpart, h⟩ := Option.bind_eq_some_iff.mp h
      obtain ⟨rest, hrest, h⟩ := Option.bind_eq_some_iff.mp h
      cases h
      exact .cons hpart (ih hrest)
  · intro h
    induction h with
    | nil => rfl
    | cons hpart _ ih =>
      rw [textOf, hpart, ih]
      rfl

theorem strSlice_of_reads {piece : Piece} (start stop : Nat)
    (h : Reads sources piece (front ++ part ++ back)) (hstart : start = piece.start + byteLen front)
    (hstop : stop = start + byteLen part) :
    strSlice (sources piece.source) start stop = some part := by
  obtain ⟨before, behind, hsource, hbefore, -⟩ := (reads_iff).mp h
  refine strSlice_eq_some.mpr ⟨before ++ front, back ++ behind, ?_, ?_, hstop.symm⟩
  · rw [hsource]
    simp
  · rw [byteLen_append, hbefore, hstart]

theorem sliceLoop_inside (hpieces : Denotes sources pieces (part ++ back))
    (hstart : start ≤ position)
    (hstop : position + byteLen part = stop ∨ part = [] ∧ stop ≤ position) :
    sliceLoop sources start stop pieces position = some part := by
  induction pieces generalizing position part back with
  | nil =>
    obtain ⟨rfl, -⟩ := List.append_eq_nil_iff.mp hpieces.nil_eq
    rfl
  | cons piece pieces ih =>
    obtain ⟨text, rest, heq, htext, hrest⟩ := hpieces.uncons
    have hlen : byteLen text = piece.len := htext.byteLen
    have hnonempty := piece.nonempty
    rw [sliceLoop]
    dsimp only
    rw [if_neg (by omega)]
    by_cases hpast : stop ≤ position
    · have hpart : part = [] := by
        rcases hstop with hstop | hstop
        · exact byteLen_eq_zero.mp (by omega)
        · exact hstop.1
      rw [if_pos hpast, hpart]
    · have hstop : position + byteLen part = stop := hstop.resolve_right fun h => hpast h.2
      rw [if_neg hpast]
      by_cases hends : stop ≤ position + piece.len
      · obtain ⟨right, rfl, rfl⟩ := exists_append_of_byteLen_le heq (by omega)
        have hslice := strSlice_of_reads (piece.start + (max start position - position))
          (piece.start + (min stop (position + piece.len) - position))
          (show Reads sources piece ([] ++ part ++ right) from htext)
          (by rw [byteLen_nil]; omega) (by omega)
        have hrest : Denotes sources pieces ([] ++ rest) := hrest
        rw [hslice, ih hrest (by omega) (.inr ⟨rfl, hends⟩)]
        simp
      · obtain ⟨more, rfl, rfl⟩ := exists_append_of_byteLen_le heq.symm (by omega)
        have hslice := strSlice_of_reads (piece.start + (max start position - position))
          (piece.start + (min stop (position + piece.len) - position))
          (show Reads sources piece ([] ++ text ++ []) by simpa using htext)
          (by rw [byteLen_nil]; omega) (by omega)
        rw [byteLen_append] at hstop
        rw [hslice, ih hrest (by omega) (.inl (by omega))]
        rfl

theorem sliceLoop_eq (hpieces : Denotes sources pieces (front ++ part ++ back))
    (hrange : start < stop) (hstart : position + byteLen front = start)
    (hstop : start + byteLen part = stop) :
    sliceLoop sources start stop pieces position = some part := by
  induction pieces generalizing position front with
  | nil =>
    obtain ⟨hfront, -⟩ := List.append_eq_nil_iff.mp hpieces.nil_eq
    obtain ⟨-, rfl⟩ := List.append_eq_nil_iff.mp hfront
    rfl
  | cons piece pieces ih =>
    obtain ⟨text, rest, heq, htext, hrest⟩ := hpieces.uncons
    have hlen : byteLen text = piece.len := htext.byteLen
    rw [List.append_assoc] at heq
    rw [sliceLoop]
    dsimp only
    by_cases hbefore : position + piece.len ≤ start
    · obtain ⟨more, rfl, rfl⟩ := exists_append_of_byteLen_le heq.symm (by omega)
      rw [byteLen_append] at hstart
      rw [← List.append_assoc] at hrest
      rw [if_pos hbefore]
      exact ih hrest (by omega)
    · rw [if_neg hbefore, if_neg (by omega)]
      obtain ⟨inner, rfl, hinner⟩ := exists_append_of_byteLen_le heq (by omega)
      rw [byteLen_append] at hlen
      by_cases hends : stop ≤ position + piece.len
      · obtain ⟨right, rfl, rfl⟩ := exists_append_of_byteLen_le hinner (by omega)
        have hslice := strSlice_of_reads (piece.start + (max start position - position))
          (piece.start + (min stop (position + piece.len) - position))
          (show Reads sources piece (front ++ part ++ right) by simpa using htext)
          (by omega) (by omega)
        have hrest : Denotes sources pieces ([] ++ rest) := hrest
        rw [hslice, sliceLoop_inside hrest (by omega) (.inr ⟨rfl, hends⟩)]
        simp
      · obtain ⟨more, rfl, rfl⟩ := exists_append_of_byteLen_le hinner.symm (by omega)
        have hslice := strSlice_of_reads (piece.start + (max start position - position))
          (piece.start + (min stop (position + piece.len) - position))
          (show Reads sources piece (front ++ inner ++ []) by simpa using htext)
          (by omega) (by omega)
        rw [byteLen_append] at hstop
        rw [hslice, sliceLoop_inside hrest (by omega) (.inl (by omega))]
        rfl

theorem boundaryLoop_eq {offset : Nat} (hpieces : Denotes sources pieces text)
    (hposition : position ≤ offset) (hoffset : offset < position + byteLen text) :
    boundaryLoop sources offset pieces position = Rust.isCharBoundary text (offset - position) := by
  induction pieces generalizing position text with
  | nil =>
    rw [hpieces.nil_eq, byteLen_nil] at hoffset
    omega
  | cons piece pieces ih =>
    obtain ⟨part, rest, rfl, hpart, hrest⟩ := hpieces.uncons
    have hlen : byteLen part = piece.len := hpart.byteLen
    rw [boundaryLoop]
    rw [if_neg (by omega)]
    by_cases hedge : offset = position ∨ offset = position + piece.len
    · rw [if_pos hedge]
      rcases hedge with rfl | rfl
      · rw [Nat.sub_self, isCharBoundary_zero]
      · rw [show position + piece.len - position = byteLen part + 0 by omega,
          isCharBoundary_append, isCharBoundary_zero]
    · rw [if_neg hedge]
      by_cases hinside : offset < position + piece.len
      · obtain ⟨front, back, hsource, hstart, -⟩ := (reads_iff).mp hpart
        rw [if_pos hinside, hsource, ← hstart, List.append_assoc, isCharBoundary_append,
          isCharBoundary_front (by omega), isCharBoundary_front (by omega)]
      · rw [byteLen_append] at hoffset
        rw [if_neg hinside, ih hrest (by omega) (by omega),
          show offset - position = byteLen part + (offset - (position + piece.len)) by omega,
          isCharBoundary_append]

end Queries

/-! ## 6. The text of a buffer -/

/-- The buffer is the text. -/
structure Represents (t : PieceTableTextBuffer) (text : Str) : Prop where
  denotes : Denotes t.sourceText t.pieces text
  len : t.len = byteLen text

/-- The piece lies between two boundaries of its source, and there is something between them. -/
def Piece.Aligned (sources : PieceSource → Str) (piece : Piece) : Prop :=
  0 < piece.len ∧ Rust.isCharBoundary (sources piece.source) piece.start = true ∧
    Rust.isCharBoundary (sources piece.source) piece.stop = true

section Represents

variable {t : PieceTableTextBuffer}

theorem Reads.aligned {piece : Piece} (h : Reads sources piece part) : piece.Aligned sources := by
  obtain ⟨front, back, hsource, hstart, hlen⟩ := (reads_iff).mp h
  refine ⟨piece.nonempty, ?_, ?_⟩
  · exact isCharBoundary_iff.mpr ⟨front, part ++ back, by rw [hsource, List.append_assoc], hstart⟩
  · refine isCharBoundary_iff.mpr ⟨front ++ part, back, hsource, ?_⟩
    rw [byteLen_append, hstart, hlen, Piece.stop]

theorem Denotes.aligned (h : Denotes sources pieces text) :
    ∀ piece ∈ pieces, piece.Aligned sources := by
  induction h with
  | nil => simp
  | cons hpart _ ih => exact List.forall_mem_cons.mpr ⟨hpart.aligned, ih⟩

theorem Denotes.grow {sources' : PieceSource → Str} (h : Denotes sources pieces text)
    (hgrow : ∀ source, ∃ more, sources' source = sources source ++ more) :
    Denotes sources' pieces text := by
  induction h with
  | nil => exact .nil
  | @cons piece _ _ _ hpart _ ih =>
    obtain ⟨front, back, hsource, hstart, hlen⟩ := (reads_iff).mp hpart
    obtain ⟨more, hmore⟩ := hgrow piece.source
    refine .cons ((reads_iff).mpr ⟨front, back ++ more, ?_, hstart, hlen⟩) ih
    rw [hmore, hsource, List.append_assoc]

theorem represents_new (original : Str) :
    Represents (PieceTableTextBuffer.new original) original := by
  refine ⟨?_, rfl⟩
  by_cases hempty : original = []
  · subst hempty
    exact .nil
  · have hpos : 0 < byteLen original := byteLen_pos hempty
    have hreads : Reads (PieceTableTextBuffer.new original).sourceText
        ⟨.original, 0, byteLen original, hpos⟩ original :=
      (reads_iff).mpr ⟨[], [], by simp [PieceTableTextBuffer.sourceText, PieceTableTextBuffer.new],
        rfl, rfl⟩
    have hpieces : (PieceTableTextBuffer.new original).pieces =
        [⟨.original, 0, byteLen original, hpos⟩] := by
      simp [PieceTableTextBuffer.new, Piece.new, hpos]
    rw [hpieces]
    exact Denotes.nil.concat hreads

section

variable (h : Represents t text)

include h

theorem represents_replace {replacement replaced : Str}
    (hreplace : replaceRange text start stop replacement = some replaced) :
    Represents (t.replace start stop replacement) replaced := by
  obtain ⟨front, removed, back, rfl, hstart, hstop, rfl⟩ := replaceRange_eq_some.mp hreplace
  have hsources : ∀ source, ∃ more,
      (t.replace start stop replacement).sourceText source = t.sourceText source ++ more := by
    intro source
    cases source with
    | original => exact ⟨[], (List.append_nil _).symm⟩
    | add => exact ⟨replacement, rfl⟩
  have hpiece : (replacement = [] ∧ Piece.new .add (byteLen t.add) (byteLen replacement) = none) ∨
      ∃ p, Piece.new .add (byteLen t.add) (byteLen replacement) = some p ∧
        Reads (t.replace start stop replacement).sourceText p replacement := by
    by_cases hempty : replacement = []
    · subst hempty
      exact .inl ⟨rfl, rfl⟩
    · have hpos : 0 < byteLen replacement := byteLen_pos hempty
      refine .inr ⟨⟨.add, byteLen t.add, byteLen replacement, hpos⟩, dif_pos hpos, ?_⟩
      exact (reads_iff).mpr ⟨t.add, [], (List.append_nil _).symm, rfl, rfl⟩
  obtain ⟨inserted, last, hloop, hdenotes⟩ :=
    replaceLoop_false (h.denotes.grow hsources) .nil hpiece
      (show 0 + byteLen front = start by omega) hstop
  constructor
  · have hpieces : (t.replace start stop replacement).pieces =
        if inserted then last
        else pushSome last (Piece.new .add (byteLen t.add) (byteLen replacement)) := by
      simp only [PieceTableTextBuffer.replace, hloop]
    rw [hpieces]
    exact hdenotes
  · have hlen : t.len = byteLen (front ++ removed ++ back) := h.len
    show t.len - (stop - start) + byteLen replacement = _
    rw [hlen]
    simp only [byteLen_append]
    omega

theorem toText_eq : t.toText = some text := textOf_eq_some.mpr h.denotes

theorem sliceToString_eq (hslice : strSlice text start stop = some part) :
    t.sliceToString start stop = some part := by
  obtain ⟨front, back, rfl, hstart, hstop⟩ := strSlice_eq_some.mp hslice
  unfold PieceTableTextBuffer.sliceToString
  by_cases hempty : stop ≤ start
  · have hpart : part = [] := byteLen_eq_zero.mp (by omega)
    rw [if_pos hempty, hpart]
  · rw [if_neg hempty]
    exact sliceLoop_eq h.denotes (Nat.lt_of_not_le hempty) (by omega) hstop

theorem isCharBoundary_eq (offset : Nat) :
    t.isCharBoundary offset = Rust.isCharBoundary text offset := by
  have hlen : t.len = byteLen text := h.len
  unfold PieceTableTextBuffer.isCharBoundary
  rcases Nat.lt_trichotomy offset t.len with hlt | heq | hgt
  · rw [if_neg (by omega), if_neg (by omega), boundaryLoop_eq h.denotes (Nat.zero_le _) (by omega)]
    rfl
  · rw [if_neg (by omega), if_pos heq, heq, hlen, isCharBoundary_length]
  · rw [if_pos hgt]
    have hnot : ¬Rust.isCharBoundary text offset = true := fun hboundary => by
      have := isCharBoundary_le hboundary
      omega
    exact (Bool.not_eq_true _ ▸ hnot).symm

end

end Represents

/-! ## 7. Sequences of replacements -/

/-- `replace`, one after another. -/
def PieceTableTextBuffer.replaceAll (t : PieceTableTextBuffer) :
    List (Nat × Nat × Str) → PieceTableTextBuffer
  | [] => t
  | (start, stop, replacement) :: edits => (t.replace start stop replacement).replaceAll edits

/-- `String::replace_range`, one after another. -/
def replaceRanges (text : Str) : List (Nat × Nat × Str) → Option Str
  | [] => some text
  | (start, stop, replacement) :: edits => do
      let replaced ← replaceRange text start stop replacement
      replaceRanges replaced edits

theorem represents_replaceAll {t : PieceTableTextBuffer} {last : Str}
    {edits : List (Nat × Nat × Str)} (h : Represents t text)
    (hedits : replaceRanges text edits = some last) : Represents (t.replaceAll edits) last := by
  induction edits generalizing t text with
  | nil =>
    cases hedits
    exact h
  | cons edit edits ih =>
    obtain ⟨start, stop, replacement⟩ := edit
    obtain ⟨replaced, hreplaced, hrest⟩ := Option.bind_eq_some_iff.mp hedits
    exact ih (represents_replace h hreplaced) hrest

/-- **A piece table is a string**, after any number of replacements between boundaries of the text.
    -/
theorem piece_table_refines_string (original : Str) (edits : List (Nat × Nat × Str)) {text : Str}
    (hedits : replaceRanges original edits = some text) :
    let t := (PieceTableTextBuffer.new original).replaceAll edits
    t.toText = some text ∧ t.len = byteLen text ∧
      (∀ offset, t.isCharBoundary offset = Rust.isCharBoundary text offset) ∧
      (∀ start stop, start ≤ stop → Rust.isCharBoundary text start = true →
        Rust.isCharBoundary text stop = true →
        ∃ part, strSlice text start stop = some part ∧ t.sliceToString start stop = some part) ∧
      ∀ piece ∈ t.pieces, piece.Aligned t.sourceText := by
  have h : Represents ((PieceTableTextBuffer.new original).replaceAll edits) text :=
    represents_replaceAll (represents_new original) hedits
  refine ⟨toText_eq h, h.len, isCharBoundary_eq h, ?_, h.denotes.aligned⟩
  intro start stop hle hstart hstop
  obtain ⟨front, part, back, htext, hfront, hpart⟩ := exists_strSlice hle hstart hstop
  have hslice : strSlice text start stop = some part :=
    strSlice_eq_some.mpr ⟨front, back, htext, hfront, hpart⟩
  exact ⟨part, hslice, sliceToString_eq h hslice⟩

/-- An insertion into a two-byte text, then a replacement across the insertion. -/
theorem piece_table_refines_string_two_edits :
    replaceRanges ['é', 'b'] [(2, 2, ['x', '\n']), (0, 3, ['y'])] = some ['y', '\n', 'b'] ∧
      ((PieceTableTextBuffer.new ['é', 'b']).replaceAll
        [(2, 2, ['x', '\n']), (0, 3, ['y'])]).toText = some ['y', '\n', 'b'] := by
  have hedits : replaceRanges ['é', 'b'] [(2, 2, ['x', '\n']), (0, 3, ['y'])] =
      some ['y', '\n', 'b'] := by decide
  exact ⟨hedits, (piece_table_refines_string _ _ hedits).1⟩

end Hapcli.Editor
