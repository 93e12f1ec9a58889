/-
  Subject:   What the modem protocols run over: their errors (`error.rs`), the byte channel
             (`io.rs`), the files they read from and write to.

  A transfer is a program (`ModemProc`) that reads and writes bytes on its channel and calls the
  host: `open_writer` for a file header, `write_all` and `flush` on the writer opened last. The
  host answers each call; `writtenFiles` reads off a list of calls which bytes each writer got.

  A file to send is any `Read` (with `Seek` for ZMODEM). `Delivers r bs`: the reader hands out
  exactly `bs`, in pieces of its own choosing. `readPadded_spec` is the one fact the senders use.
-/
import Hapcli.Process.Reading
import Hapcli.Rust.Text
import Mathlib.Data.List.ModifyLast

namespace Hapcli.Modem

open Hapcli.Process Hapcli.Rust

/-! ## 1. Errors -/

inductive ModemError where
  | incomplete
  | invalidMarker
  | invalidFrameType
  | invalidFrameEncoding
  | invalidBlockNumber
  | invalidChecksum
  | invalidCrc
  | invalidLength
  | invalidEscape
  | invalidFileName
  deriving DecidableEq

/-- `ModemTransferError`; an `std::io::Error` is known by its text. -/
inductive ModemTransferError where
  | protocol (error : ModemError)
  | io (error : Str)
  | timeout
  | cancelled
  | unexpectedByte (byte : UInt8)
  | unexpectedFrame
  | unsupportedFileSize (size : Nat)
  | inputBufferOverflow (limit : Nat)
  deriving DecidableEq

/-- `?` on a `ModemError`. -/
def liftError {α : Type} : Except ModemError α → Except ModemTransferError α
  | .ok a => .ok a
  | .error e => .error (.protocol e)

@[simp] theorem liftError_ok {α : Type} (a : α) : liftError (.ok a) = .ok a := rfl

@[simp] theorem liftError_error {α : Type} (e : ModemError) :
    liftError (.error e : Except ModemError α) = .error (.protocol e) := rfl

/-! ## 2. The channel and the host -/

/-- The calls a receiver makes; `write_all` and `flush` are of the writer opened last. -/
inductive FileCall (H : Type) where
  | openWriter (header : H)
  | write (bytes : List UInt8)
  | flush
  deriving DecidableEq

/-- The host's answer to a call. -/
abbrev FileCall.Ans {H : Type} (_ : FileCall H) : Type := Except ModemTransferError Unit

/-- A modem transfer: a program over a `ModemIo` whose host opens files for headers `H`. -/
abbrev ModemProc (H α : Type) : Type 1 :=
  IoProc UInt8 (FileCall H) FileCall.Ans ModemTransferError α

namespace ModemProc

variable {H : Type}

/-- `io.read_byte(timeout)?`. -/
abbrev readByte : ModemProc H UInt8 := IoProc.readByte

/-- `io.write_all(bytes)?`. -/
abbrev writeAll (bytes : List UInt8) : ModemProc H Unit := IoProc.writeAll bytes

/-- A call of the host, its error passed on (`?`). -/
def fileCall (call : FileCall H) : ModemProc H Unit := .act (.call call) fun r => Proc.ofExcept r

end ModemProc

variable {H : Type}

theorem safe_fileCall
    {I : Proc.Hist (IoOp UInt8 (FileCall H)) (IoOp.Ans ModemTransferError FileCall.Ans) → Prop}
    {P : Proc.Hist (IoOp UInt8 (FileCall H)) (IoOp.Ans ModemTransferError FileCall.Ans) → Prop}
    {t : Proc.Hist (IoOp UInt8 (FileCall H)) (IoOp.Ans ModemTransferError FileCall.Ans)}
    {call : FileCall H} (hI : I t) (hc : ∀ r, I (t ++ [⟨.call call, r⟩]))
    (hP : ∀ r, P (t ++ [⟨.call call, r⟩])) :
    Proc.Safe I (Proc.onReturn fun _ => P) t (ModemProc.fileCall call) :=
  Proc.safe_act hI fun r => Proc.safe_check (hc r) fun _ _ => hP r

/-- A host that refuses nothing. -/
def accepts {H : Type} (call : FileCall H) (answer : call.Ans) : Prop := answer = .ok ()

/-- What a call does to the files opened so far, newest last: open another, append to the newest. -/
def applyCall {H : Type} (files : List (H × List UInt8)) : FileCall H → List (H × List UInt8)
  | .openWriter header => files ++ [(header, [])]
  | .write bytes => files.modifyLast fun (header, written) => (header, written ++ bytes)
  | .flush => files

variable (files : List (H × List UInt8))

@[simp] theorem applyCall_openWriter (header : H) :
    applyCall files (.openWriter header) = files ++ [(header, [])] := rfl

@[simp] theorem applyCall_write (header : H) (written bytes : List UInt8) :
    applyCall (files ++ [(header, written)]) (.write bytes) =
      files ++ [(header, written ++ bytes)] :=
  List.modifyLast_concat _ _ _

@[simp] theorem applyCall_flush : applyCall files .flush = files := rfl

theorem foldl_write (header : H) (written : List UInt8) (writes : List (List UInt8)) :
    (writes.map FileCall.write).foldl applyCall (files ++ [(header, written)]) =
      files ++ [(header, written ++ writes.flatten)] := by
  induction writes generalizing written with
  | nil => simp
  | cons w writes ih => simp [ih]

/-- The calls of a receiver that gets a file for `header` in the given pieces. -/
def fileLog {H : Type} (header : H) (writes : List (List UInt8)) : List (FileCall H) :=
  .openWriter header :: (writes.map .write ++ [.flush])

theorem foldl_fileLog (header : H) (writes : List (List UInt8)) :
    (fileLog header writes).foldl applyCall files = files ++ [(header, writes.flatten)] := by
  simp [fileLog, foldl_write]

/-- The files a list of calls leaves: each header opened, with the bytes its writer got. -/
def writtenFiles {H : Type} (calls : List (FileCall H)) : List (H × List UInt8) :=
  calls.foldl applyCall []

@[simp] theorem writtenFiles_append (calls more : List (FileCall H)) :
    writtenFiles (calls ++ more) = more.foldl applyCall (writtenFiles calls) := by
  simp [writtenFiles]

/-- The bytes a writer got from a list of calls. -/
def writtenBytes {H : Type} (calls : List (FileCall H)) : List UInt8 :=
  calls.flatMap fun
    | .write bytes => bytes
    | _ => []

@[simp] theorem writtenBytes_append (calls more : List (FileCall H)) :
    writtenBytes (calls ++ more) = writtenBytes calls ++ writtenBytes more :=
  List.flatMap_append

theorem writtenBytes_writes (writes : List (List UInt8)) :
    writtenBytes (writes.map .write : List (FileCall H)) = writes.flatten := by
  induction writes with
  | nil => rfl
  | cons w writes ih => simpa [writtenBytes] using ih

/-- `MemoryModemIo`: a channel whose input is given whole; a read past its end times out. -/
def memoryModemIo {H : Type} : Host (FileCall H) FileCall.Ans ModemTransferError where
  onEof := .timeout
  onCall _ := .ok ()

/-! ## 3. Readers -/

/-- `std::io::Read`: the bytes put into a buffer with the given room, and the reader after it. -/
class Read (R : Type) where
  read : R → Nat → Except ModemTransferError (List UInt8 × R)

/-- `std::io::Seek` to a position from the start. -/
class Seek (R : Type) where
  seek : R → Nat → Except ModemTransferError R

/-- A slice of bytes as a reader. -/
instance : Read (List UInt8) where
  read bytes room := .ok (bytes.take room, bytes.drop room)

structure Cursor where
  data : List UInt8
  pos : Nat := 0

instance : Read Cursor where
  read c room :=
    let bytes := (c.data.drop c.pos).take room
    .ok (bytes, { c with pos := c.pos + bytes.length })

instance : Seek Cursor where
  seek c pos := .ok { c with pos := pos }

/-- `reader.take(limit)`. -/
structure Take (R : Type) where
  inner : R
  limit : Nat

instance {R : Type} [Read R] : Read (Take R) where
  read t room :=
    if t.limit = 0 then .ok ([], t)
    else match Read.read t.inner (min room t.limit) with
      | .ok (bytes, inner) => .ok (bytes, ⟨inner, t.limit - bytes.length⟩)
      | .error e => .error e

variable {R : Type} [Read R]

/-- `read_padded` / `read_padded_exact`: read until the room is full or the reader at its end. -/
def readPadded (reader : R) (room : Nat) : Except ModemTransferError (List UInt8 × R) :=
  if _hroom : room = 0 then .ok ([], reader)
  else match Read.read reader room with
    | .error e => .error e
    | .ok (piece, reader) =>
      if _hpiece : piece = [] then .ok ([], reader)
      else match readPadded reader (room - piece.length) with
        | .error e => .error e
        | .ok (rest, reader) => .ok (piece ++ rest, reader)
termination_by room
decreasing_by
  have := List.length_pos_iff.mpr _hpiece
  omega

/-- **The reader hands out exactly `bytes`**, in pieces of its own choosing, none empty before the
    end: some relation between readers and what is left is kept by every read. -/
def Delivers (reader : R) (bytes : List UInt8) : Prop :=
  ∃ holds : R → List UInt8 → Prop, holds reader bytes ∧ ∀ r bs, holds r bs → ∀ room, 0 < room →
    ∃ piece rest r', bs = piece ++ rest ∧ piece.length ≤ room ∧ (piece = [] → bs = []) ∧
      Read.read r room = .ok (piece, r') ∧ holds r' rest

variable {bytes : List UInt8} {reader : R}

theorem Delivers.read (h : Delivers reader bytes) (room : Nat) (hroom : 0 < room) :
    ∃ piece rest r', bytes = piece ++ rest ∧ piece.length ≤ room ∧ (piece = [] → bytes = []) ∧
      Read.read reader room = .ok (piece, r') ∧ Delivers r' rest := by
  obtain ⟨holds, h0, hstep⟩ := h
  obtain ⟨piece, rest, r', h1, h2, h3, h4, h5⟩ := hstep reader bytes h0 room hroom
  exact ⟨piece, rest, r', h1, h2, h3, h4, holds, h5, hstep⟩

theorem delivers_slice (bytes : List UInt8) : Delivers bytes bytes := by
  refine ⟨(· = ·), rfl, ?_⟩
  rintro r _ rfl room hroom
  refine ⟨r.take room, r.drop room, r.drop room, (List.take_append_drop room r).symm,
    List.length_take_le room r, fun h => ?_, rfl, rfl⟩
  rcases List.take_eq_nil_iff.mp h with h | h
  · omega
  · exact h

theorem delivers_cursor (c : Cursor) : Delivers c (c.data.drop c.pos) := by
  refine ⟨fun c bs => bs = c.data.drop c.pos, rfl, ?_⟩
  rintro r bs rfl room hroom
  refine ⟨(r.data.drop r.pos).take room, (r.data.drop r.pos).drop room, _,
    (List.take_append_drop room _).symm, List.length_take_le room _, fun h => ?_, rfl, ?_⟩
  · rcases List.take_eq_nil_iff.mp h with h | h
    · omega
    · exact h
  · change _ = r.data.drop (r.pos + _)
    rw [← List.drop_drop, List.length_take]
    rcases Nat.le_total room (r.data.drop r.pos).length with h | h
    · rw [Nat.min_eq_left h]
    · rw [Nat.min_eq_right h, List.drop_of_length_le h, List.drop_length]

theorem Delivers.take (h : Delivers reader bytes) (limit : Nat) :
    Delivers (Take.mk reader limit) (bytes.take limit) := by
  refine ⟨fun t bs => ∃ all, Delivers t.inner all ∧ bs = all.take t.limit, ⟨bytes, h, rfl⟩, ?_⟩
  rintro ⟨r, limit⟩ bs ⟨all, hall, rfl⟩ room hroom
  by_cases hl : limit = 0
  · subst hl
    exact ⟨[], [], _, rfl, Nat.zero_le _, fun _ => rfl, rfl, all, hall, rfl⟩
  · obtain ⟨piece, rest, r', hp, hlen, hnil, hread, hrest⟩ :=
      hall.read (min room limit) (by omega)
    refine ⟨piece, rest.take (limit - piece.length), ⟨r', limit - piece.length⟩, ?_, by omega,
      fun h => ?_, ?_, rest, hrest, rfl⟩
    · have hle : piece.length ≤ limit := by omega
      rw [hp, List.take_append, List.take_of_length_le hle]
    · rw [hnil h, List.take_nil]
    · simp only [Read.read, hl, if_false] at hread ⊢
      rw [hread]

/-- What `read_padded` returns: as much as fits, and the reader holds the rest. -/
theorem readPadded_spec (h : Delivers reader bytes) (room : Nat) :
    ∃ reader', readPadded reader room = .ok (bytes.take room, reader') ∧
      Delivers reader' (bytes.drop room) := by
  induction room using Nat.strongRecOn generalizing reader bytes with
  | ind room ih =>
    unfold readPadded
    by_cases hroom : room = 0
    · subst hroom
      exact ⟨reader, by simp, by simpa using h⟩
    · obtain ⟨piece, rest, r', rfl, hlen, hnil, hread, hrest⟩ :=
        h.read room (by omega)
      simp only [hroom, dif_neg, not_false_iff, hread]
      by_cases hp : piece = []
      · subst hp
        have : rest = [] := by simpa using hnil rfl
        subst this
        exact ⟨r', by simp, by simpa using hrest⟩
      · have hpos := List.length_pos_iff.mpr hp
        obtain ⟨r'', hr'', hd⟩ := ih (room - piece.length) (by omega) hrest
        refine ⟨r'', ?_, ?_⟩
        · simp only [hp, dif_neg, not_false_iff, hr'', List.take_append,
            List.take_of_length_le hlen]
        · rwa [List.drop_append, List.drop_of_length_le hlen, List.nil_append]

end Hapcli.Modem
