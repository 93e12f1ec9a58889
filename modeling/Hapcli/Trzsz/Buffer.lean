/-
  Subject:   What a trzsz transfer runs over: its errors (`error.rs`), the calls it makes, the
             buffer its input arrives in (`buffer.rs`).

  The transport pushes chunks, the transfer reads lines and counted bytes. `next_buffer` shows a
  non-empty piece of what has arrived and `consume` takes a part of it: together one `nextBuffer`
  operation, since a transfer has one reader.
-/
import Hapcli.Process.Joint
import Hapcli.Rust.Text

namespace Hapcli.Trzsz

open Hapcli.Process Hapcli.Rust Proc

/-! ## 1. Errors and calls -/

/-- `TrzszError`; an `std::io::Error` is known by its text. -/
inductive TrzszError where
  | invalidApiVersion (expected got : Nat)
  | invalidOwnerId
  | invalidPath (path : Str)
  | unauthorizedPath (path : Str)
  | directoryNotAllowed (path : Str)
  | symlinkNotAllowed (path : Str)
  | reservedName (name : Str)
  | rootNotPrepared
  | rootMismatch
  | handleNotFound (handle : Str)
  | handleOwnerMismatch
  | alreadyExists (path : Str)
  | maxFileCountExceeded (selected max : Nat)
  | maxTotalBytesExceeded (selected max : Nat)
  | invalidState (message : Str)
  | invalidOffset (offset size : Nat)
  | chunkTooLarge (requested max : Nat)
  | io (error : Str)
  deriving DecidableEq

/-- How a transfer ends early: with an error, or because its thread panics. -/
inductive Failure where
  | error (error : TrzszError)
  | panic
  deriving DecidableEq

/-- A `TrzszFileWriter`, what it tells about itself. -/
structure SaveFile where
  fileName : Str
  localName : Str
  isDir : Bool
  deriving DecidableEq

/-- The fallible methods of a `TrzszFileWriter`. -/
inductive WriterOp where
  | writeFile (data : List UInt8)
  | finishFile
  | abortFile
  | commitFile
  deriving DecidableEq

/-- The calls a transfer makes: `open_save_file` and the writer of each file, by its number; and the
    clock, known by how much of the file went before. -/
inductive TrzszCall where
  | elapsed (file step : Nat)
  | openSaveFile (file : Nat) (fileName : Str) (directory overwrite : Bool)
  | closeFile (file : Nat)
  | writer (file : Nat) (op : WriterOp)
  deriving DecidableEq

/-- What each call answers; a time is in milliseconds. -/
def TrzszCall.Ans : TrzszCall → Type
  | .elapsed .. => Nat
  | .openSaveFile .. => Except TrzszError SaveFile
  | .closeFile _ => Unit
  | .writer .. => Except TrzszError Unit

/-- A program of a trzsz transfer. -/
abbrev TrzszProc (α : Type) : Type 1 := IoProc UInt8 TrzszCall TrzszCall.Ans Failure α

/-- `return Err(TrzszError::InvalidState(..))`. -/
def invalidState {α : Type} (message : Str) : TrzszProc α := fail (.error (.invalidState message))

/-- `?` on a `Result<_, TrzszError>`. -/
def check {α : Type} : Except TrzszError α → TrzszProc α
  | .ok a => ret a
  | .error e => fail (.error e)

@[simp] theorem check_ok {α : Type} (a : α) : check (.ok a) = ret a := rfl

/-! ## 2. Reading -/

def newline : UInt8 := 0x0a

def bang : UInt8 := 0x21

/-- The bytes of a piece that are consumed: up to the delimiter and with it, or all. -/
def consumedTo (delimiter : UInt8) (next : List UInt8) : Nat :=
  match next.findIdx? (· == delimiter) with
  | some index => index + 1
  | none => next.length

/-- The bytes of a piece before the delimiter, or all. -/
def textBefore (delimiter : UInt8) (next : List UInt8) : List UInt8 :=
  match next.findIdx? (· == delimiter) with
  | some index => next.take index
  | none => next

/-- A turn of the loop of `read_line`; the byte consumed last tells `previous_chunk_had_newline`
    whether the line is complete. -/
def readLineTurn (buffer : List UInt8) : TrzszProc (Turn (List UInt8) Str) := do
  let next ← IoProc.nextBuffer (consumedTo newline)
  if 0x03 ∈ textBefore newline next then invalidState "Interrupted".toList
  else if (next.take (consumedTo newline next)).getLast? = some newline then
    ret (.done (fromUtf8Lossy (buffer ++ textBefore newline next)))
  else ret (.again (buffer ++ textBefore newline next))

def readLine : TrzszProc Str := loop readLineTurn []

/-- A turn of the loop of `read_binary`. -/
def readBinaryTurn (length : Nat) (buffer : List UInt8) :
    TrzszProc (Turn (List UInt8) (List UInt8)) :=
  if buffer.length < length then do
    let remaining := length - buffer.length
    let next ← IoProc.nextBuffer fun next => min next.length remaining
    ret (.again (buffer ++ next.take remaining))
  else ret (.done buffer)

def readBinary (length : Nat) : TrzszProc (List UInt8) := loop (readBinaryTurn length) []

def isAsciiDigit (b : UInt8) : Bool := 0x30 ≤ b && b ≤ 0x39

/-- `is_vt100_end`: `is_ascii_alphabetic`. -/
def isVt100End (b : UInt8) : Bool := (0x41 ≤ b && b ≤ 0x5a) || (0x61 ≤ b && b ≤ 0x7a)

def isTrzszLetter (b : UInt8) : Bool :=
  isAsciiDigit b || isVt100End b || b == 0x23 || b == 0x3a || b == 0x2b || b == 0x2f || b == 0x3d

/-- The variables of `read_line_on_windows`. -/
structure WindowsScan where
  buffer : List UInt8 := []
  lastByte : UInt8 := 0x1b
  skipVt100 : Bool := false
  hasNewline : Bool := false
  mayDuplicate : Bool := false
  hasCursorHome : Bool := false
  previousHasCursorHome : Bool := false
  deriving DecidableEq

namespace WindowsScan

/-- A letter that is not a repetition. -/
def append (scan : WindowsScan) (code : UInt8) : WindowsScan :=
  { scan with
    buffer := scan.buffer ++ [code], previousHasCursorHome := scan.hasCursorHome,
    hasCursorHome := false, hasNewline := false }

/-- A byte within a VT100 sequence. -/
def skip (scan : WindowsScan) (code : UInt8) : WindowsScan :=
  { scan with
    skipVt100 := scan.skipVt100 && !isVt100End code,
    mayDuplicate := scan.mayDuplicate || (code == 0x48 && isAsciiDigit scan.lastByte),
    hasCursorHome := scan.hasCursorHome || (scan.lastByte == 0x5b && code == 0x48),
    lastByte := code }

/-- A letter, which may repeat the one before it across a line wrap. -/
def letter (scan : WindowsScan) (code : UInt8) : WindowsScan :=
  if scan.mayDuplicate then
    if scan.hasNewline && scan.buffer ≠ [] &&
        (scan.buffer.getLast? == some code || scan.previousHasCursorHome) then
      { scan with mayDuplicate := false, buffer := scan.buffer.dropLast ++ [code] }
    else { scan with mayDuplicate := false }.append code
  else scan.append code

/-- One byte of `read_line_on_windows`. -/
def push (scan : WindowsScan) (code : UInt8) : Except Failure WindowsScan :=
  if code = 0x03 then .error (.error (.invalidState "Interrupted".toList))
  else
    let scan := { scan with hasNewline := scan.hasNewline || code == newline }
    if scan.skipVt100 then .ok (scan.skip code)
    else if code = 0x1b then .ok { scan with skipVt100 := true, lastByte := code }
    else if ¬ isTrzszLetter code then .ok scan
    else .ok (scan.letter code)

end WindowsScan

/-- A turn of the loop of `read_line_on_windows`. -/
def readLineOnWindowsTurn (scan : WindowsScan) : TrzszProc (Turn WindowsScan Str) := do
  let next ← IoProc.nextBuffer (consumedTo bang)
  let scan ← ofExcept ((textBefore bang next).foldlM WindowsScan.push scan)
  if bang ∈ next ∧ scan.buffer ≠ [] ∧ scan.skipVt100 = false then
    ret (.done (fromUtf8Lossy scan.buffer))
  else ret (.again scan)

def readLineOnWindows : TrzszProc Str := loop readLineOnWindowsTurn {}

/-! ## 3. A line is read up to its end -/

variable {delimiter : UInt8} {line : List UInt8}

theorem position_hit {tail : List UInt8} (h : delimiter ∉ line) :
    (line ++ delimiter :: tail).findIdx? (· == delimiter) = some line.length :=
  findIdx?_first (fun _ hx => beq_eq_false_iff_ne.mpr fun he => h (he ▸ hx)) (beq_self_eq_true _)

theorem position_miss {piece : List UInt8} (h : delimiter ∉ piece) :
    piece.findIdx? (· == delimiter) = none :=
  List.findIdx?_eq_none_iff.mpr fun _ hx => beq_eq_false_iff_ne.mpr fun he => h (he ▸ hx)

section Follows

variable {ok : (e : TrzszCall) → e.Ans → Prop}

theorem follows_delimited {α : Type} {k : Except Failure (List UInt8) → TrzszProc α}
    {σ : List (Evt UInt8 TrzszCall)} {r : Except Failure α} (hline : delimiter ∉ line)
    (hhit : ∀ tail, Follows ok (k (.ok (line ++ delimiter :: tail))) σ r)
    (hmiss : ∀ piece more, piece ≠ [] → line = piece ++ more →
      Follows ok (k (.ok piece)) (receives (more ++ [delimiter]) ++ σ) r) :
    Follows ok (.act (.nextBuffer (consumedTo delimiter)) k) (receives (line ++ [delimiter]) ++ σ) r := by
  have hcases : ∀ piece rest ext : List UInt8, piece ++ rest = line ++ [delimiter] ++ ext →
      (∃ tail, piece = line ++ delimiter :: tail) ∨ ∃ more, line = piece ++ more := by
    intro piece rest ext h
    rw [List.append_assoc] at h
    rcases List.append_eq_append_iff.mp h with ⟨more, hmore, -⟩ | ⟨tail, htail, hrest⟩
    · exact .inr ⟨more, hmore⟩
    · cases tail with
      | nil => exact .inr ⟨[], by simpa using htail.symm⟩
      | cons b tail =>
        obtain ⟨rfl, -⟩ := List.cons.inj hrest
        exact .inl ⟨tail, htail⟩
  refine .nextBuffer (by simp) (fun piece rest ext hne h => ?_) fun piece rest ext hne h => ?_
  · rcases hcases piece rest ext h with ⟨tail, rfl⟩ | ⟨more, rfl⟩
    · simp [consumedTo, position_hit hline]
    · rw [List.mem_append, not_or] at hline
      simp [consumedTo, position_miss hline.1]
  · rcases hcases piece rest ext h with ⟨tail, rfl⟩ | ⟨more, rfl⟩
    · have hall : (line ++ [delimiter]).drop (consumedTo delimiter (line ++ delimiter :: tail)) = [] := by
        simp [consumedTo, position_hit hline]
      rw [hall]
      exact hhit tail
    · rw [List.mem_append, not_or] at hline
      have hrest : (piece ++ more ++ [delimiter]).drop (consumedTo delimiter piece) =
          more ++ [delimiter] := by
        simp [consumedTo, position_miss hline.1]
      rw [hrest]
      exact hmiss piece more hne rfl

theorem consumed_hit (tail : List UInt8) (h : delimiter ∉ line) :
    textBefore delimiter (line ++ delimiter :: tail) = line ∧
      (line ++ delimiter :: tail).take (consumedTo delimiter (line ++ delimiter :: tail)) =
        line ++ [delimiter] := by
  have htake : (line ++ delimiter :: tail).take (line.length + 1) = line ++ [delimiter] := by
    rw [List.append_cons]
    exact List.take_left' (by simp)
  simp [textBefore, consumedTo, position_hit h, htake]

theorem consumed_miss {piece : List UInt8} (h : delimiter ∉ piece) :
    textBefore delimiter piece = piece ∧ piece.take (consumedTo delimiter piece) = piece := by
  simp [textBefore, consumedTo, position_miss h]

/-- `read_line` reads a line and its end, in whatever pieces it arrives. -/
theorem follows_readLine {line : Str} (hline : '\n' ∉ line) (hint : '\x03' ∉ line) :
    Follows ok readLine (receives (asBytes line ++ [newline])) (.ok line) := by
  have hbyte : ∀ (c : Char) (b : UInt8), b.toNat < 0x80 → c.toNat = b.toNat → c ∉ line →
      b ∉ asBytes line := by
    intro c b hb hcb hc hmem
    obtain ⟨d, hd, hdb⟩ := mem_asBytes_ascii hb hmem
    exact hc (Char.toNat_inj.mp (hcb.trans hdb.symm) ▸ hd)
  have hnl := hbyte '\n' newline (by decide) (by decide) hline
  have h03 := hbyte '\x03' 0x03 (by decide) (by decide) hint
  -- the induction is on what is still to come, the buffer holds the rest
  suffices h : ∀ n (buffer rest : List UInt8), rest.length = n → buffer ++ rest = asBytes line →
      Follows ok (.iter readLineTurn buffer ret) (receives (rest ++ [newline])) (.ok line) from
    h _ [] _ rfl rfl
  intro n
  induction n using Nat.strongRecOn with
  | ind n ih =>
    intro buffer rest hlen hall
    have hrest : newline ∉ rest := fun h => hnl (hall ▸ List.mem_append_right _ h)
    have hint' : (0x03 : UInt8) ∉ rest := fun h => h03 (hall ▸ List.mem_append_right _ h)
    refine .turn (Follows.cast ?_ (List.append_nil _))
    refine follows_delimited hrest (fun tail => ?_) fun piece more hne hsplit => ?_
    · have hhit := consumed_hit tail hrest
      change Follows ok (Proc.bind (ite _ _ _) _) [] _
      rw [hhit.1, hhit.2, if_neg hint', if_pos (by simp), hall, fromUtf8Lossy_asBytes]
      exact .ret line
    · have hp : newline ∉ piece := fun h => hrest (hsplit ▸ List.mem_append_left _ h)
      have hmiss := consumed_miss hp
      change Follows ok (Proc.bind (ite _ _ _) _) _ _
      rw [hmiss.1, hmiss.2, if_neg fun h => hint' (hsplit ▸ List.mem_append_left _ h),
        if_neg fun h => hp (List.mem_of_getLast? h), List.append_nil]
      refine ih more.length ?_ (buffer ++ piece) more rfl ?_
      · have hpos := List.length_pos_iff.mpr hne
        rw [← hlen, hsplit, List.length_append]
        omega
      · rw [List.append_assoc, ← hsplit, hall]

/-- Letters and line feeds outside a VT100 sequence: the letters are appended. -/
theorem windowsScan_letters {scan : WindowsScan} {next : List UInt8}
    (hskip : scan.skipVt100 = false) (hdup : scan.mayDuplicate = false)
    (hnext : ∀ b ∈ next, isTrzszLetter b = true ∨ b = newline) :
    ∃ scan', next.foldlM WindowsScan.push scan = .ok scan' ∧ scan'.skipVt100 = false ∧
      scan'.mayDuplicate = false ∧ scan'.buffer = scan.buffer ++ next.filter isTrzszLetter := by
  induction next generalizing scan with
  | nil => exact ⟨scan, rfl, hskip, hdup, (List.append_nil _).symm⟩
  | cons b next ih =>
    have hrest : ∀ b ∈ next, isTrzszLetter b = true ∨ b = newline := fun c hc =>
      hnext c (List.mem_cons_of_mem _ hc)
    have hplain : b ≠ 0x03 ∧ b ≠ 0x1b := by
      have hall : ∀ b : UInt8, isTrzszLetter b = true ∨ b = newline → b ≠ 0x03 ∧ b ≠ 0x1b := by
        refine forall_byte ?_
        decide +kernel
      exact hall b (hnext b List.mem_cons_self)
    by_cases hb : isTrzszLetter b = true
    · have hpush : scan.push b = .ok (({ scan with hasNewline := scan.hasNewline || b == newline } :
          WindowsScan).append b) := by
        simp [WindowsScan.push, hplain, hskip, hb, WindowsScan.letter, hdup]
      obtain ⟨scan', hfold, h1, h2, h3⟩ := @ih (({ scan with
        hasNewline := scan.hasNewline || b == newline } : WindowsScan).append b) hskip hdup hrest
      refine ⟨scan', ?_, h1, h2, ?_⟩
      · rw [List.foldlM_cons, hpush]
        exact hfold
      · rw [h3, List.filter_cons_of_pos hb]
        simp [WindowsScan.append]
    · have hpush : scan.push b =
          .ok { scan with hasNewline := scan.hasNewline || b == newline } := by
        simp [WindowsScan.push, hplain, hskip, hb]
      obtain ⟨scan', hfold, h1, h2, h3⟩ := @ih { scan with
        hasNewline := scan.hasNewline || b == newline } hskip hdup hrest
      refine ⟨scan', ?_, h1, h2, ?_⟩
      · rw [List.foldlM_cons, hpush]
        exact hfold
      · rw [h3, List.filter_cons_of_neg hb]

theorem follows_readLineOnWindows {line : Str} (bytes : List UInt8) (hne : line ≠ [])
    (hbytes : ∀ b ∈ bytes, isTrzszLetter b = true ∨ b = newline)
    (hline : bytes.filter isTrzszLetter = asBytes line) :
    Follows ok readLineOnWindows (receives (bytes ++ [bang])) (.ok line) := by
  have hbang : bang ∉ bytes := by
    intro h
    rcases hbytes bang h with h | h <;> exact absurd h (by decide)
  suffices h : ∀ n (scan : WindowsScan) (rest : List UInt8), rest.length = n →
      scan.skipVt100 = false → scan.mayDuplicate = false →
      (∀ b ∈ rest, isTrzszLetter b = true ∨ b = newline) → bang ∉ rest →
      scan.buffer ++ rest.filter isTrzszLetter = asBytes line →
      Follows ok (.iter readLineOnWindowsTurn scan ret) (receives (rest ++ [bang])) (.ok line) from
    h _ {} bytes rfl rfl rfl hbytes hbang hline
  intro n
  induction n using Nat.strongRecOn with
  | ind n ih =>
    intro scan rest hlen hskip hdup hrest hnobang hall
    refine .turn (Follows.cast ?_ (List.append_nil _))
    refine follows_delimited hnobang (fun tail => ?_) fun piece more hpiece hsplit => ?_
    · obtain ⟨scan', hfold, h1, h2, h3⟩ := windowsScan_letters hskip hdup hrest
      have hbuffer : scan'.buffer = asBytes line := h3.trans hall
      change Follows ok (Proc.bind (Proc.bind (ofExcept
        (List.foldlM WindowsScan.push scan (textBefore bang (rest ++ bang :: tail)))) _) _) [] _
      rw [(consumed_hit _ hnobang).1, hfold]
      change Follows ok (Proc.bind (ite _ _ _) _) [] _
      rw [if_pos ⟨by simp, hbuffer ▸ asBytes_ne_nil hne, h1⟩, hbuffer, fromUtf8Lossy_asBytes]
      exact .ret line
    · have hp : bang ∉ piece := fun h => hnobang (hsplit ▸ List.mem_append_left _ h)
      obtain ⟨scan', hfold, h1, h2, h3⟩ := windowsScan_letters hskip hdup
        fun b hb => hrest b (hsplit ▸ List.mem_append_left _ hb)
      change Follows ok (Proc.bind (Proc.bind (ofExcept
        (List.foldlM WindowsScan.push scan (textBefore bang piece))) _) _) _ _
      rw [(consumed_miss hp).1, hfold]
      change Follows ok (Proc.bind (ite _ _ _) _) _ _
      rw [if_neg fun h => hp h.1, List.append_nil]
      refine ih more.length ?_ scan' more rfl h1 h2
        (fun b hb => hrest b (hsplit ▸ List.mem_append_right _ hb))
        (fun h => hnobang (hsplit ▸ List.mem_append_right _ h)) ?_
      · have hpos := List.length_pos_iff.mpr hpiece
        rw [← hlen, hsplit, List.length_append]
        omega
      · rw [h3, List.append_assoc, ← List.filter_append, ← hsplit, hall]

end Follows

end Hapcli.Trzsz
