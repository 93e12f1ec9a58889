/-
  Subject:   `TrzszBuffer` on the chunks that are pushed: what a read returns does not depend on
             where they are cut.

  The buffer is not stopped. A chunk that arrives while a read waits is in the queue from the
  start: a read that waits for ever is one that does not return.

  * **`Bytewise`** -- a turn of a loop over a piece is some steps of the scan;
  * **`reads_independent_of_chunking`** -- any two cuts of a stream give the same results.
-/
import Hapcli.Trzsz.Buffer

namespace Hapcli.Trzsz

open Hapcli.Process Hapcli.Rust Proc

/-! ## 1. The buffer -/

/-- `BufferState`, of a buffer that is not stopped. -/
structure BufferState where
  queue : List (List UInt8)
  nextBuffer : List UInt8 := []
  nextIndex : Nat := 0

namespace BufferState

/-- The loop of `next_buffer` over the queue; `none` waits. -/
def popLoop : List (List UInt8) → Option (List UInt8 × BufferState)
  | [] => none
  | chunk :: queue =>
    if 0 < chunk.length then some (chunk, { queue, nextBuffer := chunk }) else popLoop queue

/-- `next_buffer`. -/
def next (state : BufferState) : Option (List UInt8 × BufferState) :=
  if state.nextIndex < state.nextBuffer.length then
    some (state.nextBuffer.drop state.nextIndex, state)
  else popLoop state.queue

def consume (state : BufferState) (length : Nat) : BufferState :=
  { state with nextIndex := state.nextIndex + length }

/-- What is not consumed yet. -/
def unread (state : BufferState) : List UInt8 :=
  state.nextBuffer.drop state.nextIndex ++ state.queue.flatten

theorem popLoop_cases (queue : List (List UInt8)) :
    (popLoop queue = none ∧ queue.flatten = []) ∨
    ∃ chunk rest, popLoop queue = some (chunk, { queue := rest, nextBuffer := chunk }) ∧
      chunk ≠ [] ∧ queue.flatten = chunk ++ rest.flatten := by
  induction queue with
  | nil => exact .inl ⟨rfl, rfl⟩
  | cons chunk queue ih =>
    rw [popLoop]
    cases chunk with
    | nil => simpa using ih
    | cons b chunk => exact .inr ⟨b :: chunk, queue, rfl, nofun, rfl⟩

/-- `next_buffer` shows the beginning of what is unread, and waits only where nothing is. -/
theorem next_cases (state : BufferState) :
    (state.next = none ∧ state.unread = []) ∨
    ∃ piece after rest, state.next = some (piece, after) ∧ piece ≠ [] ∧
      state.unread = piece ++ rest ∧ ∀ n, (after.consume n).unread = piece.drop n ++ rest := by
  unfold next unread
  split
  · rename_i hlt
    refine .inr ⟨_, state, state.queue.flatten, rfl, ?_, rfl, fun n => ?_⟩
    · rw [ne_eq, List.drop_eq_nil_iff]
      omega
    · rw [consume, List.drop_drop]
  · rename_i hge
    rw [List.drop_eq_nil_of_le (Nat.le_of_not_lt hge), List.nil_append]
    rcases popLoop_cases state.queue with hnone | ⟨chunk, rest, hpop, hne, hqueue⟩
    · exact .inl hnone
    · refine .inr ⟨chunk, _, rest.flatten, hpop, hne, hqueue, fun n => ?_⟩
      rw [consume, Nat.zero_add]

end BufferState

/-- The buffer answers what a program does, one `next_buffer` and `consume` after the other. -/
inductive Serves : BufferState →
    List (Event (IoOp UInt8 TrzszCall) (IoOp.Ans Failure TrzszCall.Ans)) → BufferState → Prop where
  | nil (state : BufferState) : Serves state [] state
  | cons {state after last : BufferState} {take : List UInt8 → Nat} {piece : List UInt8}
      {h : List (Event (IoOp UInt8 TrzszCall) (IoOp.Ans Failure TrzszCall.Ans))}
      (hnext : state.next = some (piece, after))
      (hrest : Serves (after.consume (take piece)) h last) :
      Serves state (⟨.nextBuffer take, .ok piece⟩ :: h) last

/-- A program returns and leaves the buffer in a state. -/
def Returns {α : Type} (state : BufferState) (p : TrzszProc α) (r : Except Failure α)
    (last : BufferState) : Prop :=
  ∃ n h, Run n p h (ofExcept r) ∧ Serves state h last

/-! ## 2. Byte by byte -/

section Bytewise

variable {σ β α : Type} {settled : σ → Option β} {step : σ → UInt8 → Turn σ β}

/-- A read of a stream byte by byte; `none` waits for more. -/
@[grind] def scan (settled : σ → Option β) (step : σ → UInt8 → Turn σ β) :
    List UInt8 → Turn σ β → Option (β × List UInt8)
  | bytes, .done b => some (b, bytes)
  | [], .again s => (settled s).map fun b => (b, [])
  | byte :: bytes, .again s =>
    match settled s with
    | some b => some (b, byte :: bytes)
    | none => scan settled step bytes (step s byte)

/-- A loop that reads pieces is the scan: a settled state ends it without a read, and a turn over a
    piece is some steps. -/
structure Bytewise (body : σ → TrzszProc (Turn σ β)) (settled : σ → Option β)
    (step : σ → UInt8 → Turn σ β) : Prop where
  leaves : ∀ s b, settled s = some b → body s = ret (.done b)
  reads : ∀ s, settled s = none → ∃ take k, body s = act (.nextBuffer take) k ∧
    ∀ piece, piece ≠ [] → 0x03 ∉ piece → ∃ turn, k (.ok piece) = ret turn ∧ 0 < take piece ∧
      ∀ rest, scan settled step (piece ++ rest) (.again s) =
        scan settled step (piece.drop (take piece) ++ rest) turn

theorem scan_done (bytes : List UInt8) (b : β) :
    scan settled step bytes (.done b) = some (b, bytes) := by
  cases bytes <;> rfl

theorem scan_settled {s : σ} {b : β} (h : settled s = some b) (bytes : List UInt8) :
    scan settled step bytes (.again s) = some (b, bytes) := by
  cases bytes <;> simp [scan, h]

theorem scan_suffix {bytes tail : List UInt8} {turn : Turn σ β} {b : β}
    (h : scan settled step bytes turn = some (b, tail)) : tail <:+ bytes := by
  induction bytes generalizing turn with
  | nil =>
    cases turn with
    | done b' =>
      cases h
      exact List.suffix_refl _
    | again s =>
      obtain ⟨b', -, hb⟩ := Option.map_eq_some_iff.mp h
      cases hb
      exact List.suffix_refl _
  | cons byte bytes ih =>
    cases turn with
    | done b' =>
      cases h
      exact List.suffix_refl _
    | again s =>
      cases hsettled : settled s with
      | some b' =>
        rw [scan_settled hsettled] at h
        cases h
        exact List.suffix_refl _
      | none =>
        rw [scan, hsettled] at h
        exact (ih h).trans (List.suffix_cons _ _)

variable {body : σ → TrzszProc (Turn σ β)} {g : β → α} {r : Except Failure α}
  {hist : List (Event (IoOp UInt8 TrzszCall) (IoOp.Ans Failure TrzszCall.Ans))}
  {state last : BufferState} {n : Nat} {s : σ}

theorem run_ret_inv {a : α} (hrun : Run n (ret a) hist (ofExcept r)) : hist = [] ∧ r = .ok a := by
  cases r with
  | ok b =>
    cases hrun
    exact ⟨rfl, rfl⟩
  | error e => cases hrun

theorem run_iter_inv {k : β → TrzszProc α} (hrun : Run n (.iter body s k) hist (ofExcept r)) :
    ∃ m < n, Run m (unfold body s k) hist (ofExcept r) := by
  cases r <;> cases hrun with
  | turn hrun => exact ⟨_, Nat.lt_succ_self _, hrun⟩

theorem run_act_inv {op : IoOp UInt8 TrzszCall}
    {k : IoOp.Ans Failure TrzszCall.Ans op → TrzszProc α}
    (hrun : Run n (.act op k) hist (ofExcept r)) :
    ∃ m a rest, m < n ∧ hist = ⟨op, a⟩ :: rest ∧ Run m (k a) rest (ofExcept r) := by
  cases r <;> cases hrun with
  | act a hrun => exact ⟨_, a, _, Nat.lt_succ_self _, rfl, hrun⟩

theorem not_mem_drop_append {piece rest : List UInt8} {k : Nat}
    (h : (0x03 : UInt8) ∉ piece ∧ 0x03 ∉ rest) : (0x03 : UInt8) ∉ piece.drop k ++ rest := by
  rw [List.mem_append, not_or]
  exact ⟨fun hmem => h.1 (List.mem_of_mem_drop hmem), h.2⟩

theorem Bytewise.sound (hb : Bytewise body settled step) (hstate : 0x03 ∉ state.unread)
    (h : Returns state (.iter body s fun b => ret (g b)) r last) :
    ∃ b, r = .ok (g b) ∧ scan settled step state.unread (.again s) = some (b, last.unread) := by
  obtain ⟨n, hist, hrun, hserves⟩ := h
  induction n using Nat.strongRecOn generalizing s state hist with
  | ind n ih =>
    obtain ⟨m, hm, hturns⟩ := run_iter_inv hrun
    rw [Proc.unfold] at hturns
    cases hsettled : settled s with
    | some b =>
      rw [hb.leaves s b hsettled] at hturns
      obtain ⟨rfl, rfl⟩ := run_ret_inv hturns
      cases hserves
      exact ⟨b, rfl, scan_settled hsettled _⟩
    | none =>
      obtain ⟨take, k, hbody, hreads⟩ := hb.reads s hsettled
      rw [hbody] at hturns
      obtain ⟨m', a, more, hm', rfl, hrest⟩ := run_act_inv hturns
      cases hserves with
      | cons hnext hserves =>
        rcases state.next_cases with
          ⟨hnone, -⟩ | ⟨piece, after, rest, hsome, hne, hunread, hafter⟩
        · rw [hnone] at hnext
          cases hnext
        · rw [hsome] at hnext
          cases hnext
          rw [hunread, List.mem_append, not_or] at hstate
          obtain ⟨turn, hturn, -, hscan⟩ := hreads _ hne hstate.1
          rw [hturn] at hrest
          rw [hunread, hscan, ← hafter]
          cases turn with
          | again s' =>
            exact ih m' (hm'.trans hm) (hafter _ ▸ not_mem_drop_append hstate) _ hrest hserves
          | done b =>
            obtain ⟨rfl, rfl⟩ := run_ret_inv hrest
            cases hserves
            exact ⟨b, rfl, scan_done _ b⟩

theorem Bytewise.complete (hb : Bytewise body settled step) {b : β} {tail : List UInt8}
    (hstate : 0x03 ∉ state.unread)
    (h : scan settled step state.unread (.again s) = some (b, tail)) :
    ∃ last, Returns state (.iter body s fun b => ret (g b)) (.ok (g b)) last ∧
      last.unread = tail := by
  suffices hall : ∀ length, state.unread.length = length → ∃ last,
      Returns state (.iter body s fun b => ret (g b)) (.ok (g b)) last ∧ last.unread = tail from
    hall _ rfl
  intro length hlength
  induction length using Nat.strongRecOn generalizing s state with
  | ind length ih =>
    cases hsettled : settled s with
    | some b' =>
      rw [scan_settled hsettled] at h
      cases h
      refine ⟨state, ⟨1, [], .turn ?_, .nil state⟩, rfl⟩
      rw [Proc.unfold, hb.leaves s b hsettled]
      exact .here _
    | none =>
      obtain ⟨take, k, hbody, hreads⟩ := hb.reads s hsettled
      rcases state.next_cases with ⟨-, hnil⟩ | ⟨piece, after, rest, hsome, hne, hunread, hafter⟩
      · rw [hnil, scan, hsettled] at h
        cases h
      · rw [hunread, List.mem_append, not_or] at hstate
        obtain ⟨turn, hturn, htake, hscan⟩ := hreads _ hne hstate.1
        rw [hunread, hscan, ← hafter] at h
        -- what is left of the run once the piece is answered
        suffices hrest : ∃ last, Returns (after.consume (take piece))
            ((ret turn).bind (goOn body fun b => ret (g b))) (.ok (g b)) last ∧
            last.unread = tail by
          obtain ⟨last, ⟨n, hist, hrun, hserves⟩, hlast⟩ := hrest
          refine ⟨last, ⟨n + 2, ⟨.nextBuffer take, .ok piece⟩ :: hist, .turn ?_,
            .cons hsome hserves⟩, hlast⟩
          rw [Proc.unfold, hbody]
          refine .act _ ?_
          rw [hturn]
          exact hrun
        cases turn with
        | again s' =>
          have hpos := List.length_pos_iff.mpr hne
          refine ih _ ?_ (hafter _ ▸ not_mem_drop_append hstate) h rfl
          rw [← hlength, hafter, hunread, List.length_append, List.length_append,
            List.length_drop]
          omega
        | done b' =>
          rw [scan_done] at h
          cases h
          exact ⟨_, ⟨0, [], .here _, .nil _⟩, rfl⟩

end Bytewise

/-! ## 3. The reads -/

/-- A byte for `read_line`. -/
def lineStep (buffer : List UInt8) (byte : UInt8) : Turn (List UInt8) Str :=
  if byte = newline then .done (fromUtf8Lossy buffer) else .again (buffer ++ [byte])

/-- When `read_binary` has what it wants. -/
def binarySettled (length : Nat) (buffer : List UInt8) : Option (List UInt8) :=
  if buffer.length < length then none else some buffer

/-- A byte for `read_binary`. -/
def binaryStep (buffer : List UInt8) (byte : UInt8) : Turn (List UInt8) (List UInt8) :=
  .again (buffer ++ [byte])

/-- A byte for `read_line_on_windows`, which is not the one that interrupts. -/
def windowsStep (state : WindowsScan) (byte : UInt8) : Turn WindowsScan Str :=
  if byte = bang then
    if state.buffer ≠ [] ∧ state.skipVt100 = false then .done (fromUtf8Lossy state.buffer)
    else .again state
  else
    match state.push byte with
    | .ok state => .again state
    | .error _ => .again state

variable {buffer line piece rest tail : List UInt8} {delimiter : UInt8} {length : Nat}

theorem drop_consumedTo (h : delimiter ∉ line) :
    (line ++ delimiter :: tail).drop (consumedTo delimiter (line ++ delimiter :: tail)) = tail := by
  rw [consumedTo, position_hit h, List.append_cons]
  exact List.drop_left' (by simp)

theorem consumedTo_pos (h : piece ≠ []) : 0 < consumedTo delimiter piece := by
  unfold consumedTo
  split
  · exact Nat.succ_pos _
  · exact List.length_pos_iff.mpr h

theorem scan_line (h : newline ∉ line) :
    scan (fun _ => none) lineStep (line ++ rest) (.again buffer) =
      scan (fun _ => none) lineStep rest (.again (buffer ++ line)) := by
  induction line generalizing buffer with
  | nil => rw [List.nil_append, List.append_nil]
  | cons byte line ih =>
    rw [List.mem_cons, not_or] at h
    rw [List.cons_append, scan, lineStep, if_neg (Ne.symm h.1), ih h.2, List.append_assoc]
    rfl

theorem bytewise_readLine : Bytewise readLineTurn (fun _ => none) lineStep := by
  refine ⟨nofun, fun buffer _ => ⟨consumedTo newline, _, rfl, fun piece hne hint => ?_⟩⟩
  by_cases hnewline : newline ∈ piece
  · obtain ⟨line, tail, rfl, hline⟩ := List.eq_append_cons_of_mem hnewline
    obtain ⟨hbefore, htaken⟩ := consumed_hit tail hline
    have hline' : 0x03 ∉ line := fun h => hint (List.mem_append_left _ h)
    refine ⟨.done (fromUtf8Lossy (buffer ++ line)), ?_, consumedTo_pos hne, fun rest => ?_⟩
    · show ite _ _ _ = _
      rw [hbefore, htaken, if_neg hline', if_pos (by simp)]
    · rw [drop_consumedTo hline, List.append_assoc, scan_line hline, List.cons_append, scan_done]
      simp [scan, lineStep, scan_done]
  · obtain ⟨hbefore, htaken⟩ := consumed_miss hnewline
    refine ⟨.again (buffer ++ piece), ?_, consumedTo_pos hne, fun rest => ?_⟩
    · show ite _ _ _ = _
      rw [hbefore, htaken, if_neg hint, if_neg fun h => hnewline (List.mem_of_getLast? h)]
    · rw [scan_line hnewline, consumedTo, position_miss hnewline, List.drop_length, List.nil_append]

theorem scan_binary (h : buffer.length + piece.length ≤ length) :
    scan (binarySettled length) binaryStep (piece ++ rest) (.again buffer) =
      scan (binarySettled length) binaryStep rest (.again (buffer ++ piece)) := by
  induction piece generalizing buffer with
  | nil => rw [List.nil_append, List.append_nil]
  | cons byte piece ih =>
    rw [List.length_cons] at h
    have hmore : buffer.length < length := by omega
    rw [List.cons_append, scan, binarySettled, if_pos hmore]
    have hlength : (buffer ++ [byte]).length + piece.length ≤ length := by
      rw [List.length_append, List.length_singleton]
      omega
    exact (ih hlength).trans (by rw [List.append_assoc]; rfl)

theorem bytewise_readBinary (length : Nat) :
    Bytewise (readBinaryTurn length) (binarySettled length) binaryStep := by
  refine ⟨fun buffer b hsettled => ?_, fun buffer hsettled => ?_⟩
  · unfold binarySettled at hsettled
    split at hsettled
    · cases hsettled
    · rename_i hfull
      cases hsettled
      rw [readBinaryTurn, if_neg hfull]
  · have hmore : buffer.length < length := by
      unfold binarySettled at hsettled
      split at hsettled
      · assumption
      · cases hsettled
    refine ⟨fun next => min next.length (length - buffer.length), _, if_pos hmore,
      fun piece hne _ => ⟨.again (buffer ++ piece.take (length - buffer.length)), rfl, ?_,
        fun rest => ?_⟩⟩
    · have hpos := List.length_pos_iff.mpr hne
      show 0 < min piece.length (length - buffer.length)
      omega
    · have htake : piece.take (length - buffer.length) =
          piece.take (min piece.length (length - buffer.length)) := by
        rw [Nat.min_comm, List.take_eq_take_min]
      have hlength : buffer.length + (piece.take (length - buffer.length)).length ≤ length := by
        rw [List.length_take]
        omega
      rw [htake] at hlength ⊢
      rw [← scan_binary hlength, ← List.append_assoc, List.take_append_drop]

theorem push_ok {byte : UInt8} (state : WindowsScan) (h : byte ≠ 0x03) :
    ∃ state', state.push byte = .ok state' := by
  rw [WindowsScan.push, if_neg h]
  dsimp only
  split_ifs <;> exact ⟨_, rfl⟩

theorem scan_windows (hline : bang ∉ line) (hint : 0x03 ∉ line) (state : WindowsScan) :
    ∃ state', line.foldlM WindowsScan.push state = .ok state' ∧ ∀ rest,
      scan (fun _ => none) windowsStep (line ++ rest) (.again state) =
        scan (fun _ => none) windowsStep rest (.again state') := by
  induction line generalizing state with
  | nil => exact ⟨state, rfl, fun _ => rfl⟩
  | cons byte line ih =>
    rw [List.mem_cons, not_or] at hline hint
    obtain ⟨next, hpush⟩ := push_ok state (Ne.symm hint.1)
    obtain ⟨state', hfold, hscan⟩ := ih hline.2 hint.2 next
    refine ⟨state', ?_, fun rest => ?_⟩
    · rw [List.foldlM_cons, hpush]
      exact hfold
    · rw [List.cons_append, scan, windowsStep, if_neg (Ne.symm hline.1), hpush]
      exact hscan rest

theorem bytewise_readLineOnWindows :
    Bytewise readLineOnWindowsTurn (fun _ => none) windowsStep := by
  refine ⟨nofun, fun state _ => ⟨consumedTo bang, _, rfl, fun piece hne hint => ?_⟩⟩
  by_cases hbang : bang ∈ piece
  · obtain ⟨line, tail, rfl, hline⟩ := List.eq_append_cons_of_mem hbang
    obtain ⟨state', hfold, hscan⟩ :=
      scan_windows hline (fun h => hint (List.mem_append_left _ h)) state
    refine ⟨windowsStep state' bang, ?_, consumedTo_pos hne, fun rest => ?_⟩
    · show (ofExcept ((textBefore bang _).foldlM _ _)).bind _ = _
      rw [(consumed_hit tail hline).1, hfold]
      show ite _ _ _ = _
      rw [windowsStep, if_pos rfl]
      by_cases hdone : state'.buffer ≠ [] ∧ state'.skipVt100 = false
      · rw [if_pos ⟨hbang, hdone⟩, if_pos hdone]
      · rw [if_neg fun h => hdone h.2, if_neg hdone]
    · rw [drop_consumedTo hline, List.append_assoc, hscan]
      rfl
  · obtain ⟨state', hfold, hscan⟩ := scan_windows hbang hint state
    refine ⟨.again state', ?_, consumedTo_pos hne, fun rest => ?_⟩
    · show (ofExcept ((textBefore bang _).foldlM _ _)).bind _ = _
      rw [(consumed_miss hbang).1, hfold]
      exact if_neg fun h => hbang h.1
    · rw [hscan, consumedTo, position_miss hbang, List.drop_length, List.nil_append]

/-! ## 4. Calls -/

/-- A read. -/
inductive ReadCall where
  | line
  | binary (length : Nat)
  | lineOnWindows

/-- The method called. -/
def ReadCall.proc : ReadCall → TrzszProc (Str ⊕ List UInt8)
  | .line => readLine.bind fun line => ret (.inl line)
  | .binary length => (readBinary length).bind fun bytes => ret (.inr bytes)
  | .lineOnWindows => readLineOnWindows.bind fun line => ret (.inl line)

/-- The calls return, one after the other, with these results. -/
def ReturnsAll : BufferState → List ReadCall → List (Except Failure (Str ⊕ List UInt8)) → Prop
  | _, [], [] => True
  | state, call :: calls, r :: results =>
    ∃ last, Returns state call.proc r last ∧ ReturnsAll last calls results
  | _, _, _ => False

/-- A call returns the same, and leaves the same unread, wherever the unread bytes are cut. -/
theorem returns_of_unread {state state' last : BufferState} {call : ReadCall}
    {r : Except Failure (Str ⊕ List UInt8)} (hunread : state'.unread = state.unread)
    (hint : 0x03 ∉ state.unread) (h : Returns state call.proc r last) :
    0x03 ∉ last.unread ∧
      ∃ last', Returns state' call.proc r last' ∧ last'.unread = last.unread := by
  have hscan : ∀ {σ β : Type} {body : σ → TrzszProc (Turn σ β)} {settled : σ → Option β}
      {step : σ → UInt8 → Turn σ β} {s : σ} {g : β → Str ⊕ List UInt8},
      Bytewise body settled step → call.proc = .iter body s (fun b => ret (g b)) →
      0x03 ∉ last.unread ∧ ∃ last', Returns state' call.proc r last' ∧
        last'.unread = last.unread := by
    intro σ β body settled step s g hb hproc
    rw [hproc] at h ⊢
    obtain ⟨b, rfl, hscan⟩ := hb.sound hint h
    have hsuffix := scan_suffix hscan
    rw [← hunread] at hint hscan
    exact ⟨fun hmem => hint (hunread ▸ hsuffix.subset hmem), hb.complete hint hscan⟩
  cases call with
  | line => exact hscan bytewise_readLine rfl
  | binary length => exact hscan (bytewise_readBinary length) rfl
  | lineOnWindows => exact hscan bytewise_readLineOnWindows rfl

theorem returnsAll_of_unread {state state' : BufferState} {calls : List ReadCall}
    {results : List (Except Failure (Str ⊕ List UInt8))} (hunread : state'.unread = state.unread)
    (hint : 0x03 ∉ state.unread) (h : ReturnsAll state calls results) :
    ReturnsAll state' calls results := by
  induction calls generalizing state state' results with
  | nil => cases results <;> exact h
  | cons call calls ih =>
    cases results with
    | nil => exact h
    | cons r results =>
      obtain ⟨last, hreturns, hrest⟩ := h
      obtain ⟨hint', last', hreturns', hlast⟩ := returns_of_unread hunread hint hreturns
      exact ⟨last', hreturns', ih hlast hint' hrest⟩

/-- **Reads do not depend on chunking**: any calls return the same results whether a stream is
    pushed in chunks or as one. -/
theorem reads_independent_of_chunking (chunks : List (List UInt8)) (hint : 0x03 ∉ chunks.flatten)
    (calls : List ReadCall) (results : List (Except Failure (Str ⊕ List UInt8))) :
    ReturnsAll { queue := chunks } calls results ↔
      ReturnsAll { queue := [chunks.flatten] } calls results := by
  have hsame : ({ queue := [chunks.flatten] } : BufferState).unread =
      ({ queue := chunks } : BufferState).unread := by
    simp [BufferState.unread]
  have hstream : ({ queue := chunks } : BufferState).unread = chunks.flatten := rfl
  exact ⟨returnsAll_of_unread hsame (hstream ▸ hint),
    returnsAll_of_unread hsame.symm (hsame ▸ hstream ▸ hint)⟩

/-- A line that arrives in two chunks, the second of which has a byte more. -/
theorem reads_independent_of_chunking_two :
    ReturnsAll { queue := [[0x61], [0x62, 0x0a, 0x63]] } [.line, .binary 1]
      [.ok (.inl ['a', 'b']), .ok (.inr [0x63])] := by
  refine (reads_independent_of_chunking [[0x61], [0x62, 0x0a, 0x63]] (by decide) _ _).mpr ?_
  let start : BufferState := { queue := [[0x61, 0x62, 0x0a, 0x63]] }
  have hfirst : scan (fun _ => none) lineStep start.unread (.again []) =
      some (['a', 'b'], [0x63]) := by decide
  obtain ⟨first, hline, hunread⟩ := bytewise_readLine.complete (g := Sum.inl) (by decide) hfirst
  have hsecond : scan (binarySettled 1) binaryStep first.unread (.again []) =
      some ([0x63], []) := by
    rw [hunread]
    rfl
  obtain ⟨last, hbinary, -⟩ := (bytewise_readBinary 1).complete (g := Sum.inr)
    (by rw [hunread]; decide) hsecond
  exact ⟨first, hline, last, hbinary, trivial⟩

end Hapcli.Trzsz
