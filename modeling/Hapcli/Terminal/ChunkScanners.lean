/-
  Subject:   What looks at terminal output chunk by chunk: `Utf8ResidualGuard` and `MagicScanWindow`
             (`backpressure.rs`), `EncodingMismatchDetector` (`hapcli-terminal-encoding`),
             `SerialConsoleIngress` (`session/serial.rs`).

  A read of the transport ends anywhere: within a character, a marker, an escape sequence.

  * **`residual_guard`** -- the guard passes every byte on, and whole characters only;
  * **`reported_iff`** -- a marker is reported with the chunk its last byte is in;
  * **`no_false_positive_iff`** -- the detector, which keeps nothing of a chunk, is right exactly if
    no chunk starts within a character;
  * **`filtered_iff`** -- the serial filter gives the same however the input is cut, and lets an
    introducer pass exactly if an even number of ESC bytes is in front of one.
-/
import Hapcli.Rust.Utf8Chunks

namespace Hapcli.Terminal

open Hapcli.Rust

/-- The chunks one after the other: what each gives, and the state after the last. -/
def feed {σ ω : Type} (step : σ → List UInt8 → ω × σ) : σ → List (List UInt8) → List ω × σ
  | s, [] => ([], s)
  | s, chunk :: chunks =>
    let (out, s) := step s chunk
    let (outs, s) := feed step s chunks
    (out :: outs, s)

theorem feed_cons_state {σ ω : Type} {step : σ → List UInt8 → ω × σ} (s : σ) (chunk : List UInt8)
    (chunks : List (List UInt8)) :
    (feed step s (chunk :: chunks)).2 = (feed step (step s chunk).2 chunks).2 := rfl

/-! ## 1. `SerialConsoleIngress` -/

def escByte : UInt8 := 0x1b

def serialStringControlMarker : List UInt8 := [0x3f]

/-- The second byte of OSC, DCS, APC, PM and SOS: `]`, `P`, `_`, `^`, `X`. -/
def opensString (byte : UInt8) : Bool :=
  byte == 0x5d || byte == 0x50 || byte == 0x5f || byte == 0x5e || byte == 0x58

/-- `append_serial_escape_pair`. -/
def serialEscapePair (next : UInt8) : List UInt8 :=
  if opensString next then serialStringControlMarker else [escByte, next]

structure SerialConsoleIngress where
  pendingEscape : Bool := false
  deriving DecidableEq

namespace SerialConsoleIngress

/-- The loop of `filter`; an ESC that ends the chunk is kept for the next. -/
def filterLoop : List UInt8 → List UInt8 × SerialConsoleIngress
  | [] => ([], { pendingEscape := false })
  | byte :: rest =>
    if byte ≠ escByte then (filterLoop rest).map (byte :: ·) id
    else
      match rest with
      | [] => ([], { pendingEscape := true })
      | next :: rest => (filterLoop rest).map (serialEscapePair next ++ ·) id

def filter (s : SerialConsoleIngress) : List UInt8 → List UInt8 × SerialConsoleIngress
  | [] => ([], s)
  | byte :: rest =>
    if s.pendingEscape then (filterLoop rest).map (serialEscapePair byte ++ ·) id
    else filterLoop (byte :: rest)

/-- What the filter gives of a stream, one ESC being pending. -/
def passed : Bool → List UInt8 → List UInt8
  | _, [] => []
  | true, byte :: rest => serialEscapePair byte ++ passed false rest
  | false, byte :: rest =>
    if byte = escByte then passed true rest else byte :: passed false rest

/-- Whether an ESC is pending at the end of a stream. -/
def pendingAfter : Bool → List UInt8 → Bool
  | pending, [] => pending
  | true, _ :: rest => pendingAfter false rest
  | false, byte :: rest => pendingAfter (byte == escByte) rest

theorem filterLoop_eq (bytes : List UInt8) :
    filterLoop bytes = (passed false bytes, ⟨pendingAfter false bytes⟩) := by
  induction bytes using filterLoop.induct with
  | case1 => rfl
  | case2 byte rest hbyte ih =>
    have hpending : (byte == escByte) = false := beq_eq_false_iff_ne.mpr hbyte
    unfold filterLoop
    rw [if_pos hbyte, ih, passed, if_neg hbyte, pendingAfter, hpending]
    rfl
  | case3 byte hbyte =>
    obtain rfl := Decidable.not_not.mp hbyte
    rfl
  | case4 byte hbyte next rest ih =>
    obtain rfl := Decidable.not_not.mp hbyte
    unfold filterLoop
    dsimp only
    rw [ih]
    rfl

theorem filter_eq (s : SerialConsoleIngress) (bytes : List UInt8) :
    s.filter bytes = (passed s.pendingEscape bytes, ⟨pendingAfter s.pendingEscape bytes⟩) := by
  obtain ⟨pending⟩ := s
  cases bytes with
  | nil => rfl
  | cons byte rest =>
    cases pending with
    | false => exact filterLoop_eq (byte :: rest)
    | true =>
      show (filterLoop rest).map _ id = _
      rw [filterLoop_eq]
      rfl

theorem passed_append (pending : Bool) (front back : List UInt8) :
    passed pending (front ++ back) =
      passed pending front ++ passed (pendingAfter pending front) back := by
  induction front generalizing pending with
  | nil => rfl
  | cons byte front ih =>
    cases pending with
    | true => simp only [List.cons_append, passed, pendingAfter, ih, List.append_assoc]
    | false =>
      by_cases hbyte : byte = escByte
      · simp [passed, pendingAfter, hbyte, ih]
      · have hpending : (byte == escByte) = false := beq_eq_false_iff_ne.mpr hbyte
        simp [passed, pendingAfter, hbyte, hpending, ih]

theorem feed_filter (s : SerialConsoleIngress) (chunks : List (List UInt8)) :
    (feed filter s chunks).1.flatten = passed s.pendingEscape chunks.flatten := by
  induction chunks generalizing s with
  | nil => rfl
  | cons chunk chunks ih =>
    rw [List.flatten_cons, passed_append]
    simp only [feed, filter_eq, List.flatten_cons, ih]

end SerialConsoleIngress

/-- An ESC byte is followed by one that opens a string. -/
def Introduces (bytes : List UInt8) : Prop :=
  ∃ byte, opensString byte = true ∧ [escByte, byte] <:+: bytes

/-- A byte that opens a string comes right after an even number of ESC bytes, and not after none;
    `escapes` of them are in front of the bytes. -/
def evenlyEscaped : Nat → List UInt8 → Bool
  | _, [] => false
  | escapes, byte :: rest =>
    if byte = escByte then evenlyEscaped (escapes + 1) rest
    else (opensString byte && 0 < escapes && escapes % 2 == 0) || evenlyEscaped 0 rest

variable {byte : UInt8} {bytes rest : List UInt8} {escapes : Nat}

theorem introduces_cons :
    Introduces (byte :: bytes) ↔
      (byte = escByte ∧ ∃ next ∈ bytes.head?, opensString next = true) ∨ Introduces bytes := by
  constructor
  · rintro ⟨next, hopens, hinfix⟩
    rcases List.infix_cons_iff.mp hinfix with hprefix | hinfix
    · obtain ⟨hbyte, hrest⟩ := List.cons_prefix_cons.mp hprefix
      obtain ⟨tail, rfl⟩ := hrest
      exact .inl ⟨hbyte.symm, next, rfl, hopens⟩
    · exact .inr ⟨next, hopens, hinfix⟩
  · rintro (⟨rfl, next, hnext, hopens⟩ | ⟨next, hopens, hinfix⟩)
    · obtain ⟨tail, rfl⟩ := List.head?_eq_some_iff.mp hnext
      exact ⟨next, hopens, [], tail, rfl⟩
    · exact ⟨next, hopens, List.infix_cons_iff.mpr (.inr hinfix)⟩

theorem not_introduces_nil : ¬ Introduces [] := by
  rintro ⟨byte, -, hinfix⟩
  cases List.infix_nil.mp hinfix

theorem introduces_plain (h : byte ≠ escByte) : Introduces (byte :: bytes) ↔ Introduces bytes := by
  rw [introduces_cons]
  simp [h]

theorem introduces_escape (h : opensString byte = false) :
    Introduces (escByte :: byte :: bytes) ↔ Introduces (byte :: bytes) := by
  rw [introduces_cons]
  simp [h]

/-- The last byte passed on so far, when it is an ESC: one of a pair of them. -/
def passedEscape (escapes : Nat) : List UInt8 := if 2 ≤ escapes then [escByte] else []

theorem introduces_passedEscape (h : opensString byte = false) :
    Introduces (passedEscape escapes ++ byte :: bytes) ↔ Introduces (byte :: bytes) := by
  unfold passedEscape
  split_ifs
  · exact introduces_escape h
  · exact Iff.rfl

theorem evenlyEscaped_plain (h : byte ≠ escByte) :
    evenlyEscaped escapes (byte :: rest) = true ↔
      (opensString byte = true ∧ 0 < escapes ∧ escapes % 2 = 0) ∨ evenlyEscaped 0 rest = true := by
  rw [evenlyEscaped, if_neg h]
  simp [and_assoc]

theorem introduces_passed (escapes : Nat) (bytes : List UInt8) :
    Introduces (passedEscape escapes ++
      SerialConsoleIngress.passed (escapes % 2 == 1) bytes) ↔
      evenlyEscaped escapes bytes = true := by
  induction bytes generalizing escapes with
  | nil =>
    simp only [SerialConsoleIngress.passed, evenlyEscaped, List.append_nil, Bool.false_eq_true,
      iff_false]
    unfold passedEscape
    split_ifs
    · rw [introduces_cons]
      simp [not_introduces_nil]
    · exact not_introduces_nil
  | cons byte rest ih =>
    have hrest : Introduces (SerialConsoleIngress.passed false rest) ↔
        evenlyEscaped 0 rest = true := ih 0
    rcases Nat.mod_two_eq_zero_or_one escapes with heven | hodd
    · by_cases hbyte : byte = escByte
      · -- one ESC more, and it is pending
        have hsame : passedEscape (escapes + 1) = passedEscape escapes := by
          unfold passedEscape
          congr 1
          rw [eq_iff_iff]
          omega
        have hnext := ih (escapes + 1)
        rw [hsame, show (escapes + 1) % 2 = 1 by omega] at hnext
        simpa [SerialConsoleIngress.passed, evenlyEscaped, heven, hbyte] using hnext
      · rw [evenlyEscaped_plain hbyte, ← hrest, heven]
        show Introduces (passedEscape escapes ++
          SerialConsoleIngress.passed false (byte :: rest)) ↔ _
        rw [SerialConsoleIngress.passed, if_neg hbyte]
        unfold passedEscape
        split_ifs with htwo
        · have hpos : 0 < escapes := by omega
          have hescape := @introduces_cons escByte
          simp [hescape, introduces_plain hbyte, hpos]
        · have hzero : escapes = 0 := by omega
          simp [introduces_plain hbyte, hzero]
    · -- the byte makes a pair with the pending ESC
      rw [hodd]
      show Introduces (passedEscape escapes ++
        (serialEscapePair byte ++ SerialConsoleIngress.passed false rest)) ↔ _
      by_cases hbyte : byte = escByte
      · obtain rfl := hbyte
        have hnext := ih (escapes + 1)
        rw [show (escapes + 1) % 2 = 0 by omega] at hnext
        rw [evenlyEscaped, if_pos rfl, ← hnext]
        have htwo : passedEscape (escapes + 1) = [escByte] := if_pos (by omega)
        rw [htwo]
        exact (introduces_passedEscape rfl).trans (introduces_escape rfl)
      · have hnone : ¬ (opensString byte = true ∧ 0 < escapes ∧ escapes % 2 = 0) := by omega
        rw [evenlyEscaped_plain hbyte, ← hrest, or_iff_right hnone]
        unfold serialEscapePair
        split_ifs with hopens
        · refine (introduces_passedEscape (by decide)).trans ?_
          simpa using introduces_plain (by decide)
        · rw [Bool.not_eq_true] at hopens
          refine (introduces_passedEscape (by decide)).trans ?_
          simpa using (introduces_escape hopens).trans (introduces_plain hbyte)

/-- **What the console is given does not depend on the chunks**, and no introducer gets through
    exactly if none comes right after an even number of ESC bytes. -/
theorem filtered_iff (chunks : List (List UInt8)) :
    ((¬ Introduces (feed SerialConsoleIngress.filter {} chunks).1.flatten) ∧
      ∀ chunks' : List (List UInt8), chunks'.flatten = chunks.flatten →
        (feed SerialConsoleIngress.filter {} chunks').1.flatten =
          (feed SerialConsoleIngress.filter {} chunks).1.flatten) ↔
      evenlyEscaped 0 chunks.flatten = false := by
  have hall := SerialConsoleIngress.feed_filter {}
  have hintroduces := introduces_passed 0 chunks.flatten
  rw [hall, ← Bool.not_eq_true, ← hintroduces]
  refine ⟨fun h => h.1, fun h => ⟨h, fun chunks' hsame => ?_⟩⟩
  rw [hall, hsame]

/-- `ESC ESC ] ..`, as a device may send it. -/
theorem doubled_escape_passes :
    ¬ ∀ chunks : List (List UInt8),
      (¬ Introduces (feed SerialConsoleIngress.filter {} chunks).1.flatten) ∧
        ∀ chunks' : List (List UInt8), chunks'.flatten = chunks.flatten →
          (feed SerialConsoleIngress.filter {} chunks').1.flatten =
            (feed SerialConsoleIngress.filter {} chunks).1.flatten := by
  intro hall
  exact (hall [[0x1b, 0x1b, 0x5d, 0x30]]).1 ⟨0x5d, rfl, [0x1b], [0x30], rfl⟩

/-! ## 2. `Utf8ResidualGuard` -/

def utf8ResidualMaxBytes : Nat := 4

def utf8CharWidth (byte : UInt8) : Nat :=
  if byte ≤ 0x7f then 1
  else if 0xc2 ≤ byte ∧ byte ≤ 0xdf then 2
  else if 0xe0 ≤ byte ∧ byte ≤ 0xef then 3
  else if 0xf0 ≤ byte ∧ byte ≤ 0xf4 then 4
  else 0

/-- The loop of `split_before_incomplete_utf8_tail`, for tails from `tailLen` on. -/
@[grind] def splitTail (bytes : List UInt8) : Nat → Nat → Nat
  | _, 0 => bytes.length
  | tailLen, tails + 1 =>
    let start := bytes.length - tailLen
    match bytes.drop start with
    | [] => bytes.length
    | first :: rest =>
      if utf8CharWidth first = 0 then splitTail bytes (tailLen + 1) tails
      else if tailLen < utf8CharWidth first ∧ rest.all isContinuation then start
      else bytes.length

def splitBeforeIncompleteUtf8Tail (bytes : List UInt8) : Nat :=
  splitTail bytes 1 (min bytes.length (utf8ResidualMaxBytes - 1))

structure Utf8ResidualGuard where
  residual : List UInt8 := []
  deriving DecidableEq

/-- `(!combined.is_empty()).then_some(combined)`. -/
def nonEmpty (bytes : List UInt8) : Option (List UInt8) := if bytes = [] then none else some bytes

def Utf8ResidualGuard.push (g : Utf8ResidualGuard) (bytes : List UInt8) :
    Option (List UInt8) × Utf8ResidualGuard :=
  if bytes = [] ∧ g.residual = [] then (none, g)
  else
    let combined := g.residual ++ bytes
    let split := splitBeforeIncompleteUtf8Tail combined
    let residual := combined.drop split
    let combined := combined.take split
    if utf8ResidualMaxBytes ≤ residual.length then (nonEmpty (combined ++ residual), ⟨[]⟩)
    else (nonEmpty combined, ⟨residual⟩)

theorem splitTail_bounds (bytes : List UInt8) (tailLen tails : Nat) :
    bytes.length ≤ splitTail bytes tailLen tails + (tailLen + tails - 1) := by
  induction tails generalizing tailLen with
  | zero =>
    rw [splitTail]
    omega
  | succ tails ih =>
    have hnext := ih (tailLen + 1)
    rw [splitTail]
    split
    · omega
    · split_ifs <;> omega

theorem utf8CharWidth_continuation (h : isContinuation byte = true) : utf8CharWidth byte = 0 := by
  simp only [isContinuation, Bool.and_eq_true, decide_eq_true_eq, UInt8.le_iff_toNat_le,
    UInt8.toNat_ofNat] at h
  simp only [utf8CharWidth, UInt8.le_iff_toNat_le, UInt8.toNat_ofNat]
  split_ifs <;> omega

variable {c : Char} {front : List UInt8} {s : Str}

/-- The first byte of a character says how many there are. -/
theorem utf8CharWidth_encode {b : UInt8} {bs : List UInt8} (h : String.utf8EncodeChar c = b :: bs) :
    utf8CharWidth b = bs.length + 1 := by
  have hmax : c.val.toNat < 0x110000 := by
    have hvalid := c.valid
    omega
  have hwidth : ∀ n < 256, utf8CharWidth (UInt8.ofNat n) =
      if n ≤ 0x7f then 1 else if 0xc2 ≤ n ∧ n ≤ 0xdf then 2 else if 0xe0 ≤ n ∧ n ≤ 0xef then 3
      else if 0xf0 ≤ n ∧ n ≤ 0xf4 then 4 else 0 := by
    intro n hn
    simp only [utf8CharWidth, UInt8.le_iff_toNat_le, UInt8.toNat_ofNat, UInt8.toNat_ofNat',
      Nat.mod_eq_of_lt hn]
  unfold String.utf8EncodeChar at h
  dsimp only at h
  split_ifs at h with hone htwo hthree <;> obtain ⟨rfl, rfl⟩ := List.cons.inj h <;>
    rw [hwidth _ (by omega)] <;> simp only [List.length_cons, List.length_nil]
  · rw [if_pos hone]
  · rw [if_neg (by omega), if_pos (by omega)]
  · rw [if_neg (by omega), if_neg (by omega), if_pos (by omega)]
  · rw [if_neg (by omega), if_neg (by omega), if_neg (by omega), if_pos (by omega)]

theorem splitTail_skip (front : List UInt8) (hrest : ∀ x ∈ rest, isContinuation x = true) {k : Nat}
    (hk : k ≤ rest.length) (tails : Nat) :
    splitTail (front ++ rest) 1 (k + tails) = splitTail (front ++ rest) (k + 1) tails := by
  induction k generalizing tails with
  | zero => rw [Nat.zero_add]
  | succ k ih =>
    have hfront : (front ++ rest).length - (k + 1) = front.length + (rest.length - (k + 1)) := by
      rw [List.length_append]
      omega
    obtain ⟨x, xs, hdrop⟩ : ∃ x xs, rest.drop (rest.length - (k + 1)) = x :: xs := by
      refine List.exists_cons_of_ne_nil fun hnil => ?_
      have hlen := congrArg List.length hnil
      rw [List.length_drop, List.length_nil] at hlen
      omega
    have hx : x ∈ rest := List.mem_of_mem_drop (hdrop ▸ List.mem_cons_self)
    rw [Nat.add_right_comm, Nat.add_assoc, ih (by omega), splitTail, hfront,
      List.drop_length_add_append, hdrop]
    exact if_pos (utf8CharWidth_continuation (hrest x hx))

/-- A tail that starts a character is cut off if bytes of the character are missing. -/
theorem split_lead {lead : UInt8} (hrest : ∀ x ∈ rest, isContinuation x = true)
    (hlead : rest.length < utf8CharWidth lead) :
    splitBeforeIncompleteUtf8Tail (front ++ lead :: rest) =
      if rest.length + 1 < utf8CharWidth lead then front.length
      else (front ++ lead :: rest).length := by
  have hfour : utf8CharWidth lead ≤ 4 := by
    unfold utf8CharWidth
    split_ifs <;> omega
  have hlen : (front ++ lead :: rest).length = front.length + 1 + rest.length := by
    rw [List.length_append, List.length_cons]
    omega
  have hskip := fun k => splitTail_skip (front ++ [lead]) hrest (k := k)
  simp only [List.append_assoc, List.singleton_append] at hskip
  unfold splitBeforeIncompleteUtf8Tail
  by_cases hthree : 3 ≤ rest.length
  · have htails : min (front ++ lead :: rest).length (utf8ResidualMaxBytes - 1) = 3 + 0 := by
      exact Nat.min_eq_right (by simp only [utf8ResidualMaxBytes]; omega)
    rw [htails, hskip 3 hthree 0, splitTail, if_neg (by omega)]
  · obtain ⟨tails, htails⟩ : ∃ tails, min (front ++ lead :: rest).length
        (utf8ResidualMaxBytes - 1) = rest.length + (tails + 1) :=
      ⟨min (front ++ lead :: rest).length 3 - rest.length - 1, by
        simp only [utf8ResidualMaxBytes]
        omega⟩
    have hstart : (front ++ lead :: rest).length - (rest.length + 1) = front.length := by omega
    rw [htails, hskip _ (Nat.le_refl _), splitTail, hstart, List.drop_left]
    dsimp only
    rw [if_neg (by omega)]
    refine ite_congr ?_ (fun _ => rfl) fun _ => rfl
    rw [eq_iff_iff]
    exact and_iff_left (List.all_eq_true.mpr hrest)

theorem split_of_part {t : Str} {part more : List UInt8}
    (hc : String.utf8EncodeChar c = part ++ more) (hmore : more ≠ []) :
    splitBeforeIncompleteUtf8Tail (asBytes t ++ part) = (asBytes t).length := by
  obtain ⟨lead, rest, hparts, -, hrest⟩ := utf8EncodeChar_parts c
  cases part with
  | cons b part =>
    have hwidth : utf8CharWidth b = (part ++ more).length + 1 := utf8CharWidth_encode hc
    have hpos := List.length_pos_of_ne_nil hmore
    rw [hparts, List.cons_append] at hc
    obtain ⟨rfl, rfl⟩ := List.cons.inj hc
    rw [List.length_append] at hwidth
    rw [split_lead (fun x hx => hrest x (List.mem_append_left _ hx)) (by omega),
      if_pos (by omega)]
  | nil =>
    rw [List.append_nil]
    rcases List.eq_nil_or_concat t with rfl | ⟨t, d, rfl⟩
    · rfl
    · obtain ⟨lead', rest', hd, -, hrest'⟩ := utf8EncodeChar_parts d
      have hwidth := utf8CharWidth_encode hd
      rw [List.concat_eq_append, asBytes_append, asBytes_cons, hd, asBytes_nil, List.append_nil,
        split_lead hrest' (by omega), if_neg (by omega)]

theorem exists_part {back : List UInt8} (h : front ++ back = asBytes s) :
    ∃ t u c part more, front = asBytes t ++ part ∧ part ++ back = asBytes u ∧
      String.utf8EncodeChar c = part ++ more ∧ more ≠ [] := by
  have hwhole : ∀ c, String.utf8EncodeChar c ≠ [] := by
    intro c hnil
    obtain ⟨b, bs, hc, -⟩ := utf8EncodeChar_parts c
    cases hnil.symm.trans hc
  induction s generalizing front with
  | nil =>
    obtain ⟨rfl, rfl⟩ := List.append_eq_nil_iff.mp h
    exact ⟨[], [], 'a', [], _, rfl, rfl, rfl, hwhole 'a'⟩
  | cons c s ih =>
    rw [asBytes_cons] at h
    rcases List.append_eq_append_iff.mp h with ⟨more, hc, rfl⟩ | ⟨front', rfl, hs⟩
    · by_cases hmore : more = []
      · subst hmore
        refine ⟨[c], s, c, [], _, ?_, rfl, rfl, hwhole c⟩
        rw [asBytes_cons, hc, asBytes_nil]
        simp
      · refine ⟨[], c :: s, c, front, more, rfl, ?_, hc, hmore⟩
        rw [asBytes_cons, hc, List.append_assoc]
    · obtain ⟨t, u, d, part, more, rfl, hu, hd, hmore⟩ := ih hs.symm
      refine ⟨c :: t, u, d, part, more, ?_, hu, hd, hmore⟩
      rw [asBytes_cons, List.append_assoc]

namespace Utf8ResidualGuard

variable (g : Utf8ResidualGuard)

/-- One chunk: what comes out and what is kept are what was kept and what came in. -/
theorem push_eq (bytes : List UInt8) :
    let split := splitBeforeIncompleteUtf8Tail (g.residual ++ bytes)
    g.push bytes = (nonEmpty ((g.residual ++ bytes).take split), ⟨(g.residual ++ bytes).drop split⟩) ∧
      ((g.residual ++ bytes).drop split).length ≤ 3 := by
  have hbounds := splitTail_bounds (g.residual ++ bytes) 1
    (min (g.residual ++ bytes).length (utf8ResidualMaxBytes - 1))
  have hshort : ((g.residual ++ bytes).drop
      (splitBeforeIncompleteUtf8Tail (g.residual ++ bytes))).length ≤ 3 := by
    have hthree := Nat.min_le_right (g.residual ++ bytes).length (utf8ResidualMaxBytes - 1)
    simp only [utf8ResidualMaxBytes] at hthree hbounds
    rw [List.length_drop, splitBeforeIncompleteUtf8Tail, utf8ResidualMaxBytes]
    omega
  refine ⟨?_, hshort⟩
  unfold push
  by_cases hempty : bytes = [] ∧ g.residual = []
  · obtain ⟨residual⟩ := g
    obtain ⟨rfl, hresidual⟩ := hempty
    obtain rfl : residual = [] := hresidual
    rfl
  · rw [if_neg hempty]
    exact if_neg (by simp only [utf8ResidualMaxBytes]; omega)

theorem flatten_nonEmpty (bytes : List UInt8) (outs : List (Option (List UInt8))) :
    ((nonEmpty bytes :: outs).filterMap id).flatten = bytes ++ (outs.filterMap id).flatten := by
  unfold nonEmpty
  split_ifs with hempty
  · simp [hempty]
  · simp

theorem feed_push (hg : g.residual.length ≤ 3) (chunks : List (List UInt8)) :
    ((feed push g chunks).1.filterMap id).flatten ++ (feed push g chunks).2.residual =
        g.residual ++ chunks.flatten ∧
      (feed push g chunks).2.residual.length ≤ 3 := by
  induction chunks generalizing g with
  | nil => exact ⟨by simp [feed], hg⟩
  | cons chunk chunks ih =>
    obtain ⟨hpush, hshort⟩ := g.push_eq chunk
    obtain ⟨hall, hlast⟩ := ih ⟨_⟩ hshort
    simp only [feed, hpush]
    refine ⟨?_, hlast⟩
    rw [flatten_nonEmpty, List.append_assoc, hall, ← List.append_assoc, List.take_append_drop,
      List.flatten_cons, List.append_assoc]

theorem feed_push_text {chunks : List (List UInt8)} (h : g.residual ++ chunks.flatten = asBytes s) :
    ∀ out ∈ (feed push g chunks).1.filterMap id, ∃ t, out = asBytes t := by
  induction chunks generalizing g s with
  | nil => exact fun out hout => absurd hout (by simp [feed])
  | cons chunk chunks ih =>
    rw [List.flatten_cons, ← List.append_assoc] at h
    obtain ⟨t, u, c, part, more, hfront, hu, hc, hmore⟩ := exists_part h
    obtain ⟨hpush, -⟩ := g.push_eq chunk
    rw [hfront, split_of_part hc hmore, List.take_left, List.drop_left] at hpush
    intro out hout
    simp only [feed, hpush, List.filterMap_cons, nonEmpty, id] at hout
    split_ifs at hout with hempty
    · exact ih ⟨part⟩ hu out hout
    · rcases List.mem_cons.mp hout with rfl | hout
      · exact ⟨t, rfl⟩
      · exact ih ⟨part⟩ hu out hout

end Utf8ResidualGuard

/-- **The guard loses nothing, keeps three bytes at most, and of a text it passes whole characters
    on only.** -/
theorem residual_guard (chunks : List (List UInt8)) :
    ((feed Utf8ResidualGuard.push {} chunks).1.filterMap id).flatten ++
          (feed Utf8ResidualGuard.push {} chunks).2.residual = chunks.flatten ∧
      (feed Utf8ResidualGuard.push {} chunks).2.residual.length ≤ 3 ∧
      ∀ s, chunks.flatten = asBytes s →
        ∀ out ∈ (feed Utf8ResidualGuard.push {} chunks).1.filterMap id, ∃ t, out = asBytes t := by
  obtain ⟨hall, hshort⟩ := Utf8ResidualGuard.feed_push {} (Nat.zero_le 3) chunks
  exact ⟨hall, hshort, fun s hs => Utf8ResidualGuard.feed_push_text {} hs⟩

/-! ## 3. `EncodingMismatchDetector` -/

inductive TerminalEncoding where
  | utf8 | gbk | gb18030 | big5 | shiftJis | eucJp | eucKr | windows1252
  deriving DecidableEq

def TerminalEncoding.isUtf8 (encoding : TerminalEncoding) : Bool := encoding == .utf8

/-- The loop of `invalid_utf8_bytes`; `skip` counts the bytes already looked at. An incomplete piece
    at the end is counted like a piece that is wrong. -/
def invalidFrom : Nat → List UInt8 → Nat
  | _, [] => 0
  | skip + 1, _ :: bytes => invalidFrom skip bytes
  | 0, b :: bytes =>
    match (b :: bytes).toByteArray.utf8DecodeChar? 0 with
    | some c => invalidFrom (c.utf8Size - 1) bytes
    | none =>
      illFormedLen (b :: bytes) + invalidFrom (illFormedLen (b :: bytes) - 1) bytes

def invalidUtf8Bytes (bytes : List UInt8) : Nat := invalidFrom 0 bytes

structure EncodingHint where
  suggestions : List TerminalEncoding
  invalidBytes : Nat
  sampleBytes : Nat
  invalidRatio : Float32

structure EncodingMismatchDetector where
  enabled : Bool
  observedBytes : Nat
  sample : List UInt8
  invalidBytes : Nat
  emitted : Bool

namespace EncodingMismatchDetector

def maxSampleBytes : Nat := 2048
def minObservedBytes : Nat := 128
def minSampleBytes : Nat := 64
def minInvalidBytes : Nat := 4
def minInvalidRatio : Float32 := 0.015

/-- `usize::saturating_add`. -/
def saturatingAdd (a b : Nat) : Nat := min (a + b) (2 ^ 64 - 1)

def new (encoding : TerminalEncoding) : EncodingMismatchDetector :=
  { enabled := encoding.isUtf8
    observedBytes := 0
    sample := []
    invalidBytes := 0
    emitted := false }

/-- The counters of `observe`. -/
def counted (d : EncodingMismatchDetector) (bytes : List UInt8) : EncodingMismatchDetector :=
  { d with
    observedBytes := saturatingAdd d.observedBytes bytes.length
    invalidBytes := saturatingAdd d.invalidBytes (invalidUtf8Bytes bytes)
    sample := d.sample ++ bytes.take (maxSampleBytes - d.sample.length) }

/-- What `observe` makes of the counters; `ranked` is `ranked_legacy_suggestions`, which scores what
    `encoding_rs` decodes. -/
def judged (ranked : List UInt8 → List TerminalEncoding) (d : EncodingMismatchDetector) :
    Option EncodingHint × EncodingMismatchDetector :=
  if d.observedBytes < minObservedBytes ∨ d.sample.length < minSampleBytes ∨
      d.invalidBytes < minInvalidBytes then (none, d)
  else
    let ratio := Float32.ofNat d.invalidBytes / Float32.ofNat (max d.observedBytes 1)
    let suggestions := ranked d.sample
    if ratio < minInvalidRatio then (none, d)
    else if suggestions.isEmpty then (none, d)
    else
      (some { suggestions, invalidBytes := d.invalidBytes, sampleBytes := d.sample.length,
              invalidRatio := ratio },
        { d with emitted := true })

def observe (ranked : List UInt8 → List TerminalEncoding) (d : EncodingMismatchDetector)
    (bytes : List UInt8) : Option EncodingHint × EncodingMismatchDetector :=
  if d.enabled = false ∨ d.emitted = true ∨ bytes = [] then (none, d)
  else judged ranked (d.counted bytes)

end EncodingMismatchDetector

theorem invalidFrom_skip (bs rest : List UInt8) :
    invalidFrom bs.length (bs ++ rest) = invalidFrom 0 rest := by
  induction bs with
  | nil => rfl
  | cons b bs ih => simpa [invalidFrom] using ih

theorem illFormedLen_pos (bytes : List UInt8) : 0 < illFormedLen bytes := by
  unfold illFormedLen
  split
  · split_ifs <;> decide
  · split_ifs <;> decide
  · decide

theorem invalidUtf8Bytes_eq_zero : invalidUtf8Bytes bytes = 0 ↔ ∃ s, bytes = asBytes s := by
  unfold invalidUtf8Bytes
  constructor
  · intro h
    induction hn : bytes.length using Nat.strongRecOn generalizing bytes with
    | ind n ih =>
      cases bytes with
      | nil => exact ⟨[], rfl⟩
      | cons b bytes =>
        rw [invalidFrom] at h
        split at h
        · next c hdecode =>
            obtain ⟨rest, hrest⟩ := ByteArray.exists_of_utf8DecodeChar?_eq_some hdecode
            have hbytes : b :: bytes = String.utf8EncodeChar c ++ rest.data.toList := by
              have hlist := congrArg (fun bytes => bytes.data.toList) hrest
              simpa using hlist
            obtain ⟨first, others, hc, -⟩ := utf8EncodeChar_parts c
            have hsize : others.length = c.utf8Size - 1 := by
              rw [← String.length_utf8EncodeChar, hc]
              rfl
            rw [hc, List.cons_append] at hbytes
            obtain ⟨rfl, rfl⟩ := List.cons.inj hbytes
            rw [← hsize, invalidFrom_skip] at h
            obtain ⟨s, hs⟩ := ih rest.data.toList.length (by rw [← hn, List.length_cons, List.length_append]; omega) h rfl
            exact ⟨c :: s, by rw [asBytes_cons, hc, ← hs]; rfl⟩
        · have hpos := illFormedLen_pos (b :: bytes)
          omega
  · rintro ⟨s, rfl⟩
    induction s with
    | nil => rfl
    | cons c s ih =>
      obtain ⟨first, others, hc, -⟩ := utf8EncodeChar_parts c
      have hsize : others.length = c.utf8Size - 1 := by
        rw [← String.length_utf8EncodeChar, hc]
        rfl
      have hdecode : (first :: (others ++ asBytes s)).toByteArray.utf8DecodeChar? 0 = some c := by
        rw [← List.cons_append, ← hc, List.toByteArray_append,
          ByteArray.utf8DecodeChar?_utf8EncodeChar_append]
      rw [asBytes_cons, hc, List.cons_append, invalidFrom, hdecode]
      dsimp only
      rw [← hsize, invalidFrom_skip, ih]

section Detector

variable {ranked : List UInt8 → List TerminalEncoding} {d : EncodingMismatchDetector}

open EncodingMismatchDetector

theorem judged_spec (ranked : List UInt8 → List TerminalEncoding) (d : EncodingMismatchDetector) :
    (judged ranked d).2.enabled = d.enabled ∧ (judged ranked d).2.invalidBytes = d.invalidBytes ∧
      (d.invalidBytes = 0 → judged ranked d = (none, d)) := by
  refine ⟨?_, ?_, fun h => if_pos (.inr (.inr (by rw [h]; decide)))⟩
  all_goals
    unfold judged
    dsimp only
    split_ifs <;> rfl

theorem observe_spec (ranked : List UInt8 → List TerminalEncoding) (hd : d.invalidBytes = 0)
    (hemitted : d.emitted = false) (bytes : List UInt8) :
    (observe ranked d bytes).2.enabled = d.enabled ∧
      ((observe ranked d bytes).2.invalidBytes = 0 ↔
        (d.enabled = true → ∃ s, bytes = asBytes s)) ∧
      ((observe ranked d bytes).2.invalidBytes = 0 →
        (observe ranked d bytes).1 = none ∧ (observe ranked d bytes).2.emitted = false) := by
  obtain ⟨henabled, hinvalid, hnone⟩ := judged_spec ranked (d.counted bytes)
  have hcount : (d.counted bytes).invalidBytes = 0 ↔ ∃ s, bytes = asBytes s := by
    rw [← invalidUtf8Bytes_eq_zero]
    simp only [counted, hd, EncodingMismatchDetector.saturatingAdd]
    omega
  unfold observe
  split_ifs with hskip
  · refine ⟨rfl, ⟨fun _ hon => ⟨[], ?_⟩, fun _ => hd⟩, fun _ => ⟨rfl, hemitted⟩⟩
    simpa [hon, hemitted] using hskip
  · have hon : d.enabled = true := by simpa using (not_or.mp hskip).1
    refine ⟨henabled, by rw [hinvalid, hcount]; simp [hon], fun hzero => ?_⟩
    rw [hnone (hinvalid ▸ hzero)]
    exact ⟨rfl, hemitted⟩

/-- What the detector makes of the chunks is right as long as each is a text. -/
theorem feed_observe_iff (hd : d.invalidBytes = 0) (hemitted : d.emitted = false)
    (chunks : List (List UInt8)) :
    (∀ front, front <+: chunks → (feed (observe ranked) d front).2.invalidBytes = 0 ∧
        ∀ hint ∈ (feed (observe ranked) d front).1, hint = none) ↔
      (d.enabled = true → ∀ chunk ∈ chunks, ∃ s, chunk = asBytes s) := by
  induction chunks generalizing d with
  | nil =>
    refine ⟨fun _ _ chunk hchunk => absurd hchunk List.not_mem_nil, fun _ front hfront => ?_⟩
    obtain rfl := List.prefix_nil.mp hfront
    exact ⟨hd, fun hint hhint => absurd hhint List.not_mem_nil⟩
  | cons chunk chunks ih =>
    obtain ⟨henabled, htext, hsound⟩ := observe_spec ranked hd hemitted chunk
    constructor
    · intro h
      have hone : (observe ranked d chunk).2.invalidBytes = 0 := (h [chunk] ⟨chunks, rfl⟩).1
      have hrest := (ih hone (hsound hone).2).mp fun front hfront => by
        have hcons := h (chunk :: front) (List.cons_prefix_cons.mpr ⟨rfl, hfront⟩)
        exact ⟨hcons.1, fun hint hhint => hcons.2 hint (List.mem_cons_of_mem _ hhint)⟩
      rw [henabled] at hrest
      exact fun hon => List.forall_mem_cons.mpr ⟨htext.mp hone hon, hrest hon⟩
    · intro h front hfront
      cases front with
      | nil => exact ⟨hd, fun hint hhint => absurd hhint List.not_mem_nil⟩
      | cons first front =>
        obtain ⟨rfl, hchunks⟩ := List.cons_prefix_cons.mp hfront
        have hone := htext.mpr fun hon => (List.forall_mem_cons.mp (h hon)).1
        have hrest := (ih hone (hsound hone).2).mpr (fun hon =>
          (List.forall_mem_cons.mp (h (henabled ▸ hon))).2) front hchunks
        exact ⟨hrest.1, List.forall_mem_cons.mpr ⟨(hsound hone).1, hrest.2⟩⟩

end Detector

theorem startsCharacter_asBytes (s : Str) : StartsCharacter (asBytes s) := by
  cases s with
  | nil => exact fun b hb => absurd hb (Option.not_mem_none b)
  | cons c s =>
    obtain ⟨first, others, hc, hfirst, -⟩ := utf8EncodeChar_parts c
    intro b hb
    rw [asBytes_cons, hc] at hb
    obtain rfl := Option.some.inj hb
    exact hfirst

/-- The chunks of a text are texts exactly if none starts within a character. -/
theorem texts_iff {chunks : List (List UInt8)} (h : chunks.flatten = asBytes s) :
    (∀ chunk ∈ chunks, ∃ t, chunk = asBytes t) ↔ ∀ chunk ∈ chunks, StartsCharacter chunk := by
  constructor
  · intro htexts chunk hchunk
    obtain ⟨t, rfl⟩ := htexts chunk hchunk
    exact startsCharacter_asBytes t
  · intro hstarts
    induction chunks generalizing s with
    | nil => exact fun chunk hchunk => absurd hchunk List.not_mem_nil
    | cons chunk chunks ih =>
      obtain ⟨hchunk, hchunks⟩ := List.forall_mem_cons.mp hstarts
      obtain ⟨t, u, rfl, ht, hu⟩ := asBytes_split h.symm (startsCharacter_flatten hchunks)
      exact List.forall_mem_cons.mpr ⟨⟨t, ht⟩, ih hu hchunks⟩

/-- **The detector counts nothing in a text and suggests nothing exactly if it is off or no chunk
    starts within a character.** -/
theorem no_false_positive_iff (ranked : List UInt8 → List TerminalEncoding)
    (encoding : TerminalEncoding) {s : Str} {chunks : List (List UInt8)}
    (h : chunks.flatten = asBytes s) :
    (∀ front, front <+: chunks →
        (feed (EncodingMismatchDetector.observe ranked) (.new encoding) front).2.invalidBytes = 0 ∧
        ∀ hint ∈ (feed (EncodingMismatchDetector.observe ranked) (.new encoding) front).1,
          hint = none) ↔
      (encoding.isUtf8 = true → ∀ chunk ∈ chunks, StartsCharacter chunk) := by
  rw [feed_observe_iff rfl rfl, texts_iff h]
  rfl

theorem no_false_positive_iff_cut :
    asBytes ['\u00e9', 'a'] = [[0xc3, 0xa9], [0x61]].flatten ∧
      ((∀ front, front <+: [[0xc3, 0xa9], [0x61]] →
          (feed (EncodingMismatchDetector.observe fun _ => []) (.new .utf8) front).2.invalidBytes = 0 ∧
          ∀ hint ∈ (feed (EncodingMismatchDetector.observe fun _ => []) (.new .utf8) front).1,
            hint = none) ↔
        (TerminalEncoding.utf8.isUtf8 = true →
          ∀ chunk ∈ [[0xc3, 0xa9], [0x61]], StartsCharacter chunk)) :=
  ⟨rfl, no_false_positive_iff _ .utf8 (s := ['\u00e9', 'a']) rfl⟩

/-- `é`, its two bytes in two chunks. -/
theorem cut_character_is_counted :
    ¬ ∀ (ranked : List UInt8 → List TerminalEncoding) (encoding : TerminalEncoding) (s : Str)
      (chunks : List (List UInt8)), chunks.flatten = asBytes s → ∀ front, front <+: chunks →
        (feed (EncodingMismatchDetector.observe ranked) (.new encoding) front).2.invalidBytes = 0 ∧
        ∀ hint ∈ (feed (EncodingMismatchDetector.observe ranked) (.new encoding) front).1,
          hint = none := by
  intro hall
  have hcut := (feed_observe_iff (d := .new .utf8) rfl rfl [[0xc3], [0xa9]]).mp
    (hall (fun _ => []) .utf8 ['\u00e9'] [[0xc3], [0xa9]] rfl) rfl
  have htext : [[0xc3], [0xa9]].flatten = asBytes ['\u00e9'] := rfl
  have hstarts := (texts_iff htext).mp hcut [0xa9] (by simp) 0xa9 rfl
  exact absurd hstarts (by decide)

/-! ## 4. `MagicScanWindow` -/

def magicDetectOverlapBytes : Nat := 128

/-- `MagicScanWindow`, over any kinds of markers. -/
structure MagicScanWindow (κ : Type) where
  tail : List UInt8 := []
  patterns : List κ

/-- The search of `scan` for one marker, which has to end past `currentStart`. -/
def endsPast (marker window : List UInt8) (currentStart : Nat) : Bool :=
  !marker.isEmpty && decide (marker.length ≤ window.length) &&
    (List.range (window.length - marker.length + 1)).any fun index =>
      (window.drop index).take marker.length == marker && currentStart < index + marker.length

/-- A marker is in a stream from this place on. -/
def OccursAt (marker stream : List UInt8) (index : Nat) : Prop :=
  marker ≠ [] ∧ marker <+: stream.drop index

section Magic

variable {κ : Type} (marker : κ → List UInt8) {patterns : List κ}

def MagicScanWindow.scan (w : MagicScanWindow κ) (chunk : List UInt8) :
    List κ × MagicScanWindow κ :=
  if chunk = [] then ([], w)
  else
    let window := w.tail ++ chunk
    let keep := min magicDetectOverlapBytes window.length
    (w.patterns.filter fun kind => endsPast (marker kind) window w.tail.length,
      { w with tail := window.drop (window.length - keep) })

theorem endsPast_iff {marker window : List UInt8} {start : Nat} :
    endsPast marker window start = true ↔
      ∃ index, OccursAt marker window index ∧ start < index + marker.length := by
  unfold endsPast OccursAt
  simp only [Bool.and_eq_true, Bool.not_eq_true', decide_eq_true_eq, List.any_eq_true,
    List.mem_range, beq_iff_eq, List.isEmpty_eq_false_iff]
  constructor
  · rintro ⟨⟨hne, -⟩, index, -, htake, hpast⟩
    exact ⟨index, ⟨hne, List.prefix_iff_eq_take.mpr htake.symm⟩, hpast⟩
  · rintro ⟨index, ⟨hne, hprefix⟩, hpast⟩
    have hlen := hprefix.length_le
    have hpos := List.length_pos_of_ne_nil hne
    rw [List.length_drop] at hlen
    exact ⟨⟨hne, by omega⟩, index, by omega, (List.prefix_iff_eq_take.mp hprefix).symm, hpast⟩

theorem feed_getElem? {σ ω : Type} {step : σ → List UInt8 → ω × σ} (s : σ)
    (chunks : List (List UInt8)) (n : Nat) :
    (feed step s chunks).1[n]? =
      chunks[n]?.map fun chunk => (step (feed step s (chunks.take n)).2 chunk).1 := by
  induction chunks generalizing s n with
  | nil => rfl
  | cons chunk chunks ih =>
    cases n with
    | zero => rfl
    | succ n => exact ih _ n

/-- What the window keeps of a stream. -/
def lastOf (stream : List UInt8) : List UInt8 :=
  stream.drop (stream.length - magicDetectOverlapBytes)

theorem lastOf_append (past chunk : List UInt8) :
    lastOf past ++ chunk = (past ++ chunk).drop (past.length - magicDetectOverlapBytes) := by
  rw [List.drop_append_of_le_length (by omega), lastOf]

theorem feed_scan (patterns : List κ) (past : List UInt8) (chunks : List (List UInt8)) :
    (feed (MagicScanWindow.scan marker) ⟨lastOf past, patterns⟩ chunks).2 =
      ⟨lastOf (past ++ chunks.flatten), patterns⟩ := by
  induction chunks generalizing past with
  | nil =>
    rw [List.flatten_nil, List.append_nil]
    rfl
  | cons chunk chunks ih =>
    have hnext : (MagicScanWindow.scan marker ⟨lastOf past, patterns⟩ chunk).2 =
        ⟨lastOf (past ++ chunk), patterns⟩ := by
      unfold MagicScanWindow.scan
      split_ifs with hempty
      · rw [hempty, List.append_nil]
      · have hdrop : past.length - magicDetectOverlapBytes + ((lastOf past ++ chunk).length -
            min magicDetectOverlapBytes (lastOf past ++ chunk).length) =
            (past ++ chunk).length - magicDetectOverlapBytes := by
          simp only [lastOf_append, List.length_drop, List.length_append]
          omega
        have hlast : lastOf (past ++ chunk) = _ :=
          (congrArg (List.drop · (past ++ chunk)) hdrop).symm
        rw [hlast, ← List.drop_drop, ← lastOf_append]
    rw [feed_cons_state, hnext, ih, List.flatten_cons, List.append_assoc]

theorem scan_iff {past chunk : List UInt8} {kind : κ}
    (hshort : (marker kind).length ≤ magicDetectOverlapBytes) :
    kind ∈ (MagicScanWindow.scan marker ⟨lastOf past, patterns⟩ chunk).1 ↔
      kind ∈ patterns ∧ ∃ index, OccursAt (marker kind) (past ++ chunk) index ∧
        past.length < index + (marker kind).length := by
  have hlast : (lastOf past).length = past.length - (past.length - magicDetectOverlapBytes) :=
    List.length_drop
  unfold MagicScanWindow.scan
  split_ifs with hempty
  · refine ⟨fun h => absurd h List.not_mem_nil, ?_⟩
    rintro ⟨-, index, ⟨hne, hprefix⟩, hpast⟩
    have hlen := hprefix.length_le
    have hpos := List.length_pos_of_ne_nil hne
    rw [hempty, List.append_nil, List.length_drop] at hlen
    omega
  · rw [List.mem_filter, endsPast_iff, lastOf_append]
    rw [hlast]
    refine and_congr_right fun _ => ⟨?_, ?_⟩
    · rintro ⟨index, ⟨hne, hprefix⟩, hpast⟩
      rw [List.drop_drop] at hprefix
      exact ⟨_, ⟨hne, hprefix⟩, by omega⟩
    · rintro ⟨index, ⟨hne, hprefix⟩, hpast⟩
      obtain ⟨shift, rfl⟩ := Nat.exists_eq_add_of_le
        (show past.length - magicDetectOverlapBytes ≤ index by omega)
      rw [← List.drop_drop] at hprefix
      exact ⟨shift, ⟨hne, hprefix⟩, by omega⟩

/-- **A marker is reported with a chunk exactly if its last byte is in that chunk**, at one of the
    places where the stream has it. -/
theorem reported_iff (hshort : ∀ kind ∈ patterns, (marker kind).length ≤ magicDetectOverlapBytes)
    (chunks : List (List UInt8)) (n : Nat) (reported : List κ)
    (hn : (feed (MagicScanWindow.scan marker) { patterns } chunks).1[n]? = some reported)
    (kind : κ) :
    kind ∈ reported ↔ kind ∈ patterns ∧ ∃ index, OccursAt (marker kind) chunks.flatten index ∧
      (chunks.take n).flatten.length < index + (marker kind).length ∧
      index + (marker kind).length ≤ (chunks.take (n + 1)).flatten.length := by
  rw [feed_getElem?, Option.map_eq_some_iff] at hn
  obtain ⟨chunk, hchunk, rfl⟩ := hn
  obtain ⟨hlt, hget⟩ := List.getElem?_eq_some_iff.mp hchunk
  have hfront : (chunks.take (n + 1)).flatten = (chunks.take n).flatten ++ chunk := by
    rw [← List.take_append_getElem hlt, hget, List.flatten_append, List.flatten_singleton]
  have hstream : chunks.flatten =
      (chunks.take n).flatten ++ chunk ++ (chunks.drop (n + 1)).flatten := by
    rw [← hfront, ← List.flatten_append, List.take_append_drop]
  have hwindow := feed_scan marker patterns [] (chunks.take n)
  rw [List.nil_append] at hwindow
  rw [show (feed (MagicScanWindow.scan marker) { patterns } (chunks.take n)).2 = _ from hwindow,
    hfront, hstream]
  constructor
  · intro h
    have hkind : kind ∈ patterns := by
      unfold MagicScanWindow.scan at h
      split_ifs at h
      · cases h
      · exact List.mem_of_mem_filter h
    obtain ⟨-, index, ⟨hne, hprefix⟩, hpast⟩ := (scan_iff marker (hshort kind hkind)).mp h
    have hlen := hprefix.length_le
    have hpos := List.length_pos_of_ne_nil hne
    rw [List.length_drop] at hlen
    refine ⟨hkind, index, ⟨hne, ?_⟩, hpast, by omega⟩
    rw [List.drop_append_of_le_length (by omega)]
    exact hprefix.trans (List.prefix_append _ _)
  · rintro ⟨hkind, index, ⟨hne, hprefix⟩, hpast, hend⟩
    refine (scan_iff marker (hshort kind hkind)).mpr ⟨hkind, index, ⟨hne, ?_⟩, hpast⟩
    rw [List.drop_append_of_le_length (by omega)] at hprefix
    refine List.prefix_of_prefix_length_le hprefix (List.prefix_append _ _) ?_
    rw [List.length_drop]
    omega

end Magic

/-- `TerminalMagicKind::marker`, of the one kind there is. -/
def trzszTransferMarker : List UInt8 := asBytes "::TRZSZ:TRANSFER:".toList

theorem reported_iff_split :
    (feed (MagicScanWindow.scan fun _ : Unit => trzszTransferMarker) { patterns := [()] }
        [trzszTransferMarker.take 10, trzszTransferMarker.drop 10]).1 = [[], [()]] ∧
      (() ∈ [()] ↔ () ∈ [()] ∧ ∃ index, OccursAt trzszTransferMarker trzszTransferMarker index ∧
        10 < index + 17 ∧ index + 17 ≤ 17) :=
  ⟨by decide, reported_iff (fun _ : Unit => trzszTransferMarker) (by decide)
    [trzszTransferMarker.take 10, trzszTransferMarker.drop 10] 1 [()] (by decide) ()⟩

end Hapcli.Terminal
