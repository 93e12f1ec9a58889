/-
  Subject:   Navigation in a text by offsets that count UTF-16 units.

  * **`navigation_on_boundary_iff`** -- navigation ends on a boundary, except where the column of
    the offset is inside a surrogate pair of the line above or below.
-/
import Hapcli.Rust.Text

namespace Hapcli.Editor

open Hapcli.Rust

/-! ## 1. Offsets -/

/-- `char::len_utf16`. -/
def lenUtf16 (ch : Char) : Nat := if ch.toNat < 0x10000 then 1 else 2

/-- `str::encode_utf16().count()`. -/
def utf16Len (s : Str) : Nat := (s.map lenUtf16).sum

@[simp] theorem utf16Len_nil : utf16Len [] = 0 := rfl

@[simp] theorem utf16Len_cons (ch : Char) (s : Str) :
    utf16Len (ch :: s) = lenUtf16 ch + utf16Len s := rfl

@[simp] theorem utf16Len_append (s t : Str) : utf16Len (s ++ t) = utf16Len s + utf16Len t := by
  simp [utf16Len]

/-- The loop of `byte_index_for_utf16`: the text cut at the byte index. -/
def cutLoop (offset : Nat) : Nat → Str → Str × Str
  | _, [] => ([], [])
  | count, ch :: rest =>
    if offset ≤ count then ([], ch :: rest)
    else
      let parts := cutLoop offset (count + lenUtf16 ch) rest
      (ch :: parts.1, parts.2)

/-- The loop of `previous_utf16_boundary`. -/
def previousLoop (offset : Nat) : Nat → Nat → Str → Nat
  | previous, _, [] => previous
  | previous, count, ch :: rest =>
    if offset ≤ count then previous else previousLoop offset count (count + lenUtf16 ch) rest

def previousUtf16Boundary (value : Str) (offset : Nat) : Nat := previousLoop offset 0 0 value

/-- The loop of `next_utf16_boundary`. At the end the count is that of the text. -/
def nextLoop (offset : Nat) : Nat → Str → Nat
  | count, [] => count
  | count, ch :: rest =>
    if offset ≤ count then count + lenUtf16 ch else nextLoop offset (count + lenUtf16 ch) rest

def nextUtf16Boundary (value : Str) (offset : Nat) : Nat := nextLoop offset 0 value

/-! ## 2. Words -/

/-- The loop of `previous_word_boundary`, over the prefix from its end. -/
def previousWordLoop (sawWord : Bool) : Str → Nat
  | [] => 0
  | ch :: before =>
    if isWhitespace ch then
      if sawWord then utf16Len (ch :: before).reverse else previousWordLoop sawWord before
    else previousWordLoop true before

def previousWordBoundary (value : Str) (offset : Nat) : Nat :=
  previousWordLoop false (cutLoop offset 0 value).1.reverse

/-- The loop of `next_word_boundary`, with what is passed. -/
def nextWordLoop (sawWord : Bool) : Str → Str → Nat
  | passed, [] => utf16Len passed
  | passed, ch :: rest =>
    if isWhitespace ch then
      if sawWord then utf16Len passed else nextWordLoop sawWord (passed ++ [ch]) rest
    else nextWordLoop true (passed ++ [ch]) rest

def nextWordBoundary (value : Str) (offset : Nat) : Nat :=
  nextWordLoop false (cutLoop offset 0 value).1 (cutLoop offset 0 value).2

/-! ## 3. Lines -/

/-- The loop of `line_ranges_utf16`. -/
def lineRangesLoop : Nat → Nat → Str → List (Nat × Nat)
  | start, offset, [] => [(start, offset)]
  | start, offset, ch :: rest =>
    if ch = '\n' then
      (start, offset) :: lineRangesLoop (offset + lenUtf16 ch) (offset + lenUtf16 ch) rest
    else lineRangesLoop start (offset + lenUtf16 ch) rest

def lineRangesUtf16 (value : Str) : List (Nat × Nat) := lineRangesLoop 0 0 value

def lineRangeForUtf16Offset (value : Str) (offset : Nat) : Nat × Nat :=
  ((lineRangesUtf16 value).find? (offset ≤ ·.2)).getD (utf16Len value, utf16Len value)

def lineStartForUtf16Offset (value : Str) (offset : Nat) : Nat :=
  (lineRangeForUtf16Offset value offset).1

def lineEndForUtf16Offset (value : Str) (offset : Nat) : Nat :=
  (lineRangeForUtf16Offset value offset).2

def controlKDeleteEnd (value : Str) (offset : Nat) : Nat :=
  let lineEnd := lineEndForUtf16Offset value offset
  if offset < lineEnd then lineEnd else nextUtf16Boundary value offset

/-- `vertical_line_navigation_destination`; `none` is the panic of an index. -/
def verticalLineNavigationDestination (value : Str) (offset : Nat) (down : Bool) : Option Nat := do
  let ranges := lineRangesUtf16 value
  if ranges.isEmpty then return 0
  let lineIndex := (ranges.findIdx? (offset ≤ ·.2)).getD (ranges.length - 1)
  let current ← ranges[lineIndex]?
  let column := offset - current.1
  if down then
    match ranges[lineIndex + 1]? with
    | none => return utf16Len value
    | some next => return next.1 + min column (next.2 - next.1)
  else if lineIndex = 0 then return 0
  else
    let previous ← ranges[lineIndex - 1]?
    return previous.1 + min column (previous.2 - previous.1)

/-- The navigation functions. -/
inductive Navigation where
  | previousUtf16Boundary
  | nextUtf16Boundary
  | previousWordBoundary
  | nextWordBoundary
  | lineStart
  | lineEnd
  | controlKDeleteEnd
  | vertical (down : Bool)

/-- Where a navigation function leads. -/
def navigate (value : Str) (offset : Nat) : Navigation → Option Nat
  | .previousUtf16Boundary => some (previousUtf16Boundary value offset)
  | .nextUtf16Boundary => some (nextUtf16Boundary value offset)
  | .previousWordBoundary => some (previousWordBoundary value offset)
  | .nextWordBoundary => some (nextWordBoundary value offset)
  | .lineStart => some (lineStartForUtf16Offset value offset)
  | .lineEnd => some (lineEndForUtf16Offset value offset)
  | .controlKDeleteEnd => some (controlKDeleteEnd value offset)
  | .vertical down => verticalLineNavigationDestination value offset down

/-! ## 4. Boundaries -/

/-- The offset is in front of a character of the text, or at its end. -/
def OnBoundary (text : Str) (offset : Nat) : Prop :=
  ∃ front back, text = front ++ back ∧ utf16Len front = offset

variable {back front rest text value : Str} {count k n offset : Nat}

theorem lenUtf16_pos (ch : Char) : 0 < lenUtf16 ch := by
  unfold lenUtf16
  split <;> decide

theorem utf16Len_eq_zero : utf16Len text = 0 ↔ text = [] := by
  cases text with
  | nil => simp
  | cons ch text =>
    have := lenUtf16_pos ch
    simp only [utf16Len_cons, reduceCtorEq, iff_false]
    omega

theorem onBoundary_front (front back : Str) : OnBoundary (front ++ back) (utf16Len front) :=
  ⟨front, back, rfl, rfl⟩

theorem onBoundary_length (text : Str) : OnBoundary text (utf16Len text) :=
  ⟨text, [], (List.append_nil text).symm, rfl⟩

theorem onBoundary_zero (text : Str) : OnBoundary text 0 := ⟨[], text, rfl, rfl⟩

theorem OnBoundary.le (h : OnBoundary text n) : n ≤ utf16Len text := by
  obtain ⟨front, back, rfl, rfl⟩ := h
  simp

theorem exists_append_of_utf16Len_le {front' back' : Str} (h : front ++ back = front' ++ back')
    (hlen : utf16Len front ≤ utf16Len front') :
    ∃ between, front' = front ++ between ∧ back = between ++ back' := by
  rcases List.append_eq_append_iff.mp h with ⟨between, h₁, h₂⟩ | ⟨between, rfl, rfl⟩
  · exact ⟨between, h₁, h₂⟩
  · rw [utf16Len_append] at hlen
    obtain rfl := (utf16Len_eq_zero).mp (show utf16Len between = 0 by omega)
    exact ⟨[], by simp, rfl⟩

theorem onBoundary_part (hk : k ≤ utf16Len text) :
    OnBoundary (front ++ (text ++ back)) (utf16Len front + k) ↔ OnBoundary text k := by
  constructor
  · rintro ⟨left, right, heq, hlen⟩
    obtain ⟨between, rfl, hrest⟩ := exists_append_of_utf16Len_le heq (by omega)
    rw [utf16Len_append, Nat.add_left_cancel_iff] at hlen
    obtain ⟨after, htext, -⟩ := exists_append_of_utf16Len_le hrest.symm (hlen ▸ hk)
    exact ⟨between, after, htext, hlen⟩
  · rintro ⟨left, right, rfl, rfl⟩
    exact ⟨front ++ left, right ++ back, by simp, by simp⟩

theorem cutLoop_eq (offset count : Nat) (rest : Str) :
    (cutLoop offset count rest).1 ++ (cutLoop offset count rest).2 = rest := by
  induction rest generalizing count with
  | nil => rfl
  | cons ch rest ih =>
    rw [cutLoop]
    split
    · rfl
    · simp [ih]

theorem previousLoop_onBoundary (front rest : Str) {previous : Nat}
    (hprevious : OnBoundary (front ++ rest) previous) (hcount : utf16Len front = count) :
    OnBoundary (front ++ rest) (previousLoop offset previous count rest) := by
  induction rest generalizing front previous count with
  | nil => exact hprevious
  | cons ch rest ih =>
    rw [previousLoop]
    split
    · exact hprevious
    · have hcount' : utf16Len (front ++ [ch]) = count + lenUtf16 ch := by simp [hcount]
      have hprevious' : OnBoundary (front ++ [ch] ++ rest) count :=
        ⟨front, ch :: rest, by simp, hcount⟩
      simpa using ih (front ++ [ch]) hprevious' hcount'

theorem nextLoop_onBoundary (front rest : Str) (hcount : utf16Len front = count) :
    OnBoundary (front ++ rest) (nextLoop offset count rest) := by
  induction rest generalizing front count with
  | nil => exact ⟨front, [], rfl, hcount⟩
  | cons ch rest ih =>
    rw [nextLoop]
    split
    · exact ⟨front ++ [ch], rest, by simp, by simp [hcount]⟩
    · have hcount' : utf16Len (front ++ [ch]) = count + lenUtf16 ch := by simp [hcount]
      simpa using ih (front ++ [ch]) hcount'

theorem previousWordLoop_onBoundary (sawWord : Bool) (before back : Str) :
    OnBoundary (before.reverse ++ back) (previousWordLoop sawWord before) := by
  induction before generalizing sawWord back with
  | nil => exact onBoundary_zero _
  | cons ch before ih =>
    have hpassed : ∀ sawWord, OnBoundary ((ch :: before).reverse ++ back)
        (previousWordLoop sawWord before) := by
      intro sawWord
      simpa using ih sawWord (ch :: back)
    rw [previousWordLoop]
    split_ifs
    · exact onBoundary_front _ _
    · exact hpassed _
    · exact hpassed true

theorem nextWordLoop_onBoundary (sawWord : Bool) (front rest : Str) :
    OnBoundary (front ++ rest) (nextWordLoop sawWord front rest) := by
  induction rest generalizing sawWord front with
  | nil => exact onBoundary_front _ _
  | cons ch rest ih =>
    have hpassed : ∀ sawWord, OnBoundary (front ++ ch :: rest)
        (nextWordLoop sawWord (front ++ [ch]) rest) := by
      intro sawWord
      simpa using ih sawWord (front ++ [ch])
    rw [nextWordLoop]
    split_ifs
    · exact onBoundary_front _ _
    · exact hpassed _
    · exact hpassed true

/-! ## 5. Lines of a text -/

/-- Where a line starts. -/
def lineOffset (lines : List Str) (index : Nat) : Nat :=
  ((lines.take index).map fun line => utf16Len line + 1).sum

/-- The ranges of lines that are one newline apart. -/
@[grind] def rangesOf (start : Nat) : List Str → List (Nat × Nat)
  | [] => []
  | line :: lines => (start, start + utf16Len line) :: rangesOf (start + utf16Len line + 1) lines

variable {lines : List Str} {line : Str} {i : Nat}

theorem lineRangesLoop_eq (start offset : Nat) (rest : Str) :
    ∃ line lines, rest.splitOn '\n' = line :: lines ∧ lineRangesLoop start offset rest =
      (start, offset + utf16Len line) :: rangesOf (offset + utf16Len line + 1) lines := by
  induction rest generalizing start offset with
  | nil => exact ⟨[], [], rfl, rfl⟩
  | cons ch rest ih =>
    rw [lineRangesLoop, List.splitOn_cons_eq_if_modifyHead]
    by_cases hnewline : ch = '\n'
    · subst hnewline
      obtain ⟨line, lines, hsplit, hloop⟩ := ih (offset + 1) (offset + 1)
      exact ⟨[], line :: lines, by simp [hsplit], by simpa [lenUtf16, rangesOf] using hloop⟩
    · obtain ⟨line, lines, hsplit, hloop⟩ := ih start (offset + lenUtf16 ch)
      refine ⟨ch :: line, lines, by simp [hsplit, hnewline], ?_⟩
      rw [if_neg hnewline, hloop, utf16Len_cons, Nat.add_assoc]

theorem lineRangesUtf16_eq (value : Str) :
    lineRangesUtf16 value = rangesOf 0 (value.splitOn '\n') := by
  obtain ⟨line, lines, hsplit, hloop⟩ := lineRangesLoop_eq 0 0 value
  rw [lineRangesUtf16, hloop, hsplit]
  rfl

theorem rangesOf_getElem? (start : Nat) (lines : List Str) (i : Nat) :
    (rangesOf start lines)[i]? = lines[i]?.map fun line =>
      (start + lineOffset lines i, start + lineOffset lines i + utf16Len line) := by
  induction lines generalizing start i with
  | nil => rfl
  | cons line lines ih =>
    cases i with
    | zero => rfl
    | succ i =>
      rw [rangesOf, List.getElem?_cons_succ, List.getElem?_cons_succ, ih]
      simp only [lineOffset, List.take_succ_cons, List.map_cons, List.sum_cons, Nat.add_assoc,
        Nat.add_comm 1]

theorem findIdx?_rangesOf (start : Nat) (hline : lines[i]? = some line) (hk : k ≤ utf16Len line) :
    (rangesOf start lines).findIdx? (start + (lineOffset lines i + k) ≤ ·.2) = some i := by
  induction lines generalizing start i with
  | nil => cases hline
  | cons first lines ih =>
    rw [rangesOf, List.findIdx?_cons]
    cases i with
    | zero =>
      cases hline
      simp [lineOffset, hk]
    | succ i =>
      have hshift : start + (lineOffset (first :: lines) (i + 1) + k) =
          start + utf16Len first + 1 + (lineOffset lines i + k) := by
        simp only [lineOffset, List.take_succ_cons, List.map_cons, List.sum_cons]
        omega
      rw [hshift, ih _ hline, if_neg (by simp; omega)]
      rfl

theorem intercalate_cons (first : Str) (hne : lines ≠ []) :
    ['\n'].intercalate (first :: lines) = first ++ '\n' :: ['\n'].intercalate lines := by
  cases lines with
  | nil => exact absurd rfl hne
  | cons => simp [List.intercalate]

theorem lineOffset_succ (first : Str) (lines : List Str) (i : Nat) :
    lineOffset (first :: lines) (i + 1) = utf16Len first + 1 + lineOffset lines i := rfl

theorem exists_line (hne : lines ≠ []) (hn : n ≤ utf16Len (['\n'].intercalate lines)) :
    ∃ i line k, lines[i]? = some line ∧ n = lineOffset lines i + k ∧ k ≤ utf16Len line := by
  induction lines generalizing n with
  | nil => exact absurd rfl hne
  | cons first lines ih =>
    by_cases hfirst : n ≤ utf16Len first
    · exact ⟨0, first, n, rfl, (Nat.zero_add n).symm, hfirst⟩
    · have hlines : lines ≠ [] := by
        rintro rfl
        exact hfirst (by simpa [List.intercalate] using hn)
      have hnewline : lenUtf16 '\n' = 1 := rfl
      rw [intercalate_cons first hlines, utf16Len_append, utf16Len_cons, hnewline] at hn
      obtain ⟨i, line, k, hline, hoffset, hk⟩ :=
        ih (n := n - (utf16Len first + 1)) hlines (by omega)
      exact ⟨i + 1, line, k, hline, by rw [lineOffset_succ]; omega, hk⟩

theorem onBoundary_line (hline : lines[i]? = some line) (hk : k ≤ utf16Len line) :
    OnBoundary (['\n'].intercalate lines) (lineOffset lines i + k) ↔ OnBoundary line k := by
  have hparts : ∃ front back, ['\n'].intercalate lines = front ++ (line ++ back) ∧
      utf16Len front = lineOffset lines i := by
    clear hk
    induction lines generalizing i with
    | nil => cases hline
    | cons first lines ih =>
      by_cases hlines : lines = []
      · subst hlines
        obtain ⟨rfl, rfl⟩ : i = 0 ∧ line = first := by
          cases i with
          | zero => exact ⟨rfl, (Option.some.inj hline).symm⟩
          | succ i => cases hline
        exact ⟨[], [], by simp [List.intercalate], rfl⟩
      · rw [intercalate_cons first hlines]
        cases i with
        | zero =>
          cases hline
          exact ⟨[], _, rfl, rfl⟩
        | succ i =>
          obtain ⟨front, back, htext, hlen⟩ := ih hline
          refine ⟨first ++ '\n' :: front, back, by simp [htext], ?_⟩
          rw [lineOffset_succ, utf16Len_append, utf16Len_cons, hlen, Nat.add_assoc]
          rfl
  obtain ⟨front, back, htext, hlen⟩ := hparts
  rw [htext, ← hlen]
  exact onBoundary_part hk

/-! ## 6. Navigation -/

theorem lineRange_onBoundary {range : Nat × Nat} (h : range ∈ lineRangesUtf16 value) :
    OnBoundary value range.1 ∧ OnBoundary value range.2 := by
  rw [lineRangesUtf16_eq] at h
  obtain ⟨i, hi⟩ := List.mem_iff_getElem?.mp h
  rw [rangesOf_getElem?, Nat.zero_add] at hi
  obtain ⟨line, hline, rfl⟩ := Option.map_eq_some_iff.mp hi
  have hstart := (onBoundary_line hline (Nat.zero_le _)).mpr (onBoundary_zero line)
  have hstop := (onBoundary_line hline (Nat.le_refl _)).mpr (onBoundary_length line)
  rw [List.intercalate_splitOn] at hstart hstop
  exact ⟨hstart, hstop⟩

theorem lineRangeFor_onBoundary (value : Str) (offset : Nat) :
    OnBoundary value (lineRangeForUtf16Offset value offset).1 ∧
      OnBoundary value (lineRangeForUtf16Offset value offset).2 := by
  unfold lineRangeForUtf16Offset
  cases hfind : (lineRangesUtf16 value).find? (offset ≤ ·.2) with
  | none => exact ⟨onBoundary_length value, onBoundary_length value⟩
  | some range => exact lineRange_onBoundary (List.mem_of_find?_eq_some hfind)

theorem nextUtf16Boundary_onBoundary (value : Str) (offset : Nat) :
    OnBoundary value (nextUtf16Boundary value offset) :=
  nextLoop_onBoundary [] value rfl

/-- What does not go to another line ends on a boundary. -/
theorem navigate_onBoundary {navigation : Navigation} (value : Str) (offset : Nat)
    (h : ∀ down, navigation ≠ .vertical down) :
    ∃ destination, navigate value offset navigation = some destination ∧
      OnBoundary value destination := by
  cases navigation with
  | previousUtf16Boundary =>
    exact ⟨_, rfl, previousLoop_onBoundary [] value (onBoundary_zero value) rfl⟩
  | nextUtf16Boundary => exact ⟨_, rfl, nextUtf16Boundary_onBoundary value offset⟩
  | previousWordBoundary =>
    have hword := previousWordLoop_onBoundary false (cutLoop offset 0 value).1.reverse
      (cutLoop offset 0 value).2
    rw [List.reverse_reverse, cutLoop_eq] at hword
    exact ⟨_, rfl, hword⟩
  | nextWordBoundary =>
    have hword := nextWordLoop_onBoundary false (cutLoop offset 0 value).1
      (cutLoop offset 0 value).2
    rw [cutLoop_eq] at hword
    exact ⟨_, rfl, hword⟩
  | lineStart => exact ⟨_, rfl, (lineRangeFor_onBoundary value offset).1⟩
  | lineEnd => exact ⟨_, rfl, (lineRangeFor_onBoundary value offset).2⟩
  | controlKDeleteEnd =>
    refine ⟨_, rfl, ?_⟩
    dsimp only [controlKDeleteEnd]
    split
    · exact (lineRangeFor_onBoundary value offset).2
    · exact nextUtf16Boundary_onBoundary value offset
  | vertical down => exact absurd rfl (h down)

/-- The line below or above one. -/
def neighbour (lines : List Str) (index : Nat) (down : Bool) : Option Str :=
  if down then lines[index + 1]? else if index = 0 then none else lines[index - 1]?

theorem clamped_iff {target : Str} {j : Nat} (htarget : (value.splitOn '\n')[j]? = some target) :
    OnBoundary value (lineOffset (value.splitOn '\n') j + min k (utf16Len target)) ↔
      (k < utf16Len target → OnBoundary target k) := by
  have hline := onBoundary_line htarget (Nat.min_le_right k (utf16Len target))
  rw [List.intercalate_splitOn] at hline
  rw [hline]
  by_cases hk : k < utf16Len target
  · simp [hk, Nat.min_eq_left (Nat.le_of_lt hk)]
  · simp [hk, Nat.min_eq_right (Nat.le_of_not_lt hk), onBoundary_length]

theorem vertical_onBoundary_iff (hline : (value.splitOn '\n')[i]? = some line)
    (hk : k ≤ utf16Len line) (down : Bool) :
    (∃ destination, verticalLineNavigationDestination value
        (lineOffset (value.splitOn '\n') i + k) down = some destination ∧
        OnBoundary value destination) ↔
      ∀ target, neighbour (value.splitOn '\n') i down = some target → k < utf16Len target →
        OnBoundary target k := by
  have hfind := findIdx?_rangesOf 0 hline hk
  have hget := rangesOf_getElem? 0 (value.splitOn '\n')
  simp only [Nat.zero_add] at hfind hget
  have hne : (rangesOf 0 (value.splitOn '\n')).isEmpty = false := by
    cases hranges : rangesOf 0 (value.splitOn '\n') with
    | nil =>
      rw [hranges] at hfind
      cases hfind
    | cons => rfl
  simp only [verticalLineNavigationDestination, lineRangesUtf16_eq, hne, hfind, hget, hline,
    Option.getD_some, Option.map_some]
  cases down with
  | true =>
    cases htarget : (value.splitOn '\n')[i + 1]? with
    | none => simp [neighbour, htarget, onBoundary_length]
    | some target => simpa [neighbour, htarget] using clamped_iff htarget
  | false =>
    cases i with
    | zero => simp [neighbour, onBoundary_zero]
    | succ i =>
      have hlt : i < (value.splitOn '\n').length :=
        Nat.lt_of_succ_lt (List.getElem?_eq_some_iff.mp hline).1
      have htarget := List.getElem?_eq_getElem hlt
      simpa [neighbour, htarget] using clamped_iff htarget

/-- **Navigation stays on boundaries**, exactly where the column of the offset is not inside a
    surrogate pair of the line below or above. -/
theorem navigation_on_boundary_iff (h : OnBoundary value offset) :
    ((∀ range ∈ lineRangesUtf16 value, OnBoundary value range.1 ∧ OnBoundary value range.2) ∧
      ∀ navigation, ∃ destination, navigate value offset navigation = some destination ∧
        OnBoundary value destination) ↔
      ∀ i line column down target, (value.splitOn '\n')[i]? = some line →
        offset = lineOffset (value.splitOn '\n') i + column → column ≤ utf16Len line →
        neighbour (value.splitOn '\n') i down = some target → column < utf16Len target →
        OnBoundary target column := by
  constructor
  · rintro ⟨-, hnavigate⟩ i line column down target hline rfl hcolumn
    exact (vertical_onBoundary_iff hline hcolumn down).mp (hnavigate (.vertical down)) target
  · intro hcolumn
    refine ⟨fun range hrange => lineRange_onBoundary hrange, fun navigation => ?_⟩
    by_cases hvertical : ∃ down, navigation = .vertical down
    · obtain ⟨down, rfl⟩ := hvertical
      have hle : offset ≤ utf16Len (['\n'].intercalate (value.splitOn '\n')) := by
        rw [List.intercalate_splitOn]
        exact h.le
      obtain ⟨i, line, column, hline, rfl, hk⟩ := exists_line (List.splitOn_ne_nil _ _) hle
      exact (vertical_onBoundary_iff hline hk down).mpr fun target =>
        hcolumn i line column down target hline rfl hk
    · exact navigate_onBoundary value offset fun down hdown => hvertical ⟨down, hdown⟩

/-- A text without surrogate pairs. -/
theorem navigation_on_boundary_ascii :
    ∃ destination, navigate ['a', '\n', 'b'] 1 (.vertical true) = some destination ∧
      OnBoundary ['a', '\n', 'b'] destination := by
  have hstart : OnBoundary ['a', '\n', 'b'] 1 := ⟨['a'], ['\n', 'b'], rfl, rfl⟩
  refine ((navigation_on_boundary_iff hstart).mpr ?_).2 (.vertical true)
  intro i line column down target _ _ _ htarget hcolumn
  have hmem : target ∈ [['a'], ['b']] := by
    unfold neighbour at htarget
    split_ifs at htarget
    · exact List.mem_of_getElem? htarget
    · exact List.mem_of_getElem? htarget
  have hlen : utf16Len target = 1 := by
    rcases List.mem_pair.mp hmem with rfl | rfl <;> rfl
  obtain rfl : column = 0 := by omega
  exact onBoundary_zero target

/-- From `a` down to the middle of the pair below. -/
theorem navigation_into_pair :
    ¬∀ (value : Str) (offset : Nat), OnBoundary value offset → ∀ navigation,
      ∃ destination, navigate value offset navigation = some destination ∧
        OnBoundary value destination := by
  intro h
  have hstart : OnBoundary ['a', '\n', '😄'] 1 := ⟨['a'], ['\n', '😄'], rfl, rfl⟩
  obtain ⟨destination, hdestination, hboundary⟩ := h _ 1 hstart (.vertical true)
  have hinside : navigate ['a', '\n', '😄'] 1 (.vertical true) = some 3 := by decide
  obtain rfl := Option.some.inj (hinside.symm.trans hdestination)
  have hpart : OnBoundary (['a', '\n'] ++ (['😄'] ++ [])) (utf16Len ['a', '\n'] + 1) := hboundary
  have hpair : OnBoundary ['😄'] 1 := (onBoundary_part (by decide)).mp hpart
  obtain ⟨front, back, htext, hlen⟩ := hpair
  cases front with
  | nil => cases hlen
  | cons ch front =>
    obtain ⟨rfl, -⟩ := List.cons.inj htext
    rw [utf16Len_cons, show lenUtf16 '😄' = 2 from rfl] at hlen
    omega

end Hapcli.Editor
