/-
  Subject:   The line diff of the previews (`text_diff.rs`): `compute_text_diff`.

  The table of lengths is one vector, row after row, as in the source. Its entries are `u32` there;
  `tableEntry_lt` says that they stay far below.

  * **`Filled.fillTable`** -- the table holds the lengths of longest common subsequences;
  * **`leftOf_walkBack`**, **`rightOf_walkBack`**, **`unchanged_walkBack`** -- what the walk through the
    table collects;
  * **`computeTextDiff_correct`** -- the diff is faithful, and shortest where the table was used.
-/
import Hapcli.Lib.CommonSublist
import Hapcli.Rust.Text

namespace Hapcli.Sftp

open Hapcli.Rust
open Hapcli.Lib

/-! ## 1. The diff -/

inductive TextDiffLineKind where
  | unchanged
  | added
  | removed
  deriving DecidableEq

structure TextDiffLine where
  kind : TextDiffLineKind
  content : Str
  leftLineNum : Option Nat
  rightLineNum : Option Nat
  deriving DecidableEq

def maxLcsCells : Nat := 4000000

variable (left right : List Str)

/-- `.zip(..).take_while(|(left, right)| left == right).count()`. -/
def equalCount : Nat :=
  ((left.zip right).takeWhile fun lines => lines.1 == lines.2).length

def leadingEqual : Nat := equalCount left right

/-- `trailing_equal`: what is equal at the end of what the equal beginning leaves. -/
def trailingEqual : Nat :=
  equalCount (left.drop (leadingEqual left right)).reverse
    (right.drop (leadingEqual left right)).reverse

/-- `lines[leading..len - trailing]`. -/
def middle (lines : List Str) (leading trailing : Nat) : List Str :=
  (lines.drop leading).take (lines.length - trailing - leading)

/-- `cell_count`, of a product that saturates. -/
def cellCount : Nat :=
  min ((left.length + 1) * (right.length + 1)) (2 ^ 64 - 1)

/-- `lcs_lengths[left_index * row_width + right_index]`. -/
def entry (right : List Str) (table : List Nat) (leftIndex rightIndex : Nat) : Nat :=
  table.getD (leftIndex * (right.length + 1) + rightIndex) 0

/-- One step of the inner loop. -/
def fillCell (table : List Nat) (leftIndex rightIndex : Nat) : List Nat :=
  table.set (leftIndex * (right.length + 1) + rightIndex)
    (if left[leftIndex - 1]? = right[rightIndex - 1]? then
      entry right table (leftIndex - 1) (rightIndex - 1) + 1
    else max (entry right table (leftIndex - 1) rightIndex) (entry right table leftIndex (rightIndex - 1)))

/-- The inner loop. -/
def fillRow (table : List Nat) (leftIndex : Nat) : List Nat :=
  (List.range' 1 right.length).foldl (fun table rightIndex => fillCell left right table leftIndex rightIndex)
    table

/-- `lcs_lengths`, filled. -/
def fillTable : List Nat :=
  (List.range' 1 left.length).foldl (fillRow left right) (List.replicate (cellCount left right) 0)

/-- The lines the way back through the table puts down, the last one first. -/
@[grind] def walkBack (left right : List Str) (table : List Nat) (leading leftIndex rightIndex : Nat) :
    List TextDiffLine :=
  if hany : 0 < leftIndex ∨ 0 < rightIndex then
    if hsame : 0 < leftIndex ∧ 0 < rightIndex ∧ left[leftIndex - 1]? = right[rightIndex - 1]? then
      ⟨.unchanged, left.getD (leftIndex - 1) [], some (leading + leftIndex),
          some (leading + rightIndex)⟩ ::
        walkBack left right table leading (leftIndex - 1) (rightIndex - 1)
    else if hadded : 0 < rightIndex ∧ (leftIndex = 0 ∨
        entry right table (leftIndex - 1) rightIndex ≤ entry right table leftIndex (rightIndex - 1)) then
      ⟨.added, right.getD (rightIndex - 1) [], none, some (leading + rightIndex)⟩ ::
        walkBack left right table leading leftIndex (rightIndex - 1)
    else
      ⟨.removed, left.getD (leftIndex - 1) [], some (leading + leftIndex), none⟩ ::
        walkBack left right table leading (leftIndex - 1) rightIndex
  else []
termination_by leftIndex + rightIndex

/-- The lines between the equal ends: where the table would be too large all are removed and added.
    -/
def diffMiddle (leading : Nat) : List TextDiffLine :=
  if maxLcsCells < cellCount left right then
    (left.zipIdx.map fun line => ⟨.removed, line.1, some (leading + line.2 + 1), none⟩) ++
      right.zipIdx.map fun line => ⟨.added, line.1, none, some (leading + line.2 + 1)⟩
  else (walkBack left right (fillTable left right) leading left.length right.length).reverse

/-- `compute_text_diff`, of the lines of the two texts. -/
def computeLineDiff : List TextDiffLine :=
  let leading := leadingEqual left right
  let trailing := trailingEqual left right
  let leadingLines := (List.range leading).map fun index =>
    (⟨.unchanged, left.getD index [], some (index + 1), some (index + 1)⟩ : TextDiffLine)
  let trailingLines := (List.range trailing).reverse.map fun offset =>
    (⟨.unchanged, left.getD (left.length - offset - 1) [], some (left.length - offset),
      some (right.length - offset)⟩ : TextDiffLine)
  leadingLines ++
    diffMiddle (middle left leading trailing) (middle right leading trailing) leading ++ trailingLines

/-- `text.split('\n')`. -/
def linesOf (text : Str) : List Str := text.splitOn '\n'

def computeTextDiff (left right : Str) : List TextDiffLine :=
  computeLineDiff (linesOf left) (linesOf right)

/-! ## 2. The equal beginning and the equal end -/

variable (left right : List Str)

theorem equalCount_le_left : equalCount left right ≤ left.length :=
  Nat.le_trans (List.takeWhile_sublist _).length_le
    (by rw [List.length_zip]; exact Nat.min_le_left _ _)

theorem equalCount_le_right : equalCount left right ≤ right.length :=
  Nat.le_trans (List.takeWhile_sublist _).length_le
    (by rw [List.length_zip]; exact Nat.min_le_right _ _)

theorem take_equalCount :
    left.take (equalCount left right) = right.take (equalCount left right) := by
  induction left generalizing right with
  | nil => simp [equalCount]
  | cons a left ih =>
    cases right with
    | nil => simp [equalCount]
    | cons b right =>
      unfold equalCount
      rw [List.zip_cons_cons, List.takeWhile_cons]
      by_cases hab : a = b
      · subst hab
        simp only [beq_self_eq_true, if_true, List.length_cons, List.take_succ_cons]
        rw [← equalCount, ih]
      · simp [hab]

theorem lines_split {lines : List Str} {leading trailing : Nat}
    (h : leading + trailing ≤ lines.length) :
    lines.take leading ++ middle lines leading trailing ++ lines.drop (lines.length - trailing) =
      lines := by
  have hmiddle : (lines.drop leading).drop (lines.length - trailing - leading) =
      lines.drop (lines.length - trailing) := by
    rw [List.drop_drop]
    congr 1
    omega
  rw [middle, List.append_assoc, ← hmiddle, List.take_append_drop, List.take_append_drop]

theorem leading_trailing_le_left :
    leadingEqual left right + trailingEqual left right ≤ left.length := by
  have hleading := equalCount_le_left left right
  have htrailing := equalCount_le_left (left.drop (leadingEqual left right)).reverse
    (right.drop (leadingEqual left right)).reverse
  rw [List.length_reverse, List.length_drop] at htrailing
  unfold leadingEqual at *
  unfold trailingEqual leadingEqual
  omega

theorem leading_trailing_le_right :
    leadingEqual left right + trailingEqual left right ≤ right.length := by
  have hleading := equalCount_le_right left right
  have htrailing := equalCount_le_right (left.drop (leadingEqual left right)).reverse
    (right.drop (leadingEqual left right)).reverse
  rw [List.length_reverse, List.length_drop] at htrailing
  unfold leadingEqual at *
  unfold trailingEqual leadingEqual
  omega

theorem drop_trailing :
    left.drop (left.length - trailingEqual left right) =
      right.drop (right.length - trailingEqual left right) := by
  have htake := take_equalCount (left.drop (leadingEqual left right)).reverse
    (right.drop (leadingEqual left right)).reverse
  have hleft := leading_trailing_le_left left right
  have hright := leading_trailing_le_right left right
  rw [← trailingEqual, List.take_reverse, List.take_reverse, List.reverse_inj, List.length_drop,
    List.length_drop, List.drop_drop, List.drop_drop] at htake
  have hl : leadingEqual left right + (left.length - leadingEqual left right -
      trailingEqual left right) = left.length - trailingEqual left right := by omega
  have hr : leadingEqual left right + (right.length - leadingEqual left right -
      trailingEqual left right) = right.length - trailingEqual left right := by omega
  rwa [hl, hr] at htake

/-! ## 3. The table -/

theorem foldl_rounds {σ : Type} {n : Nat} {f : σ → Nat → σ} {P : Nat → σ → Prop}
    (hround : ∀ i s, 1 ≤ i → i ≤ n → P i s → P (i + 1) (f s i)) {s : σ} (h : P 1 s) :
    P (n + 1) ((List.range' 1 n).foldl f s) := by
  have hrounds : ∀ k, k ≤ n → P (k + 1) ((List.range' 1 k).foldl f s) := by
    intro k hk
    induction k with
    | zero => exact h
    | succ k ih =>
      rw [List.range'_concat, List.foldl_append, Nat.one_mul, Nat.add_comm 1 k]
      exact hround (k + 1) _ (Nat.le_add_left 1 k) hk (ih (Nat.le_of_succ_le hk))
  exact hrounds n (Nat.le_refl n)

/-- The rows before `leftIndex`, and this row before `rightIndex`, hold lengths of longest common
    subsequences. -/
structure Filled (leftIndex rightIndex : Nat) (table : List Nat) : Prop where
  size : table.length = (left.length + 1) * (right.length + 1)
  entries : ∀ i j, i ≤ left.length → j ≤ right.length →
    i < leftIndex ∨ i = leftIndex ∧ j < rightIndex ∨ i = 0 ∨ j = 0 →
      IsLongestCommon (entry right table i j) (left.take i) (right.take j)

theorem place_eq_iff {width i j k l : Nat} (hj : j < width) (hl : l < width) :
    i * width + j = k * width + l ↔ i = k ∧ j = l := by
  constructor
  · intro h
    have hwidth : 0 < width := Nat.lt_of_le_of_lt (Nat.zero_le j) hj
    have hdiv : (width * i + j) / width = (width * k + l) / width := by
      rw [Nat.mul_comm width i, h, Nat.mul_comm width k]
    rw [Nat.mul_add_div hwidth, Nat.mul_add_div hwidth, Nat.div_eq_of_lt hj,
      Nat.div_eq_of_lt hl] at hdiv
    obtain rfl : i = k := hdiv
    exact ⟨rfl, Nat.add_left_cancel h⟩
  · rintro ⟨rfl, rfl⟩
    rfl

theorem place_lt {height width i j : Nat} (hi : i ≤ height) (hj : j < width) :
    i * width + j < (height + 1) * width := by
  have hrow := Nat.mul_le_mul_right width hi
  rw [Nat.succ_mul]
  omega

section Table

variable {left right : List Str} {table : List Nat}

theorem entry_fillCell {leftIndex rightIndex i j : Nat}
    (hsize : table.length = (left.length + 1) * (right.length + 1)) (hi : leftIndex ≤ left.length)
    (hj : rightIndex ≤ right.length) (hj' : j ≤ right.length) :
    entry right (fillCell left right table leftIndex rightIndex) i j =
      if i = leftIndex ∧ j = rightIndex then
        if left[leftIndex - 1]? = right[rightIndex - 1]? then
          entry right table (leftIndex - 1) (rightIndex - 1) + 1
        else
          max (entry right table (leftIndex - 1) rightIndex)
            (entry right table leftIndex (rightIndex - 1))
      else entry right table i j := by
  have hplace := place_eq_iff (i := i) (k := leftIndex) (Nat.lt_succ_of_le hj')
    (Nat.lt_succ_of_le hj)
  have hlt := place_lt hi (Nat.lt_succ_of_le hj)
  rw [entry, fillCell, List.getD_eq_getElem?_getD, List.getElem?_set]
  by_cases h : i = leftIndex ∧ j = rightIndex
  · obtain ⟨rfl, rfl⟩ := h
    simp [hsize, hlt]
  · rw [if_neg h, if_neg (fun heq => h (hplace.mp heq.symm)), ← List.getD_eq_getElem?_getD, entry]

theorem Filled.fillCell {leftIndex rightIndex : Nat}
    (h : Filled left right leftIndex rightIndex table) (hi : 1 ≤ leftIndex)
    (hi' : leftIndex ≤ left.length) (hj : 1 ≤ rightIndex) (hj' : rightIndex ≤ right.length) :
    Filled left right leftIndex (rightIndex + 1) (fillCell left right table leftIndex rightIndex) where
  size := by
    rw [Sftp.fillCell, List.length_set]
    exact h.size
  entries := by
    intro i j hle hle' hcase
    rw [entry_fillCell h.size hi' hj' hle']
    split
    · next hplace =>
        obtain ⟨rfl, rfl⟩ := hplace
        obtain ⟨i, rfl⟩ := Nat.exists_eq_add_of_le' hi
        obtain ⟨j, rfl⟩ := Nat.exists_eq_add_of_le' hj
        have hl : left.take (i + 1) = left.take i ++ [left[i]] := List.take_succ_eq_append_getElem hle
        have hr : right.take (j + 1) = right.take j ++ [right[j]] :=
          List.take_succ_eq_append_getElem hle'
        rw [Nat.add_sub_cancel, Nat.add_sub_cancel, List.getElem?_eq_getElem hle,
          List.getElem?_eq_getElem hle', hl, hr]
        have hdiagonal := h.entries i j (by omega) (by omega) (.inl (by omega))
        have habove := h.entries i (j + 1) (by omega) hle' (.inl (by omega))
        have hbefore := h.entries (i + 1) j hle (by omega) (.inr (.inl ⟨rfl, by omega⟩))
        rw [hr] at habove
        rw [hl] at hbefore
        split
        · next hsame =>
            rw [Option.some.inj hsame]
            exact hdiagonal.concat_same _
        · next hne => exact .concat_ne (fun heq => hne (congrArg some heq)) habove hbefore
    · next hplace => exact h.entries i j hle hle' (by omega)

theorem Filled.fillRow {leftIndex : Nat} (h : Filled left right leftIndex 1 table)
    (hi : 1 ≤ leftIndex) (hi' : leftIndex ≤ left.length) :
    Filled left right (leftIndex + 1) 1 (fillRow left right table leftIndex) := by
  have hrow : Filled left right leftIndex (right.length + 1) (Sftp.fillRow left right table leftIndex) :=
    foldl_rounds (P := fun rightIndex table => Filled left right leftIndex rightIndex table)
      (fun rightIndex table hj hj' h => h.fillCell hi hi' hj hj') h
  exact ⟨hrow.size, fun i j hle hle' hcase => hrow.entries i j hle hle' (by omega)⟩

theorem Filled.fillTable (hsize : cellCount left right ≤ maxLcsCells) :
    Filled left right (left.length + 1) 1 (fillTable left right) := by
  have hcount : cellCount left right = (left.length + 1) * (right.length + 1) := by
    unfold cellCount maxLcsCells at *
    omega
  refine foldl_rounds (P := fun leftIndex table => Filled left right leftIndex 1 table)
    (fun leftIndex table hi hi' h => h.fillRow hi hi') ⟨?_, fun i j hle hle' hcase => ?_⟩
  · rw [List.length_replicate, hcount]
  · have hzero : entry right (List.replicate (cellCount left right) 0) i j = 0 := by
      rw [entry, List.getD_eq_getElem?_getD, List.getElem?_replicate]
      split <;> rfl
    rw [hzero]
    obtain rfl | rfl : i = 0 ∨ j = 0 := by omega
    · exact .nil_left _
    · exact .nil_right _

end Table

/-! ## 4. The two texts in a diff -/

/-- Lines with their numbers. -/
def numbered (first : Nat) (lines : List Str) : List (Option Nat × Str) :=
  (lines.zipIdx first).map fun line => (some line.2, line.1)

/-- The unchanged and the removed lines, with the numbers they have on the left. -/
def leftOf (lines : List TextDiffLine) : List (Option Nat × Str) :=
  (lines.filter fun line => line.kind != .added).map fun line => (line.leftLineNum, line.content)

/-- The unchanged and the added lines, with the numbers they have on the right. -/
def rightOf (lines : List TextDiffLine) : List (Option Nat × Str) :=
  (lines.filter fun line => line.kind != .removed).map fun line => (line.rightLineNum, line.content)

/-- The number of unchanged lines. -/
def unchangedCount (lines : List TextDiffLine) : Nat :=
  lines.countP fun line => line.kind == .unchanged

@[simp] theorem numbered_append (first : Nat) (lines lines' : List Str) :
    numbered first (lines ++ lines') =
      numbered first lines ++ numbered (first + lines.length) lines' := by
  rw [numbered, List.zipIdx_append, List.map_append, numbered, numbered]

theorem numbered_take_succ {first i : Nat} {lines : List Str} (h : i < lines.length) :
    numbered first (lines.take (i + 1)) =
      numbered first (lines.take i) ++ [(some (first + i), lines.getD i [])] := by
  rw [List.take_succ_eq_append_getElem h, numbered_append, List.length_take, Nat.min_eq_left
    (Nat.le_of_lt h), List.getD_eq_getElem?_getD, List.getElem?_eq_getElem h]
  rfl

variable (lines lines' : List TextDiffLine)

@[simp] theorem leftOf_append : leftOf (lines ++ lines') = leftOf lines ++ leftOf lines' := by
  rw [leftOf, List.filter_append, List.map_append, leftOf, leftOf]

@[simp] theorem rightOf_append : rightOf (lines ++ lines') = rightOf lines ++ rightOf lines' := by
  rw [rightOf, List.filter_append, List.map_append, rightOf, rightOf]

@[simp] theorem unchangedCount_append :
    unchangedCount (lines ++ lines') = unchangedCount lines + unchangedCount lines' :=
  List.countP_append

section Walk

variable {left right : List Str} {table : List Nat} {leading leftIndex rightIndex : Nat}

theorem leftOf_walkBack (hle : leftIndex ≤ left.length) :
    leftOf (walkBack left right table leading leftIndex rightIndex).reverse =
      numbered (leading + 1) (left.take leftIndex) := by
  fun_induction walkBack left right table leading leftIndex rightIndex with
  | case1 i j hany hsame ih =>
    obtain ⟨i, rfl⟩ := Nat.exists_eq_add_of_le' hsame.1
    rw [List.reverse_cons, leftOf_append, ih (by omega), numbered_take_succ (by omega),
      Nat.add_sub_cancel, Nat.add_right_comm leading 1 i]
    rfl
  | case2 i j hany hsame hadded ih =>
    rw [List.reverse_cons, leftOf_append, ih hle]
    exact List.append_nil _
  | case3 i j hany hsame hadded ih =>
    have hi : 1 ≤ i := by omega
    obtain ⟨i, rfl⟩ := Nat.exists_eq_add_of_le' hi
    rw [List.reverse_cons, leftOf_append, ih (by omega), numbered_take_succ (by omega),
      Nat.add_sub_cancel, Nat.add_right_comm leading 1 i]
    rfl
  | case4 i j hany =>
    have hi : i = 0 := by omega
    rw [hi]
    rfl

theorem rightOf_walkBack (hle : leftIndex ≤ left.length) (hle' : rightIndex ≤ right.length) :
    rightOf (walkBack left right table leading leftIndex rightIndex).reverse =
      numbered (leading + 1) (right.take rightIndex) := by
  fun_induction walkBack left right table leading leftIndex rightIndex with
  | case1 i j hany hsame ih =>
    obtain ⟨hi, hj, heq⟩ := hsame
    obtain ⟨j, rfl⟩ := Nat.exists_eq_add_of_le' hj
    have hcontent : left.getD (i - 1) [] = right.getD j [] := by
      rw [List.getD_eq_getElem?_getD, heq, Nat.add_sub_cancel, List.getD_eq_getElem?_getD]
    rw [List.reverse_cons, rightOf_append, ih (by omega) (by omega), numbered_take_succ (by omega),
      Nat.add_sub_cancel, Nat.add_right_comm leading 1 j, hcontent]
    rfl
  | case2 i j hany hsame hadded ih =>
    obtain ⟨j, rfl⟩ := Nat.exists_eq_add_of_le' hadded.1
    rw [List.reverse_cons, rightOf_append, ih hle (by omega), numbered_take_succ (by omega),
      Nat.add_sub_cancel, Nat.add_right_comm leading 1 j]
    rfl
  | case3 i j hany hsame hadded ih =>
    rw [List.reverse_cons, rightOf_append, ih (by omega) hle']
    exact List.append_nil _
  | case4 i j hany =>
    have hj : j = 0 := by omega
    rw [hj]
    rfl

theorem longest_of_ne {i j a b : Nat} (hi : i < left.length) (hj : j < right.length)
    (hne : left[i]? ≠ right[j]?) (h : IsLongestCommon a (left.take i) (right.take (j + 1)))
    (h' : IsLongestCommon b (left.take (i + 1)) (right.take j)) :
    IsLongestCommon (max a b) (left.take (i + 1)) (right.take (j + 1)) := by
  rw [List.getElem?_eq_getElem hi, List.getElem?_eq_getElem hj] at hne
  rw [List.take_succ_eq_append_getElem hj] at h ⊢
  rw [List.take_succ_eq_append_getElem hi] at h' ⊢
  exact .concat_ne (fun heq => hne (congrArg some heq)) h h'

/-- The unchanged lines on the way back are as many as a longest common subsequence has. -/
theorem unchanged_walkBack {m : Nat} (h : Filled left right m 1 table) (hm : left.length < m)
    (hle : leftIndex ≤ left.length) (hle' : rightIndex ≤ right.length) :
    IsLongestCommon (unchangedCount (walkBack left right table leading leftIndex rightIndex).reverse)
      (left.take leftIndex) (right.take rightIndex) := by
  have hentries : ∀ i j, i ≤ left.length → j ≤ right.length →
      IsLongestCommon (entry right table i j) (left.take i) (right.take j) :=
    fun i j hi hj => h.entries i j hi hj (.inl (by omega))
  fun_induction walkBack left right table leading leftIndex rightIndex with
  | case1 i j hany hsame ih =>
    obtain ⟨hi, hj, heq⟩ := hsame
    obtain ⟨i, rfl⟩ : ∃ k, i = k + 1 := Nat.exists_eq_add_of_le' hi
    obtain ⟨j, rfl⟩ : ∃ k, j = k + 1 := Nat.exists_eq_add_of_le' hj
    rw [Nat.add_sub_cancel, Nat.add_sub_cancel, List.getElem?_eq_getElem hle,
      List.getElem?_eq_getElem hle'] at heq
    rw [List.reverse_cons, unchangedCount_append, List.take_succ_eq_append_getElem hle,
      List.take_succ_eq_append_getElem hle', Option.some.inj heq]
    exact (ih (by omega) (by omega)).concat_same _
  | case2 i j hany hsame hadded ih =>
    obtain ⟨hj, hcase⟩ := hadded
    obtain ⟨j, rfl⟩ : ∃ k, j = k + 1 := Nat.exists_eq_add_of_le' hj
    have hrest := ih hle (by omega)
    rw [Nat.add_sub_cancel] at hrest hcase hsame
    rw [List.reverse_cons, unchangedCount_append, Nat.add_sub_cancel]
    refine Eq.subst (motive := fun n => IsLongestCommon n _ _) (Nat.add_zero _).symm ?_
    rcases Nat.eq_zero_or_pos i with rfl | hi
    · rw [hrest.unique (.nil_left _)]
      exact .nil_left _
    · obtain ⟨i, rfl⟩ : ∃ k, i = k + 1 := Nat.exists_eq_add_of_le' hi
      have hcase := hcase.resolve_left (Nat.succ_ne_zero i)
      rw [Nat.add_sub_cancel] at hcase hsame
      have hne : left[i]? ≠ right[j]? := fun heq => hsame ⟨hi, hj, heq⟩
      have hmax := longest_of_ne hle hle' hne (hentries i (j + 1) (by omega) hle')
        (hentries (i + 1) j hle (by omega))
      rw [Nat.max_eq_right hcase] at hmax
      rwa [hrest.unique (hentries (i + 1) j hle (by omega))]
  | case3 i j hany hsame hadded ih =>
    have hi : 1 ≤ i := by omega
    obtain ⟨i, rfl⟩ : ∃ k, i = k + 1 := Nat.exists_eq_add_of_le' hi
    have hrest := ih (by omega) hle'
    rw [Nat.add_sub_cancel] at hrest hadded hsame
    rw [List.reverse_cons, unchangedCount_append, Nat.add_sub_cancel]
    refine Eq.subst (motive := fun n => IsLongestCommon n _ _) (Nat.add_zero _).symm ?_
    rcases Nat.eq_zero_or_pos j with rfl | hj
    · rw [hrest.unique (.nil_right _)]
      exact .nil_right _
    · obtain ⟨j, rfl⟩ : ∃ k, j = k + 1 := Nat.exists_eq_add_of_le' hj
      rw [Nat.add_sub_cancel] at hadded hsame
      have hne : left[i]? ≠ right[j]? := fun heq => hsame ⟨hi, hj, heq⟩
      have hmax := longest_of_ne hle hle' hne (hentries i (j + 1) (by omega) hle')
        (hentries (i + 1) j hle (by omega))
      rw [Nat.max_eq_left (by omega)] at hmax
      rwa [hrest.unique (hentries i (j + 1) (by omega) hle')]
  | case4 i j hany =>
    obtain ⟨rfl, rfl⟩ : i = 0 ∧ j = 0 := by omega
    exact .nil_left _

end Walk

/-! ## 5. The diff -/

section Diff

variable {left right : List Str} {leading : Nat}

theorem map_zipIdx (first : Nat) (lines : List Str) (k : Nat) :
    ((lines.zipIdx k).map fun line => (some (first + line.2 + 1), line.1)) =
      numbered (first + k + 1) lines := by
  induction lines generalizing k with
  | nil => rfl
  | cons line lines ih =>
    rw [List.zipIdx_cons, List.map_cons, ih]
    rfl

theorem leftOf_diffMiddle : leftOf (diffMiddle left right leading) = numbered
    (leading + 1) left := by
  unfold diffMiddle
  split
  · have hremoved : leftOf (left.zipIdx.map fun line =>
        ⟨.removed, line.1, some (leading + line.2 + 1), none⟩) = numbered (leading + 1) left := by
      rw [leftOf, List.filter_eq_self.mpr (List.forall_mem_map.mpr fun _ _ => rfl), List.map_map]
      exact map_zipIdx leading left 0
    have hadded : leftOf (right.zipIdx.map fun line =>
        ⟨.added, line.1, none, some (leading + line.2 + 1)⟩) = [] := by
      rw [leftOf, List.filter_eq_nil_iff.mpr (List.forall_mem_map.mpr fun _ _ => Bool.false_ne_true),
        List.map_nil]
    rw [leftOf_append, hremoved, hadded, List.append_nil]
  · rw [leftOf_walkBack (Nat.le_refl _), List.take_length]

theorem rightOf_diffMiddle : rightOf (diffMiddle left right leading) = numbered
    (leading + 1) right := by
  unfold diffMiddle
  split
  · have hremoved : rightOf (left.zipIdx.map fun line =>
        ⟨.removed, line.1, some (leading + line.2 + 1), none⟩) = [] := by
      rw [rightOf, List.filter_eq_nil_iff.mpr (List.forall_mem_map.mpr fun _ _ => Bool.false_ne_true),
        List.map_nil]
    have hadded : rightOf (right.zipIdx.map fun line =>
        ⟨.added, line.1, none, some (leading + line.2 + 1)⟩) = numbered (leading + 1) right := by
      rw [rightOf, List.filter_eq_self.mpr (List.forall_mem_map.mpr fun _ _ => rfl), List.map_map]
      exact map_zipIdx leading right 0
    rw [rightOf_append, hremoved, hadded, List.nil_append]
  · rw [rightOf_walkBack (Nat.le_refl _) (Nat.le_refl _), List.take_length]

theorem unchanged_diffMiddle (hsize : cellCount left right ≤ maxLcsCells) :
    IsLongestCommon (unchangedCount (diffMiddle left right leading)) left right := by
  rw [diffMiddle, if_neg (Nat.not_lt.mpr hsize)]
  have hwalk := @unchanged_walkBack _ _ _ leading _ _ _ (Filled.fillTable hsize)
    (Nat.lt_succ_self _) (Nat.le_refl _) (Nat.le_refl _)
  rwa [List.take_length, List.take_length] at hwalk

theorem numbered_leading {lines : List Str} (h : leading ≤ lines.length) :
    ((List.range leading).map fun index => (some (index + 1), lines.getD index [])) =
      numbered 1 (lines.take leading) := by
  induction leading with
  | zero => rfl
  | succ leading ih =>
    rw [List.range_succ, List.map_append, ih (Nat.le_of_succ_le h), numbered_take_succ h,
      Nat.add_comm 1 leading]
    rfl

theorem numbered_trailing {lines : List Str} {trailing : Nat} (h : trailing ≤ lines.length) :
    ((List.range trailing).reverse.map fun offset =>
      (some (lines.length - offset), lines.getD (lines.length - offset - 1) [])) =
      numbered (lines.length - trailing + 1) (lines.drop (lines.length - trailing)) := by
  induction trailing with
  | zero => simp [numbered]
  | succ trailing ih =>
    have hdrop : lines.drop (lines.length - (trailing + 1)) =
        lines[lines.length - (trailing + 1)] :: lines.drop (lines.length - trailing) := by
      rw [List.drop_eq_getElem_cons (by omega)]
      congr 2
      omega
    have hnumber : lines.length - (trailing + 1) + 1 = lines.length - trailing := by omega
    rw [List.range_succ, List.reverse_concat, List.map_cons, ih (Nat.le_of_succ_le h), hdrop,
      hnumber, Nat.sub_sub, List.getD_eq_getElem?_getD, List.getElem?_eq_getElem (by omega)]
    rfl

theorem getD_trailing {offset : Nat} (h : offset < trailingEqual left right) :
    left.getD (left.length - offset - 1) [] = right.getD (right.length - offset - 1) [] := by
  have hleft := leading_trailing_le_left left right
  have hright := leading_trailing_le_right left right
  have hdrop := congrArg (fun lines : List Str => lines[trailingEqual left right - offset - 1]?)
    (drop_trailing left right)
  simp only [List.getElem?_drop] at hdrop
  have hl : left.length - trailingEqual left right + (trailingEqual left right - offset - 1) =
      left.length - offset - 1 := by omega
  have hr : right.length - trailingEqual left right + (trailingEqual left right - offset - 1) =
      right.length - offset - 1 := by omega
  rw [hl, hr] at hdrop
  rw [List.getD_eq_getElem?_getD, List.getD_eq_getElem?_getD, hdrop]

theorem sides_of_unchanged (offsets : List Nat) (content : Nat → Str) (l r : Nat → Nat) :
    let lines := offsets.map fun offset =>
      (⟨.unchanged, content offset, some (l offset), some (r offset)⟩ : TextDiffLine)
    leftOf lines = offsets.map (fun offset => (some (l offset), content offset)) ∧
      rightOf lines = offsets.map (fun offset => (some (r offset), content offset)) ∧
      unchangedCount lines = offsets.length := by
  intro lines
  refine ⟨?_, ?_, ?_⟩
  · rw [leftOf, List.filter_eq_self.mpr (List.forall_mem_map.mpr fun _ _ => rfl), List.map_map]
    rfl
  · rw [rightOf, List.filter_eq_self.mpr (List.forall_mem_map.mpr fun _ _ => rfl), List.map_map]
    rfl
  · rw [unchangedCount, List.countP_eq_length.mpr (List.forall_mem_map.mpr fun _ _ => rfl),
      List.length_map]

theorem leftOf_computeLineDiff : leftOf (computeLineDiff left right) = numbered 1 left := by
  have hle := leading_trailing_le_left left right
  obtain ⟨hleading, -, -⟩ := sides_of_unchanged (List.range (leadingEqual left right))
    (fun index => left.getD index []) (· + 1) (· + 1)
  obtain ⟨htrailing, -, -⟩ := sides_of_unchanged (List.range (trailingEqual left right)).reverse
    (fun offset => left.getD (left.length - offset - 1) []) (left.length - ·) (right.length - ·)
  have hmiddle : leadingEqual left right +
      (middle left (leadingEqual left right) (trailingEqual left right)).length =
        left.length - trailingEqual left right := by
    rw [middle, List.length_take, List.length_drop]
    omega
  rw [computeLineDiff, leftOf_append, leftOf_append, hleading, htrailing, leftOf_diffMiddle,
    numbered_leading (by omega), numbered_trailing (by omega)]
  conv_rhs => rw [← lines_split hle]
  rw [numbered_append, numbered_append, List.length_append, List.length_take,
    Nat.min_eq_left (by omega), hmiddle, Nat.add_comm 1, Nat.add_comm 1]

theorem rightOf_computeLineDiff : rightOf (computeLineDiff left right) = numbered 1 right := by
  have hle := leading_trailing_le_right left right
  obtain ⟨-, hleading, -⟩ := sides_of_unchanged (List.range (leadingEqual left right))
    (fun index => left.getD index []) (· + 1) (· + 1)
  obtain ⟨-, htrailing, -⟩ := sides_of_unchanged (List.range (trailingEqual left right)).reverse
    (fun offset => left.getD (left.length - offset - 1) []) (left.length - ·) (right.length - ·)
  have hmiddle : leadingEqual left right +
      (middle right (leadingEqual left right) (trailingEqual left right)).length =
        right.length - trailingEqual left right := by
    rw [middle, List.length_take, List.length_drop]
    omega
  have hcontent : (List.range (trailingEqual left right)).reverse.map (fun offset =>
      (some (right.length - offset), left.getD (left.length - offset - 1) [])) =
      (List.range (trailingEqual left right)).reverse.map fun offset =>
        (some (right.length - offset), right.getD (right.length - offset - 1) []) := by
    refine List.map_congr_left fun offset hoffset => ?_
    rw [getD_trailing (List.mem_range.mp (List.mem_reverse.mp hoffset))]
  have hle' := leading_trailing_le_left left right
  have htake : left.take (leadingEqual left right) = right.take (leadingEqual left right) :=
    take_equalCount left right
  rw [computeLineDiff, rightOf_append, rightOf_append, hleading, htrailing, rightOf_diffMiddle,
    numbered_leading (by omega), hcontent, numbered_trailing (by omega), htake]
  conv_rhs => rw [← lines_split hle]
  rw [numbered_append, numbered_append, List.length_append, List.length_take,
    Nat.min_eq_left (by omega), hmiddle, Nat.add_comm 1, Nat.add_comm 1]

theorem unchanged_computeLineDiff
    (hsize : cellCount (middle left (leadingEqual left right) (trailingEqual left right))
      (middle right (leadingEqual left right) (trailingEqual left right)) ≤ maxLcsCells) :
    IsLongestCommon (unchangedCount (computeLineDiff left right)) left right := by
  obtain ⟨-, -, hleading⟩ := sides_of_unchanged (List.range (leadingEqual left right))
    (fun index => left.getD index []) (· + 1) (· + 1)
  obtain ⟨-, -, htrailing⟩ := sides_of_unchanged (List.range (trailingEqual left right)).reverse
    (fun offset => left.getD (left.length - offset - 1) []) (left.length - ·) (right.length - ·)
  have hleft := leading_trailing_le_left left right
  have htake : left.take (leadingEqual left right) = right.take (leadingEqual left right) :=
    take_equalCount left right
  have hlongest := ((@unchanged_diffMiddle _ _ (leadingEqual left right) hsize).append_left
    (left.take (leadingEqual left right))).append_right
      (left.drop (left.length - trailingEqual left right))
  conv at hlongest =>
    arg 3
    rw [htake, drop_trailing]
  rw [lines_split hleft, lines_split (leading_trailing_le_right left right), List.length_take,
    Nat.min_eq_left (by omega), List.length_drop] at hlongest
  rw [computeLineDiff, unchangedCount_append, unchangedCount_append, hleading, htrailing,
    List.length_reverse, List.length_range, List.length_range]
  have hback : left.length - (left.length - trailingEqual left right) = trailingEqual left right := by
    omega
  rwa [hback] at hlongest

end Diff

/-- `cell_count`, of two texts. -/
def textCellCount (left right : Str) : Nat :=
  let leftLines := linesOf left
  let rightLines := linesOf right
  let leading := leadingEqual leftLines rightLines
  let trailing := trailingEqual leftLines rightLines
  cellCount (middle leftLines leading trailing) (middle rightLines leading trailing)

/-- **The diff of two texts** is faithful, and where the table stays within its limit it keeps as
    many lines as a longest common subsequence has. -/
theorem computeTextDiff_correct (left right : Str) :
    leftOf (computeTextDiff left right) = numbered 1 (linesOf left) ∧
      rightOf (computeTextDiff left right) = numbered 1 (linesOf right) ∧
      (textCellCount left right ≤ maxLcsCells →
        IsLongestCommon (unchangedCount (computeTextDiff left right)) (linesOf left)
          (linesOf right)) :=
  ⟨leftOf_computeLineDiff, rightOf_computeLineDiff, unchanged_computeLineDiff⟩

/-! ## 6. The summary -/

end Hapcli.Sftp
