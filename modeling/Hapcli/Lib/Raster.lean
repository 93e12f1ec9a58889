/-
  Subject:   Rectangles of a buffer of rows, written row by row.

  A buffer is cut into rows of `stride` items. A region is a run of items in each of some rows.

  * **`writeRows_spec`** -- a loop that writes one row at a time ends with the rows in the region and
    all else as it was.
-/
import Hapcli.Lib.Slices
import Mathlib.Data.List.Range

namespace Hapcli.Lib

variable {α : Type}

/-! ## 1. Regions -/

/-- `len` items from `left` in each of `count` rows from `top`. -/
structure Region where
  top : Nat
  count : Nat
  left : Nat
  len : Nat
  deriving DecidableEq

namespace Region

/-- Place `i` of a buffer with rows of `stride` items is in it. -/
def Has (r : Region) (stride i : Nat) : Prop :=
  (r.top ≤ i / stride ∧ i / stride < r.top + r.count) ∧
    (r.left ≤ i % stride ∧ i % stride < r.left + r.len)

instance (r : Region) (stride i : Nat) : Decidable (r.Has stride i) :=
  inferInstanceAs (Decidable (_ ∧ _))

/-- Where its row `y` begins. -/
def start (r : Region) (stride y : Nat) : Nat := (r.top + y) * stride + r.left

/-- It is inside `rows` rows of `stride` items. -/
structure Fits (r : Region) (stride rows : Nat) : Prop where
  right : r.left + r.len ≤ stride
  bottom : r.top + r.count ≤ rows

end Region

variable {r : Region} {stride rows y i j : Nat}

theorem place_iff (i row : Nat) {column : Nat} (h : column < stride) :
    i = row * stride + column ↔ i / stride = row ∧ i % stride = column := by
  have hpos : 0 < stride := Nat.lt_of_le_of_lt (Nat.zero_le _) h
  constructor
  · intro hi
    rw [hi, Nat.add_comm, Nat.add_mul_div_right _ _ hpos, Nat.add_mul_mod_self_right,
      Nat.div_eq_of_lt h, Nat.mod_eq_of_lt h, Nat.zero_add]
    exact ⟨rfl, rfl⟩
  · intro ⟨hrow, hcolumn⟩
    rw [← hrow, ← hcolumn, Nat.mul_comm, Nat.div_add_mod]

theorem has_row_iff (hright : r.left + r.len ≤ stride) :
    r.start stride y ≤ i ∧ i < r.start stride y + r.len ↔
      i / stride = r.top + y ∧ r.left ≤ i % stride ∧ i % stride < r.left + r.len := by
  unfold Region.start
  constructor
  · intro ⟨hle, hlt⟩
    have hcolumn : r.left + (i - ((r.top + y) * stride + r.left)) < stride := by omega
    obtain ⟨hrow, hmod⟩ := (place_iff i (r.top + y) hcolumn).mp (by omega)
    rw [hrow, hmod]
    exact ⟨rfl, by omega, by omega⟩
  · intro ⟨hrow, hle, hlt⟩
    have hplace := (place_iff i _ (show i % stride < stride by omega)).mpr ⟨hrow, rfl⟩
    omega

theorem has_start (hright : r.left + r.len ≤ stride) (hy : y < r.count) (hj : j < r.len) :
    r.Has stride (r.start stride y + j) := by
  obtain ⟨hrow, hleft, hlt⟩ := (has_row_iff hright).mp
    (show r.start stride y ≤ r.start stride y + j ∧ _ by omega)
  exact ⟨by omega, hleft, hlt⟩

theorem Region.Fits.row_le (h : r.Fits stride rows) (hy : y < r.count) :
    r.start stride y + r.len ≤ rows * stride := by
  have hbottom := h.bottom
  have hright := h.right
  have hrows : (r.top + y + 1) * stride ≤ rows * stride := Nat.mul_le_mul_right _ (by omega)
  rw [Nat.add_mul, Nat.one_mul] at hrows
  unfold Region.start
  omega

/-! ## 2. Writing rows -/

variable {buffer : List α}

theorem copyInto_row {part : List α} (h : r.Fits stride rows)
    (hlength : buffer.length = rows * stride) (hy : y < r.count) (hpart : part.length = r.len) :
    ∃ written, copyInto buffer (r.start stride y) (r.start stride y + r.len) part = some written ∧
      written.length = buffer.length ∧ ∀ i, written[i]? =
        if i / stride = r.top + y ∧ r.left ≤ i % stride ∧ i % stride < r.left + r.len then
          part[i % stride - r.left]?
        else buffer[i]? := by
  have hend : r.start stride y + r.len ≤ buffer.length := by
    rw [hlength]
    exact h.row_le hy
  have hwritten := copyInto_of_le (Nat.le_add_right _ r.len) hend
    (hpart.trans (Nat.add_sub_cancel_left _ _).symm)
  refine ⟨_, hwritten, copyInto_length hwritten, ?_⟩
  intro i
  rw [getElem?_copyInto hwritten i]
  by_cases hin : r.start stride y ≤ i ∧ i < r.start stride y + r.len
  · have hrow := (has_row_iff h.right).mp hin
    have hplace := (place_iff i _ (show i % stride < stride by have := h.right; omega)).mpr
      ⟨hrow.1, rfl⟩
    have hoffset : i - r.start stride y = i % stride - r.left := by
      unfold Region.start
      omega
    rw [if_pos hin, if_pos hrow, hoffset]
  · rw [if_neg hin, if_neg (fun hrow => hin ((has_row_iff h.right).mpr hrow))]

/-- A loop that writes a row of the region at a time. `body` is one turn of it. -/
theorem writeRows_spec {body : List α → Nat → Option (List α)}
    (content : Nat → List α) (h : r.Fits stride rows) (hlength : buffer.length = rows * stride)
    (hbody : ∀ current y, current.length = buffer.length → y < r.count →
      body current y =
        copyInto current (r.start stride y) (r.start stride y + r.len) (content y))
    (hcontent : ∀ y, y < r.count → (content y).length = r.len) :
    ∃ written, (List.range r.count).foldlM body buffer = some written ∧
      written.length = buffer.length ∧ ∀ i, written[i]? =
        if r.Has stride i then (content (i / stride - r.top))[i % stride - r.left]?
        else buffer[i]? := by
  -- the rows so far; the region of them fits as the whole does
  suffices hrun : ∀ n, n ≤ r.count → ∃ written, (List.range n).foldlM body buffer = some written ∧
      written.length = buffer.length ∧ ∀ i, written[i]? =
        if { r with count := n : Region }.Has stride i then
          (content (i / stride - r.top))[i % stride - r.left]?
        else buffer[i]? from hrun r.count le_rfl
  intro n hn
  induction n with
  | zero =>
    refine ⟨buffer, rfl, rfl, fun i => ?_⟩
    rw [if_neg]
    intro ⟨⟨hle, hlt⟩, _⟩
    exact Nat.not_lt.mpr hle hlt
  | succ n ih =>
    obtain ⟨current, hcurrent, hcurrentLength, hsofar⟩ := ih (by omega)
    obtain ⟨written, hwritten, hwrittenLength, hrow⟩ := copyInto_row h
      (hcurrentLength.trans hlength) (show n < r.count by omega) (hcontent n (by omega))
    refine ⟨written, ?_, hwrittenLength.trans hcurrentLength, fun i => ?_⟩
    · rw [List.range_succ, List.foldlM_append, hcurrent]
      show List.foldlM body current [n] = some written
      rw [List.foldlM_cons, hbody current n hcurrentLength (by omega), hwritten]
      rfl
    · rw [hrow i, hsofar i]
      by_cases hin : i / stride = r.top + n ∧ r.left ≤ i % stride ∧ i % stride < r.left + r.len
      · have hhas : { r with count := n + 1 : Region }.Has stride i :=
          ⟨by simp only; omega, hin.2⟩
        rw [if_pos hin, if_pos hhas, hin.1, Nat.add_sub_cancel_left]
      · rw [if_neg hin]
        have hiff : { r with count := n : Region }.Has stride i ↔
            { r with count := n + 1 : Region }.Has stride i := by
          simp only [Region.Has]
          omega
        by_cases hhas : { r with count := n : Region }.Has stride i
        · rw [if_pos hhas, if_pos (hiff.mp hhas)]
        · rw [if_neg hhas, if_neg (fun hmore => hhas (hiff.mpr hmore))]

/-- A loop that may fail with what it has so far goes through where the one without does. -/
theorem foldlM_ok_of_some {β : Type} {body : α → β → Except α α} {plain : α → β → Option α}
    {places : List β} {a b : α}
    (hbody : ∀ current place next, place ∈ places → plain current place = some next →
      body current place = .ok next) (h :
    places.foldlM plain a = some b) : places.foldlM body a = .ok b := by
  induction places generalizing a with
  | nil =>
    cases h
    rfl
  | cons place places ih =>
    rw [List.foldlM_cons] at h ⊢
    obtain ⟨next, hnext, h⟩ := Option.bind_eq_some_iff.mp h
    rw [hbody a place next List.mem_cons_self hnext]
    exact ih (fun current other next hother => hbody current other next
      (List.mem_cons_of_mem _ hother)) h

/-- The part of a buffer that a row of a region is. -/
def Region.row (r : Region) (stride : Nat) (buffer : List α) (y : Nat) : List α :=
  (buffer.drop (r.start stride y)).take r.len

theorem slice_row (hright : r.start stride y + r.len ≤ buffer.length) :
    slice buffer (r.start stride y) (r.start stride y + r.len) = some (r.row stride buffer y) := by
  rw [slice_of_le (Nat.le_add_right _ _) hright, Nat.add_sub_cancel_left]
  rfl

theorem row_length (hright : r.start stride y + r.len ≤ buffer.length) :
    (r.row stride buffer y).length = r.len := by
  unfold Region.row
  rw [List.length_take, List.length_drop]
  omega

theorem getElem?_row (hj : j < r.len) :
    (r.row stride buffer y)[j]? = buffer[r.start stride y + j]? := by
  unfold Region.row
  rw [List.getElem?_take, if_pos hj, List.getElem?_drop]

end Hapcli.Lib
