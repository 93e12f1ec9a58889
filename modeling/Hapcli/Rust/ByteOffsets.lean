/-
  Subject:   Byte offsets into a `str`: character boundaries, slices, and the replacement of a range.

  An offset is a boundary if it is the number of bytes of the characters in front of it. Slicing and
  replacing at another offset panics.

  * **`splitAtByte_eq_some`** -- a boundary cuts the text in two, in one way.
-/
import Hapcli.Rust.Text

namespace Hapcli.Rust

/-! ## 1. Lengths -/

/-- `str::len`. -/
def byteLen (s : Str) : Nat := (asBytes s).length

@[simp] theorem byteLen_nil : byteLen [] = 0 := rfl

@[simp] theorem byteLen_append (s t : Str) : byteLen (s ++ t) = byteLen s + byteLen t := by
  simp [byteLen]

@[simp] theorem byteLen_cons (c : Char) (s : Str) : byteLen (c :: s) = c.utf8Size + byteLen s := by
  simp [byteLen, asBytes]

variable {back front s : Str} {n : Nat}

theorem byteLen_eq_zero : byteLen s = 0 ↔ s = [] := by
  cases s with
  | nil => simp
  | cons c s =>
    have := c.utf8Size_pos
    simp only [byteLen_cons, reduceCtorEq, iff_false]
    omega

theorem byteLen_pos (h : s ≠ []) : 0 < byteLen s :=
  Nat.pos_of_ne_zero fun hzero => h ((byteLen_eq_zero).mp hzero)

theorem append_inj_of_byteLen {front' back' : Str} (h : front ++ back = front' ++ back')
    (hlen : byteLen front = byteLen front') : front = front' ∧ back = back' := by
  induction front generalizing front' with
  | nil =>
    have hnil : front' = [] := (byteLen_eq_zero).mp hlen.symm
    subst hnil
    exact ⟨rfl, h⟩
  | cons c front ih =>
    cases front' with
    | nil =>
      have := (byteLen_eq_zero).mp hlen
      cases this
    | cons c' front' =>
      obtain ⟨rfl, hrest⟩ := List.cons.inj h
      obtain ⟨hfront, hback⟩ := ih hrest (by simpa using hlen)
      exact ⟨by rw [hfront], hback⟩

theorem exists_append_of_byteLen_le {front' back' : Str} (h : front ++ back = front' ++ back')
    (hlen : byteLen front ≤ byteLen front') :
    ∃ between, front' = front ++ between ∧ back = between ++ back' := by
  rcases List.append_eq_append_iff.mp h with ⟨between, h₁, h₂⟩ | ⟨between, h₁, h₂⟩
  · exact ⟨between, h₁, h₂⟩
  · have hzero : byteLen between = 0 := by
      rw [h₁, byteLen_append] at hlen
      omega
    have hnil := (byteLen_eq_zero).mp hzero
    subst hnil
    exact ⟨[], by simpa using h₁.symm, by simpa using h₂.symm⟩

/-! ## 2. Boundaries -/

/-- `str::split_at_checked`. -/
def splitAtByte : Nat → Str → Option (Str × Str)
  | 0, s => some ([], s)
  | _ + 1, [] => none
  | n + 1, c :: s =>
    if c.utf8Size ≤ n + 1 then
      (splitAtByte (n + 1 - c.utf8Size) s).map fun (front, back) => (c :: front, back)
    else none

/-- `str::is_char_boundary`. -/
def isCharBoundary (s : Str) (offset : Nat) : Bool := (splitAtByte offset s).isSome

theorem splitAtByte_eq_some :
    splitAtByte n s = some (front, back) ↔ s = front ++ back ∧ byteLen front = n := by
  constructor
  · intro h
    induction s generalizing n front with
    | nil =>
      cases n with
      | zero =>
        cases h
        exact ⟨rfl, rfl⟩
      | succ n => cases h
    | cons c s ih =>
      cases n with
      | zero =>
        cases h
        exact ⟨rfl, rfl⟩
      | succ n =>
        unfold splitAtByte at h
        split at h
        · obtain ⟨⟨rest, back'⟩, hrest, heq⟩ := Option.map_eq_some_iff.mp h
          cases heq
          obtain ⟨rfl, hlen⟩ := ih hrest
          refine ⟨rfl, ?_⟩
          rw [byteLen_cons]
          omega
        · cases h
  · rintro ⟨rfl, rfl⟩
    induction front with
    | nil => cases back <;> rfl
    | cons c front ih =>
      have hpos := c.utf8Size_pos
      obtain ⟨n, hn⟩ : ∃ n, byteLen (c :: front) = n + 1 := ⟨byteLen (c :: front) - 1, by
        rw [byteLen_cons]
        omega⟩
      rw [hn, List.cons_append, splitAtByte]
      rw [byteLen_cons] at hn
      rw [if_pos (by omega), show n + 1 - c.utf8Size = byteLen front by omega, ih]
      rfl

theorem isCharBoundary_iff :
    isCharBoundary s n = true ↔ ∃ front back, s = front ++ back ∧ byteLen front = n := by
  rw [isCharBoundary, Option.isSome_iff_exists]
  exact ⟨fun ⟨⟨front, back⟩, h⟩ => ⟨front, back, (splitAtByte_eq_some).mp h⟩,
    fun ⟨front, back, h⟩ => ⟨(front, back), (splitAtByte_eq_some).mpr h⟩⟩

theorem isCharBoundary_le (h : isCharBoundary s n = true) : n ≤ byteLen s := by
  obtain ⟨front, back, rfl, rfl⟩ := (isCharBoundary_iff).mp h
  simp

theorem isCharBoundary_zero (s : Str) : isCharBoundary s 0 = true :=
  (isCharBoundary_iff).mpr ⟨[], s, rfl, rfl⟩

theorem isCharBoundary_length (s : Str) : isCharBoundary s (byteLen s) = true :=
  (isCharBoundary_iff).mpr ⟨s, [], (List.append_nil s).symm, rfl⟩

theorem isCharBoundary_append (front back : Str) (n : Nat) :
    isCharBoundary (front ++ back) (byteLen front + n) = isCharBoundary back n := by
  rw [Bool.eq_iff_iff, isCharBoundary_iff, isCharBoundary_iff]
  constructor
  · rintro ⟨left, right, heq, hlen⟩
    obtain ⟨between, rfl, rfl⟩ := exists_append_of_byteLen_le heq (by omega)
    exact ⟨between, right, rfl, by simpa using hlen⟩
  · rintro ⟨left, right, rfl, rfl⟩
    exact ⟨front ++ left, right, (List.append_assoc ..).symm, by simp⟩

theorem isCharBoundary_front (h : n ≤ byteLen front) :
    isCharBoundary (front ++ back) n = isCharBoundary front n := by
  rw [Bool.eq_iff_iff, isCharBoundary_iff, isCharBoundary_iff]
  constructor
  · rintro ⟨left, right, heq, rfl⟩
    obtain ⟨between, rfl, -⟩ := exists_append_of_byteLen_le heq.symm h
    exact ⟨left, between, rfl, rfl⟩
  · rintro ⟨left, right, rfl, rfl⟩
    exact ⟨left, right ++ back, List.append_assoc .., rfl⟩

/-! ## 3. Slices -/

/-- `&s[start..stop]`; `none` is the panic. -/
def strSlice (s : Str) (start stop : Nat) : Option Str := do
  let (front, _) ← splitAtByte stop s
  let (_, part) ← splitAtByte start front
  return part

/-- `String::replace_range`; `none` is the panic. -/
def replaceRange (s : Str) (start stop : Nat) (replacement : Str) : Option Str := do
  let (front, back) ← splitAtByte stop s
  let (front, _) ← splitAtByte start front
  return front ++ replacement ++ back

variable {start stop : Nat}

theorem strSlice_eq_some {part : Str} :
    strSlice s start stop = some part ↔
      ∃ front back, s = front ++ part ++ back ∧ byteLen front = start ∧
        start + byteLen part = stop := by
  simp only [strSlice, Option.bind_eq_bind, Option.bind_eq_some_iff, Prod.exists,
    splitAtByte_eq_some, Option.pure_def, Option.some.injEq]
  constructor
  · rintro ⟨cut, back, ⟨rfl, rfl⟩, front, part', ⟨rfl, rfl⟩, rfl⟩
    exact ⟨front, back, rfl, rfl, by simp⟩
  · rintro ⟨front, back, rfl, rfl, rfl⟩
    exact ⟨front ++ part, back, ⟨rfl, by simp⟩, front, part, ⟨rfl, rfl⟩, rfl⟩

theorem replaceRange_eq_some {replaced replacement : Str} :
    replaceRange s start stop replacement = some replaced ↔
      ∃ front part back, s = front ++ part ++ back ∧ byteLen front = start ∧
        start + byteLen part = stop ∧ replaced = front ++ replacement ++ back := by
  simp only [replaceRange, Option.bind_eq_bind, Option.bind_eq_some_iff, Prod.exists,
    splitAtByte_eq_some, Option.pure_def, Option.some.injEq]
  constructor
  · rintro ⟨cut, back, ⟨rfl, rfl⟩, front, part, ⟨rfl, rfl⟩, rfl⟩
    exact ⟨front, part, back, rfl, rfl, by simp, rfl⟩
  · rintro ⟨front, part, back, rfl, rfl, rfl, rfl⟩
    exact ⟨front ++ part, back, ⟨rfl, by simp⟩, front, part, ⟨rfl, rfl⟩, rfl⟩

theorem exists_strSlice (h : start ≤ stop) (hstart : isCharBoundary s start = true)
    (hstop : isCharBoundary s stop = true) :
    ∃ front part back, s = front ++ part ++ back ∧ byteLen front = start ∧
      start + byteLen part = stop := by
  obtain ⟨front, rest, rfl, rfl⟩ := (isCharBoundary_iff).mp hstart
  obtain ⟨cut, back, heq, rfl⟩ := (isCharBoundary_iff).mp hstop
  obtain ⟨part, rfl, rfl⟩ := exists_append_of_byteLen_le heq h
  exact ⟨front, part, back, (List.append_assoc ..).symm, rfl, by simp⟩

end Hapcli.Rust
