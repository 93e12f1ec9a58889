/-
  Subject:   Slices of a buffer that are checked: what is out of bounds stops the program.

  A result is there or (`none`) the program has stopped. `Checked` is code that can also fail with an
  error of its own.

  * `slice`, `copyInto` -- reading and overwriting a part; where they go through, and what they give;
  * `getElem?_copyInto` -- an overwritten buffer, place by place;
  * `Checked.Total` -- code that ends with a result or an error, whatever it is given.
-/
import Mathlib.Data.List.Basic

namespace Hapcli.Lib

variable {α ε : Type}

/-! ## 1. Parts of a buffer -/

/-- `buffer[start..stop]`. -/
def slice (buffer : List α) (start stop : Nat) : Option (List α) :=
  if start ≤ stop ∧ stop ≤ buffer.length then some ((buffer.drop start).take (stop - start)) else none

/-- `buffer[start..stop].copy_from_slice(part)`. -/
def copyInto (buffer : List α) (start stop : Nat) (part : List α) : Option (List α) :=
  if start ≤ stop ∧ stop ≤ buffer.length ∧ part.length = stop - start then
    some (buffer.take start ++ part ++ buffer.drop stop)
  else none

variable {buffer part written : List α} {start : Nat}

theorem slice_of_le {stop : Nat} (h : start ≤ stop) (hstop : stop ≤ buffer.length) :
    slice buffer start stop = some ((buffer.drop start).take (stop - start)) :=
  if_pos ⟨h, hstop⟩

theorem slice_append {front back : List α} {stop : Nat} (hstart : front.length = start)
    (hstop : start + part.length = stop) :
    slice (front ++ part ++ back) start stop = some part := by
  subst hstart hstop
  have hbounds : front.length + part.length ≤ (front ++ part ++ back).length := by
    simp only [List.length_append]
    omega
  rw [slice_of_le (Nat.le_add_right _ _) hbounds, Nat.add_sub_cancel_left, List.append_assoc,
    List.drop_left, List.take_left]

theorem copyInto_of_le {stop : Nat} (h : start ≤ stop) (hstop : stop ≤ buffer.length)
    (hpart : part.length = stop - start) :
    copyInto buffer start stop part = some (buffer.take start ++ part ++ buffer.drop stop) :=
  if_pos ⟨h, hstop, hpart⟩

section

variable (h : copyInto buffer start stop part = some written)

include h

theorem copyInto_bounds : start ≤ stop ∧ stop ≤ buffer.length ∧ part.length = stop - start ∧
      written = buffer.take start ++ part ++ buffer.drop stop := by
  unfold copyInto at h
  split at h
  · next hbounds =>
      cases h
      exact ⟨hbounds.1, hbounds.2.1, hbounds.2.2, rfl⟩
  · cases h

theorem copyInto_length : written.length = buffer.length := by
  obtain ⟨hle, hstop, hpart, rfl⟩ := copyInto_bounds h
  simp only [List.length_append, List.length_take, List.length_drop]
  omega

theorem getElem?_copyInto (i : Nat) :
    written[i]? = if start ≤ i ∧ i < stop then part[i - start]? else buffer[i]? := by
  obtain ⟨hle, hstop, hpart, rfl⟩ := copyInto_bounds h
  have hfront : (buffer.take start).length = start := by
    rw [List.length_take]
    omega
  rcases Nat.lt_or_ge i start with hi | hi
  · rw [if_neg (by omega), List.append_assoc, List.getElem?_append_left (by omega),
      List.getElem?_take, if_pos hi]
  · rcases Nat.lt_or_ge i stop with hi' | hi'
    · rw [if_pos ⟨hi, hi'⟩, List.getElem?_append_left (by rw [List.length_append]; omega),
        List.getElem?_append_right (by omega), hfront]
    · have hlong : (buffer.take start ++ part).length = stop := by
        rw [List.length_append]
        omega
      rw [if_neg (by omega), List.getElem?_append_right (by omega), hlong, List.getElem?_drop]
      congr 1
      omega

end

/-! ## 2. Code that reads parts -/

/-- A result, an error, or (`none`) a program that has stopped. -/
abbrev Checked (ε α : Type) := ExceptT ε Option α

namespace Checked

/-- What is out of bounds. -/
def stop : Checked ε α := (none : Option (Except ε α))

/-- `if !condition { return Err(e) }`. -/
def ensure (condition : Prop) [Decidable condition] (e : ε) : Checked ε Unit :=
  if condition then pure () else throw e

/-- It ends with a result or with an error. -/
def Total (code : Checked ε α) : Prop := ∃ outcome, code.run = some outcome

theorem total_ok (value : α) : Total (pure value : Checked ε α) := ⟨_, rfl⟩

theorem total_error (e : ε) : Total (throw e : Checked ε α) := ⟨_, rfl⟩

variable {code : Checked ε α} {condition : Prop} {e : ε} {part : Option α} {value : α}

theorem total_lift (h : part = some value) :
    Total (liftM part : Checked ε α) := ⟨.ok value, by rw [h]; rfl⟩

theorem ensure_of [Decidable condition] (h : condition) :
    (ensure condition e).run = some (.ok ()) := by
  rw [ensure, if_pos h]
  rfl

theorem of_ensure [Decidable condition] (h : (ensure condition e).run = some (.ok ())) :
    condition := by
  unfold ensure at h
  split at h
  · assumption
  · cases h

theorem total_ensure (condition : Prop) [Decidable condition] (e : ε) :
    Total (ensure condition e) := by
  unfold ensure
  split
  · exact total_ok ()
  · exact total_error e

theorem lift_of (h : part = some value) : (liftM part : Checked ε α).run = some (.ok value) := by
  rw [h]
  rfl

variable {β : Type} {next : α → Checked ε β}

theorem Total.bind (h : Total code)
    (hnext : ∀ value, code.run = some (.ok value) → Total (next value)) :
    Total (code >>= next) := by
  obtain ⟨e | value, hcode⟩ := h
  · exact ⟨.error e, by rw [ExceptT.run_bind, hcode]; rfl⟩
  · obtain ⟨outcome, hrun⟩ := hnext value hcode
    exact ⟨outcome, by rw [ExceptT.run_bind, hcode]; exact hrun⟩

theorem bind_of_ok (h : code.run = some (.ok value)) :
    (code >>= next).run = (next value).run := by
  rw [ExceptT.run_bind, h]
  rfl

theorem of_bind_ok {result : β} (h : (code >>= next).run = some (.ok result)) :
    ∃ value, code.run = some (.ok value) ∧ (next value).run = some (.ok result) := by
  rw [ExceptT.run_bind] at h
  rcases hcode : code.run with _ | (e | value)
  · rw [hcode] at h
    cases h
  · rw [hcode] at h
    cases h
  · rw [hcode] at h
    exact ⟨value, rfl, h⟩

theorem of_lift (h : (liftM part : Checked ε α).run = some (.ok value)) : part = some value := by
  cases part with
  | none => cases h
  | some found =>
    cases h
    rfl

end Checked

end Hapcli.Lib
