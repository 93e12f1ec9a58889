/-
  Subject:   Code that awaits requests to others, any of which may fail or never come back.

  A task has a world that its requests change, and the answers it will get. A request that fails, or
  at which the task is dropped, may have been carried out all the same.

  * **`ensures_await`**, `ensures_outcome` -- their rules, to be used with those of `Action.Ensures`.
-/
import Hapcli.Lib.Action

namespace Hapcli.Lib

/-- What comes of an await: an answer, a failure, or the task is dropped there; of the last two,
    whether the request was carried out. -/
inductive Answer (ε : Type) where
  | ok (n : Nat)
  | failed (error : ε) (done : Bool)
  | dropped (done : Bool)
  deriving DecidableEq

/-- How a task ends without a result. -/
inductive Stop (ε : Type) where
  | failed (error : ε)
  | dropped
  deriving DecidableEq

/-- The world of a task, and the answers to come; where there are none, the task is dropped. -/
structure Served (σ ε : Type) where
  world : σ
  answers : List (Answer ε)

abbrev AsyncAction (σ ε α : Type) := Action (Served σ ε) (Stop ε) α

namespace AsyncAction

variable {σ ε α : Type}

/-- The world after a request that gave no answer. -/
def leave (request : Nat → σ → Except ε (α × σ)) (world : σ) : Bool → σ
  | false => world
  | true =>
    match request 0 world with
    | .ok (_, world') => world'
    | .error _ => world

/-- A request, and the wait for its answer. -/
def await (request : Nat → σ → Except ε (α × σ)) : AsyncAction σ ε α := fun s =>
  match s.answers with
  | [] => (.error .dropped, s)
  | .ok n :: answers =>
    match request n s.world with
    | .ok (a, world) => (.ok a, ⟨world, answers⟩)
    | .error error => (.error (.failed error), ⟨s.world, answers⟩)
  | .failed error done :: answers => (.error (.failed error), ⟨leave request s.world done, answers⟩)
  | .dropped done :: answers => (.error .dropped, ⟨leave request s.world done, answers⟩)

/-- `match task.await { .. }`. -/
def outcome (task : AsyncAction σ ε α) : AsyncAction σ ε (Except ε α) := fun s =>
  match task s with
  | (.ok a, s') => (.ok (.ok a), s')
  | (.error (.failed error), s') => (.ok (.error error), s')
  | (.error .dropped, s') => (.error .dropped, s')

/-- The task fails. -/
def fail (error : ε) : AsyncAction σ ε α := throw (.failed error)

variable {P E : σ → Prop} {Q : α → σ → Prop}

/-- One request. What it may have changed unseen is for the failures. -/
theorem ensures_await {request : Nat → σ → Except ε (α × σ)} (hkeep : ∀ w, P w → E w)
    (hok : ∀ n w a w', P w → request n w = .ok (a, w') → Q a w' ∧ E w') :
    Action.Ensures (fun s => P s.world) (await request) (fun a s => Q a s.world)
      fun s => E s.world := by
  intro s hs
  have hleave : ∀ done, E (leave request s.world done) := by
    intro done
    cases done with
    | false => exact hkeep _ hs
    | true =>
      cases hrequest : request 0 s.world with
      | error error =>
        simp only [leave, hrequest]
        exact hkeep _ hs
      | ok after =>
        simp only [leave, hrequest]
        exact (hok 0 _ _ _ hs hrequest).2
  unfold await
  match s.answers with
  | [] => exact hkeep _ hs
  | .ok n :: answers =>
    dsimp only
    cases hrequest : request n s.world with
    | error error => exact hkeep _ hs
    | ok after => exact (hok n _ _ _ hs hrequest).1
  | .failed error done :: answers => exact hleave done
  | .dropped done :: answers => exact hleave done

theorem ensures_outcome {P E : Served σ ε → Prop} {Q : α → Served σ ε → Prop}
    {task : AsyncAction σ ε α} (h : Action.Ensures P task Q E) :
    Action.Ensures P (outcome task)
      (fun result s => match result with
        | .ok a => Q a s
        | .error _ => E s) E := by
  intro s hs
  have hpost := h s hs
  unfold outcome
  rcases hrun : task s with ⟨(_ | _) | a, s'⟩ <;> (rw [hrun] at hpost; exact hpost)

end AsyncAction

end Hapcli.Lib
