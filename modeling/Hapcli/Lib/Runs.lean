/-
  Subject:   Runs of a machine whose steps may be refused: what is asked of every step, what holds
             in every state.

  * **`invariant`**, **`throughout_of_meets`** -- what a step keeps, the run keeps;
  * **`throughout_iff_meets_between`** -- where a step keeps the property exactly when it meets the
    condition, the whole run does.
-/
import Mathlib.Logic.Basic

namespace Hapcli.Lib.Runs

variable {σ α : Type} (next : σ → α → Option σ)

/-! ## 1. Runs -/

/-- The actions one after the other. -/
def run (s : σ) (actions : List α) : Option σ :=
  actions.foldlM next s

/-- At each step that the run takes, the condition holds of the state before it and the action. -/
def Meets (P : σ → α → Prop) : σ → List α → Prop
  | _, [] => True
  | s, a :: rest => ∀ s', next s a = some s' → P s a ∧ Meets P s' rest

/-- The property holds in each state that the run goes through. -/
def Throughout (I : σ → Prop) : σ → List α → Prop
  | s, [] => I s
  | s, a :: rest => I s ∧ ∀ s', next s a = some s' → Throughout I s' rest

instance decidableMeets {P : σ → α → Prop} [∀ s a, Decidable (P s a)] :
    (s : σ) → (actions : List α) → Decidable (Meets next P s actions)
  | _, [] => isTrue trivial
  | s, a :: rest =>
    match h : next s a with
    | none => isTrue fun _ hs' => nomatch h.symm.trans hs'
    | some s' =>
      have : Decidable (Meets next P s' rest) := decidableMeets s' rest
      decidable_of_iff (P s a ∧ Meets next P s' rest)
        ⟨fun hboth _ hs'' => Option.some.inj (h.symm.trans hs'') ▸ hboth, fun hall => hall s' h⟩

variable {next} {P Q : σ → α → Prop} {I J : σ → Prop} {s s' : σ} {a : α} {actions rest : List α}

theorem of_guarded {p : Prop} [Decidable p] (h : (if p then some s else none) = some s') :
    p ∧ s = s' :=
  (Option.ite_none_right_eq_some.mp h).imp_right Option.some.inj

theorem run_cons : run next s (a :: rest) = (next s a).bind fun s' => run next s' rest := by
  rw [run, List.foldlM_cons]
  rfl

theorem run_cons_eq_some_iff :
    run next s (a :: rest) = some s' ↔ ∃ mid, next s a = some mid ∧ run next mid rest = some s' := by
  rw [run_cons, Option.bind_eq_some_iff]

theorem run_append {more : List α} :
    run next s (actions ++ more) = (run next s actions).bind fun mid => run next mid more := by
  rw [run, List.foldlM_append]
  rfl

theorem Meets.and (hP : Meets next P s actions) (hQ : Meets next Q s actions) :
    Meets next (fun s a => P s a ∧ Q s a) s actions := by
  induction actions generalizing s with
  | nil => exact trivial
  | cons a rest ih =>
    intro s' hs'
    obtain ⟨hPa, hP⟩ := hP s' hs'
    obtain ⟨hQa, hQ⟩ := hQ s' hs'
    exact ⟨⟨hPa, hQa⟩, ih hP hQ⟩

theorem meets_of_forall (h : ∀ s a, P s a) : Meets next P s actions := by
  induction actions generalizing s with
  | nil => exact trivial
  | cons a rest ih => exact fun _ _ => ⟨h s a, ih⟩

/-- The property holds throughout the run exactly when it holds wherever a prefix of it leads. -/
theorem throughout_iff :
    Throughout next I s actions ↔
      ∀ before after s', actions = before ++ after → run next s before = some s' → I s' := by
  induction actions generalizing s with
  | nil =>
    constructor
    · intro hI before after s' hsplit hrun
      obtain ⟨rfl, -⟩ := List.nil_eq_append_iff.mp hsplit
      cases hrun
      exact hI
    · intro hall
      exact hall [] [] s rfl rfl
  | cons a rest ih =>
    constructor
    · intro ⟨hI, hrest⟩ before after s' hsplit hrun
      cases before with
      | nil =>
        cases hrun
        exact hI
      | cons b before =>
        obtain ⟨rfl, rfl⟩ := List.cons.inj hsplit
        obtain ⟨mid, hmid, hrun⟩ := (run_cons_eq_some_iff).mp hrun
        exact ih.mp (hrest mid hmid) before after s' rfl hrun
    · intro hall
      refine ⟨hall [] (a :: rest) s rfl rfl, fun mid hmid => ih.mpr ?_⟩
      intro before after s' hsplit hrun
      exact hall (a :: before) after s' (congrArg (a :: ·) hsplit)
        ((run_cons_eq_some_iff).mpr ⟨mid, hmid, hrun⟩)

theorem Throughout.mono (h : ∀ s, I s → J s) (hall : Throughout next I s actions) :
    Throughout next J s actions := by
  induction actions generalizing s with
  | nil => exact h s hall
  | cons a rest ih => exact ⟨h s hall.1, fun mid hmid => ih (hall.2 mid hmid)⟩

/-! ## 2. From one step to the run -/

/-- What every step keeps, every run keeps. -/
theorem invariant (hstep : ∀ {s a s'}, next s a = some s' → I s → I s') (hI : I s)
    (hrun : run next s actions = some s') : I s' := by
  induction actions generalizing s with
  | nil =>
    cases hrun
    exact hI
  | cons a rest ih =>
    obtain ⟨mid, hmid, hrest⟩ := (run_cons_eq_some_iff).mp hrun
    exact ih (hstep hmid hI) hrest

/-- What every step that meets the condition keeps holds throughout a run that meets it. -/
theorem throughout_of_meets (hstep : ∀ {s a s'}, next s a = some s' → P s a → I s → I s')
    (hmeets : Meets next P s actions) (hI : I s) : Throughout next I s actions := by
  induction actions generalizing s with
  | nil => exact hI
  | cons a rest ih =>
    refine ⟨hI, fun mid hmid => ?_⟩
    obtain ⟨hP, hmeets⟩ := hmeets mid hmid
    exact ih hmeets (hstep hmid hP hI)

/-- Where a step keeps the property exactly when it meets the condition, so does a run. `Q` is what
    is known of the steps, `J` what every such step keeps between two states with the property. -/
theorem throughout_iff_meets_between
    (hkeep : ∀ {s a s'}, next s a = some s' → Q s a → J s → I s → I s' → J s')
    (hstep : ∀ {s a s'}, next s a = some s' → Q s a → J s → I s → (I s' ↔ P s a))
    (hknown : Meets next Q s actions) (hJ : J s) (hI : I s) :
    Throughout next I s actions ↔ Meets next P s actions := by
  induction actions generalizing s with
  | nil => exact iff_of_true hI trivial
  | cons a rest ih =>
    constructor
    · intro ⟨_, hrest⟩ mid hmid
      obtain ⟨hQ, hknown⟩ := hknown mid hmid
      have hmidI : I mid := by
        cases rest with
        | nil => exact hrest mid hmid
        | cons b rest => exact (hrest mid hmid).1
      exact ⟨(hstep hmid hQ hJ hI).mp hmidI,
        (ih hknown (hkeep hmid hQ hJ hI hmidI) hmidI).mp (hrest mid hmid)⟩
    · intro hmeets
      refine ⟨hI, fun mid hmid => ?_⟩
      obtain ⟨hQ, hknown⟩ := hknown mid hmid
      obtain ⟨hP, hrest⟩ := hmeets mid hmid
      have hmidI : I mid := (hstep hmid hQ hJ hI).mpr hP
      exact (ih hknown (hkeep hmid hQ hJ hI hmidI) hmidI).mpr hrest

/-- The same, where `J` is kept by every step that is known of. -/
theorem throughout_iff_meets (hkeep : ∀ {s a s'}, next s a = some s' → Q s a → J s → J s')
    (hstep : ∀ {s a s'}, next s a = some s' → Q s a → J s → I s → (I s' ↔ P s a))
    (hknown : Meets next Q s actions) (hJ : J s) (hI : I s) :
    Throughout next I s actions ↔ Meets next P s actions :=
  throughout_iff_meets_between (fun hnext hQ hJ _ _ => hkeep hnext hQ hJ) hstep hknown hJ hI

end Hapcli.Lib.Runs
