/-
  Subject:   `serde_json::Value`: JSON values whose objects keep the order in which their fields were
             put in, and `==` on them, which does not look at that order.

  * **`Json.object_beq_iff`** -- objects are equal where they have equal fields, in any order; `==` is
    an equivalence (`instEquivBEqJson`);
  * `Fields.get`, `Fields.insert`, **`Fields.get_insert`** -- reading and writing a field.
-/
import Hapcli.Rust.Text
import Mathlib.Data.List.Forall2
import Mathlib.Data.List.Perm.Subperm

namespace Hapcli.Rust

/-! ## 1. Numbers -/

/-- A float as its bits. `serde_json` keeps only those that are finite. -/
structure FiniteFloat where
  bits : UInt64
  finite : (bits >>> 52) &&& 0x7ff ≠ 0x7ff
  deriving DecidableEq

/-- Zero, of either sign. -/
def FiniteFloat.isZero (f : FiniteFloat) : Bool := f.bits <<< 1 == 0

/-- `==` on floats: the two zeros are the same. -/
def FiniteFloat.eq (f g : FiniteFloat) : Bool := f == g || f.isZero && g.isZero

/-- `serde_json::Number`. -/
inductive Number where
  | posInt (n : UInt64)
  | negInt (n : Int64)
  | float (f : FiniteFloat)
  deriving DecidableEq

/-- `==` on numbers: an integer is never a float. -/
def Number.eq : Number → Number → Bool
  | .posInt m, .posInt n => m == n
  | .negInt m, .negInt n => m == n
  | .float f, .float g => f.eq g
  | _, _ => false

theorem Number.eq_refl (n : Number) : n.eq n = true := by
  cases n <;> simp [Number.eq, FiniteFloat.eq]

theorem Number.eq_symm {m n : Number} (h : m.eq n = true) : n.eq m = true := by
  cases m <;> cases n <;> simp only [Number.eq, Bool.false_eq_true] at h ⊢
  case posInt => exact BEq.symm h
  case negInt => exact BEq.symm h
  case float f g =>
      simp only [FiniteFloat.eq, Bool.or_eq_true, beq_iff_eq, Bool.and_eq_true] at h ⊢
      exact h.imp Eq.symm And.symm

theorem Number.eq_trans {l m n : Number} (h : l.eq m = true) (h' : m.eq n = true) :
    l.eq n = true := by
  cases l <;> cases m <;> cases n <;> simp only [Number.eq, Bool.false_eq_true] at h h' ⊢
  case posInt => exact BEq.trans h h'
  case negInt => exact BEq.trans h h'
  case float f g k =>
      simp only [FiniteFloat.eq, Bool.or_eq_true, beq_iff_eq, Bool.and_eq_true] at h h' ⊢
      obtain rfl | ⟨hf, hg⟩ := h
      · exact h'
      · obtain rfl | ⟨_, hk⟩ := h'
        · exact .inr ⟨hf, hg⟩
        · exact .inr ⟨hf, hk⟩

/-! ## 2. Values -/

/-- `serde_json::Value`. The fields of an object stand in the order they were put in. -/
inductive Value where
  | null
  | bool (b : Bool)
  | number (n : Number)
  | string (text : Str)
  | array (items : List Value)
  | object (entries : List (Str × Value))

/-- The value of a field in a list of fields. -/
def field (entries : List (Str × Value)) (key : Str) : Option Value :=
  (entries.find? fun e => e.1 == key).map Prod.snd

namespace Value

/-- Induction over a value: what holds of the parts holds of an array, and of an object. -/
@[elab_as_elim, induction_eliminator]
theorem induction {P : Value → Prop} (null : P .null) (bool : ∀ b, P (.bool b))
    (number : ∀ n, P (.number n)) (string : ∀ text, P (.string text))
    (array : ∀ items, (∀ v ∈ items, P v) → P (.array items))
    (object : ∀ entries, (∀ e ∈ entries, P e.2) → P (.object entries)) (v : Value) : P v :=
  @Value.rec P (fun items => ∀ v ∈ items, P v) (fun entries => ∀ e ∈ entries, P e.2)
    (fun e => P e.2) null bool number string array object nofun
    (fun _ _ hv hvs => List.forall_mem_cons.mpr ⟨hv, hvs⟩) nofun
    (fun _ _ he hes => List.forall_mem_cons.mpr ⟨he, hes⟩) (fun _ _ hv => hv) v

mutual

/-- `==`. Two objects are equal where they have as many fields, and each field of the one is an equal
    field of the other. -/
def eq : Value → Value → Bool
  | .null, .null => true
  | .bool a, .bool b => a == b
  | .number a, .number b => a.eq b
  | .string a, .string b => a == b
  | .array as, .array bs => eqItems as bs
  | .object as, .object bs => as.length == bs.length && eqFields as bs
  | _, _ => false
termination_by structural v => v

/-- `==` on vectors. -/
def eqItems : List Value → List Value → Bool
  | [], [] => true
  | a :: as, b :: bs => a.eq b && eqItems as bs
  | _, _ => false
termination_by structural items => items

/-- Each field of the first is an equal field of the second. -/
def eqFields : List (Str × Value) → List (Str × Value) → Bool
  | [], _ => true
  | (key, a) :: as, bs => (field bs key).any a.eq && eqFields as bs
termination_by structural entries => entries

end

mutual

/-- No object in the value has a field twice. -/
def wellFormed : Value → Bool
  | .array items => wellFormedItems items
  | .object entries => decide (entries.map Prod.fst).Nodup && wellFormedFields entries
  | _ => true
termination_by structural v => v

def wellFormedItems : List Value → Bool
  | [] => true
  | a :: as => a.wellFormed && wellFormedItems as
termination_by structural items => items

def wellFormedFields : List (Str × Value) → Bool
  | [] => true
  | (_, a) :: as => a.wellFormed && wellFormedFields as
termination_by structural entries => entries

end

theorem wellFormedItems_iff {items : List Value} :
    wellFormedItems items = true ↔ ∀ v ∈ items, v.wellFormed = true := by
  induction items with
  | nil => simp [wellFormedItems]
  | cons a as ih => rw [wellFormedItems, Bool.and_eq_true, ih, List.forall_mem_cons]

theorem wellFormedFields_iff {entries : List (Str × Value)} :
    wellFormedFields entries = true ↔ ∀ e ∈ entries, e.2.wellFormed = true := by
  induction entries with
  | nil => simp [wellFormedFields]
  | cons a as ih => rw [wellFormedFields, Bool.and_eq_true, ih, List.forall_mem_cons]

theorem wellFormed_array_iff {items : List Value} :
    (array items).wellFormed = true ↔ ∀ v ∈ items, v.wellFormed = true :=
  wellFormedItems_iff

theorem wellFormed_object_iff {entries : List (Str × Value)} :
    (object entries).wellFormed = true ↔
      (entries.map Prod.fst).Nodup ∧ ∀ e ∈ entries, e.2.wellFormed = true := by
  rw [wellFormed, Bool.and_eq_true, decide_eq_true_iff, wellFormedFields_iff]

end Value

/-! ## 3. Fields -/

variable {entries : List (Str × Value)} {key : Str} {v : Value}

theorem mem_of_field (h : field entries key = some v) : (key, v) ∈ entries := by
  obtain ⟨e, he, rfl⟩ := Option.map_eq_some_iff.mp h
  have hkey := List.find?_some he
  rw [beq_iff_eq] at hkey
  exact hkey ▸ List.mem_of_find?_eq_some he

theorem field_eq_some_iff (h : (entries.map Prod.fst).Nodup) :
    field entries key = some v ↔ (key, v) ∈ entries := by
  refine ⟨mem_of_field, fun hmem => ?_⟩
  induction entries with
  | nil => cases hmem
  | cons a as ih =>
    obtain ⟨hfresh, has⟩ := List.nodup_cons.mp h
    rw [field, List.find?_cons]
    by_cases hkey : a.1 = key
    · obtain rfl | hmem := List.mem_cons.mp hmem
      · rw [beq_self_eq_true]
        rfl
      · exact absurd (List.mem_map_of_mem hmem) (hkey ▸ hfresh)
    · rw [beq_eq_false_iff_ne.mpr hkey]
      refine ih has ((List.mem_cons.mp hmem).resolve_left ?_)
      rintro rfl
      exact hkey rfl

theorem field_eq_none_iff : field entries key = none ↔ key ∉ entries.map Prod.fst := by
  rw [field, Option.map_eq_none_iff, List.find?_eq_none, List.mem_map]
  constructor
  · rintro h ⟨e, he, rfl⟩
    exact h e he (beq_self_eq_true _)
  · intro h e he hkey
    exact h ⟨e, he, beq_iff_eq.mp hkey⟩

theorem field_isSome_iff : (field entries key).isSome = true ↔ key ∈ entries.map Prod.fst := by
  rw [Option.isSome_iff_ne_none, ne_eq, field_eq_none_iff, not_not]

theorem mem_keys_of_subset {as bs : List (Str × Value)} (ha : (as.map Prod.fst).Nodup)
    (hlength : as.length = bs.length) (h : as.map Prod.fst ⊆ bs.map Prod.fst) :
    bs.map Prod.fst ⊆ as.map Prod.fst := by
  have hperm := (List.subperm_of_subset ha h).perm_of_length_le
    (by rw [List.length_map, List.length_map, hlength])
  exact hperm.symm.subset

/-- A field written: where it is there it keeps its place, else it comes last. -/
@[grind] def insertField : List (Str × Value) → Str → Value → List (Str × Value)
  | [], key, v => [(key, v)]
  | e :: entries, key, v =>
    if e.1 = key then (key, v) :: entries else e :: insertField entries key v

theorem mem_keys_insertField {key' : Str} :
    key' ∈ (insertField entries key v).map Prod.fst ↔
      key' = key ∨ key' ∈ entries.map Prod.fst := by
  induction entries with
  | nil => simp [insertField]
  | cons e entries ih =>
    unfold insertField
    split
    · next he => simp [he]
    · rw [List.map_cons, List.mem_cons, ih, List.map_cons, List.mem_cons]
      tauto

theorem nodup_insertField (h : (entries.map Prod.fst).Nodup) (key : Str) (v : Value) :
    ((insertField entries key v).map Prod.fst).Nodup := by
  induction entries with
  | nil => exact List.nodup_cons.mpr ⟨List.not_mem_nil, .nil⟩
  | cons e entries ih =>
    obtain ⟨hfresh, hrest⟩ := List.nodup_cons.mp h
    unfold insertField
    split
    · next he => exact List.nodup_cons.mpr ⟨he ▸ hfresh, hrest⟩
    · next he =>
        refine List.nodup_cons.mpr ⟨fun hmem => ?_, ih hrest⟩
        exact ((mem_keys_insertField).mp hmem).elim he hfresh

theorem mem_insertField {e : Str × Value} (h : e ∈ insertField entries key v) :
    e = (key, v) ∨ e ∈ entries := by
  induction entries with
  | nil => exact .inl (List.mem_singleton.mp h)
  | cons d entries ih =>
    unfold insertField at h
    split at h
    · exact (List.mem_cons.mp h).imp_right (List.mem_cons_of_mem _)
    · obtain rfl | h := List.mem_cons.mp h
      · exact .inr List.mem_cons_self
      · exact (ih h).imp_right (List.mem_cons_of_mem _)

theorem field_insertField (entries : List (Str × Value)) (key key' : Str) (v : Value) :
    field (insertField entries key v) key' = if key' = key then some v else field entries key' := by
  induction entries with
  | nil =>
    by_cases hkey : key' = key
    · simp [insertField, field, hkey]
    · simp [insertField, field, hkey, Ne.symm hkey]
  | cons e entries ih =>
    unfold insertField
    by_cases he : e.1 = key
    · by_cases hkey : key' = key
      · simp [field, he, hkey]
      · simp [field, he, hkey, Ne.symm hkey]
    · rw [if_neg he]
      by_cases hkey : e.1 = key'
      · have hne : key' ≠ key := fun h => he (hkey.trans h)
        simp [field, hkey, hne]
      · rw [field, List.find?_cons_of_neg (by simpa using hkey)]
        refine ih.trans ?_
        rw [field, field, List.find?_cons_of_neg (by simpa using hkey)]

/-! ## 4. Equality -/

namespace Value

theorem eqItems_iff {as bs : List Value} :
    eqItems as bs = true ↔ List.Forall₂ (fun a b => a.eq b = true) as bs := by
  induction as generalizing bs with
  | nil =>
    cases bs with
    | nil => exact ⟨fun _ => .nil, fun _ => rfl⟩
    | cons b bs => exact ⟨nofun, nofun⟩
  | cons a as ih =>
    cases bs with
    | nil => exact ⟨nofun, nofun⟩
    | cons b bs => rw [eqItems, Bool.and_eq_true, ih, List.forall₂_cons]

theorem eqFields_iff {as bs : List (Str × Value)} :
    eqFields as bs = true ↔ ∀ e ∈ as, ∃ b, field bs e.1 = some b ∧ e.2.eq b = true := by
  induction as with
  | nil => simp [eqFields]
  | cons a as ih =>
    rw [eqFields, Bool.and_eq_true, ih, List.forall_mem_cons, Option.any_eq_true]

theorem eq_object_iff {as bs : List (Str × Value)} :
    (object as).eq (object bs) = true ↔ as.length = bs.length ∧
      ∀ e ∈ as, ∃ b, field bs e.1 = some b ∧ e.2.eq b = true := by
  rw [eq, Bool.and_eq_true, beq_iff_eq, eqFields_iff]

variable {v : Value}

theorem eq_refl (h : v.wellFormed = true) : v.eq v = true := by
  induction v with
  | null => rfl
  | bool b => exact beq_self_eq_true b
  | number n => exact n.eq_refl
  | string text => exact beq_self_eq_true text
  | array items ih =>
    rw [wellFormed_array_iff] at h
    exact (eqItems_iff).mpr (List.forall₂_same.mpr fun v hv => ih v hv (h v hv))
  | object entries ih =>
    obtain ⟨hnodup, hvalues⟩ := (wellFormed_object_iff).mp h
    exact (eq_object_iff).mpr ⟨rfl, fun e he =>
      ⟨e.2, (field_eq_some_iff hnodup).mpr he, ih e he (hvalues e he)⟩⟩

theorem eq_symm {w : Value} (hv : v.wellFormed = true) (hw : w.wellFormed = true)
    (h : v.eq w = true) : w.eq v = true := by
  induction v generalizing w with
  | null => cases w <;> first | rfl | cases h
  | bool b => cases w <;> first | exact BEq.symm h | cases h
  | number n => cases w <;> first | exact Number.eq_symm h | cases h
  | string text => cases w <;> first | exact BEq.symm h | cases h
  | array items ih =>
    cases w with
    | array items' =>
      rw [wellFormed_array_iff] at hv hw
      replace h := (eqItems_iff).mp h
      refine (eqItems_iff).mpr ?_
      induction h with
      | nil => exact .nil
      | cons hab _ ihtail =>
        rw [List.forall_mem_cons] at hv hw ih
        exact .cons (ih.1 hv.1 hw.1 hab) (ihtail ih.2 hv.2 hw.2)
    | _ => cases h
  | object as ih =>
    cases w with
    | object bs =>
      obtain ⟨hna, hva⟩ := (wellFormed_object_iff).mp hv
      obtain ⟨hnb, hvb⟩ := (wellFormed_object_iff).mp hw
      obtain ⟨hlength, hfields⟩ := (eq_object_iff).mp h
      have hsub : as.map Prod.fst ⊆ bs.map Prod.fst := by
        intro key hkey
        obtain ⟨e, he, rfl⟩ := List.mem_map.mp hkey
        obtain ⟨b, hb, _⟩ := hfields e he
        exact List.mem_map.mpr ⟨_, mem_of_field hb, rfl⟩
      refine (eq_object_iff).mpr ⟨hlength.symm, fun e he => ?_⟩
      -- the field is one of the first object too, and there it was compared with this one
      obtain ⟨d, hd, hkey⟩ :=
        List.mem_map.mp (mem_keys_of_subset hna hlength hsub (List.mem_map_of_mem he))
      obtain ⟨b, hb, heq⟩ := hfields d hd
      rw [hkey, (field_eq_some_iff hnb).mpr he] at hb
      cases hb
      exact ⟨d.2, (field_eq_some_iff hna).mpr (hkey ▸ hd), ih d hd (hva d hd) (hvb e he) heq⟩
    | _ => cases h

theorem eq_trans {u w : Value} (h : u.eq v = true) (h' : v.eq w = true) : u.eq w = true := by
  induction u generalizing v w with
  | null =>
    cases v with
    | null => exact h'
    | _ => cases h
  | bool b =>
    cases v with
    | bool c =>
      cases w with
      | bool d => exact BEq.trans h h'
      | _ => cases h'
    | _ => cases h
  | number n =>
    cases v with
    | number m =>
      cases w with
      | number l => exact Number.eq_trans h h'
      | _ => cases h'
    | _ => cases h
  | string text =>
    cases v with
    | string text' =>
      cases w with
      | string text'' => exact BEq.trans h h'
      | _ => cases h'
    | _ => cases h
  | array as ih =>
    cases v with
    | array bs =>
      cases w with
      | array cs =>
        replace h := (eqItems_iff).mp h
        replace h' := (eqItems_iff).mp h'
        refine (eqItems_iff).mpr ?_
        induction h generalizing cs with
        | nil => exact h'
        | cons hab _ ihtail =>
          obtain ⟨c, cs, hbc, hcs, rfl⟩ := List.forall₂_cons_left_iff.mp h'
          rw [List.forall_mem_cons] at ih
          exact .cons (ih.1 hab hbc) (ihtail ih.2 cs hcs)
      | _ => cases h'
    | _ => cases h
  | object as ih =>
    cases v with
    | object bs =>
      cases w with
      | object cs =>
        obtain ⟨hlength, hfields⟩ := (eq_object_iff).mp h
        obtain ⟨hlength', hfields'⟩ := (eq_object_iff).mp h'
        refine (eq_object_iff).mpr ⟨hlength.trans hlength', fun e he => ?_⟩
        obtain ⟨b, hb, heb⟩ := hfields e he
        obtain ⟨c, hc, hbc⟩ := hfields' _ (mem_of_field hb)
        exact ⟨c, hc, ih e he heb hbc⟩
      | _ => cases h'
    | _ => cases h

end Value

/-! ## 5. Well-formed values -/

/-- A `serde_json::Value` as the program meets it. -/
@[ext]
structure Json where
  value : Value
  wellFormed : value.wellFormed = true

/-- `serde_json::Map<String, Value>`. -/
structure Fields where
  entries : List (Str × Value)
  nodup : (entries.map Prod.fst).Nodup
  values : ∀ e ∈ entries, e.2.wellFormed = true

instance : BEq Json := ⟨fun v w => v.value.eq w.value⟩

instance instEquivBEqJson : EquivBEq Json where
  rfl := fun {v} => Value.eq_refl v.wellFormed
  symm := fun {v w} h => Value.eq_symm v.wellFormed w.wellFormed h
  trans := Value.eq_trans

instance instEquivBEqOption {α : Type} [BEq α] [EquivBEq α] : EquivBEq (Option α) where
  symm := fun {v w} h => by
    cases v with
    | none =>
      cases w with
      | none => rfl
      | some w => exact absurd h nofun
    | some v =>
      cases w with
      | none => exact absurd h nofun
      | some w => exact BEq.symm (α := α) h
  trans := fun {u v w} h h' => by
    cases u with
    | none =>
      cases v with
      | none => exact h'
      | some v => exact absurd h nofun
    | some u =>
      cases v with
      | none => exact absurd h nofun
      | some v =>
        cases w with
        | none => exact absurd h' nofun
        | some w => exact BEq.trans (α := α) h h'

/-- `Value::Object`. -/
def Json.object (fields : Fields) : Json :=
  ⟨.object fields.entries, Value.wellFormed_object_iff.mpr ⟨fields.nodup, fields.values⟩⟩

def Json.asObject : Json → Option Fields
  | ⟨.object entries, h⟩ =>
    some ⟨entries, (Value.wellFormed_object_iff.mp h).1, (Value.wellFormed_object_iff.mp h).2⟩
  | _ => none

theorem Json.asObject_eq_some_iff {v : Json} {fields : Fields} :
    v.asObject = some fields ↔ v = .object fields := by
  constructor
  · intro h
    obtain ⟨value, hvalue⟩ := v
    cases value with
    | object entries =>
      cases h
      rfl
    | _ => cases h
  · rintro rfl
    rfl

namespace Fields

/-- `Map::new`. -/
def empty : Fields := ⟨[], .nil, nofun⟩

variable (fields : Fields)

def keys : List Str := fields.entries.map Prod.fst

def get (key : Str) : Option Json :=
  (field fields.entries key).pmap Json.mk fun _ h => fields.values _ (mem_of_field h)

def insert (key : Str) (v : Json) : Fields where
  entries := insertField fields.entries key v.value
  nodup := nodup_insertField fields.nodup key v.value
  values := fun e he => (mem_insertField he).elim (fun h => h ▸ v.wellFormed) (fields.values e)

theorem map_value_get (key : Str) : (fields.get key).map Json.value = field fields.entries key := by
  rw [get, Option.map_pmap, Option.pmap_eq_map, Option.map_id']

theorem value_injective : Function.Injective Json.value := fun _ _ => Json.ext

theorem get_eq_none_iff {fields : Fields} : fields.get key = none ↔ key ∉ fields.keys := by
  rw [← Option.map_eq_none_iff (f := Json.value), map_value_get, field_eq_none_iff, keys]

@[simp] theorem get_empty (key : Str) : empty.get key = none := rfl

theorem get_insert (key key' : Str) (v : Json) :
    (fields.insert key v).get key' = if key' = key then some v else fields.get key' := by
  apply Option.map_injective value_injective
  rw [map_value_get, apply_ite (Option.map Json.value), map_value_get]
  exact field_insertField fields.entries key key' v.value

theorem get_beq_iff {as bs : Fields} : (as.get key == bs.get key) = true ↔
    (∀ v, field as.entries key = some v → ∃ w, field bs.entries key = some w ∧ v.eq w = true) ∧
      (field as.entries key = none → field bs.entries key = none) := by
  rw [← map_value_get, ← map_value_get]
  cases as.get key with
  | none =>
    cases bs.get key with
    | none => exact ⟨fun _ => ⟨nofun, fun _ => rfl⟩, fun _ => rfl⟩
    | some w => exact ⟨fun h => absurd h nofun, fun h => nomatch h.2 rfl⟩
  | some v =>
    cases bs.get key with
    | none => exact ⟨fun h => absurd h nofun, fun h => nomatch (h.1 _ rfl).choose_spec.1⟩
    | some w =>
      refine ⟨fun h => ⟨fun _ hv => ⟨_, rfl, Option.some.inj hv ▸ h⟩, nofun⟩, fun h => ?_⟩
      obtain ⟨_, hw, heq⟩ := h.1 _ rfl
      cases Option.some.inj hw
      exact heq

end Fields

theorem Json.object_beq_iff {as bs : Fields} :
    (Json.object as == Json.object bs) = true ↔ ∀ key, (as.get key == bs.get key) = true := by
  have heq : (Json.object as == Json.object bs) = true ↔
      (Value.object as.entries).eq (.object bs.entries) = true := Iff.rfl
  rw [heq, Value.eq_object_iff]
  constructor
  · intro ⟨hlength, hfields⟩ key
    have hsub : as.keys ⊆ bs.keys := by
      intro key hkey
      obtain ⟨e, he, rfl⟩ := List.mem_map.mp hkey
      obtain ⟨b, hb, _⟩ := hfields e he
      exact List.mem_map.mpr ⟨_, mem_of_field hb, rfl⟩
    refine Fields.get_beq_iff.mpr ⟨fun v hv => hfields (key, v) (mem_of_field hv), ?_⟩
    rw [field_eq_none_iff, field_eq_none_iff]
    exact fun hkey hmem => hkey (mem_keys_of_subset as.nodup hlength hsub hmem)
  · intro h
    have hkeys : ∀ key, key ∈ as.keys ↔ key ∈ bs.keys := by
      intro key
      obtain ⟨hsome, hnone⟩ := Fields.get_beq_iff.mp (h key)
      rw [Fields.keys, Fields.keys, ← field_isSome_iff, ← field_isSome_iff]
      cases hv : field as.entries key with
      | none => rw [hnone hv]
      | some v =>
        obtain ⟨w, hw, _⟩ := hsome v hv
        rw [hw]
        exact iff_of_true rfl rfl
    have hperm := (List.perm_ext_iff_of_nodup as.nodup bs.nodup).mpr hkeys
    have hlength := hperm.length_eq
    rw [List.length_map, List.length_map] at hlength
    exact ⟨hlength, fun e he =>
      (Fields.get_beq_iff.mp (h e.1)).1 e.2 ((field_eq_some_iff as.nodup).mpr he)⟩

/-! ## 6. Places in a value -/

namespace Value

/-- A step into a value: to a field, or to an item. -/
inductive Step where
  | key (key : Str)
  | index (i : Nat)
  deriving DecidableEq

/-- What the step leads to. -/
def step : Step → Value → Option Value
  | .key key, .object entries => field entries key
  | .index i, .array items => items[i]?
  | _, _ => none

/-- What is at the end of a path. -/
def follow : Value → List Step → Option Value
  | v, [] => some v
  | v, s :: path => (v.step s).bind fun child => child.follow path

@[simp] theorem follow_nil (v : Value) : v.follow [] = some v := rfl

theorem follow_cons_eq_some_iff {w : Value} {s : Step} {path : List Step} :
    v.follow (s :: path) = some w ↔ ∃ child, v.step s = some child ∧ child.follow path = some w :=
  Option.bind_eq_some_iff

/-- The same places, and the same texts: what is read back from a text may differ in its numbers. -/
def Alike (v w : Value) : Prop :=
  ∀ path, (v.follow path).isSome = (w.follow path).isSome ∧
    ∀ text, v.follow path = some (.string text) ↔ w.follow path = some (.string text)

end Value

end Hapcli.Rust
