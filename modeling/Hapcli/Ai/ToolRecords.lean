/-
  Subject:   Tool calls as they are stored (`context_sanitizer.rs`): which keys and which texts of a
             JSON value are left.

  * **`stored_clean_iff`** -- for which values no secret and no authority key is stored, whatever the
    scrubber does.
-/
import Hapcli.Rust.Json
import Mathlib.Data.List.Infix

namespace Hapcli.Ai

open Hapcli.Rust Value

/-! ## 1. Keys -/

def redacted : Str := "[REDACTED]".toList

def normalizedJsonKey (key : Str) : Str := (key.filter Char.isAlphanum).map Char.toLower

/-- The key is one of these, normalised. -/
def isAmong (keys : List String) (key : Str) : Bool :=
  keys.any fun k => k.toList = normalizedJsonKey key

def isSensitiveJsonKey (key : Str) : Bool :=
  (["apikey", "accesskey", "privatekey", "secretkey", "signingkey", "encryptionkey", "password",
    "passwd", "passphrase", "secret", "credential"].any
      fun part => part.toList <:+: normalizedJsonKey key) ||
  (["authtoken", "accesstoken", "refreshtoken"].any
    fun part => part.toList <:+ normalizedJsonKey key) ||
  isAmong ["token", "authorization", "proxyauthorization"] key

def isEmbeddedJsonKey : Str → Bool := isAmong ["arguments", "argumentstext"]

def isRuntimeAuthorityJsonKey : Str → Bool :=
  isAmong ["handleid", "targetid", "nodeid", "sessionid", "connectionid", "tabid", "paneid",
    "runtimeepoch", "ownerkey", "ownergeneration", "toolsessionid"]

def isSecretCapableToolArgumentKey : Str → Bool :=
  isAmong ["command", "text", "content", "value", "preference", "stdin", "input", "body", "headers",
    "environment", "env", "expectedhash"]

def isSecretCapableToolResultKey : Str → Bool :=
  isAmong ["content", "filecontent", "command", "terminalinput", "rawterminalbuffer", "hash",
    "contenthash", "expectedhash"]

/-- `Value::is_string`. -/
def isString : Value → Bool
  | .string _ => true
  | _ => false

/-- `Value::as_str`. -/
def asStr : Value → Option Str
  | .string text => some text
  | _ => none

/-! ## 2. The walks -/

section Walks

-- `sanitize_for_persistence`
variable (scrub : Str → Str)

section Dropping

-- the keys that are left out
variable (dropped : Str → Bool)

mutual

/-- A walk that leaves keys out, replaces texts under sensitive keys and scrubs the others. -/
def sanitizeDropping : Value → Value
  | .object entries => .object (sanitizeDroppingFields entries)
  | .array items => .array (sanitizeDroppingItems items)
  | .string text => .string (scrub text)
  | other => other
termination_by structural v => v

/-- The items of an array. -/
def sanitizeDroppingItems : List Value → List Value
  | [] => []
  | v :: items => sanitizeDropping v :: sanitizeDroppingItems items
termination_by structural items => items

/-- The fields of an object. -/
def sanitizeDroppingFields : List (Str × Value) → List (Str × Value)
  | [] => []
  | (key, value) :: entries =>
    if dropped key = true then sanitizeDroppingFields entries
    else
      (key, if isString value = true ∧ isSensitiveJsonKey key = true then .string redacted
        else sanitizeDropping value) :: sanitizeDroppingFields entries
termination_by structural entries => entries

end

end Dropping

/-- The keys that a tool's arguments are stored without. -/
def argumentDropped (key : Str) : Bool :=
  isRuntimeAuthorityJsonKey key || isSecretCapableToolArgumentKey key

/-- The keys that a tool's result is stored without. -/
def resultDropped (toolName key : Str) : Bool :=
  isRuntimeAuthorityJsonKey key || isSecretCapableToolResultKey key ||
    (isAmong ["output"] key &&
      (toolName = "read_resource".toList || toolName = "observe_terminal".toList))

/-- `sanitize_tool_arguments_json_for_persistence`. -/
def sanitizeToolArgumentsJson (value : Value) : Value := sanitizeDropping scrub argumentDropped value

/-- `sanitize_tool_result_value_for_persistence`. -/
def sanitizeToolResultValue (toolName : Str) (value : Value) : Value :=
  sanitizeDropping scrub (resultDropped toolName) value

end Walks

/-- A text with an authority key in it. -/
def handleText : Str := "\x7b\"nodeId\":null\x7d".toList

/-- `serde_json`: reading a text, writing a value. -/
structure SerdeJson where
  fromStr : Str → Option Value
  toText : Value → Str
  /-- What the walk through the arguments leaves of a value that was read can be written and read
      again. -/
  rereads : ∀ scrub text v, fromStr text = some v → ∃ w,
    fromStr (toText (sanitizeToolArgumentsJson scrub v)) = some w ∧
      Alike w (sanitizeToolArgumentsJson scrub v)
  /-- The marker is no JSON. -/
  marker : fromStr redacted = none
  /-- An object with one field is. -/
  handle : fromStr handleText = some (.object [("nodeId".toList, .null)])

section Protocol

variable (serde : SerdeJson) (scrub : Str → Str)

/-- `sanitize_tool_arguments_text_for_persistence`. -/
def sanitizeToolArgumentsText (text : Str) : Str :=
  match serde.fromStr text with
  | some value => serde.toText (sanitizeToolArgumentsJson scrub value)
  | none => scrub text

/-- The name of the tool in whose call an object stands. -/
def toolNameIn (entries : List (Str × Value)) (inherited : Option Str) : Option Str :=
  (((field entries "name".toList).or (field entries "toolName".toList)).bind asStr).or inherited

mutual

/-- `sanitize_tool_protocol_value_for_persistence`. -/
def sanitizeToolProtocolValue (inherited : Option Str) : Value → Value
  | .object entries => .object (sanitizeToolProtocolFields (toolNameIn entries inherited) entries)
  | .array items => .array (sanitizeToolProtocolItems inherited items)
  | .string text => .string (scrub text)
  | other => other
termination_by structural v => v

/-- The items of an array. -/
def sanitizeToolProtocolItems (inherited : Option Str) : List Value → List Value
  | [] => []
  | v :: items =>
    sanitizeToolProtocolValue inherited v :: sanitizeToolProtocolItems inherited items
termination_by structural items => items

/-- The fields of an object. -/
def sanitizeToolProtocolFields (toolName : Option Str) : List (Str × Value) → List (Str × Value)
  | [] => []
  | (key, value) :: entries =>
    if isRuntimeAuthorityJsonKey key = true then sanitizeToolProtocolFields toolName entries
    else
      (key, if isString value = true ∧ isSensitiveJsonKey key = true then .string redacted
        else if isEmbeddedJsonKey key = true then
          match asStr value with
          | some text => .string (sanitizeToolArgumentsText serde scrub text)
          | none => sanitizeToolArgumentsJson scrub value
        else if isAmong ["result"] key = true then
          sanitizeToolResultValue scrub (toolName.getD []) value
        else sanitizeToolProtocolValue toolName value) ::
          sanitizeToolProtocolFields toolName entries
termination_by structural entries => entries

end

/-- `sanitize_tool_protocol_json_for_persistence`. -/
def sanitizeToolProtocolJson (value : Value) : Value :=
  sanitizeToolProtocolValue serde scrub none value

/-- `sanitize_tool_result_json_for_persistence`. -/
def sanitizeToolResultJson (toolName : Str) (value : Value) : Value :=
  sanitizeToolResultValue scrub toolName value

end Protocol

/-! ## 3. What becomes of a place -/

/-- The three walks. -/
inductive Walk where
  | protocol (inherited : Option Str)
  | arguments
  | result (toolName : Str)

/-- What is done with a text: it is scrubbed, replaced, or read as arguments. -/
inductive Treatment where
  | scrubbed
  | replaced
  | reread
  deriving DecidableEq

/-- The text that is stored. -/
def Treatment.apply (serde : SerdeJson) (scrub : Str → Str) : Treatment → Str → Str
  | scrubbed, text => scrub text
  | replaced, _ => redacted
  | reread, text => sanitizeToolArgumentsText serde scrub text

namespace Walk

def sanitize (serde : SerdeJson) (scrub : Str → Str) : Walk → Value → Value
  | protocol inherited => sanitizeToolProtocolValue serde scrub inherited
  | arguments => sanitizeToolArgumentsJson scrub
  | result toolName => sanitizeToolResultValue scrub toolName

/-- The step leads to a field that is left out. -/
def drops : Walk → Step → Bool
  | _, .index _ => false
  | protocol _, .key key => isRuntimeAuthorityJsonKey key
  | arguments, .key key => argumentDropped key
  | result toolName, .key key => resultDropped toolName key

/-- The walk that goes on behind the step. -/
def inside : Walk → Value → Step → Walk
  | protocol inherited, .object entries, .key key =>
    if isEmbeddedJsonKey key = true then arguments
    else if isAmong ["result"] key = true then result ((toolNameIn entries inherited).getD [])
    else protocol (toolNameIn entries inherited)
  | walk, _, _ => walk

/-- What is done with a text to which the step leads. -/
def treatment : Walk → Step → Treatment
  | _, .index _ => .scrubbed
  | walk, .key key =>
    if isSensitiveJsonKey key = true then .replaced
    else
      match walk with
      | protocol _ => if isEmbeddedJsonKey key = true then .reread else .scrubbed
      | _ => .scrubbed

/-- What is done with the text at the end of the path; nothing where something on the path is left
    out. -/
def treatFrom (here : Treatment) (walk : Walk) (v : Value) : List Step → Option Treatment
  | [] => some here
  | s :: path =>
    if walk.drops s = true then none
    else (v.step s).bind fun child => (walk.inside v s).treatFrom (walk.treatment s) child path

/-- From the beginning. -/
def treat (walk : Walk) (v : Value) (path : List Step) : Option Treatment :=
  walk.treatFrom .scrubbed v path

end Walk

/-! ## 4. One step -/

section OneStep

variable {serde : SerdeJson} {scrub : Str → Str} {dropped : Str → Bool}

theorem sanitizeDroppingItems_eq (items : List Value) :
    sanitizeDroppingItems scrub dropped items = items.map (sanitizeDropping scrub dropped) := by
  induction items with
  | nil => rfl
  | cons v items ih => rw [sanitizeDroppingItems, ih, List.map_cons]

theorem sanitizeToolProtocolItems_eq (inherited : Option Str) (items : List Value) :
    sanitizeToolProtocolItems serde scrub inherited items =
      items.map (sanitizeToolProtocolValue serde scrub inherited) := by
  induction items with
  | nil => rfl
  | cons v items ih => rw [sanitizeToolProtocolItems, ih, List.map_cons]

theorem field_cons (key : Str) (value : Value) (entries : List (Str × Value)) (key' : Str) :
    field ((key, value) :: entries) key' = if key = key' then some value else field entries key' := by
  rw [field, List.find?_cons]
  by_cases hkey : key = key'
  · rw [if_pos hkey, hkey, beq_self_eq_true]
    rfl
  · rw [if_neg hkey, beq_eq_false_iff_ne.mpr hkey]
    rfl

/-- A field of an object from which some are left out, and the others replaced. -/
theorem field_of_fields {fields : List (Str × Value) → List (Str × Value)}
    {out : Str → Value → Value}
    (hnil : fields [] = []) (hcons : ∀ key value entries, fields ((key, value) :: entries) =
      if dropped key = true then fields entries else (key, out key value) :: fields entries)
    (entries : List (Str × Value)) (key : Str) :
    field (fields entries) key =
      if dropped key = true then none else (field entries key).map (out key) := by
  induction entries with
  | nil =>
    rw [hnil]
    split <;> rfl
  | cons entry entries ih =>
    obtain ⟨key', value⟩ := entry
    rw [hcons, field_cons]
    by_cases hkey : key' = key
    · subst hkey
      rw [if_pos rfl]
      split
      · next hdropped => rw [ih, if_pos hdropped]
      · rw [field_cons, if_pos rfl]
        rfl
    · split
      · exact ih
      · rw [field_cons, if_neg hkey]
        exact ih

/-- The value that is stored at the end of a step. -/
def Walk.store (serde : SerdeJson) (scrub : Str → Str) (walk : Walk) (here : Treatment) :
    Value → Value
  | .string text => .string (here.apply serde scrub text)
  | v => walk.sanitize serde scrub v

theorem store_scrubbed (walk : Walk) (v : Value) :
    walk.store serde scrub .scrubbed v = walk.sanitize serde scrub v := by
  cases v <;> cases walk <;> rfl

theorem store_of_not_string (walk : Walk) (here : Treatment) {v : Value} (h : isString v = false) :
    walk.store serde scrub here v = walk.sanitize serde scrub v := by
  cases v with
  | string text => cases h
  | _ => rfl

theorem store_dropping (walk : Walk) {entries : List (Str × Value)} {key : Str}
    (hinside : walk.inside (.object entries) (.key key) = walk)
    (htreatment : walk.treatment (.key key) =
      if isSensitiveJsonKey key = true then .replaced else .scrubbed) (child : Value) :
    (if isString child = true ∧ isSensitiveJsonKey key = true then .string redacted
      else walk.sanitize serde scrub child) =
      (walk.inside (.object entries) (.key key)).store serde scrub (walk.treatment (.key key)) child := by
  rw [hinside, htreatment]
  by_cases hsensitive : isSensitiveJsonKey key = true
  · rw [if_pos hsensitive]
    cases hstring : isString child with
    | false =>
      rw [if_neg (by rintro ⟨h, -⟩; cases h), store_of_not_string walk .replaced hstring]
    | true =>
      rw [if_pos ⟨rfl, hsensitive⟩]
      cases child with
      | string text => rfl
      | _ => cases hstring
  · rw [if_neg hsensitive, if_neg (fun h => hsensitive h.2), store_scrubbed]

theorem store_protocol (inherited : Option Str) (entries : List (Str × Value)) (key : Str)
    (child : Value) :
    (if isString child = true ∧ isSensitiveJsonKey key = true then .string redacted
      else if isEmbeddedJsonKey key = true then
        match asStr child with
        | some text => .string (sanitizeToolArgumentsText serde scrub text)
        | none => sanitizeToolArgumentsJson scrub child
      else if isAmong ["result"] key = true then
        sanitizeToolResultValue scrub ((toolNameIn entries inherited).getD []) child
      else sanitizeToolProtocolValue serde scrub (toolNameIn entries inherited) child) =
    ((Walk.protocol inherited).inside (.object entries) (.key key)).store serde scrub
      ((Walk.protocol inherited).treatment (.key key)) child := by
  unfold Walk.inside Walk.treatment
  dsimp only
  by_cases hsensitive : isSensitiveJsonKey key = true
  · rw [if_pos hsensitive]
    cases child with
    | string text => rw [if_pos ⟨rfl, hsensitive⟩]; rfl
    | _ =>
      rw [if_neg (by rintro ⟨h, -⟩; cases h), store_of_not_string _ _ rfl]
      split
      · rfl
      · split <;> rfl
  · rw [if_neg hsensitive, if_neg (fun h => hsensitive h.2)]
    split
    · cases child <;> rfl
    · split
      · rw [store_scrubbed]; rfl
      · rw [store_scrubbed]; rfl

theorem step_sanitize (walk : Walk) (v : Value) (s : Step) :
    (walk.sanitize serde scrub v).step s =
      if walk.drops s = true then none
      else (v.step s).map ((walk.inside v s).store serde scrub (walk.treatment s)) := by
  cases v with
  | array items =>
    cases s with
    | key key => cases walk <;> exact (ite_self _).symm
    | index i =>
      have hitems : walk.sanitize serde scrub (.array items) =
          .array (items.map (walk.sanitize serde scrub)) := by
        cases walk with
        | protocol inherited =>
          exact congrArg Value.array (sanitizeToolProtocolItems_eq inherited items)
        | arguments => exact congrArg Value.array (sanitizeDroppingItems_eq items)
        | result toolName => exact congrArg Value.array (sanitizeDroppingItems_eq items)
      have hstore : walk.store serde scrub .scrubbed = walk.sanitize serde scrub :=
        funext (store_scrubbed walk)
      have hinside : walk.inside (.array items) (.index i) = walk := by cases walk <;> rfl
      rw [hitems, hinside]
      show (items.map (walk.sanitize serde scrub))[i]? =
        (items[i]?).map (walk.store serde scrub .scrubbed)
      rw [List.getElem?_map, hstore]
  | object entries =>
    cases s with
    | index i => cases walk <;> rfl
    | key key =>
      cases walk with
      | protocol inherited =>
        refine (field_of_fields rfl (fun key value entries => rfl) entries key).trans ?_
        congr 1
        congr 1
        funext child
        exact store_protocol inherited entries key child
      | arguments =>
        refine (field_of_fields rfl (fun key value entries => rfl) entries key).trans ?_
        congr 1
        congr 1
        funext child
        exact store_dropping .arguments rfl rfl child
      | result toolName =>
        refine (field_of_fields rfl (fun key value entries => rfl) entries key).trans ?_
        congr 1
        congr 1
        funext child
        exact store_dropping (.result toolName) rfl rfl child
  | _ => cases walk <;> cases s <;> exact (ite_self _).symm

end OneStep

/-! ## 5. Whole paths -/

/-- The path goes through a sensitive key. -/
def BelowSensitive (path : List Step) : Prop :=
  ∃ key, .key key ∈ path ∧ isSensitiveJsonKey key = true

/-- **What may be stored**: no authority key at any depth, and below a sensitive key no text but the
    marker. -/
structure Storable (v : Value) : Prop where
  keys : ∀ path w, v.follow path = some w → ∀ key, .key key ∈ path →
    isRuntimeAuthorityJsonKey key = false
  texts : ∀ path text, v.follow path = some (.string text) → BelowSensitive path → text = redacted

/-- Each text that is kept below a sensitive key stands directly under one. -/
def Direct (walk : Walk) (v : Value) : Prop :=
  ∀ path text here, v.follow path = some (.string text) → walk.treat v path = some here →
    BelowSensitive path → here = .replaced

section Paths

variable {serde : SerdeJson} {scrub : Str → Str} {walk : Walk} {v w : Value} {path : List Step}

theorem step_store (here : Treatment) (s : Step) :
    (walk.store serde scrub here v).step s = (walk.sanitize serde scrub v).step s := by
  cases v with
  | string text => cases walk <;> cases s <;> rfl
  | _ => rfl

variable {here : Treatment} {text : Str}

theorem store_eq_string_iff :
    walk.store serde scrub here v = .string text ↔
      ∃ before, v = .string before ∧ text = here.apply serde scrub before := by
  constructor
  · intro h
    cases v with
    | string before => exact ⟨before, rfl, (Value.string.inj h).symm⟩
    | _ => cases walk <;> exact absurd h nofun
  · rintro ⟨before, rfl, rfl⟩
    rfl

theorem step_store_eq_some_iff {s : Step} :
    (walk.store serde scrub here v).step s = some w ↔ walk.drops s = false ∧
      ∃ child, v.step s = some child ∧
        (walk.inside v s).store serde scrub (walk.treatment s) child = w := by
  rw [step_store, step_sanitize]
  split
  · next hdrops => exact ⟨nofun, fun h => absurd (hdrops.symm.trans h.1) (by decide)⟩
  · next hdrops =>
      rw [Option.map_eq_some_iff]
      exact ⟨fun h => ⟨Bool.eq_false_iff.mpr hdrops, h⟩, And.right⟩

theorem follow_store_string :
    (walk.store serde scrub here v).follow path = some (.string text) ↔
      ∃ before last, v.follow path = some (.string before) ∧
        walk.treatFrom here v path = some last ∧ text = last.apply serde scrub before := by
  induction path generalizing walk here v with
  | nil =>
    rw [follow_nil, Option.some_inj, store_eq_string_iff]
    constructor
    · rintro ⟨before, rfl, rfl⟩
      exact ⟨before, here, rfl, rfl, rfl⟩
    · rintro ⟨before, last, hv, hlast, rfl⟩
      cases hlast
      exact ⟨before, Option.some_inj.mp hv, rfl⟩
  | cons s path ih =>
    rw [follow_cons_eq_some_iff]
    constructor
    · rintro ⟨w, hstep, hfollow⟩
      obtain ⟨hdrops, child, hchild, rfl⟩ := (step_store_eq_some_iff).mp hstep
      obtain ⟨before, last, hbefore, hlast, rfl⟩ := ih.mp hfollow
      refine ⟨before, last, follow_cons_eq_some_iff.mpr ⟨child, hchild, hbefore⟩, ?_, rfl⟩
      rw [Walk.treatFrom, if_neg (Bool.eq_false_iff.mp hdrops), hchild]
      exact hlast
    · rintro ⟨before, last, hbefore, hlast, rfl⟩
      obtain ⟨child, hchild, hbefore⟩ := follow_cons_eq_some_iff.mp hbefore
      rw [Walk.treatFrom] at hlast
      split at hlast
      · cases hlast
      · next hdrops =>
          rw [hchild] at hlast
          exact ⟨_, (step_store_eq_some_iff).mpr ⟨Bool.eq_false_iff.mpr hdrops, child, hchild, rfl⟩,
            ih.mpr ⟨before, last, hbefore, hlast, rfl⟩⟩

theorem authority_of_drops {key : Str} (h : walk.drops (.key key) = false) :
    isRuntimeAuthorityJsonKey key = false := by
  cases walk with
  | protocol inherited => exact h
  | arguments => exact (Bool.or_eq_false_iff.mp h).1
  | result toolName => exact (Bool.or_eq_false_iff.mp (Bool.or_eq_false_iff.mp h).1).1

theorem keys_store (h : (walk.store serde scrub here v).follow path = some w) :
    ∀ key, .key key ∈ path → isRuntimeAuthorityJsonKey key = false := by
  induction path generalizing walk here v with
  | nil => exact nofun
  | cons s path ih =>
    obtain ⟨child, hstep, hfollow⟩ := follow_cons_eq_some_iff.mp h
    obtain ⟨hdrops, before, -, rfl⟩ := (step_store_eq_some_iff).mp hstep
    intro key hkey
    obtain rfl | hkey := List.mem_cons.mp hkey
    · exact authority_of_drops hdrops
    · exact ih hfollow key hkey

theorem follow_sanitize_string :
    (walk.sanitize serde scrub v).follow path = some (.string text) ↔
      ∃ before last, v.follow path = some (.string before) ∧ walk.treat v path = some last ∧
        text = last.apply serde scrub before := by
  rw [← store_scrubbed]
  exact follow_store_string

/-- What is stored may be stored where each text below a sensitive key stands directly under one. -/
theorem storable_of_direct (h : Direct walk v) : Storable (walk.sanitize serde scrub v) := by
  constructor
  · intro path w hfollow
    rw [← store_scrubbed] at hfollow
    exact keys_store hfollow
  · intro path text hfollow hbelow
    obtain ⟨before, last, hbefore, hlast, rfl⟩ := (follow_sanitize_string).mp hfollow
    rw [h path before last hbefore hlast hbelow]
    rfl

/-- A text that is read as arguments never becomes the marker, unless by the scrubber. -/
theorem sanitizeToolArgumentsText_ne (text : Str) (hscrub : scrub text ≠ redacted) :
    sanitizeToolArgumentsText serde scrub text ≠ redacted := by
  unfold sanitizeToolArgumentsText
  split
  · next v hv =>
      intro heq
      obtain ⟨w, hw, -⟩ := serde.rereads scrub text v hv
      rw [heq, serde.marker] at hw
      cases hw
  · exact hscrub

theorem direct_of_storable (hscrub : ∀ text, scrub text ≠ redacted)
    (h : Storable (walk.sanitize serde scrub v)) : Direct walk v := by
  intro path text here htext hhere hbelow
  have heq := h.texts path _ ((follow_sanitize_string).mpr ⟨text, here, htext, hhere, rfl⟩) hbelow
  cases here with
  | scrubbed => exact absurd heq (hscrub text)
  | replaced => rfl
  | reread => exact absurd heq (sanitizeToolArgumentsText_ne text (hscrub text))

theorem storable_alike (h : Alike v w) : Storable v ↔ Storable w := by
  constructor
  · intro ⟨hkeys, htexts⟩
    refine ⟨fun path u hu => ?_, fun path text ht => htexts path text (((h path).2 text).mpr ht)⟩
    have hsome : (v.follow path).isSome = true := by
      rw [(h path).1, hu]
      rfl
    exact hkeys path _ (Option.some_get hsome).symm
  · intro ⟨hkeys, htexts⟩
    refine ⟨fun path u hu => ?_, fun path text ht => htexts path text (((h path).2 text).mp ht)⟩
    have hsome : (w.follow path).isSome = true := by
      rw [← (h path).1, hu]
      rfl
    exact hkeys path _ (Option.some_get hsome).symm

end Paths

/-! ## 6. Exactly when nothing is left -/

/-- **The stored value is clean**: it may be stored, and so may what is read from the text that it has
    for a JSON text under an `arguments` key of the input. -/
structure Clean (serde : SerdeJson) (input output : Value) : Prop where
  stored : Storable output
  arguments : ∀ path key text parsed text' v, isEmbeddedJsonKey key = true →
    input.follow (path ++ [.key key]) = some (.string text) → serde.fromStr text = some parsed →
    output.follow (path ++ [.key key]) = some (.string text') → serde.fromStr text' = some v →
    Storable v

/-- **The values whose stored form is clean whatever the scrubber does**: each text kept below a
    sensitive key stands directly under one, and the JSON in `arguments` texts is harmless or not
    kept. -/
structure Harmless (serde : SerdeJson) (walk : Walk) (input : Value) : Prop where
  direct : Direct walk input
  arguments : ∀ path key text parsed, isEmbeddedJsonKey key = true →
    input.follow (path ++ [.key key]) = some (.string text) → serde.fromStr text = some parsed →
    walk.treat input (path ++ [.key key]) ≠ some .scrubbed ∧
      (walk.treat input (path ++ [.key key]) = some .reread → Direct .arguments parsed)

section Exact

variable {serde : SerdeJson} {walk : Walk} {input : Value}

theorem not_storable_handle : ¬ Storable (.object [("nodeId".toList, .null)]) := fun h =>
  absurd (h.keys [.key "nodeId".toList] .null rfl _ (List.mem_singleton_self _)) (by decide)

theorem sanitizeToolArgumentsText_of_json {scrub : Str → Str} {text : Str} {parsed : Value}
    (h : serde.fromStr text = some parsed) :
    sanitizeToolArgumentsText serde scrub text =
      serde.toText (Walk.arguments.sanitize serde scrub parsed) := by
  rw [sanitizeToolArgumentsText, h]
  rfl

theorem clean_iff :
    (∀ scrub, Clean serde input (walk.sanitize serde scrub input)) ↔ Harmless serde walk input := by
  constructor
  · intro h
    have hempty (text : Str) : (fun _ => [] : Str → Str) text ≠ redacted :=
      (by decide : ([] : Str) ≠ redacted)
    refine ⟨direct_of_storable hempty (h fun _ => []).stored, ?_⟩
    intro path key text parsed hkey htext hparsed
    have hstored (scrub : Str → Str) {here : Treatment}
        (hhere : walk.treat input (path ++ [.key key]) = some here) {v : Value}
        (hv : serde.fromStr (here.apply serde scrub text) = some v) : Storable v :=
      (h scrub).arguments path key text parsed _ v hkey htext hparsed
        ((follow_sanitize_string).mpr ⟨text, here, htext, hhere, rfl⟩) hv
    constructor
    · intro hscrubbed
      -- a scrubber may turn the text into one with an authority key in it
      exact not_storable_handle (hstored (fun _ => handleText) hscrubbed serde.handle)
    · intro hreread
      obtain ⟨v, hv, halike⟩ := serde.rereads (fun _ => []) text parsed hparsed
      refine @direct_of_storable serde _ _ _ hempty ?_
      refine (storable_alike halike).mp (hstored (fun _ => []) hreread ?_)
      rw [Treatment.apply, sanitizeToolArgumentsText_of_json hparsed]
      exact hv
  · intro ⟨hdirect, harguments⟩ scrub
    refine ⟨storable_of_direct hdirect, ?_⟩
    intro path key text parsed text' v hkey htext hparsed htext' hv
    obtain ⟨before, here, hbefore, hhere, rfl⟩ := (follow_sanitize_string).mp htext'
    obtain rfl : before = text := Value.string.inj (Option.some_inj.mp (hbefore.symm.trans htext))
    obtain ⟨hscrubbed, hreread⟩ := harguments path key before parsed hkey htext hparsed
    cases here with
    | scrubbed => exact absurd hhere hscrubbed
    | replaced =>
      rw [Treatment.apply, serde.marker] at hv
      cases hv
    | reread =>
      rw [Treatment.apply, sanitizeToolArgumentsText_of_json hparsed] at hv
      obtain ⟨w, hw, halike⟩ := serde.rereads scrub before parsed hparsed
      obtain rfl : w = v := Option.some_inj.mp (hw.symm.trans hv)
      exact (storable_alike halike).mpr (@storable_of_direct serde _ _ _ (hreread hhere))

/-- **Tool calls, their arguments and their results are stored clean just where they are harmless.** -/
theorem stored_clean_iff (serde : SerdeJson) (toolName : Str) (input : Value) :
    ((∀ scrub, Clean serde input (sanitizeToolProtocolJson serde scrub input)) ↔
      Harmless serde (.protocol none) input) ∧
    ((∀ scrub, Clean serde input (sanitizeToolArgumentsJson scrub input)) ↔
      Harmless serde .arguments input) ∧
    ((∀ scrub, Clean serde input (sanitizeToolResultJson scrub toolName input)) ↔
      Harmless serde (.result toolName) input) :=
  ⟨@clean_iff serde (.protocol none) input, @clean_iff serde .arguments input,
    @clean_iff serde (.result toolName) input⟩

end Exact

/-- A `serde_json` that knows two texts. -/
def twoTexts : SerdeJson where
  fromStr text :=
    if text = handleText then some (.object [("nodeId".toList, .null)])
    else if text = "{}".toList then some (.object []) else none
  toText
    | .object [] => "{}".toList
    | _ => []
  rereads scrub text v h := by
    have hempty : sanitizeToolArgumentsJson scrub v = .object [] := by
      split at h
      · cases h
        rfl
      · split at h
        · cases h
          rfl
        · cases h
    rw [hempty]
    exact ⟨.object [], rfl, fun path => ⟨rfl, fun text => Iff.rfl⟩⟩
  marker := rfl
  handle := rfl

/-- Credentials in an object, stored as they are. -/
def nestedCredentials : Value :=
  .object [("credentials".toList, .object [("data".toList, .string "hunter2".toList)])]

/-- Arguments in a result, stored as they are. -/
def argumentsInResult : Value :=
  .object [("result".toList, .object [("arguments".toList, .string handleText)])]

/-- **A text below a sensitive key, and an authority key in the JSON of `arguments`, that a scrubber
    which finds nothing in them leaves to be stored.** -/
theorem stored_clean_counterexample :
    ∃ (serde : SerdeJson) (scrub : Str → Str),
      ¬ Clean serde nestedCredentials (sanitizeToolProtocolJson serde scrub nestedCredentials) ∧
      ¬ Clean serde argumentsInResult (sanitizeToolProtocolJson serde scrub argumentsInResult) := by
  refine ⟨twoTexts, id, fun h => ?_, fun h => ?_⟩
  · have hbelow : BelowSensitive [.key "credentials".toList, .key "data".toList] :=
      ⟨"credentials".toList, List.mem_cons_self, by decide⟩
    exact absurd (h.stored.texts _ "hunter2".toList rfl hbelow) (by decide)
  · have hstorable := h.arguments [.key "result".toList] "arguments".toList handleText _ handleText _
      (by decide) rfl rfl rfl rfl
    exact absurd (hstorable.keys [.key "nodeId".toList] .null rfl _ (List.mem_singleton_self _))
      (by decide)

end Hapcli.Ai
