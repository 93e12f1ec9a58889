/-
  Subject:   Who is let through to the local X server (`setup_buffer.rs`, `registry.rs`).

  A client announces itself with the fake cookie of a registered entry; what is passed on has the
  local cookie in its place.

  * **`holds_received`** -- what a fresh buffer holds after chunks is what they are together;
  * **`forward_iff`**, **`other_outcomes`** -- whose client is let through, and that nothing else has to
    do with a local cookie;
  * `Gate`, `Gate.step` -- any number of connections at one registry; **`count_forwarded`** -- how often
    an entry has its client let through;
  * **`x11_gate`** -- all of it.
-/
import Hapcli.X11.Setup
import Mathlib.Data.List.Induction
import Mathlib.Data.List.Nodup

namespace Hapcli.X11

open Hapcli.Lib Hapcli.Rust

/-! ## 1. The registry -/

structure X11SpoofedAuth (ι : Type) where
  channelId : ι
  auth : X11AuthMaterial
  singleConnection : Bool
  deriving DecidableEq

namespace X11SpoofedAuth

variable {ι : Type}

/-- The fake cookie is this one. -/
def hasFake (cookie : X11AuthCookie) (entry : X11SpoofedAuth ι) : Bool :=
  entry.auth.fakeCookie == cookie

/-- Protocol and fake cookie are these. -/
def answers (protocol : X11AuthProtocol) (cookie : X11AuthCookie) (entry : X11SpoofedAuth ι) : Bool :=
  entry.auth.protocol == protocol && entry.hasFake cookie

end X11SpoofedAuth

/-- `X11AuthSpoofRegistry`: no two entries have one fake cookie. -/
structure X11AuthSpoofRegistry (ι : Type) where
  entries : List (X11SpoofedAuth ι)
  distinct : (entries.map (·.auth.fakeCookie)).Nodup

namespace X11AuthSpoofRegistry

variable {ι : Type}

def new : X11AuthSpoofRegistry ι := ⟨[], List.nodup_nil⟩

theorem nodup_insert {entries : List (X11SpoofedAuth ι)} (entry : X11SpoofedAuth ι)
    (h : (entries.map (·.auth.fakeCookie)).Nodup) :
    ((entries.eraseP (·.hasFake entry.auth.fakeCookie) ++ [entry]).map
      (·.auth.fakeCookie)).Nodup := by
  have hsub : ((entries.eraseP (·.hasFake entry.auth.fakeCookie)).map
      (·.auth.fakeCookie)).Sublist (entries.map (·.auth.fakeCookie)) :=
    List.eraseP_sublist.map _
  rw [List.map_append, List.map_cons, List.map_nil]
  refine List.nodup_append.mpr
    ⟨h.sublist hsub, List.nodup_cons.mpr ⟨List.not_mem_nil, List.nodup_nil⟩, ?_⟩
  rintro cookie hcookie other hother rfl
  rw [List.mem_singleton.mp hother] at hcookie
  induction entries with
  | nil => exact absurd hcookie List.not_mem_nil
  | cons first entries ih =>
    obtain ⟨hfirst, hrest⟩ := List.nodup_cons.mp h
    by_cases hsame : first.hasFake entry.auth.fakeCookie = true
    · rw [List.eraseP_cons_of_pos hsame] at hcookie
      have hcookie' : first.auth.fakeCookie = entry.auth.fakeCookie := beq_iff_eq.mp hsame
      rw [← hcookie'] at hcookie
      exact hfirst hcookie
    · rw [List.eraseP_cons_of_neg hsame] at hcookie
      rcases List.mem_cons.mp hcookie with heq | hcookie
      · exact hsame (beq_iff_eq.mpr heq.symm)
      · exact ih hrest (List.eraseP_sublist.map _) hcookie

variable (registry : X11AuthSpoofRegistry ι)

/-- `insert`: also gives the entry it replaces. -/
def insert (entry : X11SpoofedAuth ι) : Option (X11SpoofedAuth ι) × X11AuthSpoofRegistry ι :=
  (registry.entries.find? (·.hasFake entry.auth.fakeCookie),
    ⟨registry.entries.eraseP (·.hasFake entry.auth.fakeCookie) ++ [entry],
      nodup_insert entry registry.distinct⟩)

/-- Without the first entry that answers. -/
def without (p : X11SpoofedAuth ι → Bool) : X11AuthSpoofRegistry ι :=
  ⟨registry.entries.eraseP p, registry.distinct.sublist (List.eraseP_sublist.map _)⟩

def resolve (protocol : X11AuthProtocol)
    (fakeCookie : X11AuthCookie) : Option (X11SpoofedAuth ι) × X11AuthSpoofRegistry ι :=
  match registry.entries.find? (·.answers protocol fakeCookie) with
  | none => (none, registry)
  | some entry =>
    if entry.singleConnection then (some entry, registry.without (·.answers protocol fakeCookie))
    else (some entry, registry)

def resolveSetupPacket (packet : List UInt8) :
    X11Result (Option (X11SpoofedAuth ι)) × X11AuthSpoofRegistry ι :=
  match (inspectSetupAuthentication packet).run with
  | none => (Checked.stop, registry)
  | some (.error e) => (throw e, registry)
  | some (.ok setupAuth) =>
    let (entry, registry) := registry.resolve setupAuth.protocol setupAuth.fakeCookie
    (pure entry, registry)

/-- `remove_channel`: also gives what it removes. -/
def removeChannel [DecidableEq ι] (registry : X11AuthSpoofRegistry ι) (channelId : ι) :
    List (X11SpoofedAuth ι) × X11AuthSpoofRegistry ι :=
  (registry.entries.filter (·.channelId = channelId),
    ⟨registry.entries.filter (·.channelId ≠ channelId),
      registry.distinct.sublist (List.filter_sublist.map _)⟩)

end X11AuthSpoofRegistry

/-! ## 2. The buffer and its decisions -/

structure X11SetupRewrite where
  request : X11SetupRequest
  rewrittenSetup : List UInt8
  trailingData : List UInt8
  deriving DecidableEq

inductive X11SetupRejectReason
  | authCookieMismatch
  | unsupportedAuthProtocol
  deriving DecidableEq

structure X11SetupReject where
  request : X11SetupRequest
  reason : X11SetupRejectReason
  failureResponse : List UInt8
  deriving DecidableEq

/-- `X11RegisteredSetupDecision`, with the channel of a `X11RegisteredSetupRewrite`. -/
inductive X11RegisteredSetupDecision (ι : Type)
  | forward (channelId : ι) (rewrite : X11SetupRewrite)
  | reject (reject : X11SetupReject)
  deriving DecidableEq

structure X11SetupBuffer where
  bytes : List UInt8
  maxSetupBytes : Nat
  complete : Bool
  deriving DecidableEq

namespace X11SetupBuffer

def withMaxSetupBytes (maxSetupBytes : Nat) : X11SetupBuffer := ⟨[], maxSetupBytes, false⟩

/-- `push_complete_setup`: the packet with what comes after it, and the buffer afterwards. -/
def pushCompleteSetup (buffer : X11SetupBuffer) (chunk : List UInt8) :
    X11Result (Option (List UInt8 × List UInt8)) × X11SetupBuffer :=
  if buffer.complete then (throw .invalidSetupPacketLength, buffer)
  else
    let bytes := buffer.bytes ++ chunk
    let pushed := { buffer with bytes }
    if buffer.maxSetupBytes < bytes.length then
      (throw (.setupPacketTooLarge buffer.maxSetupBytes), pushed)
    else
      match (setupPacketTotalLen bytes).run with
      | none => (Checked.stop, pushed)
      | some (.error e) => (throw e, pushed)
      | some (.ok none) => (pure none, pushed)
      | some (.ok (some required)) =>
        if bytes.length < required then (pure none, pushed)
        else (pure (some (bytes.take required, bytes.drop required)),
          { buffer with bytes := [], complete := true })

def rejectSetupPacket (setup : List UInt8) (reason : X11SetupRejectReason)
    (failureMessage : String) : X11Result X11SetupReject := do
  let request ← inspectSetupRequest setup
  let failureResponse ← buildAuthFailureResponse request failureMessage.toList
  pure { request, reason, failureResponse }

variable {ι : Type}

/-- What becomes of a complete packet. -/
def decideSetup (resolved : X11Result (Option (X11SpoofedAuth ι))) (setup trailingData : List UInt8) :
    X11Result (Option (X11RegisteredSetupDecision ι)) :=
  match resolved.run with
  | none => Checked.stop
  | some (.ok (some entry)) => do
      let (request, rewrittenSetup) ← rewriteSetupAuthentication setup entry.auth
      pure (some (.forward entry.channelId { request, rewrittenSetup, trailingData }))
  | some (.ok none) => do
      let reject ← rejectSetupPacket setup .authCookieMismatch "X11 forwarding authentication failed"
      pure (some (.reject reject))
  | some (.error (.unsupportedAuthProtocol _)) => do
      let reject ← rejectSetupPacket setup .unsupportedAuthProtocol "Unsupported X11 auth protocol"
      pure (some (.reject reject))
  | some (.error (.invalidAuthCookie _)) => do
      let reject ← rejectSetupPacket setup .authCookieMismatch "X11 forwarding authentication failed"
      pure (some (.reject reject))
  | some (.error e) => throw e

/-- `push_registry_decision`: the decision, the buffer and the registry afterwards. -/
def pushRegistryDecision (buffer : X11SetupBuffer) (chunk : List UInt8)
    (registry : X11AuthSpoofRegistry ι) :
    X11Result (Option (X11RegisteredSetupDecision ι)) × X11SetupBuffer × X11AuthSpoofRegistry ι :=
  let (pushed, buffer) := buffer.pushCompleteSetup chunk
  match pushed.run with
  | none => (Checked.stop, buffer, registry)
  | some (.error e) => (throw e, buffer, registry)
  | some (.ok none) => (pure none, buffer, registry)
  | some (.ok (some (setup, trailingData))) =>
    let (resolved, registry) := registry.resolveSetupPacket setup
    (decideSetup resolved setup trailingData, buffer, registry)

end X11SetupBuffer

/-! ## 3. What has been received -/

/-- Bytes that begin with a whole setup packet. -/
def HasSetup (bytes : List UInt8) : Prop := ∃ p rest, bytes = SetupPacket.bytes p ++ rest

/-- A fresh buffer after chunks; no registry has a part in it (`pushRegistryDecision_buffer`). -/
def received (maxSetupBytes : Nat) (earlier : List (List UInt8)) : X11SetupBuffer :=
  earlier.foldl (fun buffer chunk => (buffer.pushCompleteSetup chunk).2)
    (X11SetupBuffer.withMaxSetupBytes maxSetupBytes)

variable {setup : List UInt8}

variable {buffer : X11SetupBuffer}

variable {chunk : List UInt8}

section Buffer

variable {ι : Type} {bytes more rest : List UInt8}

theorem HasSetup.append (h : HasSetup bytes) (more : List UInt8) : HasSetup (bytes ++ more) := by
  obtain ⟨p, rest, rfl⟩ := h
  exact ⟨p, rest ++ more, List.append_assoc _ _ _⟩

theorem pushCompleteSetup_of_packet {p : SetupPacket} (hopen : buffer.complete = false)
    (hwithin : (buffer.bytes ++ chunk).length ≤ buffer.maxSetupBytes)
    (hbytes : buffer.bytes ++ chunk = p.bytes ++ rest) :
    (buffer.pushCompleteSetup chunk).1.run = some (.ok (some (p.bytes, rest))) ∧
      (buffer.pushCompleteSetup chunk).2 = { buffer with bytes := [], complete := true } := by
  have hlength : ¬ (p.bytes ++ rest).length < p.bytes.length := by
    rw [List.length_append]
    omega
  unfold X11SetupBuffer.pushCompleteSetup
  rw [hopen]
  simp only [Bool.false_eq_true, if_false, if_neg (Nat.not_lt.mpr hwithin)]
  rw [hbytes, setupPacketTotalLen_bytes p rest]
  simp only [if_neg hlength, List.take_left, List.drop_left]
  exact ⟨rfl, trivial⟩

theorem of_pushCompleteSetup
    (h : (buffer.pushCompleteSetup chunk).1.run = some (.ok (some (setup, rest)))) :
    buffer.complete = false ∧ ∃ p : SetupPacket, setup = p.bytes ∧
      buffer.bytes ++ chunk = p.bytes ++ rest := by
  unfold X11SetupBuffer.pushCompleteSetup at h
  split at h
  · cases h
  · next hopen =>
      refine ⟨Bool.eq_false_iff.mpr hopen, ?_⟩
      dsimp only at h
      split at h
      · cases h
      · split at h
        · cases h
        · cases h
        · cases h
        · next required htotal =>
            split at h
            · cases h
            · next hlong =>
                obtain ⟨p, after, hbytes, hlength⟩ := exists_packet htotal (Nat.not_lt.mp hlong)
                rw [hbytes, ← hlength, List.take_left, List.drop_left] at h
                cases h
                exact ⟨p, rfl, hbytes⟩

theorem pushCompleteSetup_of_not (hopen : buffer.complete = false)
    (h : ¬ HasSetup (buffer.bytes ++ chunk)) :
    (buffer.pushCompleteSetup chunk).2 = { buffer with bytes := buffer.bytes ++ chunk } := by
  unfold X11SetupBuffer.pushCompleteSetup
  rw [hopen]
  simp only [Bool.false_eq_true, if_false]
  split
  · rfl
  · split
    · rfl
    · rfl
    · rfl
    · next required htotal =>
        split
        · rfl
        · next hlong =>
            obtain ⟨p, after, hbytes, -⟩ := exists_packet htotal (Nat.not_lt.mp hlong)
            exact absurd ⟨p, after, hbytes⟩ h

theorem pushCompleteSetup_of_complete (h : buffer.complete = true) :
    buffer.pushCompleteSetup chunk = (throw .invalidSetupPacketLength, buffer) := by
  unfold X11SetupBuffer.pushCompleteSetup
  rw [if_pos h]

end Buffer

/-- A buffer that has received these bytes, cut in any way. -/
structure Holds (buffer : X11SetupBuffer) (maxSetupBytes : Nat) (bytes : List UInt8) : Prop where
  max : buffer.maxSetupBytes = maxSetupBytes
  complete : buffer.complete = true ↔ HasSetup bytes
  bytes : ¬ HasSetup bytes → buffer.bytes = bytes

variable {maxSetupBytes : Nat}

section Received

variable {ι : Type} {bytes : List UInt8}

theorem not_hasSetup_nil : ¬ HasSetup [] := by
  intro h
  obtain ⟨p, rest, h⟩ := h
  have hlength := congrArg List.length h
  rw [List.length_append, bytes_length, List.length_nil] at hlength
  omega

theorem Holds.push (h : Holds buffer maxSetupBytes bytes)
    (hwithin : (bytes ++ chunk).length ≤ maxSetupBytes) :
    Holds (buffer.pushCompleteSetup chunk).2 maxSetupBytes (bytes ++ chunk) := by
  by_cases hdone : HasSetup bytes
  · rw [pushCompleteSetup_of_complete (h.complete.mpr hdone)]
    have hmore := hdone.append chunk
    exact ⟨h.max, iff_of_true (h.complete.mpr hdone) hmore, fun hno => absurd hmore hno⟩
  · have hopen : buffer.complete = false := Bool.eq_false_iff.mpr fun hc => hdone (h.complete.mp hc)
    have hheld := h.bytes hdone
    rw [← hheld] at hwithin ⊢
    by_cases hnow : HasSetup (buffer.bytes ++ chunk)
    · obtain ⟨p, rest, hpacket⟩ := id hnow
      rw [(pushCompleteSetup_of_packet hopen (h.max ▸ hwithin) hpacket).2]
      exact ⟨h.max, iff_of_true rfl hnow, fun hno => absurd hnow hno⟩
    · rw [pushCompleteSetup_of_not hopen hnow]
      exact ⟨h.max, iff_of_false (Bool.eq_false_iff.mp hopen) hnow, fun _ => rfl⟩

theorem holds_received (earlier : List (List UInt8))
    (hwithin : earlier.flatten.length ≤ maxSetupBytes) :
    Holds (received maxSetupBytes earlier) maxSetupBytes earlier.flatten := by
  induction earlier using List.reverseRecOn with
  | nil => exact ⟨rfl, iff_of_false Bool.false_ne_true not_hasSetup_nil, fun _ => rfl⟩
  | append_singleton earlier chunk ih =>
    have hflatten : (earlier ++ [chunk]).flatten = earlier.flatten ++ chunk := by
      rw [List.flatten_append, List.flatten_singleton]
    have hbefore : earlier.flatten.length ≤ maxSetupBytes := by
      rw [hflatten, List.length_append] at hwithin
      omega
    have hreceived : received maxSetupBytes (earlier ++ [chunk]) =
        ((received maxSetupBytes earlier).pushCompleteSetup chunk).2 := by
      unfold received
      rw [List.foldl_append]
      rfl
    rw [hreceived, hflatten]
    rw [hflatten] at hwithin
    exact (ih hbefore).push hwithin

end Received

/-! ## 4. A packet at the registry -/

/-- The packet is that of a client of this entry. -/
structure Admits {ι : Type} (registry : X11AuthSpoofRegistry ι) (entry : X11SpoofedAuth ι)
    (p : SetupPacket) : Prop where
  registered : entry ∈ registry.entries
  name : p.name = asBytes X11AuthProtocol.mitMagicCookie1.sshName
  cookie : p.data = entry.auth.fakeCookie.1

variable {reject : X11SetupReject}

variable {rewrite : X11SetupRewrite}

section Packet

variable {ι : Type} {registry : X11AuthSpoofRegistry ι} {entry : X11SpoofedAuth ι}
  {cookie : X11AuthCookie} {p : SetupPacket} {rest : List UInt8}

theorem answers_iff {protocol : X11AuthProtocol} :
    entry.answers protocol cookie = true ↔ entry.auth.fakeCookie = cookie := by
  cases hprotocol : entry.auth.protocol
  simp only [X11SpoofedAuth.answers, X11SpoofedAuth.hasFake, hprotocol, beq_self_eq_true,
    Bool.true_and, beq_iff_eq]

theorem find?_answers {protocol : X11AuthProtocol} :
    registry.entries.find? (·.answers protocol cookie) = some entry ↔
      entry ∈ registry.entries ∧ entry.auth.fakeCookie = cookie := by
  constructor
  · intro hfound
    exact ⟨List.mem_of_find?_eq_some hfound, (answers_iff).mp (List.find?_some hfound)⟩
  · intro ⟨hmem, hfake⟩
    have hsome : (registry.entries.find? (·.answers protocol cookie)).isSome = true :=
      List.find?_isSome.mpr ⟨entry, hmem, (answers_iff).mpr hfake⟩
    obtain ⟨other, hother⟩ := Option.isSome_iff_exists.mp hsome
    have hsame : other.auth.fakeCookie = entry.auth.fakeCookie :=
      ((answers_iff).mp (List.find?_some hother)).trans hfake.symm
    have heq := List.inj_on_of_nodup_map registry.distinct (List.mem_of_find?_eq_some hother) hmem
      hsame
    rw [hother, heq]

/-- What a resolved cookie says about the registry before and after. -/
theorem resolve_eq (registry : X11AuthSpoofRegistry ι) (protocol : X11AuthProtocol)
    (cookie : X11AuthCookie) :
    (registry.resolve protocol cookie).1 = registry.entries.find? (·.answers protocol cookie) := by
  unfold X11AuthSpoofRegistry.resolve
  split
  · next h => rw [h]
  · next h =>
      rw [h]
      split <;> rfl

theorem inspectSetupAuthentication_bytes (p : SetupPacket) :
    (inspectSetupAuthentication p.bytes).run =
      (X11AuthProtocol.parse (fromUtf8Lossy p.name) >>= fun protocol =>
        X11AuthCookie.fromBytes p.data >>= fun fakeCookie =>
          (pure { request := p.request, protocol, fakeCookie } :
            X11Result X11SetupAuthentication)).run := by
  unfold inspectSetupAuthentication
  rw [Checked.bind_of_ok (parseSetupPacket_bytes p)]
  rw [ExceptT.run_bind, ExceptT.run_bind]
  congr 1
  funext parsed
  cases parsed with
  | error e => rfl
  | ok protocol => exact Checked.bind_of_ok (Checked.lift_of (slice_data p))

theorem resolveSetupPacket_named
    (hname : p.name = asBytes X11AuthProtocol.mitMagicCookie1.sshName) (hdata : p.data = cookie.1) :
    registry.resolveSetupPacket p.bytes =
      (pure (registry.resolve .mitMagicCookie1 cookie).1,
        (registry.resolve .mitMagicCookie1 cookie).2) := by
  have hparse : X11AuthProtocol.parse X11AuthProtocol.mitMagicCookie1.sshName =
      pure .mitMagicCookie1 := by
    unfold X11AuthProtocol.parse
    rw [if_pos (by decide)]
  have hcookie : X11AuthCookie.fromBytes cookie.1 = pure cookie := by
    unfold X11AuthCookie.fromBytes
    rw [dif_neg cookie.2]
  have hinspect : (inspectSetupAuthentication p.bytes).run =
      some (.ok { request := p.request, protocol := .mitMagicCookie1, fakeCookie := cookie }) := by
    rw [inspectSetupAuthentication_bytes, hname, fromUtf8Lossy_asBytes, hparse, hdata, hcookie]
    rfl
  unfold X11AuthSpoofRegistry.resolveSetupPacket
  rw [hinspect]

/-- An entry that is found has the packet's data as its fake cookie. -/
theorem of_resolveSetupPacket
    (h : (registry.resolveSetupPacket p.bytes).1.run = some (.ok (some entry))) :
    entry ∈ registry.entries ∧ p.data = entry.auth.fakeCookie.1 := by
  unfold X11AuthSpoofRegistry.resolveSetupPacket at h
  split at h
  · cases h
  · cases h
  · next setupAuth hinspect =>
      rw [inspectSetupAuthentication_bytes] at hinspect
      obtain ⟨protocol, -, hinspect⟩ := Checked.of_bind_ok hinspect
      obtain ⟨fakeCookie, hcookie, hinspect⟩ := Checked.of_bind_ok hinspect
      cases hinspect
      have hfound : registry.entries.find? (·.answers protocol fakeCookie) = some entry := by
        rw [← resolve_eq]
        exact Except.ok.inj (Option.some.inj h)
      obtain ⟨hmem, hfake⟩ := (find?_answers).mp hfound
      unfold X11AuthCookie.fromBytes at hcookie
      split at hcookie
      · cases hcookie
      · cases hcookie
        exact ⟨hmem, congrArg Subtype.val hfake.symm⟩

/-- What becomes of a packet whose data is the fake cookie of the entry. -/
theorem rewriteSetupAuthentication_bytes (hdata : p.data = entry.auth.fakeCookie.1)
    (hlocal : entry.auth.localCookie.1.length < 65536) :
    (rewriteSetupAuthentication p.bytes entry.auth).run =
      if p.name = asBytes X11AuthProtocol.mitMagicCookie1.sshName then
        some (.ok (p.request, (p.withData entry.auth.localCookie.1 hlocal).bytes))
      else some (.error (.unsupportedAuthProtocol (fromUtf8Lossy p.name))) := by
  have hsame : (p.parsed.authProtocolBytes = asBytes entry.auth.protocol.sshName) =
      (p.name = asBytes X11AuthProtocol.mitMagicCookie1.sshName) := rfl
  unfold rewriteSetupAuthentication
  rw [Checked.bind_of_ok (parseSetupPacket_bytes p)]
  split
  · next hname =>
      rw [Checked.bind_of_ok (Checked.ensure_of (hsame.mpr hname)),
        Checked.bind_of_ok (Checked.lift_of (slice_data p)),
        Checked.bind_of_ok (Checked.ensure_of hdata),
        Checked.bind_of_ok (rewriteAuthData_bytes p hlocal)]
      rfl
  · next hname =>
      have hrefused : (Checked.ensure (p.parsed.authProtocolBytes = asBytes entry.auth.protocol.sshName)
          (X11ForwardingError.unsupportedAuthProtocol (fromUtf8Lossy p.parsed.authProtocolBytes))).run =
            some (.error (.unsupportedAuthProtocol (fromUtf8Lossy p.name))) := by
        unfold Checked.ensure
        rw [if_neg (fun h => hname (hsame.mp h))]
        rfl
      rw [ExceptT.run_bind, hrefused]
      rfl

theorem decideSetup_entry (rest : List UInt8) (hdata : p.data = entry.auth.fakeCookie.1)
    (hlocal : entry.auth.localCookie.1.length < 65536) :
    (X11SetupBuffer.decideSetup (pure (some entry)) p.bytes rest).run =
      if p.name = asBytes X11AuthProtocol.mitMagicCookie1.sshName then
        some (.ok (some (.forward entry.channelId
          { request := p.request
            rewrittenSetup := (p.withData entry.auth.localCookie.1 hlocal).bytes
            trailingData := rest })))
      else some (.error (.unsupportedAuthProtocol (fromUtf8Lossy p.name))) := by
  have hrewrite := rewriteSetupAuthentication_bytes (p := p) hdata hlocal
  show (rewriteSetupAuthentication p.bytes entry.auth >>= _).run = _
  split at hrewrite
  · next hname =>
      rw [Checked.bind_of_ok hrewrite, if_pos hname]
      rfl
  · next hname =>
      rw [ExceptT.run_bind, hrewrite, if_neg hname]
      rfl

variable {resolved : X11Result (Option (X11SpoofedAuth ι))}

theorem of_decideSetup_forward {channelId : ι}
    (h : (X11SetupBuffer.decideSetup resolved setup rest).run =
      some (.ok (some (.forward channelId rewrite)))) : ∃ entry, resolved = pure (some entry) := by
  unfold X11SetupBuffer.decideSetup at h
  split at h
  · cases h
  · next entry hrun => exact ⟨entry, hrun⟩
  · obtain ⟨reject, -, h⟩ := Checked.of_bind_ok h
    cases h
  · obtain ⟨reject, -, h⟩ := Checked.of_bind_ok h
    cases h
  · obtain ⟨reject, -, h⟩ := Checked.of_bind_ok h
    cases h
  · cases h

theorem of_decideSetup_reject
    (h : (X11SetupBuffer.decideSetup resolved setup rest).run = some (.ok (some (.reject reject)))) :
    ∀ entry, resolved ≠ pure (some entry) := by
  intro entry hfound
  rw [hfound] at h
  obtain ⟨rewritten, -, h⟩ := Checked.of_bind_ok h
  cases h

theorem resolveSetupPacket_unchanged
    (h : ∀ entry, (registry.resolveSetupPacket setup).1 ≠ pure (some entry)) :
    (registry.resolveSetupPacket setup).2 = registry := by
  unfold X11AuthSpoofRegistry.resolveSetupPacket at h ⊢
  split
  · rfl
  · rfl
  · next setupAuth hinspect =>
      rw [hinspect] at h
      have hnone : registry.entries.find?
          (·.answers setupAuth.protocol setupAuth.fakeCookie) = none := by
        rw [← resolve_eq]
        cases hfound : (registry.resolve setupAuth.protocol setupAuth.fakeCookie).1 with
        | none => rfl
        | some entry => exact absurd (congrArg pure hfound) (h entry)
      unfold X11AuthSpoofRegistry.resolve
      rw [hnone]

end Packet

/-! ## 5. One chunk at the gate -/

section Chunk

variable {ι : Type} {registry : X11AuthSpoofRegistry ι} {bytes : List UInt8}

/-- A decision that is made is about a packet that this chunk completes. -/
theorem of_pushRegistryDecision {decision : X11RegisteredSetupDecision ι}
    (h : (buffer.pushRegistryDecision chunk registry).1.run = some (.ok (some decision))) :
    buffer.complete = false ∧ ∃ (p : SetupPacket) (rest : List UInt8),
      buffer.bytes ++ chunk = p.bytes ++ rest ∧
      (buffer.pushCompleteSetup chunk).1.run = some (.ok (some (p.bytes, rest))) ∧
      (X11SetupBuffer.decideSetup (registry.resolveSetupPacket p.bytes).1 p.bytes rest).run =
        some (.ok (some decision)) ∧
      (buffer.pushRegistryDecision chunk registry).2.2 = (registry.resolveSetupPacket p.bytes).2 := by
  unfold X11SetupBuffer.pushRegistryDecision at h ⊢
  dsimp only at h ⊢
  split at h
  · cases h
  · cases h
  · cases h
  · next setup rest hpushed =>
      obtain ⟨hopen, p, rfl, hbytes⟩ := of_pushCompleteSetup hpushed
      exact ⟨hopen, p, rest, hbytes, hpushed, h, rfl⟩

theorem pushRegistryDecision_of_packet {p : SetupPacket} {rest : List UInt8}
    (hopen : buffer.complete = false)
    (hwithin : (buffer.bytes ++ chunk).length ≤ buffer.maxSetupBytes)
    (hbytes : buffer.bytes ++ chunk = p.bytes ++ rest) :
    (buffer.pushRegistryDecision chunk registry).1 =
      X11SetupBuffer.decideSetup (registry.resolveSetupPacket p.bytes).1 p.bytes rest := by
  unfold X11SetupBuffer.pushRegistryDecision
  dsimp only
  rw [(pushCompleteSetup_of_packet hopen hwithin hbytes).1]

theorem forward_iff (hlocal : ∀ entry ∈ registry.entries, entry.auth.localCookie.1.length < 65536)
    (h : Holds buffer maxSetupBytes bytes) (hwithin : (bytes ++ chunk).length ≤ maxSetupBytes)
    (channelId : ι) (rewrite : X11SetupRewrite) :
    (buffer.pushRegistryDecision chunk registry).1.run =
        some (.ok (some (.forward channelId rewrite))) ↔
      ¬ HasSetup bytes ∧ ∃ (p : SetupPacket) (entry : X11SpoofedAuth ι)
        (hlong : entry.auth.localCookie.1.length < 65536),
        bytes ++ chunk = p.bytes ++ rewrite.trailingData ∧ Admits registry entry p ∧
        channelId = entry.channelId ∧ rewrite.request = p.request ∧
        rewrite.rewrittenSetup = (p.withData entry.auth.localCookie.1 hlong).bytes := by
  constructor
  · intro hforward
    obtain ⟨hopen, p, rest, hbytes, -, hdecide, -⟩ := of_pushRegistryDecision hforward
    have hno : ¬ HasSetup bytes := fun hdone =>
      absurd (h.complete.mpr hdone) (Bool.eq_false_iff.mp hopen)
    obtain ⟨entry, hfound⟩ := of_decideSetup_forward hdecide
    obtain ⟨hmem, hdata⟩ := of_resolveSetupPacket (congrArg ExceptT.run hfound)
    rw [hfound, decideSetup_entry _ hdata (hlocal entry hmem)] at hdecide
    split at hdecide
    · next hname =>
        cases hdecide
        rw [h.bytes hno] at hbytes
        exact ⟨hno, p, entry, hlocal entry hmem, hbytes, ⟨hmem, hname, hdata⟩, rfl, rfl, rfl⟩
    · cases hdecide
  · rintro ⟨hno, p, entry, hlong, hbytes, hadmits, hchannel, hrequest, hsetup⟩
    have hopen : buffer.complete = false := Bool.eq_false_iff.mpr fun hc => hno (h.complete.mp hc)
    rw [← h.bytes hno, ← h.max] at hwithin
    rw [← h.bytes hno] at hbytes
    have hfound : (registry.resolve .mitMagicCookie1 entry.auth.fakeCookie).1 = some entry := by
      rw [resolve_eq]
      exact (find?_answers).mpr ⟨hadmits.registered, rfl⟩
    rw [pushRegistryDecision_of_packet hopen hwithin hbytes,
      resolveSetupPacket_named hadmits.name hadmits.cookie, hfound,
      decideSetup_entry _ hadmits.cookie hlong, if_pos hadmits.name, hchannel, ← hrequest, ← hsetup]

theorem reject_unchanged
    (h : (buffer.pushRegistryDecision chunk registry).1.run = some (.ok (some (.reject reject)))) :
    (buffer.pushRegistryDecision chunk registry).2.2 = registry := by
  obtain ⟨-, p, rest, -, -, hdecide, hregistry⟩ := of_pushRegistryDecision h
  rw [hregistry]
  exact resolveSetupPacket_unchanged (of_decideSetup_reject hdecide)

/-- An entry but for its local cookie. -/
def X11SpoofedAuth.withoutLocal (entry : X11SpoofedAuth ι) :
    ι × X11AuthProtocol × X11AuthCookie × Bool :=
  (entry.channelId, entry.auth.protocol, entry.auth.fakeCookie, entry.singleConnection)

/-- Registries that differ in their local cookies only. -/
def SameButLocal (registry registry' : X11AuthSpoofRegistry ι) : Prop :=
  registry.entries.map (·.withoutLocal) = registry'.entries.map (·.withoutLocal)

variable {registry' : X11AuthSpoofRegistry ι}

theorem SameButLocal.resolve
    (h : SameButLocal registry registry') (protocol : X11AuthProtocol) (cookie : X11AuthCookie) :
    (registry.resolve protocol cookie).1.map (·.withoutLocal) =
      (registry'.resolve protocol cookie).1.map (·.withoutLocal) := by
  let asked : ι × X11AuthProtocol × X11AuthCookie × Bool → Bool :=
    fun fields => fields.2.1 == protocol && fields.2.2.1 == cookie
  have hasked : ∀ registry : X11AuthSpoofRegistry ι,
      (registry.entries.map (·.withoutLocal)).find? asked =
        (registry.resolve protocol cookie).1.map (·.withoutLocal) := by
    intro registry
    rw [resolve_eq, List.find?_map]
    rfl
  rw [← hasked, ← hasked, h]

/-- What is not a client let through has nothing of a local cookie: it is the same with others. -/
theorem other_outcomes (h : SameButLocal registry registry')
    (hlocal : ∀ entry ∈ registry.entries, entry.auth.localCookie.1.length < 65536)
    (hlocal' : ∀ entry ∈ registry'.entries, entry.auth.localCookie.1.length < 65536)
    (hno : ∀ channelId rewrite, (buffer.pushRegistryDecision chunk registry).1.run ≠
      some (.ok (some (.forward channelId rewrite)))) :
    (buffer.pushRegistryDecision chunk registry').1 =
      (buffer.pushRegistryDecision chunk registry).1 := by
  unfold X11SetupBuffer.pushRegistryDecision at hno ⊢
  dsimp only at hno ⊢
  split
  · rfl
  · rfl
  · rfl
  · next setup rest hpushed =>
      rw [hpushed] at hno
      dsimp only at hno
      obtain ⟨-, p, rfl, -⟩ := of_pushCompleteSetup hpushed
      cases hinspect : (inspectSetupAuthentication p.bytes).run with
      | none =>
        simp only [X11AuthSpoofRegistry.resolveSetupPacket, hinspect]
      | some inspected =>
        cases inspected with
        | error e => simp only [X11AuthSpoofRegistry.resolveSetupPacket, hinspect]
        | ok setupAuth =>
          have hresolved : ∀ registry : X11AuthSpoofRegistry ι,
              (registry.resolveSetupPacket p.bytes).1 =
                pure (registry.resolve setupAuth.protocol setupAuth.fakeCookie).1 := by
            intro registry
            simp only [X11AuthSpoofRegistry.resolveSetupPacket, hinspect]
          have hsame := h.resolve setupAuth.protocol setupAuth.fakeCookie
          cases hfound : (registry.resolve setupAuth.protocol setupAuth.fakeCookie).1 with
          | none =>
            rw [hfound] at hsame
            rw [hresolved, hresolved, hfound, Option.map_eq_none_iff.mp hsame.symm]
          | some entry =>
            rw [hfound] at hsame
            obtain ⟨entry', hfound', -⟩ := Option.map_eq_some_iff.mp hsame.symm
            have hentry : (registry.resolveSetupPacket p.bytes).1 = pure (some entry) := by
              rw [hresolved, hfound]
            have hentry' : (registry'.resolveSetupPacket p.bytes).1 = pure (some entry') := by
              rw [hresolved, hfound']
            obtain ⟨hmem, hdata⟩ := of_resolveSetupPacket (congrArg ExceptT.run hentry)
            obtain ⟨hmem', hdata'⟩ := of_resolveSetupPacket (congrArg ExceptT.run hentry')
            have hdecide := decideSetup_entry rest hdata (hlocal entry hmem)
            have hdecide' := decideSetup_entry rest hdata' (hlocal' entry' hmem')
            rw [hentry] at hno
            rw [hentry, hentry']
            by_cases hname : p.name = asBytes X11AuthProtocol.mitMagicCookie1.sshName
            · rw [if_pos hname] at hdecide
              exact absurd hdecide (hno _ _)
            · rw [if_neg hname] at hdecide hdecide'
              exact hdecide'.trans hdecide.symm

end Chunk

/-! ## 6. Many connections -/

/-- The entry whose client a chunk lets through. -/
def forwardedEntry {ι : Type} (buffer : X11SetupBuffer) (chunk : List UInt8)
    (registry : X11AuthSpoofRegistry ι) : Option (X11SpoofedAuth ι) :=
  match (buffer.pushRegistryDecision chunk registry).1.run,
    (buffer.pushCompleteSetup chunk).1.run with
  | some (.ok (some (.forward _ _))), some (.ok (some (setup, _))) =>
    match (registry.resolveSetupPacket setup).1.run with
    | some (.ok found) => found
    | _ => none
  | _, _ => none

/-- A registry and the buffers of the connections so far. -/
structure Gate (ι : Type) where
  registry : X11AuthSpoofRegistry ι
  buffers : List X11SetupBuffer

inductive GateCall (ι : Type)
  | connect (maxSetupBytes : Nat)
  | push (connection : Nat) (chunk : List UInt8)
  | insert (entry : X11SpoofedAuth ι)
  | removeChannel (channelId : ι)

namespace GateCall

/-- The entry that a call registers. -/
def registered {ι : Type} : GateCall ι → List (X11SpoofedAuth ι)
  | .insert entry => [entry]
  | _ => []

end GateCall

namespace Gate

variable {ι : Type} [DecidableEq ι]

/-- One call: the entry whose client it lets through, and the gate afterwards. -/
def step (gate : Gate ι) : GateCall ι → Option (X11SpoofedAuth ι) × Gate ι
  | .connect maxSetupBytes =>
    (none, { gate with buffers := gate.buffers ++ [.withMaxSetupBytes maxSetupBytes] })
  | .push connection chunk =>
    match gate.buffers[connection]? with
    | none => (none, gate)
    | some buffer =>
      let pushed := buffer.pushRegistryDecision chunk gate.registry
      (forwardedEntry buffer chunk gate.registry,
        { registry := pushed.2.2, buffers := gate.buffers.set connection pushed.2.1 })
  | .insert entry => (none, { gate with registry := (gate.registry.insert entry).2 })
  | .removeChannel channelId =>
    (none, { gate with registry := (gate.registry.removeChannel channelId).2 })

/-- The entries whose clients the calls let through. -/
def forwarded (gate : Gate ι) : List (GateCall ι) → List (X11SpoofedAuth ι)
  | [] => []
  | call :: calls => (gate.step call).1.toList ++ (gate.step call).2.forwarded calls

end Gate

section Runs

variable {ι : Type} {registry : X11AuthSpoofRegistry ι} {entry : X11SpoofedAuth ι}

theorem exists_forwardedEntry {channelId : ι}
    (h : (buffer.pushRegistryDecision chunk registry).1.run =
      some (.ok (some (.forward channelId rewrite)))) :
    ∃ entry ∈ registry.entries,
      forwardedEntry buffer chunk registry = some entry ∧ entry.channelId = channelId := by
  obtain ⟨-, p, rest, -, hpushed, hdecide, -⟩ := of_pushRegistryDecision h
  obtain ⟨entry, hfound⟩ := of_decideSetup_forward hdecide
  have hchannel : entry.channelId = channelId := by
    rw [hfound] at hdecide
    obtain ⟨rewritten, -, hdecide⟩ := Checked.of_bind_ok hdecide
    cases hdecide
    rfl
  refine ⟨entry, (of_resolveSetupPacket (congrArg ExceptT.run hfound)).1, ?_, hchannel⟩
  unfold forwardedEntry
  rw [h, hpushed]
  dsimp only
  rw [hfound]
  rfl

theorem of_forwardedEntry (h : forwardedEntry buffer chunk registry = some entry) :
    ∃ p : SetupPacket, (registry.resolveSetupPacket p.bytes).1 = pure (some entry) ∧
      (buffer.pushRegistryDecision chunk registry).2.2 =
        (registry.resolveSetupPacket p.bytes).2 := by
  unfold forwardedEntry at h
  split at h
  · next channelId rewrite setup rest hforward hpushed =>
      obtain ⟨-, p, rest', -, hpacket, -, hregistry⟩ := of_pushRegistryDecision hforward
      rw [hpacket] at hpushed
      cases hpushed
      refine ⟨p, ?_, hregistry⟩
      split at h
      · next found hfound =>
          subst h
          exact hfound
      · cases h
  · cases h

theorem resolveSetupPacket_sublist (registry : X11AuthSpoofRegistry ι) (setup : List UInt8) :
    (registry.resolveSetupPacket setup).2.entries.Sublist registry.entries := by
  unfold X11AuthSpoofRegistry.resolveSetupPacket
  split
  · exact List.Sublist.refl _
  · exact List.Sublist.refl _
  · unfold X11AuthSpoofRegistry.resolve
    dsimp only
    split
    · exact List.Sublist.refl _
    · split
      · exact List.eraseP_sublist
      · exact List.Sublist.refl _

theorem pushRegistryDecision_sublist (buffer : X11SetupBuffer) (chunk : List UInt8)
    (registry : X11AuthSpoofRegistry ι) :
    (buffer.pushRegistryDecision chunk registry).2.2.entries.Sublist registry.entries := by
  unfold X11SetupBuffer.pushRegistryDecision
  dsimp only
  split
  · exact List.Sublist.refl _
  · exact List.Sublist.refl _
  · exact List.Sublist.refl _
  · exact resolveSetupPacket_sublist registry _

variable [DecidableEq ι]

theorem count_resolveSetupPacket (hsingle : entry.singleConnection = true)
    (h : (registry.resolveSetupPacket setup).1 = pure (some entry)) :
    (registry.resolveSetupPacket setup).2.entries.count entry + 1 =
      registry.entries.count entry := by
  unfold X11AuthSpoofRegistry.resolveSetupPacket at h ⊢
  split at h
  · cases h
  · cases h
  · next setupAuth hinspect =>
      have hresolved : (registry.resolve setupAuth.protocol setupAuth.fakeCookie).1 = some entry :=
        Except.ok.inj (Option.some.inj (congrArg ExceptT.run h))
      have hfound := (resolve_eq registry _ _).symm.trans hresolved
      have hgone : (registry.resolve setupAuth.protocol setupAuth.fakeCookie).2 =
          registry.without (·.answers setupAuth.protocol setupAuth.fakeCookie) := by
        unfold X11AuthSpoofRegistry.resolve
        rw [hfound]
        simp only [hsingle, if_true]
      rw [hgone]
      obtain ⟨hanswers, front, back, hsplit, hfront⟩ := List.find?_eq_some_iff_append.mp hfound
      have herase : registry.entries.eraseP (·.answers setupAuth.protocol setupAuth.fakeCookie) =
          front ++ back := by
        rw [hsplit, List.eraseP_append_right _ (fun other hother => by
          simpa only [Bool.not_eq_true', Bool.not_eq_true] using hfront other hother),
          List.eraseP_cons_of_pos hanswers]
      show (registry.entries.eraseP _).count entry + 1 = _
      rw [herase, hsplit, List.count_append, List.count_append, List.count_cons_self, Nat.add_assoc]

theorem count_step (gate : Gate ι) (call : GateCall ι) (hsingle : entry.singleConnection = true) :
    (gate.step call).1.toList.count entry + (gate.step call).2.registry.entries.count entry ≤
      gate.registry.entries.count entry + call.registered.count entry := by
  cases call with
  | connect maxSetupBytes =>
    simp only [Gate.step, GateCall.registered, Option.toList_none, List.count_nil]
    omega
  | insert other =>
    have hsub : (gate.registry.entries.eraseP (·.hasFake other.auth.fakeCookie)).count entry ≤
        gate.registry.entries.count entry := List.eraseP_sublist.count_le _
    simp only [Gate.step, GateCall.registered, X11AuthSpoofRegistry.insert, Option.toList_none,
      List.count_nil, List.count_append]
    omega
  | removeChannel channelId =>
    have hsub : (gate.registry.entries.filter (·.channelId ≠ channelId)).count entry ≤
        gate.registry.entries.count entry := List.filter_sublist.count_le _
    simp only [Gate.step, GateCall.registered, X11AuthSpoofRegistry.removeChannel,
      Option.toList_none, List.count_nil]
    omega
  | push connection chunk =>
    simp only [Gate.step, GateCall.registered, List.count_nil]
    split
    · simp only [Option.toList_none, List.count_nil]
      omega
    · next buffer hbuffer =>
        have hsub := (pushRegistryDecision_sublist buffer chunk gate.registry).count_le entry
        cases hforwarded : forwardedEntry buffer chunk gate.registry with
        | none =>
          simp only [Option.toList_none, List.count_nil]
          omega
        | some other =>
          by_cases hsame : other = entry
          · subst hsame
            obtain ⟨p, hfound, hregistry⟩ := of_forwardedEntry hforwarded
            have hcount := count_resolveSetupPacket hsingle hfound
            simp only [hregistry, Option.toList_some, List.count_singleton_self]
            omega
          · simp only [Option.toList_some, List.count_singleton, beq_iff_eq, if_neg hsame]
            omega

/-- Run: an entry for one connection has no more clients let through than it was registered
    times. -/
theorem count_forwarded (gate : Gate ι) (calls : List (GateCall ι))
    (hsingle : entry.singleConnection = true) :
    (gate.forwarded calls).count entry ≤
      gate.registry.entries.count entry + (calls.flatMap (·.registered)).count entry := by
  induction calls generalizing gate with
  | nil => exact Nat.zero_le _
  | cons call calls ih =>
    have hstep := count_step gate call hsingle
    have hrun := ih (gate.step call).2
    simp only [Gate.forwarded, List.flatMap_cons, List.count_append]
    omega

end Runs

/-- **The gate.** Whose client is let through, and with what; what any other outcome tells; and how
    often an entry has its client let through. -/
theorem x11_gate {ι : Type} [DecidableEq ι] (registry : X11AuthSpoofRegistry ι)
    (hlocal : ∀ entry ∈ registry.entries, entry.auth.localCookie.1.length < 65536)
    (maxSetupBytes : Nat) (earlier : List (List UInt8)) (chunk : List UInt8)
    (hwithin : (earlier.flatten ++ chunk).length ≤ maxSetupBytes) :
    (∀ channelId rewrite,
      ((received maxSetupBytes earlier).pushRegistryDecision chunk registry).1.run =
          some (.ok (some (.forward channelId rewrite))) ↔
        ¬ HasSetup earlier.flatten ∧ ∃ (p : SetupPacket) (entry : X11SpoofedAuth ι)
          (hlong : entry.auth.localCookie.1.length < 65536),
          earlier.flatten ++ chunk = p.bytes ++ rewrite.trailingData ∧ Admits registry entry p ∧
          channelId = entry.channelId ∧ rewrite.request = p.request ∧
          rewrite.rewrittenSetup = (p.withData entry.auth.localCookie.1 hlong).bytes) ∧
    (∀ registry', SameButLocal registry registry' →
      (∀ entry ∈ registry'.entries, entry.auth.localCookie.1.length < 65536) →
      (∀ channelId rewrite,
        ((received maxSetupBytes earlier).pushRegistryDecision chunk registry).1.run ≠
          some (.ok (some (.forward channelId rewrite)))) →
      ((received maxSetupBytes earlier).pushRegistryDecision chunk registry').1 =
        ((received maxSetupBytes earlier).pushRegistryDecision chunk registry).1) ∧
    (∀ reject, ((received maxSetupBytes earlier).pushRegistryDecision chunk registry).1.run =
        some (.ok (some (.reject reject))) →
      ((received maxSetupBytes earlier).pushRegistryDecision chunk registry).2.2 = registry) ∧
    (∀ channelId rewrite,
      ((received maxSetupBytes earlier).pushRegistryDecision chunk registry).1.run =
          some (.ok (some (.forward channelId rewrite))) →
      ∃ entry ∈ registry.entries,
        forwardedEntry (received maxSetupBytes earlier) chunk registry = some entry ∧
          entry.channelId = channelId) ∧
    ∀ (buffers : List X11SetupBuffer) (calls : List (GateCall ι)) (entry : X11SpoofedAuth ι),
      entry.singleConnection = true →
      ((Gate.mk registry buffers).forwarded calls).count entry ≤
        registry.entries.count entry + (calls.flatMap (·.registered)).count entry := by
  have hbefore : earlier.flatten.length ≤ maxSetupBytes := by
    rw [List.length_append] at hwithin
    omega
  have hholds := holds_received earlier hbefore
  refine ⟨fun channelId rewrite => forward_iff hlocal hholds hwithin channelId rewrite, ?_, ?_, ?_, ?_⟩
  · intro registry' hsame hlocal' hno
    exact other_outcomes hsame hlocal hlocal' hno
  · intro reject hreject
    exact reject_unchanged hreject
  · intro channelId rewrite hforward
    exact exists_forwardedEntry hforward
  · intro buffers calls entry hsingle
    exact count_forwarded (Gate.mk registry buffers) calls hsingle

/-- A registered entry, for one connection. -/
def gateEntry : X11SpoofedAuth Nat where
  channelId := 7
  auth :=
    { protocol := .mitMagicCookie1, fakeCookie := ⟨[1, 2, 3, 4], List.cons_ne_nil _ _⟩
      localCookie := ⟨[9, 8, 7, 6, 5], List.cons_ne_nil _ _⟩ }
  singleConnection := true

def gateRegistry : X11AuthSpoofRegistry Nat :=
  ⟨[gateEntry], List.nodup_cons.mpr ⟨List.not_mem_nil, List.nodup_nil⟩⟩

/-- The packet of its client. -/
def gatePacket : SetupPacket where
  order := .littleEndian
  unused := 0
  protocolMajor := 11
  protocolMinor := 0
  reserved := [0, 0]
  name := asBytes "MIT-MAGIC-COOKIE-1".toList
  namePadding := [0, 0]
  data := [1, 2, 3, 4]
  dataPadding := []
  protocolMajor_lt := by decide
  protocolMinor_lt := by decide
  reserved_length := rfl
  name_length := by decide
  data_length := by decide
  namePadding_length := by decide
  dataPadding_length := by decide

theorem x11_gate_forwards :
    ((received 64 [gatePacket.bytes.take 7]).pushRegistryDecision
        (gatePacket.bytes.drop 7 ++ [42]) gateRegistry).1.run =
      some (.ok (some (.forward 7
        { request := gatePacket.request
          rewrittenSetup := (gatePacket.withData [9, 8, 7, 6, 5] (by decide)).bytes
          trailingData := [42] }))) := by
  have hlength : gatePacket.bytes.length = 36 := by
    decide
  have hflatten : [gatePacket.bytes.take 7].flatten = gatePacket.bytes.take 7 := List.flatten_singleton
  have hjoin : [gatePacket.bytes.take 7].flatten ++ (gatePacket.bytes.drop 7 ++ [42]) =
      gatePacket.bytes ++ [42] := by
    rw [hflatten, ← List.append_assoc, List.take_append_drop]
  have hwithin : ([gatePacket.bytes.take 7].flatten ++ (gatePacket.bytes.drop 7 ++ [42])).length ≤
      64 := by
    decide
  have hno : ¬ HasSetup [gatePacket.bytes.take 7].flatten := by
    intro ⟨p, rest, h⟩
    have hshort := congrArg List.length h
    rw [hflatten, List.length_take, hlength, List.length_append, bytes_length] at hshort
    omega
  have hmem : gateEntry ∈ gateRegistry.entries := List.mem_singleton.mpr rfl
  exact ((x11_gate gateRegistry (by decide) 64 _ _ hwithin).1 7 _).mpr
    ⟨hno, gatePacket, gateEntry, by decide, hjoin, ⟨hmem, rfl, rfl⟩, rfl, rfl, rfl⟩

end Hapcli.X11
