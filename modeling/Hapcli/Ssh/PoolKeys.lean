/-
  Subject:   The pool keys of shared and of dedicated connections never meet.

  * **`dedicatedKey_ne`**, **`dedicatedKey_inj`** -- a dedicated connection gets a key of its own.
-/
import Hapcli.Ssh.Registry

namespace Hapcli.Ssh

open Hapcli.Rust

/-! ## 1. Identifiers and digests -/

/-- A lower-case hexadecimal digit. -/
def isHexDigit (c : Char) : Bool := c.isDigit || c ∈ ['a', 'b', 'c', 'd', 'e', 'f']

/-- The text of a UUID: its hyphens stand where they always do, all else is a digit. -/
def IsUuid (s : Str) : Prop :=
  s.map (fun c => if isHexDigit c then '0' else c) =
    "00000000-0000-0000-0000-000000000000".toList

instance (s : Str) : Decidable (IsUuid s) := inferInstanceAs (Decidable (_ = _))

/-- `format!("{:x}", Sha256::digest(..))`. -/
def IsSha256 (s : Str) : Prop := s.length = 64 ∧ ∀ c ∈ s, isHexDigit c

/-- The digests of a pool key are SHA-256 digests. -/
def KeyParts.Digests (parts : KeyParts) : Prop := ∀ bytes, IsSha256 (parts.sha256 bytes)

theorem IsUuid.length {u : Str} (h : IsUuid u) : u.length = 36 := by
  have := congrArg List.length h
  rwa [List.length_map] at this

theorem IsUuid.hyphen_mem {u : Str} (h : IsUuid u) : '-' ∈ u := by
  have hmem : '-' ∈ u.map (fun c => if isHexDigit c then '0' else c) := by
    rw [h]
    decide
  obtain ⟨c, hc, heq⟩ := List.mem_map.mp hmem
  split at heq
  · cases heq
  · exact heq ▸ hc

theorem IsUuid.mem {u : Str} (h : IsUuid u) {c : Char} (hc : c ∈ u) :
    isHexDigit c = true ∨ c = '-' := by
  have hmem := List.mem_map_of_mem (f := fun c => if isHexDigit c then '0' else c) hc
  rw [h] at hmem
  have htemplate : ("00000000-0000-0000-0000-000000000000".toList.all
      fun c => c == '0' || c == '-') = true := by rfl
  by_cases hhex : isHexDigit c = true
  · exact .inl hhex
  · refine .inr ?_
    have hchar := List.all_eq_true.mp htemplate _ hmem
    rw [Bool.or_eq_true, beq_iff_eq, beq_iff_eq] at hchar
    rcases hchar with h0 | hhyphen
    · rw [if_neg hhex] at h0
      subst h0
      exact absurd (by decide) hhex
    · rwa [if_neg hhex] at hhyphen

/-! ## 2. Ends of pool keys -/

/-- A text that does not end in an identifier: its last separator has no hyphen behind it, or it
    ends in a digest. -/
def SafeEnd (s : Str) : Prop :=
  (∃ front c back, s = front ++ c :: back ∧ isHexDigit c = false ∧ '-' ∉ c :: back) ∨
    ∃ front digest, s = front ++ digest ∧ IsSha256 digest

theorem SafeEnd.append {s : Str} (h : SafeEnd s) (front : Str) : SafeEnd (front ++ s) := by
  rcases h with ⟨front', c, back, rfl, hc, hback⟩ | ⟨front', digest, rfl, hdigest⟩
  · exact .inl ⟨front ++ front', c, back, (List.append_assoc ..).symm, hc, hback⟩
  · exact .inr ⟨front ++ front', digest, (List.append_assoc ..).symm, hdigest⟩

theorem safeEnd_cons {c : Char} {back : Str} (hc : isHexDigit c = false)
    (hback : '-' ∉ c :: back) : SafeEnd (c :: back) :=
  .inl ⟨[], c, back, rfl, hc, hback⟩

theorem SafeEnd.ne {s : Str} (h : SafeEnd s) {u : Str} (hu : IsUuid u) (front : Str) :
    s ≠ front ++ u := by
  rintro rfl
  have huSuffix : u <:+ front ++ u := List.suffix_append ..
  rcases h with ⟨front', c, back, heq, hc, hback⟩ | ⟨front', digest, heq, hlength, hhex⟩
  · rw [heq] at huSuffix
    rcases List.suffix_or_suffix_of_suffix huSuffix (List.suffix_append front' (c :: back)) with
      hin | hin
    · exact hback (hin.mem hu.hyphen_mem)
    · rcases hu.mem (hin.mem List.mem_cons_self) with hdigit | rfl
      · rw [hc] at hdigit
        cases hdigit
      · exact hback List.mem_cons_self
  · rw [heq] at huSuffix
    have hin : u <:+ digest := List.suffix_of_suffix_length_le huSuffix
      (List.suffix_append ..) (by rw [hu.length, hlength]; decide)
    have := hhex _ (hin.mem hu.hyphen_mem)
    exact absurd this (by decide)

section Keys

variable {parts : KeyParts}

theorem agentEndpointKeySuffix_safeEnd (hparts : parts.Digests) (label : Str)
    (endpoint : Option Str) : SafeEnd (agentEndpointKeySuffix parts label endpoint) :=
  .inr ⟨_, _, rfl, hparts _⟩

theorem agentForwardingEndpointKeySuffix_safeEnd (hparts : parts.Digests) (label : Str)
    (forwarding identity : Option Str) :
    SafeEnd (agentForwardingEndpointKeySuffix parts label forwarding identity) :=
  .inr ⟨_, _, rfl, hparts _⟩

theorem connectionKeySuffix_safeEnd (hparts : parts.Digests) (command : ProxyCommandConfig) :
    SafeEnd (command.connectionKeySuffix parts) := by
  cases command with
  | authorizationRequired =>
    exact .inl ⟨"|proxy-command=authorization-".toList, 'r', "equired".toList, rfl, by decide,
      by decide⟩
  | unavailable =>
    exact .inl ⟨"|proxy-command=".toList, 'u', "navailable".toList, rfl, by decide, by decide⟩
  | direct program args => exact .inr ⟨_, _, rfl, hparts _⟩

theorem port_safeEnd (port : UInt16) : SafeEnd (':' :: numToString port.toNat) := by
  refine safeEnd_cons (by decide) fun hmem => ?_
  rcases List.mem_cons.mp hmem with h | h
  · cases h
  · exact absurd (isDigit_of_mem_numToString h) (by decide)

theorem boolToString_safeEnd (flag : Bool) : SafeEnd (':' :: boolToString flag) := by
  cases flag <;> exact safeEnd_cons (by decide) (by decide)

/-- The key of a hop ends in a digest, in a label or in its port. -/
theorem hop_key_safeEnd (hparts : parts.Digests) (hop : ProxyHopConfig) :
    SafeEnd (hop.key parts) := by
  unfold ProxyHopConfig.key
  by_cases hforwarding : hop.agentForwarding = true
  · rw [if_pos hforwarding, if_pos hforwarding]
    exact (agentForwardingEndpointKeySuffix_safeEnd hparts _ _ _).append _
  rw [if_neg hforwarding, if_neg hforwarding, List.append_nil, List.append_nil]
  cases hop.identityAgent with
  | some endpoint => exact (agentEndpointKeySuffix_safeEnd hparts _ _).append _
  | none =>
    rw [List.append_nil]
    by_cases hlegacy : hop.legacySshCompatibility = true
    · rw [if_pos hlegacy]
      exact (safeEnd_cons (by decide) (by decide)).append _
    · rw [if_neg hlegacy, List.append_nil, List.append_assoc]
      exact (port_safeEnd hop.port).append _

theorem upstream_key_safeEnd (proxy : UpstreamProxyConfig) : SafeEnd proxy.key := by
  unfold UpstreamProxyConfig.key
  rw [List.append_assoc]
  exact (boolToString_safeEnd proxy.remoteDns).append _

theorem intercalate_safeEnd (separator : Str) {texts : List Str}
    (htexts : ∀ text ∈ texts, SafeEnd text) (hne : texts ≠ []) :
    SafeEnd (separator.intercalate texts) := by
  induction texts with
  | nil => exact absurd rfl hne
  | cons text rest ih =>
    cases rest with
    | nil => simpa using htexts text List.mem_cons_self
    | cons next rest =>
      exact ((ih (fun text h => htexts text (List.mem_cons_of_mem _ h))
        (List.cons_ne_nil _ _)).append separator).append text

theorem connectionKey_safeEnd (hparts : parts.Digests) (config : SshConfig) :
    SafeEnd (config.connectionKey parts) := by
  unfold SshConfig.connectionKey
  cases config.proxyCommand with
  | some command => exact (connectionKeySuffix_safeEnd hparts command).append _
  | none =>
  rw [List.append_nil]
  by_cases hforwarding : config.agentForwarding = true
  · rw [if_pos hforwarding, if_pos hforwarding]
    exact (agentForwardingEndpointKeySuffix_safeEnd hparts _ _ _).append _
  rw [if_neg hforwarding, if_neg hforwarding, List.append_nil, List.append_nil]
  cases config.identityAgent with
  | some endpoint => exact (agentEndpointKeySuffix_safeEnd hparts _ _).append _
  | none =>
  rw [List.append_nil]
  by_cases hlegacy : config.legacySshCompatibility = true
  · rw [if_pos hlegacy]
    exact (safeEnd_cons (by decide) (by decide)).append _
  rw [if_neg hlegacy, List.append_nil]
  cases config.upstreamProxy with
  | some proxy => exact (upstream_key_safeEnd proxy).append _
  | none =>
  rw [List.append_nil]
  have hbar : SafeEnd "|".toList := safeEnd_cons (by decide) (by decide)
  cases config.proxyChain with
  | none =>
    rw [List.append_nil]
    exact hbar.append _
  | some chain =>
    by_cases hchain : chain = []
    · subst hchain
      simp only [List.map_nil, List.intercalate_nil, List.append_nil]
      exact hbar.append _
    · refine (intercalate_safeEnd ['>'] ?_ (mt List.map_eq_nil_iff.mp hchain)).append _
      intro text htext
      obtain ⟨hop, -, rfl⟩ := List.mem_map.mp htext
      exact hop_key_safeEnd hparts hop

/-! ## 3. Keys of dedicated connections -/

theorem dedicatedKey_ne (hparts : parts.Digests) {uuid : Str} (huuid : IsUuid uuid)
    (config config' : SshConfig) :
    SshConnectionRegistry.dedicatedKey parts config uuid ≠ config'.connectionKey parts := by
  intro h
  unfold SshConnectionRegistry.dedicatedKey at h
  rw [← List.append_assoc] at h
  exact (connectionKey_safeEnd hparts config').ne huuid _ h.symm

theorem dedicatedKey_inj {uuid uuid' : Str} (huuid : IsUuid uuid) (huuid' : IsUuid uuid')
    {config config' : SshConfig} (h : SshConnectionRegistry.dedicatedKey parts config uuid =
      SshConnectionRegistry.dedicatedKey parts config' uuid') : uuid = uuid' := by
  unfold SshConnectionRegistry.dedicatedKey at h
  rw [← List.append_assoc, ← List.append_assoc] at h
  exact (List.append_inj' h (huuid.length.trans huuid'.length.symm)).2

end Keys

end Hapcli.Ssh
