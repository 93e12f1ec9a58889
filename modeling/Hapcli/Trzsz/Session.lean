/-
  Subject:   TRZSZ END TO END: `send_files` against `recv_files` over two reliable channels, in
             non-binary mode.

  * `trzsz_delivers` -- **every interleaving ends with every file written byte for byte under its
    announced name**, both sides returning the same list of names.
-/
import Hapcli.Trzsz.Transfer
import Hapcli.Rust.Base64

namespace Hapcli.Trzsz

open Hapcli.Process Hapcli.Rust Proc

/-! ## 1. Messages -/

/-- The characters of base64, which include the digits. -/
def isBase64Char (c : Char) : Bool := c.isAlphanum || c == '+' || c == '/' || c == '='

/-- What is relied on: zlib and base64 decode what they encoded, and base64 uses its alphabet. -/
structure Codec.Faithful (codec : Codec) : Prop where
  decompress_compress : ∀ bytes, codec.decompress (codec.compress bytes) = .ok bytes
  decode_encode : ∀ bytes, codec.base64Decode (codec.base64Encode bytes) = .ok bytes
  alphabet : ∀ bytes, ∀ c ∈ codec.base64Encode bytes, isBase64Char c = true

variable {c : Char} {codec : Codec} {kind : Str}

theorem Codec.Faithful.decodeBuffer (h : codec.Faithful) (bytes : List UInt8) :
    codec.decodeBuffer (codec.encodeBuffer bytes) = .ok bytes := by
  simp [Codec.decodeBuffer, Codec.encodeBuffer, h.decode_encode, h.decompress_compress]

/-- A transfer that is not stopped and reads lines as it writes them. -/
structure Speaks (windows : Bool) (transfer : TrzszTransfer) : Prop where
  running : transfer.stopped = false
  writes : transfer.remoteIsWindows = windows
  reads : (transfer.isWindowsShell || transfer.remoteIsWindows) = windows

/-- What a channel may hold between two messages: on Windows the line feed behind a `!`. -/
def Between (windows : Bool) (bytes : List UInt8) : Prop :=
  bytes = [] ∨ (windows = true ∧ bytes = [newline])

/-- A message is made of its kind, in capitals or digits, and base64 characters. -/
structure Wire (kind buffer : Str) : Prop where
  kind : ∀ c ∈ kind, isBase64Char c = true
  buffer : ∀ c ∈ buffer, isBase64Char c = true

theorem base64Char_plain (h : isBase64Char c = true) :
    c.toNat < 0x80 ∧ isTrzszLetter (UInt8.ofNat c.toNat) = true ∧ c ≠ '#' ∧ c ≠ ':' := by
  have hlt : c.toNat < 0x80 := by
    delta isBase64Char Char.isAlphanum Char.isAlpha Char.isUpper Char.isLower Char.isDigit at h
    simp only [Bool.or_eq_true, Bool.and_eq_true, decide_eq_true_eq, beq_iff_eq, ge_iff_le,
      UInt32.le_iff_toNat_le] at h
    rcases h with ((((⟨_, h⟩ | ⟨_, h⟩) | ⟨_, h⟩) | h) | h) | h
    · exact Nat.lt_of_le_of_lt h (by decide)
    · exact Nat.lt_of_le_of_lt h (by decide)
    · exact Nat.lt_of_le_of_lt h (by decide)
    all_goals
      subst h
      decide
  have hall : ∀ n : Fin 128, isBase64Char (Char.ofNat n) = true →
      isTrzszLetter (UInt8.ofNat n) = true ∧ Char.ofNat n ≠ '#' ∧ Char.ofNat n ≠ ':' := by
    decide
  have hc := hall ⟨c.toNat, hlt⟩
  simp only [Char.ofNat_toNat] at hc
  exact ⟨hlt, hc h⟩

theorem isBase64Char_digit (h : c.isDigit = true) : isBase64Char c = true := by
  simp [isBase64Char, Char.isAlphanum, h]

theorem wire_integer (hkind : ∀ c ∈ kind, isBase64Char c = true) (n : Nat) :
    Wire kind (numToString n) :=
  ⟨hkind, fun _ hc => isBase64Char_digit (isDigit_of_mem_numToString hc)⟩

theorem wire_buffer (h : codec.Faithful) (hkind : ∀ c ∈ kind, isBase64Char c = true)
    (bytes : List UInt8) : Wire kind (codec.encodeBuffer bytes) :=
  ⟨hkind, h.alphabet _⟩

variable {buffer : Str}

section Message

section

variable (h : Wire kind buffer)

include h

theorem Wire.letters :
    ∀ c ∈ message kind buffer, c.toNat < 0x80 ∧ isTrzszLetter (UInt8.ofNat c.toNat) = true := by
  intro c hc
  rw [message, List.cons_append, List.mem_cons, List.mem_append, List.mem_cons] at hc
  rcases hc with rfl | hc | rfl | hc
  · decide
  · exact (base64Char_plain (h.kind c hc)).imp_right And.left
  · decide
  · exact (base64Char_plain (h.buffer c hc)).imp_right And.left

theorem Wire.not_mem
    (hc : isTrzszLetter (UInt8.ofNat c.toNat) = false) : c ∉ message kind buffer := fun hm =>
  Bool.false_ne_true (hc.symm.trans (h.letters c hm).2)

theorem Wire.hash_not_mem : '#' ∉ kind ++ ':' :: buffer := by
  intro hm
  rcases List.mem_append.mp hm with hm | hm
  · exact (base64Char_plain (h.kind _ hm)).2.2.1 rfl
  · rcases List.mem_cons.mp hm with hm | hm
    · exact absurd hm (by decide)
    · exact (base64Char_plain (h.buffer _ hm)).2.2.1 rfl

theorem Wire.cutJunk : cutJunk kind (message kind buffer) = message kind buffer := by
  have hfind : rfindStr (message kind buffer) ('#' :: kind ++ [':']) = some 0 :=
    rfindStr_front rfl h.hash_not_mem ⟨buffer, by simp [message]⟩
  rw [Trzsz.cutJunk, hfind]
  rfl

theorem Wire.stripTmux : stripTmuxStatusLine (message kind buffer) = message kind buffer := by
  have hfind : findStr (message kind buffer) ['\x1b', 'P', '='] = none :=
    findStr_none (h.not_mem (by decide))
  simp [stripTmuxStatusLine, stripTmuxTurns, hfind]

/-- `recv_check` accepts a message of the kind it expects. -/
theorem Wire.checkLine : checkLine kind (message kind buffer) = ret buffer := by
  have hpos : (message kind buffer).findIdx? (· == ':') = some (kind.length + 1) := by
    exact findIdx?_first (l := '#' :: kind) (fun c hc => by
      rcases List.mem_cons.mp hc with rfl | hc
      · decide
      · exact beq_eq_false_iff_ne.mpr (base64Char_plain (h.kind c hc)).2.2.2) rfl
  have hkind : ((message kind buffer).take (kind.length + 1)).drop 1 = kind := by
    simp [message]
  have hbuffer : (message kind buffer).drop (kind.length + 1 + 1) = buffer := by
    simp [message]
  have hhead : (message kind buffer).head?.any (·.utf8Size > 1) = false := by
    simp only [message, List.cons_append, List.head?_cons, Option.any_some]
    decide
  simp only [Trzsz.checkLine, hpos, hkind, hbuffer, hhead, ne_eq, not_true_eq_false, if_false,
    Bool.false_eq_true, Nat.not_lt.mpr (Nat.le_add_left 1 _)]

end

end Message

/-- The bytes of a message up to the one that ends it for its reader. -/
def messageBytes (windows : Bool) (kind buffer : Str) : List UInt8 :=
  asBytes (message kind buffer) ++ [if windows then bang else newline]

/-- What stays in the channel behind it. -/
def trailer (windows : Bool) : List UInt8 := if windows then [newline] else []

theorem between_trailer (windows : Bool) : Between windows (trailer windows) := by
  cases windows
  · exact .inl rfl
  · exact .inr ⟨rfl, rfl⟩

theorem sendLine_eq {windows : Bool} {transfer : TrzszTransfer} (h : Speaks windows transfer)
    (kind buffer : Str) : sendLine transfer kind buffer =
      IoProc.writeAll (messageBytes windows kind buffer ++ trailer windows) := by
  have hends : asBytes ['!', '\n'] = [bang, newline] ∧ asBytes ['\n'] = [newline] := by decide
  unfold sendLine TrzszTransfer.protocolNewline messageBytes trailer
  rw [asBytes_append, h.writes]
  cases windows <;> simp [hends]

section Follows

variable {ok : (e : TrzszCall) → e.Ans → Prop}

variable {before : List UInt8}

/-- A message is read on Windows, behind the line feed of the message before it. -/
theorem follows_windowsLine (hwire : Wire kind buffer) (hbefore : Between true before) :
    Follows ok readLineOnWindows (receives (before ++ messageBytes true kind buffer))
      (.ok (message kind buffer)) := by
  have hbytes : ∀ b ∈ asBytes (message kind buffer), isTrzszLetter b = true :=
    forall_asBytes_ascii hwire.letters
  have hlead : ∀ b ∈ before, b = newline := by
    rcases hbefore with rfl | ⟨-, rfl⟩ <;> simp
  have hskipped : before.filter isTrzszLetter = [] :=
    List.filter_eq_nil_iff.mpr fun b hb => by
      rw [hlead b hb]
      decide
  refine (follows_readLineOnWindows (before ++ asBytes (message kind buffer))
    (by simp [message]) (fun b hb => ?_) ?_).cast ?_
  · exact (List.mem_append.mp hb).elim (fun hb => .inr (hlead b hb)) fun hb => .inl (hbytes b hb)
  · rw [List.filter_append, hskipped, List.filter_eq_self.mpr hbytes, List.nil_append]
  · simp [messageBytes]

/-- A message is read elsewhere; what junk there might be is looked for and not found. -/
theorem follows_plainLine (hwire : Wire kind buffer) (junk : Bool) :
    Follows ok (readLine.bind fun line =>
        if junk = true then
          (loop joinLinesTurn line).bind fun line => ret (stripTmuxStatusLine (cutJunk kind line))
        else ret line)
      (receives (messageBytes false kind buffer)) (.ok (message kind buffer)) := by
  have hread := @follows_readLine ok _ (hwire.not_mem (c := '\n') (by decide))
    (hwire.not_mem (c := '\x03') (by decide))
  refine (Follows.bind hread ?_).cast (List.append_nil _)
  cases junk with
  | false => exact .ret _
  | true =>
    have hwhole : Follows ok (loop joinLinesTurn (message kind buffer)) []
        (.ok (message kind buffer)) := by
      refine .turn ?_
      have hturn : joinLinesTurn (message kind buffer) = ret (.done (message kind buffer)) :=
        if_neg fun h => hwire.not_mem (c := '\r') (by decide) (List.mem_of_getLast? h)
      rw [Proc.unfold, hturn]
      exact .ret _
    refine Follows.bind (τ := []) hwhole ?_
    rw [hwire.cutJunk, hwire.stripTmux]
    exact .ret _

/-- A message is received, behind what the channel may hold before it. -/
theorem follows_recvCheck {windows : Bool} {transfer : TrzszTransfer} (h : Speaks windows transfer)
    (hwire : Wire kind buffer) (hbefore : Between windows before) (mayHaveJunk : Bool) :
    Follows ok (recvCheck transfer kind mayHaveJunk)
      (receives (before ++ messageBytes windows kind buffer)) (.ok buffer) := by
  have hline : Follows ok (recvLine transfer kind mayHaveJunk)
      (receives (before ++ messageBytes windows kind buffer)) (.ok (message kind buffer)) := by
    unfold recvLine
    rw [h.running, if_neg Bool.false_ne_true, h.reads]
    cases windows with
    | true =>
      refine (Follows.bind (τ := []) (follows_windowsLine hwire hbefore) ?_).cast
        (List.append_nil _)
      rw [hwire.cutJunk]
      exact .ret _
    | false =>
      obtain rfl : before = [] := hbefore.resolve_right fun h => Bool.false_ne_true h.1
      exact follows_plainLine hwire _
  refine (Follows.bind (τ := []) hline ?_).cast (List.append_nil _)
  rw [hwire.checkLine]
  exact .ret _

end Follows

/-! ## 2. One message after the other -/

/-- The environment: a clock, a host that opens a writer for every file and writers that refuse
    nothing. -/
def answers (clock : Nat → Nat → Nat) (host : Nat → Str → Bool → SaveFile) :
    (call : TrzszCall) → call.Ans → Prop
  | .elapsed file step, time => time = clock file step
  | .openSaveFile file fileName directory _, answer => answer = .ok (host file fileName directory)
  | .closeFile _, _ => True
  | .writer _ _, answer => answer = .ok ()

/-- The two parties run against each other; only the receiver's calls are looked at. -/
def TJoint (clock : Nat → Nat → Nat) (host : Nat → Str → Bool → SaveFile) {β₁ β₂ : Type}
    (p : TrzszProc β₁) (q : TrzszProc β₂) (c d : List UInt8) (r₁ : Except Failure β₁)
    (r₂ : Except Failure β₂) (m : List TrzszCall) : Prop :=
  ∃ l, Joint (answers clock host) (answers clock host) p q c d r₁ r₂ l m

variable {clock : Nat → Nat → Nat}

variable {host : Nat → Str → Bool → SaveFile}

variable {index : Nat}

variable {m : List TrzszCall}

variable {windows : Bool}

section Joint

variable {a b : TrzszTransfer} {α β₁ β₂ : Type} {r₁ : Except Failure β₁} {r₂ : Except Failure β₂}
  {c d : List UInt8}

variable {f : Unit → TrzszProc β₁} {g : Unit → TrzszProc β₂} {n : Nat}

theorem parseInteger_numToString (hn : n ≤ u64Max) : parseInteger (numToString n) = ret n := by
  rw [parseInteger, parseU64, parseUnsigned_numToString hn]

theorem decodeText_asBytes (s : Str) : decodeText (asBytes s) = ret s := by
  rw [decodeText, fromUtf8_asBytes]

theorem kind_chars
    (h : kind ∈ ["NUM".toList, "NAME".toList, "SIZE".toList, "DATA".toList, "MD5".toList,
      "SUCC".toList]) : ∀ c ∈ kind, isBase64Char c = true := by
  have hall : ∀ kind ∈ ["NUM".toList, "NAME".toList, "SIZE".toList, "DATA".toList, "MD5".toList,
      "SUCC".toList], kind.all isBase64Char = true := by
    decide
  exact List.all_eq_true.mp (hall kind h)

section Lines

variable (hcodec : codec.Faithful) (ha : Speaks windows a) (hb : Speaks windows b)
  (hkind : ∀ c ∈ kind, isBase64Char c = true)

include ha hb

theorem TJoint.lineR (hwire : Wire kind buffer) (hc : Between windows c) {g : Str → TrzszProc β₂}
    (h : TJoint clock host (f ()) (g buffer) (trailer windows) d r₁ r₂ m) :
    TJoint clock host ((sendLine a kind buffer).bind f) ((recvCheck b kind false).bind g) c d
      r₁ r₂ m := by
  obtain ⟨l, hj⟩ := h
  refine ⟨l, ?_⟩
  rw [sendLine_eq ha]
  refine Joint.writeL ?_
  rw [← List.append_assoc]
  exact Joint.receiveR (follows_recvCheck hb hwire hc false) hj

theorem TJoint.lineL (hwire : Wire kind buffer) (hd : Between windows d) {f : Str → TrzszProc β₁}
    (h : TJoint clock host (f buffer) (g ()) c (trailer windows) r₁ r₂ m) :
    TJoint clock host ((recvCheck a kind false).bind f) ((sendLine b kind buffer).bind g) c d
      r₁ r₂ m := by
  obtain ⟨l, hj⟩ := h
  refine ⟨l, ?_⟩
  rw [sendLine_eq hb]
  refine Joint.writeR ?_
  rw [← List.append_assoc]
  exact Joint.receiveL (follows_recvCheck ha hwire hd false) hj

theorem TJoint.checkL (hn : n ≤ u64Max) (hd : Between windows d)
    (h : TJoint clock host (f ()) (g ()) c (trailer windows) r₁ r₂ m) :
    TJoint clock host ((checkInteger a n).bind f) ((sendInteger b "SUCC".toList n).bind g) c d
      r₁ r₂ m := by
  unfold checkInteger recvInteger
  rw [bind_eq, bind_eq, Proc.bind_assoc, Proc.bind_assoc]
  refine TJoint.lineL ha hb (wire_integer (kind_chars (by decide)) n) hd ?_
  rw [parseInteger_numToString hn, ret_bind, if_neg (not_not.mpr rfl)]
  exact h

include hkind

theorem TJoint.integerR (hn : n ≤ u64Max) (hc : Between windows c)
    {g : Nat → TrzszProc β₂} (h : TJoint clock host (f ()) (g n) (trailer windows) d r₁ r₂ m) :
    TJoint clock host ((sendInteger a kind n).bind f) ((recvInteger b kind false).bind g) c d
      r₁ r₂ m := by
  unfold recvInteger
  rw [bind_eq, Proc.bind_assoc]
  refine TJoint.lineR ha hb (wire_integer hkind n) hc ?_
  rw [parseInteger_numToString hn]
  exact h

include hcodec

theorem TJoint.stringR (value : Str) (hc : Between windows c)
    {g : Str → TrzszProc β₂} (h : TJoint clock host (f ()) (g value) (trailer windows) d r₁ r₂ m) :
    TJoint clock host ((sendString a codec kind value).bind f)
      ((recvString b codec kind false).bind g) c d r₁ r₂ m := by
  unfold recvString
  rw [bind_eq, Proc.bind_assoc]
  refine TJoint.lineR ha hb (wire_buffer hcodec hkind _) hc ?_
  rw [hcodec.decodeBuffer, check_ok, bind_eq, ret_bind, decodeText_asBytes]
  exact h

theorem TJoint.stringL (value : Str) (hd : Between windows d)
    {f : Str → TrzszProc β₁} (h : TJoint clock host (f value) (g ()) c (trailer windows) r₁ r₂ m) :
    TJoint clock host ((recvString a codec kind false).bind f)
      ((sendString b codec kind value).bind g) c d r₁ r₂ m := by
  unfold recvString
  rw [bind_eq, Proc.bind_assoc]
  refine TJoint.lineL ha hb (wire_buffer hcodec hkind _) hd ?_
  rw [hcodec.decodeBuffer, check_ok, bind_eq, ret_bind, decodeText_asBytes]
  exact h

theorem TJoint.binaryR (bytes : List UInt8) (hc : Between windows c) {g : List UInt8 → TrzszProc β₂}
    (h : TJoint clock host (f ()) (g bytes) (trailer windows) d r₁ r₂ m) :
    TJoint clock host ((sendBinary a codec kind bytes).bind f)
      ((recvBinary b codec kind false).bind g) c d r₁ r₂ m := by
  unfold recvBinary
  rw [bind_eq, Proc.bind_assoc]
  refine TJoint.lineR ha hb (wire_buffer hcodec hkind bytes) hc ?_
  rw [hcodec.decodeBuffer, check_ok]
  exact h

theorem TJoint.binaryL (bytes : List UInt8) (hd : Between windows d) {f : List UInt8 → TrzszProc β₁}
    (h : TJoint clock host (f bytes) (g ()) c (trailer windows) r₁ r₂ m) :
    TJoint clock host ((recvBinary a codec kind false).bind f)
      ((sendBinary b codec kind bytes).bind g) c d r₁ r₂ m := by
  unfold recvBinary
  rw [bind_eq, Proc.bind_assoc]
  refine TJoint.lineL ha hb (wire_buffer hcodec hkind bytes) hd ?_
  rw [hcodec.decodeBuffer, check_ok]
  exact h

end Lines

variable {h : Unit → TrzszProc α} {k : Except Failure α → TrzszProc β₂} {p : TrzszProc β₁}

theorem TJoint.call (call : TrzszCall) (answer : call.Ans)
    (hanswer : ∀ x, answers clock host call x ↔ x = answer) {k : call.Ans → TrzszProc β₂}
    (h : TJoint clock host p (k answer) c d r₁ r₂ m) :
    TJoint clock host p (.act (.call call) k) c d r₁ r₂ (call :: m) := by
  obtain ⟨l, hj⟩ := h
  exact ⟨l, Joint.callR hanswer hj⟩

variable {op : WriterOp}

theorem TJoint.writer (h : TJoint clock host p (g ()) c d r₁ r₂ m) :
    TJoint clock host p ((writerCall index op).bind g) c d r₁ r₂ (.writer index op :: m) :=
  TJoint.call (.writer index op) (Except.ok ()) (fun _ => Iff.rfl) h

theorem TJoint.openSaveFile {fileName : Str} {directory overwrite : Bool}
    {g : SaveFile → TrzszProc β₂}
    (h : TJoint clock host p (g (host index fileName directory)) c d r₁ r₂ m) :
    TJoint clock host p ((openSaveFile index fileName directory overwrite).bind g) c d r₁ r₂
      (.openSaveFile index fileName directory overwrite :: m) :=
  TJoint.call (.openSaveFile index fileName directory overwrite)
    (Except.ok (host index fileName directory)) (fun _ => Iff.rfl) h

theorem TJoint.closeFile (h : TJoint clock host p (g ()) c d r₁ r₂ m) :
    TJoint clock host p ((closeFile index).bind g) c d r₁ r₂ (.closeFile index :: m) :=
  TJoint.call (.closeFile index) () (fun _ => ⟨fun _ => rfl, fun _ => trivial⟩) h

theorem TJoint.elapsed {q : TrzszProc β₂} {step : Nat} {f : Nat → TrzszProc β₁}
    (h : TJoint clock host (f (clock index step)) q c d r₁ r₂ m) :
    TJoint clock host ((elapsed index step).bind f) q c d r₁ r₂ m := by
  obtain ⟨l, hj⟩ := h
  exact ⟨.elapsed index step :: l, Joint.callL (e := TrzszCall.elapsed index step)
    (a := clock index step) (fun _ => Iff.rfl) hj⟩

/-! ### Within `match self.recv_file_data(..)`

The receiver's data loop is guarded: its failure would be a value. -/

theorem TJoint.guardedWriter (hj : TJoint clock host p ((h ()).attempt.bind k) c d r₁ r₂ m) :
    TJoint clock host p (((writerCall index op).bind h).attempt.bind k) c d r₁ r₂
      (.writer index op :: m) :=
  TJoint.call (.writer index op) (Except.ok ()) (fun _ => Iff.rfl) hj

/-- A turn of the sender's loop and one of the receiver's guarded loop. -/
theorem TJoint.turns {σ σ' γ : Type} {body : σ → TrzszProc (Turn σ γ)} {s : σ}
    {body' : σ' → TrzszProc (Turn σ' α)} {s' : σ'} {k : γ → TrzszProc β₁}
    {g : Except Failure α → TrzszProc β₂} (h : TJoint clock host ((body s).bind (goOn body k))
      ((body' s').attempt.bind fun r => (attemptFlow r).bind
        (goOn (fun s => (body' s).attempt.bind attemptFlow)
          fun r => (onOk (fun b => (ret b).attempt) r).bind g)) c d r₁ r₂ m) :
    TJoint clock host (iter body s k) ((iter body' s' ret).attempt.bind g) c d r₁ r₂ m := by
  obtain ⟨l, hj⟩ := h
  exact ⟨l, Joint.turnL (Joint.turnR (Joint.assocR hj))⟩

variable (ha : Speaks windows a) (hb : Speaks windows b)

include ha hb

theorem TJoint.guardedLineR (hwire : Wire kind buffer) (hc : Between windows c)
    {h : Str → TrzszProc α}
    (hj : TJoint clock host (f ()) ((h buffer).attempt.bind k) (trailer windows) d r₁ r₂ m) :
    TJoint clock host ((sendLine a kind buffer).bind f)
      (((recvCheck b kind false).bind h).attempt.bind k) c d r₁ r₂ m := by
  obtain ⟨l, hj⟩ := hj
  refine ⟨l, ?_⟩
  rw [sendLine_eq ha]
  refine Joint.writeL (Joint.attemptR ?_)
  rw [← List.append_assoc]
  exact Joint.receiveR (follows_recvCheck hb hwire hc false).attempt hj

theorem TJoint.guardedLineL (hwire : Wire kind buffer) (hd : Between windows d)
    {f : Str → TrzszProc β₁}
    (hj : TJoint clock host (f buffer) ((h ()).attempt.bind k) c (trailer windows) r₁ r₂ m) :
    TJoint clock host ((recvCheck a kind false).bind f)
      (((sendLine b kind buffer).bind h).attempt.bind k) c d r₁ r₂ m := by
  obtain ⟨l, hj⟩ := hj
  refine ⟨l, ?_⟩
  rw [sendLine_eq hb]
  refine Joint.attemptR (Joint.sendR (follows_writeAll _).attempt ?_)
  rw [← List.append_assoc]
  exact Joint.receiveL (follows_recvCheck ha hwire hd false) hj

theorem TJoint.guardedCheckL (hn : n ≤ u64Max) (hd : Between windows d)
    (hj : TJoint clock host (f ()) ((h ()).attempt.bind k) c (trailer windows) r₁ r₂ m) :
    TJoint clock host ((checkInteger a n).bind f)
      (((sendLine b "SUCC".toList (numToString n)).bind h).attempt.bind k) c d r₁ r₂ m := by
  unfold checkInteger recvInteger
  rw [bind_eq, bind_eq, Proc.bind_assoc, Proc.bind_assoc]
  refine TJoint.guardedLineL ha hb (wire_integer (kind_chars (by decide)) n) hd ?_
  rw [parseInteger_numToString hn, ret_bind, if_neg (not_not.mpr rfl)]
  exact hj

end Joint

/-! ## 3. One file -/

variable {maxBufferSize : Nat}

section File

variable {R : Type} [TrzszFileReader R]

open TrzszFileReader

/-- **The reader hands out exactly `bytes`**, in non-empty pieces of its own choosing: some relation
    between readers and what is left is kept by every read. -/
def Yields (file : R) (bytes : List UInt8) : Prop :=
  ∃ holds : R → List UInt8 → Prop, holds file bytes ∧ ∀ r bs, holds r bs → bs ≠ [] →
    ∀ room, 0 < room → ∃ piece rest r', bs = piece ++ rest ∧ piece ≠ [] ∧
      readFile r room = (.ok piece, r') ∧ holds r' rest

variable {file : R}

theorem Yields.read {bytes : List UInt8} (h : Yields file bytes) (hne : bytes ≠ []) {room : Nat}
    (hroom : 0 < room) :
    ∃ piece rest file', bytes = piece ++ rest ∧ piece ≠ [] ∧
      readFile file room = (.ok piece, file') ∧ Yields file' rest := by
  obtain ⟨holds, h0, hstep⟩ := h
  obtain ⟨piece, rest, r', h1, h2, h3, h4⟩ := hstep file bytes h0 hne room hroom
  exact ⟨piece, rest, r', h1, h2, h3, holds, h4, hstep⟩

variable {a b : TrzszTransfer} {β₁ β₂ : Type} {r₁ : Except Failure β₁} {r₂ : Except Failure β₂}

variable {codes : List EscapeCode} {size : Nat}

theorem nextBufferSize_pos {bufferSize dataLen chunkTime : Nat} (h : 0 < bufferSize) :
    0 < nextBufferSize bufferSize maxBufferSize dataLen chunkTime := by
  unfold nextBufferSize
  split
  · omega
  · split <;> omega

theorem sendDataTurn_piece {state : SendState R} {piece : List UInt8} {file' : R}
    (hlt : state.step < size) (hread : readFile state.file state.bufferSize = (.ok piece, file'))
    (hne : piece ≠ []) :
    sendDataTurn a codec index size false codes maxBufferSize state =
      (sendLine a "DATA".toList (codec.encodeBuffer piece)).bind fun _ =>
        (checkInteger a piece.length).bind fun _ => (elapsed index state.step).bind fun time =>
          ret (.again
            { file := file', step := state.step + piece.length,
              bufferSize := nextBufferSize state.bufferSize maxBufferSize piece.length time,
              consumed := state.consumed ++ piece }) := by
  unfold sendDataTurn
  rw [if_pos hlt, hread]
  simp only [check_ok, bind_eq, ret_bind, if_neg hne]
  rfl

theorem recvDataTurn_piece {received : List UInt8} (hlt : received.length < size) :
    recvDataTurn b codec index size false codes received =
      (recvCheck b "DATA".toList false).bind fun text =>
        (check (codec.decodeBuffer text)).bind fun data =>
          (writerCall index (.writeFile data)).bind fun _ =>
            (sendLine b "SUCC".toList (numToString data.length)).bind fun _ =>
              ret (.again (received ++ data)) := by
  unfold recvDataTurn
  rw [if_pos hlt]
  exact Proc.bind_assoc ..

/-- The calls that write a file in the given pieces. -/
def writeCalls (index : Nat) (writes : List (List UInt8)) : List TrzszCall :=
  writes.map fun data => .writer index (.writeFile data)

variable (hcodec : codec.Faithful) (ha : Speaks windows a) (hb : Speaks windows b)

include hcodec ha hb

theorem joint_data {codes' : List EscapeCode} (hsize : size ≤ u64Max) {rest : List UInt8}
    (state : SendState R) (hyields : Yields state.file rest)
    (hstep : state.step + rest.length = size)
    (hconsumed : state.consumed.length = state.step) (hbuffer : 0 < state.bufferSize) :
    ∃ writes : List (List UInt8), writes.flatten = rest ∧
      ∀ (k : Vector UInt8 16 → TrzszProc β₁) (g : Except Failure (Vector UInt8 16) → TrzszProc β₂)
        (m : List TrzszCall) (c d : List UInt8), Between windows c → Between windows d →
        (∀ c' d', Between windows c' → Between windows d' →
          TJoint clock host (k (codec.md5 (state.consumed ++ rest)))
            (g (.ok (codec.md5 (state.consumed ++ rest)))) c' d' r₁ r₂ m) →
        TJoint clock host (iter (sendDataTurn a codec index size false codes maxBufferSize) state k)
          ((iter (recvDataTurn b codec index size false codes') state.consumed ret).attempt.bind g)
          c d r₁ r₂ (writeCalls index writes ++ m) := by
  induction hn : rest.length using Nat.strongRecOn generalizing rest state with
  | ind n ih =>
    subst hn
    by_cases hrest : rest = []
    · -- both loops end
      subst hrest
      refine ⟨[], rfl, fun k g m c d hc hd h => ?_⟩
      have hj := h c d hc hd
      rw [List.append_nil] at hj
      have hsend : sendDataTurn a codec index size false codes maxBufferSize state =
          ret (.done (codec.md5 state.consumed)) := if_neg (by simp at hstep; omega)
      have hrecv : recvDataTurn b codec index size false codes' state.consumed =
          ret (.done (codec.md5 state.consumed)) := if_neg (by simp at hstep; omega)
      refine TJoint.turns ?_
      rw [hsend, hrecv]
      exact hj
    · have hpos := List.length_pos_iff.mpr hrest
      obtain ⟨piece, more, file', rfl, hpiece, hread, hmore⟩ := hyields.read hrest hbuffer
      have hplen := List.length_pos_iff.mpr hpiece
      have hlt : state.step < size := by omega
      rw [List.length_append] at hstep
      obtain ⟨writes, hwrites, hjoint⟩ := ih more.length (by simp; omega)
        { file := file', step := state.step + piece.length,
          bufferSize := nextBufferSize state.bufferSize maxBufferSize piece.length
            (clock index state.step),
          consumed := state.consumed ++ piece }
        hmore (by simp only; omega) (by simp [hconsumed]) (nextBufferSize_pos hbuffer) rfl
      refine ⟨piece :: writes, by simp [hwrites], fun k g m c d hc hd h => ?_⟩
      have hnext := hjoint k g m (trailer windows) (trailer windows) (between_trailer windows)
        (between_trailer windows) (by simpa only [List.append_assoc] using h)
      refine TJoint.turns ?_
      rw [sendDataTurn_piece hlt hread hpiece, recvDataTurn_piece (by rw [hconsumed]; exact hlt),
        Proc.bind_assoc]
      refine TJoint.guardedLineR ha hb (wire_buffer hcodec (kind_chars (by decide)) piece) hc ?_
      rw [hcodec.decodeBuffer, check_ok, ret_bind]
      refine TJoint.guardedWriter ?_
      rw [Proc.bind_assoc]
      refine TJoint.guardedCheckL ha hb (by omega) hd ?_
      rw [Proc.bind_assoc]
      exact TJoint.elapsed hnext

/-- The name a file is sent under. -/
def sentAs (transfer : TrzszTransfer) (file : R) : Str :=
  announcedName file (transfer.configBool "directory".toList) ((relPath file).getLastD [])

/-- The writer the receiver's host opens for a file. -/
def openedFor (host : Nat → Str → Bool → SaveFile) (a b : TrzszTransfer) (index : Nat) (file : R) :
    SaveFile :=
  host index (sentAs a file) (b.configBool "directory".toList)

theorem joint_name (hnamed : relPath file ≠ []) {c d : List UInt8} (hc : Between windows c)
    (hd : Between windows d) {f : Str → TrzszProc β₁} {g : SaveFile → TrzszProc β₂}
    (h : TJoint clock host (f (openedFor host a b index file).localName)
      (g (openedFor host a b index file)) (trailer windows) (trailer windows) r₁ r₂ m) :
    TJoint clock host
      ((sendFileName a codec file (a.configBool "directory".toList)).bind f)
      ((recvFileName b codec index (b.configBool "directory".toList) false).bind g) c d r₁ r₂
      (.openSaveFile index (sentAs a file) (b.configBool "directory".toList) false :: m) := by
  obtain ⟨fileName, hlast⟩ : ∃ fileName, (relPath file).getLast? = some fileName :=
    Option.isSome_iff_exists.mp (by simpa using hnamed)
  have hsent : announcedName file (a.configBool "directory".toList) fileName = sentAs a file := by
    rw [sentAs, List.getLastD_eq_getLast?, hlast, Option.getD_some]
  unfold sendFileName recvFileName
  rw [hlast]
  simp only [bind_eq, hsent, Proc.bind_assoc]
  refine TJoint.stringR hcodec ha hb (kind_chars (by decide)) _ hc ?_
  refine TJoint.openSaveFile ?_
  exact TJoint.stringL hcodec ha hb (kind_chars (by decide)) _ hd h

variable {c d : List UInt8}

variable {f : Unit → TrzszProc β₁}

omit hcodec in
theorem joint_size {n : Nat} (hn : n ≤ u64Max) (hc : Between windows c) (hd : Between windows d)
    {g : Nat → TrzszProc β₂}
    (h : TJoint clock host (f ()) (g n) (trailer windows) (trailer windows) r₁ r₂ m) :
    TJoint clock host ((sendFileSize a n).bind f) ((recvFileSize b).bind g) c d r₁ r₂ m := by
  unfold sendFileSize recvFileSize
  simp only [bind_eq, Proc.bind_assoc]
  exact TJoint.integerR ha hb (kind_chars (by decide)) hn hc (TJoint.checkL ha hb hn hd h)

theorem joint_md5 {digest : Vector UInt8 16} (hc : Between windows c) (hd : Between windows d)
    {g : Unit → TrzszProc β₂}
    (h : TJoint clock host (f ()) (g ()) (trailer windows) (trailer windows) r₁ r₂ m) :
    TJoint clock host ((sendFileMd5 a codec digest).bind f)
      ((settleFile b codec index (.ok digest)).bind g) c d r₁ r₂
      (.closeFile index :: .writer index .finishFile :: m) := by
  unfold sendFileMd5 settleFile recvFileMd5 checkBinary
  simp only [bind_eq, Proc.bind_assoc]
  refine TJoint.closeFile ?_
  refine TJoint.binaryR hcodec ha hb (kind_chars (by decide)) _ hc ?_
  rw [if_neg (not_not.mpr rfl)]
  refine TJoint.binaryL hcodec ha hb (kind_chars (by decide)) _ hd ?_
  rw [if_neg (not_not.mpr rfl), ret_bind]
  exact TJoint.writer h

end File

/-! ## 4. All files -/

/-- What became of a writer. -/
structure SavedFile where
  name : Str
  data : List UInt8 := []
  closed : Bool := false
  finished : Bool := false
  aborted : Bool := false
  committed : Bool := false
  deriving DecidableEq

/-- What a method does to a writer. -/
def SavedFile.apply (file : SavedFile) : WriterOp → SavedFile
  | .writeFile data => { file with data := file.data ++ data }
  | .finishFile => { file with finished := true }
  | .abortFile => { file with aborted := true }
  | .commitFile => { file with committed := true }

/-- What a call does to the writers opened so far. -/
def applyCall (files : List SavedFile) : TrzszCall → List SavedFile
  | .elapsed .. => files
  | .openSaveFile _ name .. => files ++ [{ name }]
  | .closeFile index => files.modify index fun file => { file with closed := true }
  | .writer index op => files.modify index (·.apply op)

/-- The writers a list of calls leaves: the name each was opened under and what it was given. -/
def savedFiles (calls : List TrzszCall) : List SavedFile := calls.foldl applyCall []

theorem modify_at {α : Type} (l : List α) (x : α) (r : List α) (f : α → α) :
    (l ++ x :: r).modify l.length f = l ++ f x :: r := by
  induction l with
  | nil => rfl
  | cons y l ih => simpa using ih

theorem foldl_writeCalls (files : List SavedFile) (file : SavedFile) (writes : List (List UInt8)) :
    (writeCalls files.length writes).foldl applyCall (files ++ [file]) =
      files ++ [{ file with data := file.data ++ writes.flatten }] := by
  induction writes generalizing file with
  | nil => simp [writeCalls]
  | cons w writes ih =>
    have hstep : applyCall (files ++ [file]) (.writer files.length (.writeFile w)) =
        files ++ [{ file with data := file.data ++ w }] := modify_at files file [] _
    rw [writeCalls, List.map_cons, List.foldl_cons, hstep]
    simpa [writeCalls] using ih { file with data := file.data ++ w }

theorem foldl_commits (files : List SavedFile) :
    ((List.range files.length).map fun index => TrzszCall.writer index .commitFile).foldl applyCall
      files = files.map (·.apply .commitFile) := by
  suffices h : ∀ done rest : List SavedFile,
      ((List.range' done.length rest.length).map fun index =>
        TrzszCall.writer index .commitFile).foldl applyCall (done ++ rest) =
        done ++ rest.map (·.apply .commitFile) by
    simpa [List.range_eq_range'] using h [] files
  intro done rest
  induction rest generalizing done with
  | nil => simp
  | cons file rest ih =>
    have hstep : applyCall (done ++ file :: rest) (.writer done.length .commitFile) =
        done ++ [file.apply .commitFile] ++ rest := by
      rw [← List.append_cons]
      exact modify_at done file rest _
    rw [List.length_cons, List.range'_succ, List.map_cons, List.foldl_cons, hstep]
    simpa using ih (done ++ [file.apply .commitFile])

section Files

variable {R : Type} [TrzszFileReader R]

open TrzszFileReader

/-- A file that can be sent: it has a name, the receiver's host opens a directory for a directory
    and a file for a file, and a file has as many bytes as it declares. -/
structure Sendable (host : Nat → Str → Bool → SaveFile) (a b : TrzszTransfer) (index : Nat)
    (file : R) (content : List UInt8) : Prop where
  named : relPath file ≠ []
  opened : (openedFor host a b index file).isDir = isDir file
  directory : isDir file = true → content = []
  declared : isDir file = false →
    size file = content.length ∧ content.length ≤ u64Max ∧ Yields file content

/-- Files from the given number on, with their contents. -/
inductive SendableFiles (host : Nat → Str → Bool → SaveFile) (a b : TrzszTransfer) :
    Nat → List R → List (List UInt8) → Prop where
  | nil (index : Nat) : SendableFiles host a b index [] []
  | cons {index : Nat} {file : R} {files : List R} {content : List UInt8}
      {contents : List (List UInt8)} (h : Sendable host a b index file content)
      (hs : SendableFiles host a b (index + 1) files contents) :
      SendableFiles host a b index (file :: files) (content :: contents)

/-- The writer of a file that went over. -/
def deliveredAs (a : TrzszTransfer) (file : R) (content : List UInt8) : SavedFile :=
  { name := sentAs a file, data := content, closed := !isDir file, finished := !isDir file }

/-- The names both sides return. -/
def namesFrom (host : Nat → Str → Bool → SaveFile) (a b : TrzszTransfer) :
    Nat → List Str → List R → List Str
  | _, names, [] => names
  | index, names, file :: files =>
    namesFrom host a b (index + 1) (pushName names (openedFor host a b index file).localName) files

/-- The receiver's calls for one file that comes in the given pieces. -/
def fileCalls (a b : TrzszTransfer) (index : Nat) (file : R) (writes : List (List UInt8)) :
    List TrzszCall :=
  .openSaveFile index (sentAs a file) (b.configBool "directory".toList) false ::
    if isDir file then [] else writeCalls index writes ++ [.closeFile index, .writer index .finishFile]

variable {content : List UInt8} {file : R}

theorem foldl_fileCalls {a b : TrzszTransfer} {writes : List (List UInt8)} (saved : List SavedFile)
    (hdir : isDir file = true → content = [])
    (hwrites : isDir file = false → writes.flatten = content) :
    (fileCalls a b saved.length file writes).foldl applyCall saved =
      saved ++ [deliveredAs a file content] := by
  have hopen : applyCall saved (.openSaveFile saved.length (sentAs a file)
      (b.configBool "directory".toList) false) = saved ++ [{ name := sentAs a file }] := rfl
  rw [fileCalls, List.foldl_cons, hopen]
  cases hd : isDir file with
  | true => simp [deliveredAs, hd, hdir hd]
  | false =>
    rw [if_neg Bool.false_ne_true, List.foldl_append, foldl_writeCalls, hwrites hd]
    simp [applyCall, modify_at, SavedFile.apply, deliveredAs, hd]

variable {a b : TrzszTransfer} {β₁ β₂ : Type} {r₁ : Except Failure (List Str)}
  {r₂ : Except Failure β₂}

variable {codes codes' : List EscapeCode} {contents : List (List UInt8)} {files : List R}

section

variable (hcodec : codec.Faithful) (ha : Speaks windows a) (hb : Speaks windows b)

include hcodec ha hb

theorem joint_file {count : Nat} (hfile : Sendable host a b index file content) :
    ∃ writes : List (List UInt8), (isDir file = false → writes.flatten = content) ∧
      ∀ (files : List R) (names : List Str) (g : List Str → TrzszProc β₂) (m : List TrzszCall)
        (c d : List UInt8), Between windows c → Between windows d →
        (TJoint clock host
          (sendEach a codec false (a.configBool "directory".toList) codes maxBufferSize (index + 1)
            (pushName names (openedFor host a b index file).localName) files)
          ((recvEach b codec false (b.configBool "directory".toList) false codes' (index + 1) count
            (pushName names (openedFor host a b index file).localName)).bind g)
          (trailer windows) (trailer windows) r₁ r₂ m) →
        TJoint clock host
          (sendEach a codec false (a.configBool "directory".toList) codes maxBufferSize index names
            (file :: files))
          ((recvEach b codec false (b.configBool "directory".toList) false codes' index (count + 1)
            names).bind g) c d r₁ r₂ (fileCalls a b index file writes ++ m) := by
  cases hd : isDir file with
  | true =>
    refine ⟨[], nofun, fun files names g m c d hc hd' h => ?_⟩
    simp only [sendEach, recvEach, bind_eq, Proc.bind_assoc, fileCalls, hd, if_true]
    refine joint_name hcodec ha hb hfile.named hc hd' ?_
    rw [hfile.opened, hd, if_pos rfl]
    exact h
  | false =>
    obtain ⟨hsize, hmax, hyields⟩ := hfile.declared hd
    obtain ⟨writes, hwrites, hdata⟩ := joint_data hcodec ha hb hmax { file } hyields (Nat.zero_add _) rfl
      (show 0 < 1024 by decide)
    refine ⟨writes, fun _ => hwrites, fun files names g m c d hc hd' h => ?_⟩
    simp only [sendEach, recvEach, bind_eq, Proc.bind_assoc, fileCalls, hd, if_false,
      Bool.false_eq_true, List.cons_append, List.append_assoc]
    refine joint_name hcodec ha hb hfile.named hc hd' ?_
    rw [hfile.opened, hd, if_neg Bool.false_ne_true, Proc.bind_assoc, hsize]
    refine joint_size ha hb hmax (between_trailer _) (between_trailer _) ?_
    rw [Proc.bind_assoc]
    refine hdata _ _ _ _ _ (between_trailer _) (between_trailer _) fun c' d' hc' hd'' => ?_
    rw [Proc.bind_assoc]
    exact joint_md5 hcodec ha hb hc' hd'' h

theorem joint_files (hfiles : SendableFiles host a b index files contents) : ∃ log : List TrzszCall,
      (∀ saved : List SavedFile, saved.length = index →
        log.foldl applyCall saved = saved ++ List.zipWith (deliveredAs a) files contents) ∧
      ∀ (names : List Str) (g : List Str → TrzszProc β₂) (m : List TrzszCall) (c d : List UInt8),
        Between windows c → Between windows d →
        (∀ c' d', TJoint clock host (ret (namesFrom host a b index names files))
          (g (namesFrom host a b index names files)) c' d' r₁ r₂ m) →
        TJoint clock host
          (sendEach a codec false (a.configBool "directory".toList) codes maxBufferSize index names
            files)
          ((recvEach b codec false (b.configBool "directory".toList) false codes' index files.length
            names).bind g) c d r₁ r₂ (log ++ m) := by
  induction hfiles with
  | nil index => exact ⟨[], fun saved _ => by simp, fun names g m c d _ _ h => h c d⟩
  | @cons index file files content contents hfile _ ih =>
    obtain ⟨log, hlog, hrest⟩ := ih
    obtain ⟨writes, hwrites, hone⟩ := joint_file hcodec ha hb hfile
    refine ⟨fileCalls a b index file writes ++ log, fun saved hs => ?_,
      fun names g m c d hc hd h => ?_⟩
    · subst hs
      rw [List.foldl_append, foldl_fileCalls saved hfile.directory hwrites, hlog _ (by simp)]
      simp
    · rw [List.append_assoc]
      exact hone files names g (log ++ m) c d hc hd
        (hrest _ g m _ _ (between_trailer _) (between_trailer _) h)

end

theorem joint_commit {p : TrzszProc (List Str)} {c d : List UInt8} {g : Unit → TrzszProc β₂}
    (files : List Nat) (h : TJoint clock host p (g ()) c d r₁ r₂ m) :
    TJoint clock host p ((commitEach files).bind g) c d r₁ r₂
      ((files.map fun index => .writer index .commitFile) ++ m) := by
  induction files with
  | nil => exact h
  | cons index files ih =>
    rw [commitEach, bind_eq, Proc.bind_assoc]
    exact TJoint.writer ih

/-- The state in which both sides have returned Ok, with the same names, and every file is saved
    under its announced name, byte for byte, finished and committed. -/
structure TrzszDelivered (host : Nat → Str → Bool → SaveFile) (a b : TrzszTransfer)
    (files : List R) (contents : List (List UInt8))
    (net : Net UInt8 TrzszCall TrzszCall.Ans Failure (List Str) TrzszCall TrzszCall.Ans Failure
      (List Str)) : Prop where
  sender : net.left = ret (namesFrom host a b 0 [] files)
  receiver : net.right = ret (namesFrom host a b 0 [] files)
  saved : savedFiles net.rightLog =
    (List.zipWith (deliveredAs a) files contents).map (·.apply .commitFile)

theorem SendableFiles.length_eq (h : SendableFiles host a b index files contents) :
    files.length = contents.length := by
  induction h with
  | nil _ => rfl
  | cons _ _ ih => simp [ih]

/-- **trzsz end to end**, in non-binary mode: every interleaving of `send_files` and `recv_files`
    ends with every file delivered. -/
theorem trzsz_delivers (hcodec : codec.Faithful) (ha : Speaks windows a) (hb : Speaks windows b)
    (hbinary : a.configBool "binary".toList = false ∧ b.configBool "binary".toList = false)
    {files : List R} {contents : List (List UInt8)}
    (hfiles : SendableFiles host a b 0 files contents) (hcount : files.length ≤ u64Max) :
    Completes (Net.Step (answers clock host) (answers clock host))
      (TrzszDelivered host a b files contents)
      { left := sendFiles a codec files, right := recvFiles b codec } := by
  obtain ⟨log, hlog, hjoint⟩ := joint_files hcodec ha hb hfiles
  have hj : TJoint clock host (sendFiles a codec files) (recvFiles b codec) [] []
      (.ok (namesFrom host a b 0 [] files)) (.ok (namesFrom host a b 0 [] files))
      (log ++ (((List.range files.length).map fun index => .writer index .commitFile) ++ [])) := by
    unfold sendFiles recvFiles sendFileNum recvFileNum
    simp only [bind_eq, Proc.bind_assoc, hbinary]
    refine TJoint.integerR ha hb (kind_chars (by decide)) hcount (.inl rfl) ?_
    refine TJoint.checkL ha hb hcount (.inl rfl) ?_
    refine hjoint [] _ _ _ _ (between_trailer _) (between_trailer _) fun c' d' => ?_
    exact joint_commit _ ⟨[], joint_ret _ _⟩
  obtain ⟨l, hj⟩ := hj
  refine hj.completes.mono fun net hfinal => ⟨hfinal.left, hfinal.right, ?_⟩
  have hlen : (List.zipWith (deliveredAs a) files contents).length = files.length := by
    simp [hfiles.length_eq]
  rw [hfinal.rightLog, List.append_nil, savedFiles, List.foldl_append, hlog [] rfl,
    List.nil_append, ← hlen, foldl_commits]

end Files

/-! ## 5. Files in memory -/

/-- A file in memory, as the source's own tests have it. -/
structure MemoryReader where
  relPath : List Str
  data : List UInt8
  offset : Nat := 0

instance : TrzszFileReader MemoryReader where
  pathId _ := 1
  relPath file := file.relPath
  isDir _ := false
  size file := file.data.length
  readFile file room :=
    let stop := min (file.offset + room) file.data.length
    (.ok ((file.data.take stop).drop file.offset), { file with offset := stop })

theorem yields_memoryReader (relPath : List Str) (data : List UInt8) :
    Yields (⟨relPath, data, 0⟩ : MemoryReader) data := by
  refine ⟨fun file bytes => file.offset ≤ file.data.length ∧ bytes = file.data.drop file.offset,
    ⟨Nat.zero_le _, rfl⟩, ?_⟩
  rintro ⟨relPath, data, offset⟩ bytes ⟨hle, rfl⟩ hne room hroom
  have hlt : offset < data.length := by
    by_contra h
    exact hne (List.drop_of_length_le (Nat.not_lt.mp h))
  have hstop : offset < min (offset + room) data.length := by omega
  refine ⟨(data.take (min (offset + room) data.length)).drop offset,
    data.drop (min (offset + room) data.length), _, ?_, ?_, rfl, Nat.min_le_right _ _, rfl⟩
  · have hdrop : data.drop (min (offset + room) data.length) =
        (data.drop offset).drop (min (offset + room) data.length - offset) := by
      rw [List.drop_drop, Nat.add_sub_cancel' (Nat.le_of_lt hstop)]
    rw [List.drop_take, hdrop, List.take_append_drop]
  · intro h
    have hlen := congrArg List.length h
    simp at hlen
    omega

/-- What zlib makes of the texts of a small transfer. -/
def zlibSamples : List (List UInt8 × List UInt8) :=
  [([0x61], [0x78, 0x9c, 0x4b, 0x04, 0x00, 0x00, 0x62, 0x00, 0x62]),
    ([0x62], [0x78, 0x9c, 0x4b, 0x02, 0x00, 0x00, 0x63, 0x00, 0x63]),
    ([0x68, 0x69], [0x78, 0x9c, 0xcb, 0xc8, 0x04, 0x00, 0x01, 0x3b, 0x00, 0xd2]),
    ([0x49, 0xf6, 0x8a, 0x5c, 0x84, 0x93, 0xec, 0x2c, 0x0b, 0xf4, 0x89, 0x82, 0x1c, 0x21, 0xfc, 0x3b],
      [0x78, 0x9c, 0xf3, 0xfc, 0xd6, 0x15, 0xd3, 0x32, 0xf9, 0x8d, 0x0e, 0xf7, 0x97, 0xce, 0x26, 0x19,
        0xc5, 0x3f, 0xd6, 0x00, 0x46, 0x51, 0x07, 0xd3]),
    ([0xd4, 0x1d, 0x8c, 0xd9, 0x8f, 0x00, 0xb2, 0x04, 0xe9, 0x80, 0x09, 0x98, 0xec, 0xf8, 0x42, 0x7e],
      [0x78, 0x9c, 0xbb, 0x22, 0xdb, 0x73, 0xb3, 0x9f, 0x61, 0x13, 0xcb, 0xcb, 0x06, 0xce, 0x19, 0x6f,
        0x7e, 0x38, 0xd5, 0x01, 0x00, 0x45, 0x0c, 0x08, 0x4a])]

/-- A codec with real base64 that knows zlib and MD5 on the samples; other bytes are marked with a
    zero and left as they are. -/
def sampleCodec : Codec where
  compress bytes := match zlibSamples.find? (·.1 == bytes) with
    | some sample => sample.2
    | none => 0 :: bytes
  decompress
    | 0 :: bytes => .ok bytes
    | bytes => match zlibSamples.find? (·.2 == bytes) with
        | some sample => .ok sample.1
        | none => .error "corrupt deflate stream".toList
  base64Encode := base64Encode
  base64Decode text := match base64Decode text with
    | some bytes => .ok bytes
    | none => .error "Invalid padding".toList
  md5 bytes :=
    if bytes = [] then #v[0xd4, 0x1d, 0x8c, 0xd9, 0x8f, 0x00, 0xb2, 0x04, 0xe9, 0x80, 0x09, 0x98, 0xec,
      0xf8, 0x42, 0x7e]
    else if bytes = [0x68, 0x69] then #v[0x49, 0xf6, 0x8a, 0x5c, 0x84, 0x93, 0xec, 0x2c, 0x0b, 0xf4,
      0x89, 0x82, 0x1c, 0x21, 0xfc, 0x3b]
    else Vector.replicate 16 0

theorem sampleCodec_faithful : sampleCodec.Faithful where
  decompress_compress bytes := by
    have hsamples : ∀ sample ∈ zlibSamples, sampleCodec.decompress sample.2 = .ok sample.1 := by
      decide
    cases h : zlibSamples.find? (·.1 == bytes) with
    | none =>
      have hplain : sampleCodec.compress bytes = 0 :: bytes := by simp [sampleCodec, h]
      rw [hplain]
      rfl
    | some sample =>
      have hsample : sampleCodec.compress bytes = sample.2 := by simp [sampleCodec, h]
      have hbytes : sample.1 = bytes := by simpa using List.find?_some h
      rw [hsample, hsamples sample (List.mem_of_find?_eq_some h), hbytes]
  decode_encode bytes := by
    simp [sampleCodec, base64Decode_encode]
  alphabet bytes c hc := by
    have halphabet : ∀ c ∈ base64Alphabet, isBase64Char c = true :=
      List.all_eq_true.mp (by decide)
    rcases base64Encode_alphabet bytes c hc with h | rfl
    · exact halphabet c h
    · decide

/-- Two files, one of two bytes and one empty, between transfers as they are made. -/
theorem trzsz_delivers_two :
    Completes (Net.Step (answers (fun _ _ => 3) fun _ name _ => ⟨name, name, false⟩)
        (answers (fun _ _ => 3) fun _ name _ => ⟨name, name, false⟩))
      (TrzszDelivered (fun _ name _ => ⟨name, name, false⟩) {} {}
        [(⟨[['a']], [0x68, 0x69], 0⟩ : MemoryReader), ⟨[['b']], [], 0⟩] [[0x68, 0x69], []])
      { left := sendFiles {} sampleCodec
          [(⟨[['a']], [0x68, 0x69], 0⟩ : MemoryReader), ⟨[['b']], [], 0⟩],
        right := recvFiles {} sampleCodec } := by
  have hspeaks : Speaks false {} := ⟨rfl, rfl, rfl⟩
  refine trzsz_delivers sampleCodec_faithful hspeaks hspeaks ⟨rfl, rfl⟩ (.cons ?_ (.cons ?_ (.nil 2)))
    (by decide)
  · exact ⟨nofun, rfl, nofun, fun _ => ⟨rfl, by decide, yields_memoryReader _ _⟩⟩
  · exact ⟨nofun, rfl, nofun, fun _ => ⟨rfl, by decide, yields_memoryReader _ _⟩⟩

end Hapcli.Trzsz
