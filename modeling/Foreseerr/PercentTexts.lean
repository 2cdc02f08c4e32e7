import Foreseerr.Qs

/-!
# Percent-encoded texts

`encode_param` writes a parameter into a path: the UTF-8 bytes of its characters, those a
path segment cannot hold as `%XX`. `decode_uri_component` reads any such text back
(`decode_encodeParam`), and what is written holds no slash (`not_mem_encodeParam`).
-/

namespace Foreseerr.Qs

/-! ## UTF-8 -/

theorem char_bounds (c : Char) :
    c.toNat < 0xd800 ∨ (0xdfff < c.toNat ∧ c.toNat < 0x110000) := by
  have hvalid := c.valid
  unfold UInt32.isValidChar Nat.isValidChar at hvalid
  exact hvalid

theorem toNat_utf8EncodeChar (c : Char) :
    (String.utf8EncodeChar c).map UInt8.toNat =
      if c.toNat ≤ 0x7f then [c.toNat]
      else if c.toNat ≤ 0x7ff then [c.toNat / 64 + 0xc0, c.toNat % 64 + 0x80]
      else if c.toNat ≤ 0xffff then
        [c.toNat / 4096 + 0xe0, c.toNat / 64 % 64 + 0x80, c.toNat % 64 + 0x80]
      else [c.toNat / 262144 + 0xf0, c.toNat / 4096 % 64 + 0x80, c.toNat / 64 % 64 + 0x80,
        c.toNat % 64 + 0x80] := by
  have hbounds := char_bounds c
  have hval : c.val.toNat = c.toNat := rfl
  unfold String.utf8EncodeChar
  dsimp only
  rw [hval]
  split_ifs with h1 h2 h3
  · simp only [List.map_cons, List.map_nil, UInt8.toNat_ofNat', List.cons.injEq, and_true]
    omega
  · simp only [List.map_cons, List.map_nil, UInt8.toNat_ofNat', List.cons.injEq, and_true]
    omega
  · simp only [List.map_cons, List.map_nil, UInt8.toNat_ofNat', List.cons.injEq, and_true]
    omega
  · simp only [List.map_cons, List.map_nil, UInt8.toNat_ofNat', List.cons.injEq, and_true]
    omega

theorem isContinuation_add {n : Nat} (h : n < 64) : isContinuation (n + 0x80) = true := by
  unfold isContinuation
  rw [Bool.and_eq_true, decide_eq_true_iff, decide_eq_true_iff]
  omega

/-- The bytes of a character are read back as the character. -/
theorem fromUtf8_append (c : Char) (rest : List Nat) :
    fromUtf8 ((String.utf8EncodeChar c).map UInt8.toNat ++ rest)
      = (fromUtf8 rest).map (c :: ·) := by
  have hbounds := char_bounds c
  have hcont : ∀ n : Nat, isContinuation (n % 64 + 0x80) = true := fun n =>
    isContinuation_add (Nat.mod_lt n (by decide))
  rw [toNat_utf8EncodeChar]
  split_ifs with h1 h2 h3
  · rw [List.singleton_append, fromUtf8.eq_def]
    dsimp only
    rw [if_pos (by omega), Char.ofNat_toNat]
  · have hvalue : (c.toNat / 64 + 0xc0 - 0xc0) * 64 + (c.toNat % 64 + 0x80 - 0x80) = c.toNat := by
      omega
    rw [List.cons_append, List.singleton_append, fromUtf8.eq_def]
    dsimp only
    rw [if_neg (by omega), if_pos ⟨by omega, by omega, hcont _⟩, hvalue, Char.ofNat_toNat]
  · have hvalue : (c.toNat / 4096 + 0xe0 - 0xe0) * 4096 + (c.toNat / 64 % 64 + 0x80 - 0x80) * 64
        + (c.toNat % 64 + 0x80 - 0x80) = c.toNat := by
      omega
    rw [List.cons_append, List.cons_append, List.singleton_append, fromUtf8.eq_def]
    dsimp only
    rw [if_neg (by omega), if_neg (by omega), hvalue,
      if_pos ⟨by omega, by omega, hcont _, hcont _, by omega, by omega⟩, Char.ofNat_toNat]
  · have hvalue : (c.toNat / 262144 + 0xf0 - 0xf0) * 262144
        + (c.toNat / 4096 % 64 + 0x80 - 0x80) * 4096 + (c.toNat / 64 % 64 + 0x80 - 0x80) * 64
        + (c.toNat % 64 + 0x80 - 0x80) = c.toNat := by
      omega
    rw [List.cons_append, List.cons_append, List.cons_append, List.singleton_append,
      fromUtf8.eq_def]
    dsimp only
    rw [if_neg (by omega), if_neg (by omega), if_neg (by omega), hvalue,
      if_pos ⟨by omega, by omega, hcont _, hcont _, hcont _, by omega, by omega⟩, Char.ofNat_toNat]

theorem fromUtf8_bytes (text : Text) (rest : List Nat) :
    fromUtf8 ((text.flatMap fun c => (String.utf8EncodeChar c).map UInt8.toNat) ++ rest)
      = (fromUtf8 rest).map (text ++ ·) := by
  induction text with
  | nil =>
    rw [List.flatMap_nil, List.nil_append]
    exact Option.map_id'.symm
  | cons c text ih =>
    rw [List.flatMap_cons, List.append_assoc, fromUtf8_append, ih, Option.map_map]
    rfl

/-! ## Encoding -/

/-- `hex`. -/
def hex (nibble : Nat) : Char :=
  if nibble < 10 then Char.ofNat ('0'.toNat + nibble) else Char.ofNat ('A'.toNat + nibble - 10)

/-- A byte that stands in a path segment as it is. -/
def isKept (byte : Nat) : Bool :=
  let c := Char.ofNat byte
  c.isAlphanum || c ∈ ['-', '.', '_', '~', '!', '$', '&', '\'', '(', ')', '*', '+', ',', ';', '=',
    ':', '@']

/-- One byte of `encode_param`. -/
def encodeByte (byte : Nat) : Text :=
  if isKept byte then [Char.ofNat byte] else ['%', hex (byte / 16), hex (byte % 16)]

/-- `encode_param`. -/
def encodeParam (value : Text) : Text :=
  value.flatMap fun c => ((String.utf8EncodeChar c).map UInt8.toNat).flatMap encodeByte

example : encodeParam "a b%/é".toList = "a%20b%25%2F%C3%A9".toList := by decide +kernel

/-! ## The round trip -/

theorem hexDigit_hex : ∀ n < 16, hexDigit (hex n) = some n := by
  decide

theorem not_mem_encodeByte : ∀ byte < 256, '/' ∉ encodeByte byte := by
  decide +kernel

theorem percentBytes_kept : ∀ byte < 256, isKept byte = true →
    Char.ofNat byte ≠ '%' ∧ (String.utf8EncodeChar (Char.ofNat byte)).map UInt8.toNat = [byte] := by
  decide +kernel

theorem percentBytes_cons {c : Char} (h : c ≠ '%') (rest : Text) :
    percentBytes (c :: rest) = (percentBytes rest).map fun bytes =>
      (String.utf8EncodeChar c).map UInt8.toNat ++ bytes := by
  rw [percentBytes, if_neg h]
  rintro h' l rest' rfl
  exact absurd rfl h

theorem percentBytes_encodeByte {byte : Nat} (h : byte < 256) (rest : Text) :
    percentBytes (encodeByte byte ++ rest) = (percentBytes rest).map (byte :: ·) := by
  unfold encodeByte
  split
  next hkept =>
    obtain ⟨hpercent, hbytes⟩ := percentBytes_kept byte h hkept
    rw [List.singleton_append, percentBytes_cons hpercent, hbytes]
    rfl
  next hkept =>
    rw [List.cons_append, List.cons_append, List.singleton_append, percentBytes,
      hexDigit_hex _ (by omega), hexDigit_hex _ (by omega)]
    dsimp only
    rw [Nat.mul_comm, Nat.div_add_mod]

theorem lt_of_mem_bytes {c : Char} :
    ∀ byte ∈ (String.utf8EncodeChar c).map UInt8.toNat, byte < 256 := by
  intro byte hbyte
  obtain ⟨b, -, rfl⟩ := List.mem_map.1 hbyte
  exact b.toNat_lt

theorem percentBytes_encodeBytes {bytes : List Nat} (h : ∀ byte ∈ bytes, byte < 256) (rest : Text) :
    percentBytes (bytes.flatMap encodeByte ++ rest) = (percentBytes rest).map (bytes ++ ·) := by
  induction bytes with
  | nil =>
    rw [List.flatMap_nil, List.nil_append]
    exact Option.map_id'.symm
  | cons byte bytes ih =>
    rw [List.forall_mem_cons] at h
    rw [List.flatMap_cons, List.append_assoc, percentBytes_encodeByte h.1, ih h.2, Option.map_map]
    rfl

theorem percentBytes_encodeParam (value rest : Text) :
    percentBytes (encodeParam value ++ rest) = (percentBytes rest).map
      ((value.flatMap fun c => (String.utf8EncodeChar c).map UInt8.toNat) ++ ·) := by
  induction value with
  | nil =>
    rw [List.flatMap_nil]
    exact Option.map_id'.symm
  | cons c value ih =>
    have hcons : encodeParam (c :: value)
        = ((String.utf8EncodeChar c).map UInt8.toNat).flatMap encodeByte ++ encodeParam value :=
      List.flatMap_cons
    rw [hcons, List.append_assoc, percentBytes_encodeBytes lt_of_mem_bytes, ih, Option.map_map,
      List.flatMap_cons]
    simp only [Function.comp_def, List.append_assoc]

/-- A text without escapes is read as itself, the long way too. -/
theorem percentBytes_plain {text : Text} (h : '%' ∉ text) :
    percentBytes text = some (text.flatMap fun c => (String.utf8EncodeChar c).map UInt8.toNat) := by
  induction text with
  | nil => rfl
  | cons c text ih =>
    rw [List.mem_cons, not_or] at h
    rw [percentBytes_cons (Ne.symm h.1), ih h.2]
    rfl

theorem decodeUriComponent_eq (text : Text) :
    decodeUriComponent text = (percentBytes text).bind fromUtf8 := by
  unfold decodeUriComponent
  split
  next hplain =>
    have hbytes := fromUtf8_bytes text []
    rw [List.append_nil] at hbytes
    rw [percentBytes_plain hplain, Option.bind_some, hbytes]
    simp [fromUtf8]
  next => rfl

/-- **An encoded parameter is read back.** -/
theorem decode_encodeParam (value : Text) :
    decodeUriComponent (encodeParam value) = some value := by
  have hpercent := percentBytes_encodeParam value []
  have hbytes := fromUtf8_bytes value []
  rw [List.append_nil] at hpercent hbytes
  rw [decodeUriComponent_eq, hpercent]
  simp only [percentBytes, Option.map_some, List.append_nil, Option.bind_some, hbytes, fromUtf8]

/-- **An encoded parameter is one segment of a path.** -/
theorem not_mem_encodeParam (value : Text) : '/' ∉ encodeParam value := by
  intro h
  obtain ⟨c, -, hc⟩ := List.mem_flatMap.1 h
  obtain ⟨byte, hbyte, hslash⟩ := List.mem_flatMap.1 hc
  exact not_mem_encodeByte byte (lt_of_mem_bytes byte hbyte) hslash

end Foreseerr.Qs
