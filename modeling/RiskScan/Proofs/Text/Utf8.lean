import RiskScan.Text.Utf8
/-!
# Reading what was written as UTF-8

The octets in which a text is written are read back as this text, by the reader that stops at an
invalid stretch. Each character starts with an octet that promises just what follows it.
-/

namespace RiskScan.Text.Utf8

/-- The octets of a text. -/
def encode (text : List Char) : List Nat :=
  (text.flatMap String.utf8EncodeChar).map UInt8.toNat

/-! ### One character -/

theorem continuation_cons {first seen bits following least greatest octet : Nat} {octets : List Nat}
    (h : least ≤ octet ∧ octet ≤ greatest) :
    continuation first seen bits (following + 1) least greatest (octet :: octets) =
      continuation first (seen + 1) (bits * 64 + (octet - 0x80)) following 0x80 0xbf octets := by
  rw [continuation, if_pos h]

theorem pieces_cons_of_ascii {octet : Nat} (h : octet < 0x80) (octets : List Nat) :
    pieces (octet :: octets) = .char (Char.ofNat octet) :: pieces octets := by
  rw [pieces, if_pos h]

theorem pieces_cons_of_promise {octet : Nat} {promise : Promise} {octets rest : List Nat} {c : Char}
    (hascii : 0x80 ≤ octet) (hpromise : promise? octet = some promise)
    (hstep : continuation octet 1 promise.bits promise.following promise.least
      promise.greatest octets =
      (.char c, rest)) :
    pieces (octet :: octets) = .char c :: pieces rest := by
  rw [pieces, if_neg (Nat.not_lt.mpr hascii), hpromise]
  simp only [hstep]

/-- Overlong forms and surrogates narrow what may follow, but no character is one of these. -/
theorem exists_promise_of_three (code : Nat) (hlow : 0x800 ≤ code) (hhigh : code < 0x10000)
    (hvalid : code < 0xd800 ∨ 0xdfff < code) :
    ∃ promise, promise? (code / 4096 + 224) = some promise ∧ promise.following = 2 ∧
      promise.bits = code / 4096 ∧ promise.least ≤ code / 64 % 64 + 128 ∧
      code / 64 % 64 + 128 ≤ promise.greatest := by
  unfold promise?
  rw [if_neg (by omega)]
  split
  · exact ⟨_, rfl, rfl, by dsimp only; omega, by dsimp only; omega⟩
  split
  · exact ⟨_, rfl, rfl, by dsimp only; omega, by dsimp only; omega⟩
  · rw [if_pos (by omega)]
    exact ⟨_, rfl, rfl, by dsimp only; omega, by dsimp only; omega⟩

theorem exists_promise_of_four (code : Nat) (hlow : 0x10000 ≤ code) (hhigh : code < 0x110000) :
    ∃ promise, promise? (code / 262144 + 240) = some promise ∧ promise.following = 3 ∧
      promise.bits = code / 262144 ∧ promise.least ≤ code / 4096 % 64 + 128 ∧
      code / 4096 % 64 + 128 ≤ promise.greatest := by
  unfold promise?
  rw [if_neg (by omega), if_neg (by omega), if_neg (by omega), if_neg (by omega)]
  split
  · exact ⟨_, rfl, rfl, by dsimp only; omega, by dsimp only; omega⟩
  split
  · exact ⟨_, rfl, rfl, by dsimp only; omega, by dsimp only; omega⟩
  · rw [if_pos (by omega)]
    exact ⟨_, rfl, rfl, by dsimp only; omega, by dsimp only; omega⟩

theorem pieces_utf8EncodeChar (c : Char) (octets : List Nat) :
    pieces ((String.utf8EncodeChar c).map UInt8.toNat ++ octets) = .char c :: pieces octets := by
  have hvalid : c.toNat < 0xd800 ∨ 0xdfff < c.toNat ∧ c.toNat < 0x110000 := c.valid
  have hchar {code : Nat} (h : code = c.toNat) : Char.ofNat code = c := h ▸ Char.ofNat_toNat c
  unfold String.utf8EncodeChar
  rw [show c.val.toNat = c.toNat from rfl]
  dsimp only
  split
  · simp only [List.map_cons, List.map_nil, List.cons_append, List.nil_append, UInt8.toNat_ofNat']
    rw [pieces_cons_of_ascii (by omega), hchar (by omega)]
  split
  · simp only [List.map_cons, List.map_nil, List.cons_append, List.nil_append, UInt8.toNat_ofNat']
    refine pieces_cons_of_promise (by omega) (if_pos (by omega)) ?_
    dsimp only
    rw [continuation_cons (by omega), continuation, hchar (by omega)]
  split
  · simp only [List.map_cons, List.map_nil, List.cons_append, List.nil_append, UInt8.toNat_ofNat']
    obtain ⟨promise, hpromise, hfollowing, hbits, hnext⟩ :=
      exists_promise_of_three c.toNat (by omega) (by omega) (by omega)
    rw [show (c.toNat / 4096 % 16 + 224) % 2 ^ 8 = c.toNat / 4096 + 224 by omega]
    refine pieces_cons_of_promise (by omega) hpromise ?_
    rw [hfollowing, hbits, continuation_cons (by omega), continuation_cons (by omega), continuation,
      hchar (by omega)]
  · simp only [List.map_cons, List.map_nil, List.cons_append, List.nil_append, UInt8.toNat_ofNat']
    obtain ⟨promise, hpromise, hfollowing, hbits, hnext⟩ :=
      exists_promise_of_four c.toNat (by omega) (by omega)
    rw [show (c.toNat / 262144 % 8 + 240) % 2 ^ 8 = c.toNat / 262144 + 240 by omega]
    refine pieces_cons_of_promise (by omega) hpromise ?_
    rw [hfollowing, hbits, continuation_cons (by omega), continuation_cons (by omega),
      continuation_cons (by omega), continuation, hchar (by omega)]

/-! ### A text -/

theorem pieces_encode (text : List Char) : pieces (encode text) = text.map .char := by
  unfold encode
  induction text with
  | nil => rw [List.flatMap_nil, List.map_nil, pieces, List.map_nil]
  | cons c text ih =>
    rw [List.flatMap_cons, List.map_append, pieces_utf8EncodeChar, ih, List.map_cons]

theorem charsOf_map_char (position : Nat) (text : List Char) :
    charsOf position (text.map .char) = .ok text := by
  induction text generalizing position with
  | nil => rfl
  | cons c text ih =>
    rw [List.map_cons, charsOf, ih]
    rfl

theorem decode_encode (text : List Char) : decode (encode text) = .ok text := by
  rw [decode, pieces_encode, charsOf_map_char]

/-! ### The octets of a string -/

theorem toList_loop (octets : ByteArray) (position : Nat) (read : List UInt8) :
    ByteArray.toList.loop octets position read =
      read.reverse ++ octets.data.toList.drop position := by
  fun_induction ByteArray.toList.loop octets position read with
  | case1 position read hlt ih =>
    have hlength : position < octets.data.toList.length := by simpa using hlt
    have hget : octets.get! position = octets.data.toList[position] := by
      change octets.data[position]! = _
      rw [getElem!_pos octets.data position hlt, Array.getElem_toList]
    rw [ih, List.drop_eq_getElem_cons hlength, hget]
    simp
  | case2 position read hge =>
    rw [List.drop_eq_nil_of_le (by simpa using Nat.le_of_not_lt hge), List.append_nil]

theorem toUTF8_ofList (text : List Char) :
    (String.ofList text).toUTF8.toList.map UInt8.toNat = encode text := by
  rw [ByteArray.toList, toList_loop, String.toUTF8_eq_toByteArray, String.toByteArray_ofList]
  simp [encode, List.utf8Encode]

end RiskScan.Text.Utf8
