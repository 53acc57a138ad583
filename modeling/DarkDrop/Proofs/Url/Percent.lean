import DarkDrop.Url.Read

namespace DarkDrop.Url

theorem hex_value (n : Nat) (digit : n < 16) : hexValue (upperHex n) = some n := by
  have each : ∀ n ∈ List.range 16, hexValue (upperHex n) = some n := by decide
  exact each n (List.mem_range.mpr digit)

theorem byte_decoded (b : UInt8) (rest : List Char) :
    decodeBytes (encodeByte b ++ rest) = b :: decodeBytes rest := by
  have range := b.toNat_lt
  have high := hex_value (b.toNat / 16) (by omega)
  have low := hex_value (b.toNat % 16) (by omega)
  simp only [encodeByte, List.cons_append, List.nil_append]
  rw [decodeBytes, high, low]
  simp only [Nat.div_add_mod', UInt8.ofNat_toNat]

theorem bytes_decoded (bs : List UInt8) (rest : List Char) :
    decodeBytes (bs.flatMap encodeByte ++ rest) = bs ++ decodeBytes rest := by
  induction bs with
  | nil => rfl
  | cons b bs ih => rw [List.flatMap_cons, List.append_assoc, byte_decoded, ih, List.cons_append]

theorem plain_decoded (c : Char) (rest : List Char) (plain : c ≠ '%') :
    decodeBytes (c :: rest) = Text.bytes [c] ++ decodeBytes rest := by
  rw [decodeBytes]
  intro a b r same
  exact absurd same plain

-- Reading back needs the percent sign to be among what is encoded, and nothing else.
theorem char_decoded (encoded : Char → Bool) (escaped : encoded '%' = true) (c : Char)
    (rest : List Char) :
    decodeBytes (encodeChar encoded c ++ rest) = Text.bytes [c] ++ decodeBytes rest := by
  rw [encodeChar]
  split
  case isTrue => exact bytes_decoded _ rest
  case isFalse free =>
    refine plain_decoded c rest ?_
    rintro rfl
    exact free escaped

theorem text_decoded (encoded : Char → Bool) (escaped : encoded '%' = true) (s : List Char) :
    decodeBytes (encode encoded s) = Text.bytes s := by
  induction s with
  | nil => simp [encode, decodeBytes, Text.bytes]
  | cons c s ih =>
    rw [encode, List.flatMap_cons, char_decoded encoded escaped, ← encode, ih]
    simp only [Text.bytes, List.flatMap_cons, List.flatMap_nil, List.append_nil]

theorem decode_of_bytes (s t : List Char) (same : decodeBytes s = Text.bytes t) : decode? s = some t := by
  rw [decode?, same, Text.fromUTF8_bytes]
  exact congrArg some String.toList_ofList

theorem decode_encode (encoded : Char → Bool) (escaped : encoded '%' = true) (s : List Char) :
    decode? (encode encoded s) = some s :=
  decode_of_bytes _ _ (text_decoded encoded escaped s)

theorem encode_injective (encoded : Char → Bool) (escaped : encoded '%' = true) (s t : List Char)
    (same : encode encoded s = encode encoded t) : s = t := by
  have decoded := congrArg decode? same
  rw [decode_encode encoded escaped, decode_encode encoded escaped] at decoded
  exact Option.some.inj decoded

theorem encode_member (encoded : Char → Bool) (s : List Char) (c : Char) (member : c ∈ encode encoded s) :
    c = '%' ∨ (∃ n < 16, c = upperHex n) ∨ encoded c = false := by
  obtain ⟨d, _, inside⟩ := List.mem_flatMap.mp member
  rw [encodeChar] at inside
  split at inside
  case isTrue =>
    obtain ⟨b, _, inside⟩ := List.mem_flatMap.mp inside
    have range := b.toNat_lt
    simp only [encodeByte, List.mem_cons, List.not_mem_nil, or_false] at inside
    obtain rfl | rfl | rfl := inside
    · exact .inl rfl
    · exact .inr (.inl ⟨_, by omega, rfl⟩)
    · exact .inr (.inl ⟨_, by omega, rfl⟩)
  case isFalse free =>
    rw [List.mem_singleton.mp inside]
    exact .inr (.inr (Bool.eq_false_iff.mpr free))

theorem segment_bounded (s : List Char) (c : Char) (separator : c ∈ ['/', '\\', '?', '#']) :
    c ∉ encode inSegment s := by
  intro member
  have digits : ∀ n < 16, upperHex n ∉ ['/', '\\', '?', '#'] := by decide
  obtain rfl | ⟨n, digit, rfl⟩ | free := encode_member inSegment s c member
  · exact absurd separator (by decide)
  · exact digits n digit separator
  · have held : ['/', '\\', '?', '#'].all inSegment = true := by decide
    rw [List.all_eq_true.mp held c separator] at free
    cases free

theorem lower_from (c d : Char) (same : c.toLower = d) :
    c = d ∨ (65 ≤ c.toNat ∧ c.toNat + 32 = d.toNat) := by
  subst same
  unfold Char.toLower
  split
  case isTrue upper =>
    have first := upper.1
    have last := upper.2
    simp only [Char.toNat, ge_iff_le, UInt32.le_iff_toNat_le, UInt32.toNat_add] at *
    simp at *
    omega
  case isFalse => exact .inl rfl

theorem lower_sign (c d : Char) (same : c.toLower = d) (sign : d.toNat < 97) : c = d := by
  obtain rfl | ⟨_, apart⟩ := lower_from c d same
  · rfl
  · omega

theorem lower_e (c : Char) (same : c.toLower = 'e') : c = 'e' ∨ c = 'E' := by
  obtain rfl | ⟨_, apart⟩ := lower_from c 'e' same
  · exact .inl rfl
  · refine .inr (Char.toNat_inj.mp ?_)
    have small : 'e'.toNat = 101 := rfl
    have capital : 'E'.toNat = 69 := rfl
    omega

theorem dot_decoded (s : List Char) (rest : List Char) (dot : s.map Char.toLower ∈ [['.'], ['%', '2', 'e']]) :
    decodeBytes (s ++ rest) = Text.bytes ['.'] ++ decodeBytes rest := by
  simp only [List.mem_cons, List.not_mem_nil, or_false, List.map_eq_cons_iff, List.map_eq_nil_iff] at dot
  obtain ⟨c, _, rfl, same, rfl⟩ | ⟨a, _, rfl, sign, b, _, rfl, digit, c, _, rfl, letter, rfl⟩ := dot
  · rw [lower_sign c '.' same (by decide)]
    exact plain_decoded '.' rest (by decide)
  · rw [lower_sign a '%' sign (by decide), lower_sign b '2' digit (by decide)]
    obtain rfl | rfl := lower_e c letter
    all_goals
      rw [List.cons_append, List.cons_append, List.cons_append, decodeBytes]
      rfl

theorem one_dot (s : List Char) (dot : isDot s = true) : decode? s = some ['.'] := by
  have listed : s.map Char.toLower ∈ [['.'], ['%', '2', 'e']] := by
    simpa [isDot, ← String.toList_inj] using dot
  have decoded := dot_decoded s [] listed
  rw [List.append_nil] at decoded
  exact decode_of_bytes s ['.'] (decoded.trans (by simp [decodeBytes]))

theorem two_dots (s : List Char) (dots : isDotDot s = true) : decode? s = some ['.', '.'] := by
  have listed : ∃ a ∈ [['.'], ['%', '2', 'e']], ∃ b ∈ [['.'], ['%', '2', 'e']],
      s.map Char.toLower = a ++ b := by
    simpa [isDotDot, ← String.toList_inj, or_assoc, or_left_comm] using dots
  obtain ⟨a, first, b, second, joined⟩ := listed
  obtain ⟨s, t, rfl, rfl, rfl⟩ := List.map_eq_append_iff.mp joined
  have decoded := dot_decoded t [] second
  rw [List.append_nil] at decoded
  refine decode_of_bytes (s ++ t) ['.', '.'] ?_
  rw [dot_decoded s t first, decoded, decodeBytes]
  rfl

end DarkDrop.Url
