import DarkDrop.Proofs.Url.Percent
import DarkDrop.Text.Split
import DarkDrop.Url.Edit

namespace DarkDrop.Url

def spaced (c : Char) : Char := if c = '+' then ' ' else c

def formText? (s : List Char) : Option String := (decode? (s.map spaced)).map String.ofList

def formPair? (part : List Char) : Option (String × String) := do
  let name ← formText? (part.takeWhile (· ≠ '='))
  let value ← formText? (part.dropWhile (· ≠ '=')).tail
  return (name, value)

def formPairs? (query : List Char) : Option (List (String × String)) :=
  ((Text.splitAt '&' query).filter (! ·.isEmpty)).mapM formPair?

theorem spaced_plain (c : Char) (plain : c ≠ '+') : spaced c = c := if_neg plain

theorem plain_byte (b : UInt8) (plain : isFormByte b = true) :
    Char.ofNat b.toNat ∉ ['+', '%', '&', '=', '#'] ∧ Text.bytes [Char.ofNat b.toNat] = [b] := by
  have each : ∀ n < 256, isFormByte (.ofNat n) = true →
      Char.ofNat n ∉ ['+', '%', '&', '=', '#'] ∧ Text.bytes [Char.ofNat n] = [.ofNat n] := by decide +kernel
  have found := each b.toNat b.toNat_lt
  rw [UInt8.ofNat_toNat] at found
  exact found plain

theorem encoded_spaced (b : UInt8) : (encodeByte b).map spaced = encodeByte b := by
  have digits : ∀ n < 16, spaced (upperHex n) = upperHex n := by decide
  have range := b.toNat_lt
  rw [encodeByte, List.map_cons, List.map_cons, List.map_cons, digits _ (by omega), digits _ (by omega)]
  rfl

-- A space is the only byte that is written as a plus, and a plus that was meant stays in hexadecimal.
theorem form_byte_decoded (b : UInt8) (rest : List Char) :
    decodeBytes ((formByte b).map spaced ++ rest) = b :: decodeBytes rest := by
  by_cases plain : isFormByte b = true
  · obtain ⟨apart, whole⟩ := plain_byte b plain
    have unplus : Char.ofNat b.toNat ≠ '+' := fun same => apart (by simp [same])
    have uncoded : Char.ofNat b.toNat ≠ '%' := fun same => apart (by simp [same])
    rw [formByte, if_pos plain, List.map_singleton, spaced_plain _ unplus, List.singleton_append,
      plain_decoded _ rest uncoded, whole, List.singleton_append]
  · by_cases blank : b = 0x20
    · subst blank
      exact plain_decoded ' ' rest (by decide)
    · rw [formByte, if_neg plain, if_neg blank, encoded_spaced]
      exact byte_decoded b rest

theorem form_decoded (bs : List UInt8) : decodeBytes ((bs.flatMap formByte).map spaced) = bs := by
  induction bs with
  | nil => simp [decodeBytes]
  | cons b bs ih => rw [List.flatMap_cons, List.map_append, form_byte_decoded, ih]

theorem form_text (s : List Char) : formText? (formEncode s) = some (String.ofList s) := by
  rw [formText?, formEncode, decode_of_bytes _ s (form_decoded (Text.bytes s))]
  rfl

theorem form_bounded (s : List Char) (c : Char) (separator : c ∈ ['&', '=', '#']) : c ∉ formEncode s := by
  intro member
  obtain ⟨b, -, inside⟩ := List.mem_flatMap.mp member
  rw [formByte] at inside
  by_cases plain : isFormByte b = true
  · rw [if_pos plain, List.mem_singleton] at inside
    subst inside
    exact (plain_byte b plain).1 (List.mem_cons_of_mem _ (List.mem_cons_of_mem _ separator))
  · rw [if_neg plain] at inside
    by_cases blank : b = 0x20
    · rw [if_pos blank, List.mem_singleton] at inside
      subst inside
      exact absurd separator (by decide)
    · rw [if_neg blank, encodeByte] at inside
      have digits : ∀ n < 16, upperHex n ∉ ['&', '=', '#'] := by decide
      have range := b.toNat_lt
      simp only [List.mem_cons, List.not_mem_nil, or_false] at inside
      obtain rfl | rfl | rfl := inside
      · exact absurd separator (by decide)
      · exact digits _ (by omega) separator
      · exact digits _ (by omega) separator

theorem named_taken (name value : List Char) (bounded : '=' ∉ name) :
    (name ++ '=' :: value).takeWhile (· ≠ '=') = name ∧
      ((name ++ '=' :: value).dropWhile (· ≠ '=')).tail = value := by
  have before : ∀ c ∈ name, decide (c ≠ '=') = true := fun c member =>
    decide_eq_true fun same => bounded (same ▸ member)
  constructor
  · rw [List.takeWhile_append_of_pos before]
    simp
  · rw [List.dropWhile_append_of_pos before]
    simp

def formQuery (name value : List Char) : List Char := formEncode name ++ '=' :: formEncode value

theorem query_bounded (name value : List Char) (c : Char) (separator : c = '&' ∨ c = '#') :
    c ∉ formQuery name value := by
  have listed : c ∈ ['&', '=', '#'] := by rcases separator with rfl | rfl <;> decide
  have other : c ≠ '=' := by rcases separator with rfl | rfl <;> decide
  rw [formQuery, List.mem_append, List.mem_cons]
  rintro (inside | same | inside)
  · exact form_bounded name c listed inside
  · exact other same
  · exact form_bounded value c listed inside

theorem form_pairs (name value : List Char) :
    formPairs? (formQuery name value) = some [(String.ofList name, String.ofList value)] := by
  have named := named_taken (formEncode name) (formEncode value) (form_bounded name '=' (by decide))
  have filled : (formQuery name value).isEmpty = false := by simp [formQuery]
  have pair : formPair? (formQuery name value) = some (String.ofList name, String.ofList value) := by
    rw [formPair?, formQuery, named.1, named.2, form_text, form_text]
    rfl
  rw [formPairs?, Text.splitAt_whole '&' _ (query_bounded name value '&' (.inl rfl))]
  simp [filled, pair]

end DarkDrop.Url
