namespace DarkDrop.Text

def bytes (s : List Char) : List UInt8 := s.flatMap String.utf8EncodeChar

def size : List Char → Nat
  | [] => 0
  | c :: r => c.utf8Size + size r

theorem size_append (a b : List Char) : size (a ++ b) = size a + size b := by
  induction a with
  | nil => simp [size]
  | cons c r ih => simp [size, ih, Nat.add_assoc]

theorem length_bytes (s : List Char) : (bytes s).length = size s := by
  induction s with
  | nil => rfl
  | cons c r ih => simpa [bytes, size] using ih

theorem fromUTF8_bytes (s : List Char) : String.fromUTF8? ⟨(bytes s).toArray⟩ = some (.ofList s) := by
  have whole : (⟨(bytes s).toArray⟩ : ByteArray) = (String.ofList s).toByteArray :=
    ByteArray.ext List.data_toByteArray.symm
  rw [whole, String.fromUTF8?, dif_pos (String.ofList s).isValidUTF8]
  rfl

end DarkDrop.Text
