import DarkDrop.Json.Form
import DarkDrop.Proofs.Json.ValueText

namespace DarkDrop.Json

theorem read_all_written {α : Type} (rd : Reader α) (text : List Char) (a : α)
    (reads : Reads rd text a) : rd.readAll text = .ok a := by
  have whole := reads [] trivial
  rw [List.append_nil] at whole
  rw [Reader.readAll, whole]
  rfl

theorem scalar_reads {α : Type} (wanted : String) (accept : Scalar → Except Cause α) (s : Scalar)
    (a : α) (plain : s.Plain) (accepted : accept s = .ok a) :
    Reads (Form.scalar wanted accept).read s.write a := by
  intro rest stops
  change bracketed _ _ _ (s.write ++ rest) = _
  rw [bracketed_scalar _ _ _ s rest plain, scalar_written s rest plain stops]
  simp only [accepted]

theorem count_reads (wanted : String) (n : UInt64) :
    Reads (Form.count wanted).read (Value.ofNat n).write n := by
  rw [Value.ofNat, Value.write]
  exact scalar_reads wanted _ _ n trivial rfl

theorem text_reads (s : String) : Reads Form.text.read (Value.ofString s).write s := by
  rw [Value.ofString, Value.write]
  exact scalar_reads "a string" _ _ s trivial rfl

theorem optional_reads {α : Type} (form : Form α) (c : Char) (s : List Char) (a : α)
    (solid : isSpace c = false) (other : c ≠ 'n') (reads : Reads form.read (c :: s) a) :
    Reads form.optional.read (c :: s) (some a) := by
  intro rest stops
  have value := map_reads form.read some (c :: s) a reads rest stops
  rw [List.cons_append] at value ⊢
  rw [Form.optional]
  simp only [skip_space_opens c _ solid]
  split
  · rename_i null
    exact absurd (List.cons.inj null).1 other
  · exact value

theorem member_reads {σ α β : Type} (rc : Record σ β) (draft : σ) (name : String)
    (get : σ → Option α) (set : σ → α → σ) (form : Form α) (v : Value) (a : α)
    (found : rc.field? name = some (.of name get set form)) (vacant : get draft = none)
    (reads : Reads form.read v.write a) :
    Reads (rc.readMember draft name) (':' :: v.write) (set draft a) := by
  have reader : rc.readMember draft name = afterColon (form.read.map (set draft)) := by
    rw [Record.readMember, found]
    simp [Field.of, vacant]
  rw [reader]
  exact colon_reads _ _ _ (map_reads form.read (set draft) v.write a reads)

theorem record_reads {σ α : Type} (rc : Record σ α) (ms : List (String × Value)) (draft : σ) (a : α)
    (fills : Fills rc.readMember rc.blank ms draft) (complete : rc.complete draft = .ok a) :
    Reads rc.form.read (Value.object ms).write a := by
  intro rest _
  obtain ⟨inside, text, read⟩ := object_written rc.readMember rc.blank draft ms fills rest
  rw [text]
  change rc.completeAfter .missing (members kept rc.readMember rc.blank true inside) = _
  rw [read, Record.completeAfter, complete]

theorem optional_present {α : Type} (form : Form α) (v : Value) (present : v ≠ .scalar .null) :
    form.optional.ofValue v = (form.ofValue v).map some := by
  cases v with
  | scalar s =>
      cases s with
      | null => exact (present rfl).elim
      | bool | number | text => rfl
  | list | object => rfl

theorem optional_value {α : Type} (form : Form α) (v : Value) (a : α)
    (present : v ≠ .scalar .null) (value : form.ofValue v = .ok a) :
    form.optional.ofValue v = .ok (some a) := by
  rw [optional_present form v present, value]
  rfl

theorem list_value {α : Type} (form : Form α) (write : α → Value) (as : List α)
    (value : ∀ a, form.ofValue (write a) = .ok a) :
    form.list.ofValue (.list (as.map write)) = .ok as := by
  change (as.map write).mapM form.ofValue = _
  induction as with
  | nil => rfl
  | cons a as ih =>
      rw [List.map_cons, List.mapM_cons, value, ih]
      rfl

theorem member_taken {σ α β : Type} (rc : Record σ β) (draft : σ) (name : String)
    (get : σ → Option α) (set : σ → α → σ) (form : Form α) (v : Value) (a : α)
    (found : rc.field? name = some (.of name get set form)) (value : form.ofValue v = .ok a) :
    rc.takeMember draft (name, v) = .ok (set draft a) := by
  rw [Record.takeMember, found]
  change (form.ofValue v).map (set draft) = _
  rw [value]
  rfl

theorem record_value {σ α : Type} (rc : Record σ α) (ms : List (String × Value)) (draft : σ) (a : α)
    (taken : ms.foldlM rc.takeMember rc.blank = .ok draft) (complete : rc.complete draft = .ok a) :
    rc.form.ofValue (.object ms) = .ok a := by
  change (do
    let draft ← ms.foldlM rc.takeMember rc.blank
    (rc.complete draft).mapError Cause.missing) = _
  rw [taken]
  change (rc.complete draft).mapError Cause.missing = _
  rw [complete]
  rfl

end DarkDrop.Json
