import DarkDrop.Storage.FileTree

namespace DarkDrop

namespace FileTree

theorem find_erase (t : FileTree) (names : List String) (below : names ≠ []) :
    (t.erase names).find? names = none := by
  simp [find?, erase, below]

theorem find_erase_other (t : FileTree) (names other : List String) (apart : other ≠ names) :
    (t.erase names).find? other = t.find? other := by
  have same : (t.nodes.filter (·.1 ≠ names)).find? (·.1 = other) = t.nodes.find? (·.1 = other) := by
    rw [List.find?_filter]
    congr 1
    funext node
    by_cases here : node.1 = other
    · simp [here, apart]
    · simp [here]
  rw [find?, find?, erase, same]

theorem find_put (t : FileTree) (names other : List String) (n : FileNode) (below : other ≠ []) :
    (t.put names n).find? other = if other = names then some n else t.find? other := by
  have left : (t.put names n).find? other =
      ((t.erase names).find? other).or (if names = other then some n else none) := by
    simp only [find?, put, erase, List.isEmpty_eq_false_iff.mpr below, Bool.false_eq_true, if_false,
      List.find?_append, Option.map_or]
    by_cases here : names = other <;> simp [here]
  rw [left]
  by_cases here : other = names
  · rw [here, find_erase t names (here ▸ below), if_pos rfl, if_pos rfl, Option.none_or]
  · rw [find_erase_other t names other here, if_neg here, if_neg (Ne.symm here), Option.or_none]

theorem put_kept (t : FileTree) (names : List String) (n : FileNode)
    (spared : t.find? names ≠ some .directory) (other : List String)
    (directory : t.find? other = some .directory) : (t.put names n).find? other = some .directory := by
  by_cases root : other = []
  · rw [root, find?, if_pos List.isEmpty_nil]
  · have apart : other ≠ names := fun same => spared (same ▸ directory)
    rw [find_put t names other n root, if_neg apart, directory]

theorem erase_kept (t : FileTree) (names : List String) (spared : t.find? names ≠ some .directory)
    (other : List String) (directory : t.find? other = some .directory) :
    (t.erase names).find? other = some .directory := by
  have apart : other ≠ names := fun same => spared (same ▸ directory)
  rw [find_erase_other t names other apart, directory]

section

-- A walk needs no more than the directories that it goes through.
variable (t u : FileTree) (kept : ∀ names, t.find? names = some .directory → u.find? names = some .directory)
include kept

theorem child_kept (place : Place) (name : String) (held : t.child place name = .ok (some .directory)) :
    u.child place name = .ok (some .directory) := by
  cases place with
  | none =>
      rw [child] at held
      split at held <;> cases held
  | some names =>
      rw [child] at held ⊢
      split at held
      · cases held
      · rename_i short
        rw [if_neg short, kept _ (Except.ok.inj held)]

theorem enter_kept (place next : Place) (name : String) (entered : t.enter place name = .ok next) :
    u.enter place name = .ok next := by
  rw [enter] at entered ⊢
  by_cases dot : name = "."
  · rw [if_pos dot] at entered ⊢
    exact entered
  · rw [if_neg dot] at entered ⊢
    by_cases up : name = ".."
    · rw [if_pos up] at entered ⊢
      exact entered
    · rw [if_neg up] at entered ⊢
      cases held : t.child place name with
      | error e =>
          rw [held] at entered
          cases entered
      | ok node =>
          rw [held] at entered
          cases node with
          | none => cases entered
          | some node =>
              cases node with
              | file bytes => cases entered
              | directory =>
                  rw [child_kept t u kept place name held]
                  exact entered

theorem walk_kept (through : List String) (place last : Place) (walked : t.walk place through = .ok last) :
    u.walk place through = .ok last := by
  induction through generalizing place with
  | nil => exact walked
  | cons name names ih =>
      rw [walk] at walked ⊢
      cases entered : t.enter place name with
      | error e =>
          rw [entered] at walked
          cases walked
      | ok next =>
          rw [entered] at walked
          rw [enter_kept t u kept place next name entered]
          exact ih next walked

theorem reach_kept (path : String) (place : Place) (p : FilePath) (reached : t.reach path = .ok (place, p)) :
    u.reach path = .ok (place, p) := by
  rw [reach] at reached ⊢
  by_cases given : path.isEmpty
  · rw [if_pos given] at reached
    cases reached
  · rw [if_neg given] at reached ⊢
    by_cases long : FilePath.lengthLimit < Text.size path.toList
    · rw [if_pos long] at reached
      cases reached
    · rw [if_neg long] at reached ⊢
      dsimp only at reached ⊢
      cases walked : t.walk (some []) (FilePath.ofString path).through with
      | error e =>
          rw [walked] at reached
          cases reached
      | ok last =>
          rw [walked] at reached
          rw [walk_kept t u kept _ _ last walked]
          exact reached

end

structure Leads (t : FileTree) (path : String) (names : List String) (p : FilePath) : Prop where
  reached : t.reach path = .ok (some names, p)
  named : isDot p.name = false
  short : ¬ FilePath.nameLimit < Text.size p.name.toList

theorem leads_kept (t u : FileTree) (path : String) (names : List String) (p : FilePath)
    (kept : ∀ names, t.find? names = some .directory → u.find? names = some .directory)
    (leads : t.Leads path names p) : u.Leads path names p :=
  ⟨reach_kept t u kept path _ p leads.reached, leads.named, leads.short⟩

theorem child_found (t : FileTree) (path : String) (names : List String) (p : FilePath)
    (leads : t.Leads path names p) : t.child (some names) p.name = .ok (t.find? (names ++ [p.name])) := by
  rw [child, if_neg leads.short]

theorem child_short (t : FileTree) (place : Place) (name : String) (node : Option FileNode)
    (held : t.child place name = .ok node) : ¬ FilePath.nameLimit < Text.size name.toList := by
  intro long
  rw [child.eq_def, if_pos long] at held
  cases held

theorem child_outside (t : FileTree) (name : String) (node : Option FileNode)
    (held : t.child none name = .ok node) : node = none := by
  have short := child_short t none name node held
  rw [child.eq_def, if_neg short] at held
  exact (Except.ok.inj held).symm

theorem leads_found (t : FileTree) (path : String) (names : List String) (p : FilePath) (node : Option FileNode)
    (reached : t.reach path = .ok (some names, p)) (named : isDot p.name = false)
    (held : t.child (some names) p.name = .ok node) :
    t.Leads path names p ∧ t.find? (names ++ [p.name]) = node := by
  have leads : t.Leads path names p := ⟨reached, named, child_short t (some names) p.name node held⟩
  exact ⟨leads, Except.ok.inj ((child_found t path names p leads).symm.trans held)⟩

structure Written (t u : FileTree) (path : String) (bytes : List UInt8) (names : List String) (p : FilePath) :
    Prop where
  leads : t.Leads path names p
  open_ended : p.slash = false
  spared : t.find? (names ++ [p.name]) ≠ some .directory
  left : u = t.put (names ++ [p.name]) (.file bytes)

theorem write_leads (t u : FileTree) (path : String) (bytes : List UInt8) (done : t.write path bytes = .ok u) :
    ∃ names p, Written t u path bytes names p := by
  rw [write] at done
  cases reached : t.reach path with
  | error e =>
      rw [reached] at done
      cases done
  | ok way =>
      obtain ⟨place, p⟩ := way
      rw [reached] at done
      dsimp only at done
      cases unfit : (isDot p.name || p.slash) with
      | true =>
          rw [unfit, if_pos rfl] at done
          cases done
      | false =>
          rw [unfit, if_neg Bool.false_ne_true] at done
          obtain ⟨named, open_ended⟩ := Bool.or_eq_false_iff.mp unfit
          cases held : t.child place p.name with
          | error e =>
              rw [held] at done
              cases done
          | ok node =>
              rw [held] at done
              cases place with
              | none =>
                  rcases node with _ | _ | _ <;> cases done
              | some names =>
                  obtain ⟨leads, found⟩ := leads_found t path names p node reached named held
                  refine ⟨names, p, leads, open_ended, ?_, ?_⟩
                  · intro directory
                    rw [directory] at found
                    cases found
                    cases done
                  · rcases node with _ | _ | _
                    · exact (Except.ok.inj done).symm
                    · exact (Except.ok.inj done).symm
                    · cases done

structure Removed (t u : FileTree) (path : String) (names : List String) (p : FilePath) : Prop where
  leads : t.Leads path names p
  held : ∃ bytes, t.find? (names ++ [p.name]) = some (.file bytes)
  left : u = t.erase (names ++ [p.name])

theorem remove_leads (t u : FileTree) (path : String) (done : t.remove path = .ok u) :
    ∃ names p, Removed t u path names p := by
  rw [remove] at done
  cases reached : t.reach path with
  | error e =>
      rw [reached] at done
      cases done
  | ok way =>
      obtain ⟨place, p⟩ := way
      rw [reached] at done
      dsimp only at done
      cases named : isDot p.name with
      | true =>
          rw [named, if_pos rfl] at done
          cases done
      | false =>
          rw [named, if_neg Bool.false_ne_true] at done
          cases held : t.child place p.name with
          | error e =>
              rw [held] at done
              cases done
          | ok node =>
              rw [held] at done
              cases place with
              | none =>
                  rcases node with _ | _ | _ <;> cases done
              | some names =>
                  obtain ⟨leads, found⟩ := leads_found t path names p node reached named held
                  rcases node with _ | bytes | _
                  · cases done
                  · cases slash : p.slash with
                    | true =>
                        rw [slash] at done
                        cases done
                    | false =>
                        rw [slash] at done
                        exact ⟨names, p, leads, ⟨bytes, found⟩, (Except.ok.inj done).symm⟩
                  · cases done

theorem write_read (t u : FileTree) (path : String) (bytes : List UInt8) (done : t.write path bytes = .ok u) :
    u.read path = .ok bytes := by
  obtain ⟨names, p, written⟩ := write_leads t u path bytes done
  have below : names ++ [p.name] ≠ [] := by simp
  have kept := put_kept t _ (.file bytes) written.spared
  rw [← written.left] at kept
  have leads := leads_kept t u path names p kept written.leads
  have found : u.find? (names ++ [p.name]) = some (.file bytes) := by
    rw [written.left, find_put t _ _ _ below, if_pos rfl]
  rw [read, leads.reached]
  dsimp only
  rw [leads.named, child_found u path names p leads, found, written.open_ended]
  rfl

theorem remove_read (t u : FileTree) (path : String) (done : t.remove path = .ok u) :
    u.read path = .error .notFound := by
  obtain ⟨names, p, removed⟩ := remove_leads t u path done
  obtain ⟨bytes, held⟩ := removed.held
  have below : names ++ [p.name] ≠ [] := by simp
  have kept := erase_kept t (names ++ [p.name]) (by rw [held]; simp)
  rw [← removed.left] at kept
  have leads := leads_kept t u path names p kept removed.leads
  have gone : u.find? (names ++ [p.name]) = none := by
    rw [removed.left, find_erase t _ below]
  rw [read, leads.reached]
  dsimp only
  rw [leads.named, child_found u path names p leads, gone]
  rfl

theorem remove_missing (t : FileTree) (path : String) :
    t.remove path = .error .notFound ↔ t.read path = .error .notFound := by
  rw [remove, read]
  cases t.reach path with
  | error e => simp
  | ok way =>
      obtain ⟨place, p⟩ := way
      dsimp only
      by_cases named : isDot p.name
      · simp [named]
      · rw [if_neg named, if_neg named]
        cases held : t.child place p.name with
        | error e => simp
        | ok node =>
            rcases node with _ | bytes | _
            · simp
            · cases place with
              | none => cases child_outside t p.name _ held
              | some names => by_cases slash : p.slash <;> simp [slash]
            · simp

theorem write_text (t u : FileTree) (path text : String)
    (done : t.write path (Text.bytes text.toList) = .ok u) : u.readText path = .ok text := by
  rw [readText, write_read t u path _ done]
  dsimp only
  rw [Text.fromUTF8_bytes, String.ofList_toList]

end FileTree
end DarkDrop
