import DarkDrop.Play.Client
import DarkDrop.Proofs.Storage.ReadBack
import DarkDrop.Proofs.Text.Trimming
import DarkDrop.Storage.UserCache

namespace DarkDrop

namespace FileTree

-- The system makes a change, as far as the tree allows it, or refuses it for a reason of its own.
def attempt (t : FileTree) (c : FileChange) : Option OsError → FileTree × Except OsError Unit
  | none => t.apply c
  | some e => (t, .error e)

def changed (t : FileTree) : FileChange → Except OsError FileTree
  | .write path text => t.write path (Text.bytes text.toList)
  | .remove path => t.remove path

theorem attempt_changed (t : FileTree) (c : FileChange) :
    t.attempt c none = match t.changed c with
      | .ok u => (u, .ok ())
      | .error e => (t, .error e) := by
  cases c <;> rfl

theorem attempt_failed (t : FileTree) (c : FileChange) (refusal : Option OsError) (e : OsError)
    (failed : (t.attempt c refusal).2 = .error e) : (t.attempt c refusal).1 = t := by
  cases refusal with
  | some e => rfl
  | none =>
      rw [attempt_changed] at failed ⊢
      cases made : t.changed c with
      | error e => rfl
      | ok u =>
          rw [made] at failed
          cases failed

theorem attempt_done (t : FileTree) (c : FileChange) (refusal : Option OsError)
    (done : (t.attempt c refusal).2 = .ok ()) : t.changed c = .ok (t.attempt c refusal).1 := by
  cases refusal with
  | some e => cases done
  | none =>
      rw [attempt_changed] at done ⊢
      cases made : t.changed c with
      | ok u => rfl
      | error e =>
          rw [made] at done
          cases done

theorem missing_attempted (t : FileTree) (path : String) (refusal : Option OsError)
    (honest : refusal ≠ some .notFound) (missing : (t.attempt (.remove path) refusal).2 = .error .notFound) :
    t.read path = .error .notFound := by
  cases refusal with
  | some e => exact absurd (congrArg some (Except.error.inj missing)) honest
  | none =>
      rw [attempt_changed, changed] at missing
      cases removed : t.remove path with
      | ok u =>
          rw [removed] at missing
          cases missing
      | error e =>
          rw [removed] at missing
          rw [Except.error.inj missing] at removed
          exact (remove_missing t path).mp removed

theorem attempt_missing (t : FileTree) (path : String) (refusal : Option OsError)
    (missing : t.read path = .error .notFound) :
    t.attempt (.remove path) refusal = (t, .error (refusal.getD .notFound)) := by
  cases refusal with
  | some e => rfl
  | none =>
      rw [attempt_changed, changed, (remove_missing t path).mpr missing]
      rfl

def openCache (t : FileTree) (path : String) : Except CacheError UserCache :=
  UserCache.ofFile path (t.readText path)

theorem open_path (t : FileTree) (path : String) (c : UserCache) (opened : t.openCache path = .ok c) :
    c.path = some path := by
  rw [openCache] at opened
  cases text : t.readText path with
  | ok s =>
      rw [text] at opened
      cases opened
      rfl
  | error e =>
      rw [text] at opened
      rcases e with (_ | _ | _ | _ | _) | _ <;> cases opened
      rfl

theorem open_written (t u : FileTree) (path text : String)
    (done : t.write path (Text.bytes text.toList) = .ok u) :
    u.openCache path = .ok ⟨some path, UserCache.userOfText text⟩ := by
  rw [openCache, write_text t u path text done, UserCache.ofFile]

theorem open_missing (t : FileTree) (path : String) (missing : t.read path = .error .notFound) :
    t.openCache path = .ok ⟨some path, none⟩ := by
  rw [openCache, readText, missing, UserCache.ofFile]

end FileTree

namespace FileChange

theorem settle_failed (c : FileChange) (result : Except OsError Unit) (e : CacheError)
    (failed : c.settle result = .error e) : ∃ e, result = .error e := by
  cases result with
  | ok _ => cases failed
  | error e => exact ⟨e, rfl⟩

theorem settle_write (path text : String) (result : Except OsError Unit)
    (done : (FileChange.write path text).settle result = .ok ()) : result = .ok () := by
  cases result with
  | ok _ => rfl
  | error e => cases done

theorem settle_remove (path : String) (result : Except OsError Unit)
    (done : (FileChange.remove path).settle result = .ok ()) :
    result = .ok () ∨ result = .error .notFound := by
  cases result with
  | ok _ => exact .inl rfl
  | error e =>
      cases e with
      | notFound => exact .inr rfl
      | noDevice | notDirectory | isDirectory | nameTooLong => cases done

end FileChange

namespace UserCache

theorem blank_text (s : String) (blank : Text.Blank s.toList) : userOfText s = none := by
  have gone : Text.trim s = "" := by rw [Text.trim, (Text.trim_nil s.toList).mpr blank]
  rw [userOfText, gone]
  rfl

theorem user_text (s : String) (text : ¬ Text.Blank s.toList) : userOfText s = some (Text.trim s) := by
  have left : (Text.trim s).isEmpty = false := by
    rw [Bool.eq_false_iff, ne_eq, String.isEmpty_iff, Text.trim]
    exact fun gone => text ((Text.trim_nil s.toList).mp (by simpa using congrArg String.toList gone))
  rw [userOfText, Option.filter, left]
  rfl

theorem login_text (c : Client) (typed id : String)
    (let_through : .connect id ∈ (c.command (.login typed)).2) : userOfText id = some id := by
  have asked : (Text.trim typed).isEmpty = false ∧ id = Text.trim typed := by
    rw [Client.command] at let_through
    split at let_through
    · rw [Client.execute] at let_through
      split at let_through
      · simp at let_through
      · rename_i text
        exact ⟨by simpa using text, by simpa using let_through⟩
    · simp at let_through
  obtain ⟨text, rfl⟩ := asked
  have again : Text.trim (Text.trim typed) = Text.trim typed := by
    rw [Text.trim, Text.trim, String.toList_ofList, Text.trim_again]
  rw [userOfText, again, Option.filter, text]
  rfl

end UserCache

structure Storing where
  user : Option String
  refusal : Option OsError := none
  -- Only the tree tells that nothing is there to remove.
  honest : user = none → refusal ≠ some .notFound

inductive Handling where
  | store (x : Storing)
  | reopen

def Handling.stores : Handling → Bool
  | store _ => true
  | reopen => false

structure Shelf where
  files : FileTree
  cache : UserCache

namespace Shelf

def store (s : Shelf) (x : Storing) : Shelf × Except CacheError Unit :=
  match s.cache.store x.user with
  | (cache, none) => (⟨s.files, cache⟩, .ok ())
  | (cache, some change) =>
    let (files, result) := s.files.attempt change x.refusal
    (⟨files, cache⟩, change.settle result)

def handle (s : Shelf) (path : String) : Handling → Shelf
  | .store x => (s.store x).1
  | .reopen => match s.files.openCache path with
    | .ok cache => ⟨s.files, cache⟩
    | .error _ => s

def after (s : Shelf) (path : String) (hs : List Handling) : Shelf := hs.foldl (·.handle path) s

def kept (s : Shelf) (path : String) : List Handling → List (Option String)
  | [] => []
  | .reopen :: hs => (s.handle path .reopen).kept path hs
  | .store x :: hs =>
    let later := (s.store x).1.kept path hs
    match (s.store x).2 with
    | .ok () => x.user :: later
    | .error _ => later

-- A store sees the files and the path, and nothing of who was remembered.
theorem store_unseen (s r : Shelf) (x : Storing) (files : r.files = s.files)
    (path : r.cache.path = s.cache.path) : r.store x = s.store x := by
  rw [store, store, UserCache.store, UserCache.store, files, path]

section

variable (path : String) (s : Shelf) (placed : s.cache.path = some path)
include placed

theorem store_change (x : Storing) :
    ∃ change, s.cache.store x.user = (⟨some path, x.user⟩, some change) ∧
      s.store x = (⟨(s.files.attempt change x.refusal).1, ⟨some path, x.user⟩⟩,
        change.settle (s.files.attempt change x.refusal).2) := by
  rw [store, UserCache.store, placed]
  exact ⟨_, rfl, rfl⟩

theorem store_cache (x : Storing) : (s.store x).1.cache = ⟨some path, x.user⟩ := by
  obtain ⟨change, -, same⟩ := store_change path s placed x
  rw [same]

theorem store_failed (x : Storing) (e : CacheError) (failed : (s.store x).2 = .error e) :
    (s.store x).1.files = s.files := by
  obtain ⟨change, -, same⟩ := store_change path s placed x
  rw [same] at failed ⊢
  obtain ⟨e, refused⟩ := change.settle_failed _ e failed
  exact s.files.attempt_failed change x.refusal e refused

theorem store_gone (x : Storing) (nobody : x.user = none) (done : (s.store x).2 = .ok ()) :
    (s.store x).1.files.read path = .error .notFound := by
  obtain ⟨change, asked, same⟩ := store_change path s placed x
  rw [UserCache.store, placed, nobody] at asked
  obtain rfl : .remove path = change := by simpa using asked
  rw [same] at done ⊢
  rcases FileChange.settle_remove path _ done with made | missing
  · exact FileTree.remove_read _ _ path (s.files.attempt_done _ x.refusal made)
  · rw [s.files.attempt_failed _ x.refusal _ missing]
    exact s.files.missing_attempted path x.refusal (x.honest nobody) missing

theorem store_done (x : Storing) (done : (s.store x).2 = .ok ()) :
    (s.store x).1.files.openCache path = .ok ⟨some path, x.user.bind UserCache.userOfText⟩ := by
  cases user : x.user with
  | none => exact FileTree.open_missing _ path (store_gone path s placed x user done)
  | some id =>
      obtain ⟨change, asked, same⟩ := store_change path s placed x
      rw [UserCache.store, placed, user] at asked
      obtain rfl : .write path id = change := by simpa using asked
      rw [same] at done ⊢
      have made := FileChange.settle_write path id _ done
      exact FileTree.open_written _ _ path id (s.files.attempt_done _ x.refusal made)

theorem store_missing (x : Storing) (nobody : x.user = none)
    (missing : s.files.read path = .error .notFound) :
    (s.store x).1 = ⟨s.files, ⟨some path, none⟩⟩ ∧ (x.refusal = none → (s.store x).2 = .ok ()) := by
  obtain ⟨change, asked, same⟩ := store_change path s placed x
  rw [UserCache.store, placed, nobody] at asked
  obtain rfl : .remove path = change := by simpa using asked
  rw [same, s.files.attempt_missing path x.refusal missing, nobody]
  refine ⟨rfl, fun accepted => ?_⟩
  rw [accepted]
  rfl

theorem store_again (x y : Storing) (nobody : x.user = none) (again : y.user = none)
    (done : (s.store x).2 = .ok ()) :
    ((s.store x).1.store y).1 = (s.store x).1 ∧ (y.refusal = none → ((s.store x).1.store y).2 = .ok ()) := by
  have cache := store_cache path s placed x
  rw [nobody] at cache
  have missing := store_gone path s placed x nobody done
  obtain ⟨left, accepted⟩ := store_missing path (s.store x).1 (by rw [cache]) y again missing
  refine ⟨?_, accepted⟩
  rw [left, ← cache]

theorem store_retried (x y : Storing) (e : CacheError) (failed : (s.store x).2 = .error e) :
    (s.store x).1.store y = s.store y := by
  refine store_unseen s _ y (store_failed path s placed x e failed) ?_
  rw [store_cache path s placed x, placed]

end

structure Holds (s : Shelf) (path : String) (user : Option String) : Prop where
  placed : s.cache.path = some path
  held : s.files.openCache path = .ok ⟨some path, user⟩

variable (path : String) (s : Shelf) (user : Option String) (holds : s.Holds path user)

theorem open_holds (t : FileTree) (c : UserCache) (opened : t.openCache path = .ok c) :
    (⟨t, c⟩ : Shelf).Holds path c.user := by
  have placed := t.open_path path c opened
  refine ⟨placed, opened.trans ?_⟩
  rw [← placed]

include holds

theorem reopened : s.handle path .reopen = ⟨s.files, ⟨some path, user⟩⟩ := by
  rw [handle, holds.held]

theorem reopen_holds : (s.handle path .reopen).Holds path user := by
  rw [reopened path s user holds]
  exact ⟨rfl, holds.held⟩

theorem store_holds (x : Storing) (done : (s.store x).2 = .ok ()) :
    (s.store x).1.Holds path (x.user.bind UserCache.userOfText) := by
  refine ⟨?_, store_done path s holds.placed x done⟩
  rw [store_cache path s holds.placed x]

theorem failed_holds (x : Storing) (e : CacheError) (failed : (s.store x).2 = .error e) :
    (s.store x).1.Holds path user := by
  constructor
  · rw [store_cache path s holds.placed x]
  · rw [store_failed path s holds.placed x e failed, holds.held]

omit holds

theorem after_holds (hs : List Handling) (holds : s.Holds path user) :
    (s.after path hs).Holds path
      (((s.kept path hs).getLast?.map (·.bind UserCache.userOfText)).getD user) := by
  induction hs generalizing s user with
  | nil => exact holds
  | cons h hs ih =>
      cases h with
      | reopen =>
          rw [kept]
          exact ih _ _ (reopen_holds path s user holds)
      | store x =>
          rw [kept]
          cases result : (s.store x).2 with
          | error e => exact ih _ _ (failed_holds path s user holds x e result)
          | ok _ =>
              have later := ih _ _ (store_holds path s user holds x result)
              dsimp only
              rw [List.getLast?_cons, Option.map_some, Option.getD_some,
                ← Option.getD_map (·.bind UserCache.userOfText) x.user]
              exact later

theorem after_snoc (hs : List Handling) (h : Handling) :
    s.after path (hs ++ [h]) = (s.after path hs).handle path h := by
  rw [after, List.foldl_append]
  rfl

theorem reopen_keeps (placed : s.cache.path = some path) :
    (s.handle path .reopen).files = s.files ∧ (s.handle path .reopen).cache.path = some path := by
  rw [handle]
  cases opened : s.files.openCache path with
  | error e => exact ⟨rfl, placed⟩
  | ok c => exact ⟨rfl, s.files.open_path path c opened⟩

theorem after_unopened (hs : List Handling) (r : Shelf) (placed : s.cache.path = some path)
    (files : r.files = s.files) (beside : r.cache.path = some path) :
    (s.after path hs).files = (r.after path (hs.filter (·.stores))).files := by
  induction hs generalizing s r with
  | nil => exact files.symm
  | cons h hs ih =>
      cases h with
      | reopen =>
          obtain ⟨left, again⟩ := reopen_keeps path s placed
          exact ih (s.handle path .reopen) r again (files.trans left.symm) beside
      | store x =>
          have same := store_unseen s r x files (beside.trans placed.symm)
          have cache := store_cache path s placed x
          have later := ih (s.store x).1 (r.store x).1 (by rw [cache]) (by rw [same]) (by rw [same, cache])
          rw [List.filter_cons_of_pos rfl]
          exact later

structure Survives (path : String) (s : Shelf) (hs : List Handling) : Prop where
  remembered : ∀ x, hs.getLast? = some (.store x) → (s.after path hs).cache = ⟨some path, x.user⟩
  durable : (s.after path hs).files.openCache path =
    .ok ⟨some path, ((s.kept path hs).getLast?.map (·.bind UserCache.userOfText)).getD s.cache.user⟩
  unopened : (s.after path hs).files = (s.after path (hs.filter (·.stores))).files
  failed : ∀ x e, ((s.after path hs).store x).2 = .error e →
    ((s.after path hs).store x).1.files = (s.after path hs).files
  stored : ∀ x id, x.user = some id → ¬ Text.Blank id.toList → ((s.after path hs).store x).2 = .ok () →
    ((s.after path hs).store x).1.files.openCache path = .ok ⟨some path, some (Text.trim id)⟩
  blank : ∀ x id, x.user = some id → Text.Blank id.toList → ((s.after path hs).store x).2 = .ok () →
    ((s.after path hs).store x).1.files.openCache path = .ok ⟨some path, none⟩
  login : ∀ (c : Client) typed x id, x.user = some id → .connect id ∈ (c.command (.login typed)).2 →
    ((s.after path hs).store x).2 = .ok () →
    ((s.after path hs).store x).1.files.openCache path = .ok ⟨some path, some id⟩
  forgotten : ∀ x, x.user = none → ((s.after path hs).store x).2 = .ok () →
    ((s.after path hs).store x).1.files.openCache path = .ok ⟨some path, none⟩
  missing : ∀ x, x.user = none → x.refusal = none →
    (s.after path hs).files.read path = .error .notFound → ((s.after path hs).store x).2 = .ok ()
  again : ∀ x y, x.user = none → y.user = none → ((s.after path hs).store x).2 = .ok () →
    (((s.after path hs).store x).1.store y).1 = ((s.after path hs).store x).1 ∧
      (y.refusal = none → (((s.after path hs).store x).1.store y).2 = .ok ())
  retried : ∀ x y e, ((s.after path hs).store x).2 = .error e →
    ((s.after path hs).store x).1.store y = (s.after path hs).store y

theorem restart_survived (t : FileTree) (path : String) (c : UserCache)
    (opened : t.openCache path = .ok c) (hs : List Handling) : Survives path ⟨t, c⟩ hs := by
  have holds := open_holds path t c opened
  have kept := after_holds path ⟨t, c⟩ c.user hs holds
  have placed := kept.placed
  constructor
  case remembered =>
    intro x last
    obtain ⟨before, rfl⟩ := List.getLast?_eq_some_iff.mp last
    rw [after_snoc]
    exact store_cache path _ (after_holds path ⟨t, c⟩ c.user before holds).placed x
  case durable => exact kept.held
  case unopened => exact after_unopened path ⟨t, c⟩ hs ⟨t, c⟩ holds.placed rfl holds.placed
  case failed => exact store_failed path _ placed
  case stored =>
    intro x id user text done
    rw [store_done path _ placed x done, user, Option.bind_some, UserCache.user_text id text]
  case blank =>
    intro x id user blank done
    rw [store_done path _ placed x done, user, Option.bind_some, UserCache.blank_text id blank]
  case login =>
    intro client typed x id user let_through done
    rw [store_done path _ placed x done, user, Option.bind_some]
    rw [UserCache.login_text client typed id let_through]
  case forgotten =>
    intro x nobody done
    rw [store_done path _ placed x done, nobody, Option.bind_none]
  case missing =>
    intro x nobody accepted gone
    exact (store_missing path _ placed x nobody gone).2 accepted
  case again => exact fun x y => store_again path _ placed x y
  case retried => exact store_retried path _ placed

theorem restart_survived_alice :
    ({} : FileTree).openCache "user" = .ok ⟨some "user", none⟩ ∧
      Survives "user" ⟨{}, ⟨some "user", none⟩⟩
        [.store ⟨some "alice", none, nofun⟩, .store ⟨some "bob", some .noDevice, nofun⟩] ∧
      (⟨{}, ⟨some "user", none⟩⟩ : Shelf).kept "user"
        [.store ⟨some "alice", none, nofun⟩, .store ⟨some "bob", some .noDevice, nofun⟩] = [some "alice"] := by
  have missing : ({} : FileTree).openCache "user" = .ok ⟨some "user", none⟩ := rfl
  exact ⟨missing, restart_survived {} "user" ⟨some "user", none⟩ missing _, rfl⟩

end Shelf
end DarkDrop
