import DarkDrop.Play.Client
import DarkDrop.Proofs.Url.FormPairs

namespace DarkDrop

namespace Url

def beforeQuery (u : Url) : List Char := u.scheme ++ ':' :: u.authorityText ++ u.path.write

def behindQuery (u : Url) : List Char := u.fragment.elim [] ('#' :: ·)

theorem text_unqueried (u : Url) : { u with query := none }.text = u.beforeQuery ++ u.behindQuery := by
  have authority : { u with query := none }.authorityText = u.authorityText := rfl
  rw [text, authority, beforeQuery, behindQuery]
  cases u.fragment <;> simp

theorem text_queried (u : Url) (query : List Char) :
    { u with query := some query }.text = u.beforeQuery ++ '?' :: query ++ u.behindQuery := by
  have authority : { u with query := some query }.authorityText = u.authorityText := rfl
  rw [text, authority, beforeQuery, behindQuery]
  cases u.fragment <;> simp

end Url

namespace Client

section

variable (c : Client) (base link : Url)

theorem room_link_none : c.roomLink base = none ↔ c.session.sessionId = "" := by
  by_cases empty : c.session.sessionId = ""
  · simp [roomLink, Session.isJoined, empty]
  · simp [roomLink, Session.isJoined, empty]

theorem room_link_query (linked : c.roomLink base = some link) :
    link = { base with query := some (Url.formQuery roomKey c.session.sessionId.toList) } := by
  rw [roomLink] at linked
  split at linked
  · exact (Option.some.inj linked).symm
  · cases linked

end

structure LinksRoom (c : Client) (base link : Url) (query : List Char) : Prop where
  held : link.query = some query
  named : Url.formPairs? query = some [("roomid", c.session.sessionId)]
  bounded : '#' ∉ query
  scheme : link.scheme = base.scheme
  authority : link.authorityText = base.authorityText
  path : link.path = base.path
  fragment : link.fragment = base.fragment
  rest : { link with query := base.query } = base
  written : link.text = base.beforeQuery ++ '?' :: query ++ base.behindQuery

theorem room_linked (c : Client) (base link : Url) (linked : c.roomLink base = some link) :
    LinksRoom c base link (Url.formQuery roomKey c.session.sessionId.toList) := by
  have pairs := Url.form_pairs roomKey c.session.sessionId.toList
  rw [String.ofList_toList] at pairs
  rw [room_link_query c base link linked]
  exact
    { held := rfl
      named := pairs
      bounded := Url.query_bounded _ _ '#' (.inr rfl)
      scheme := rfl
      authority := rfl
      path := rfl
      fragment := rfl
      rest := rfl
      written := Url.text_queried base _ }

theorem room_link_round_trip (base : Url) :
    { base with query := none }.text = base.beforeQuery ++ base.behindQuery ∧
    (∀ c : Client, c.roomLink base = none ↔ c.session.sessionId = "") ∧
    (∀ c : Client, ∀ link, c.roomLink base = some link → ∃ query, LinksRoom c base link query) ∧
    ∀ c d : Client, ∀ link other, c.roomLink base = some link → d.roomLink base = some other →
      link.toString = other.toString → c.session.sessionId = d.session.sessionId := by
  refine ⟨base.text_unqueried, fun c => c.room_link_none base, fun c link linked => ?_, ?_⟩
  · exact ⟨_, room_linked c base link linked⟩
  · intro c d link other here there same
    have first := room_linked c base link here
    have second := room_linked d base other there
    have texts : link.text = other.text := String.ofList_injective same
    rw [first.written, second.written] at texts
    have queries := (List.cons.inj (List.append_cancel_left (List.append_cancel_right texts))).2
    have named := first.named
    rw [queries, second.named] at named
    simpa using (Option.some.inj named).symm

example : (({ session := { sessionId := "a&b=#ü" } : Client }.roomLink
    { scheme := "http".toList, host := some (.name "x".toList), path := .segments [[]], query := some "q=1".toList,
      fragment := some "f".toList }).map Url.toString) = some "http://x/?roomid=a%26b%3D%23%C3%BC#f" := by
  decide +kernel

end Client
end DarkDrop
