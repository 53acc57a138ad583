import DarkDrop.Proofs.Link.Calls

namespace DarkDrop
open Wire

def Order.link : Order → LinkId
  | .open link _ | .send link _ | .close link => link

namespace Connection

def openedLinks (orders : List Order) : List LinkId :=
  (orders.filterMap Order.opened?).map Prod.fst

def Entered (endpoint : Endpoint) (link : LinkId) (calls : List Call) : Prop :=
  ∃ earlier later waiting, calls = earlier ++ later ∧
    ((new endpoint).after earlier).phase = .disconnecting link waiting

-- `silent` looks at every moment of the run: whatever was asked of a link or
-- heard from it by then, no text goes out on it from then on.
structure Ledger (endpoint : Endpoint) (calls : List Call) : Prop where
  opened : openedLinks ((new endpoint).orders calls) =
    List.range' 1 (openedLinks ((new endpoint).orders calls)).length
  counted : (openedLinks ((new endpoint).orders calls)).length =
    ((new endpoint).notices calls).count .closed +
      if ((new endpoint).after calls).link?.isSome then 1 else 0
  current : ∀ link, ((new endpoint).after calls).link? = some link →
    link = (openedLinks ((new endpoint).orders calls)).length ∧
      ((new endpoint).after calls).held = some link
  idle : ((new endpoint).after calls).link? = none → ((new endpoint).after calls).held = none
  closedOnce : ∀ link, Entered endpoint link calls →
    ((new endpoint).orders calls).count (.close link) = 1
  closedOnly : ∀ link, .close link ∈ (new endpoint).orders calls → Entered endpoint link calls
  silent : ∀ link earlier later text, calls = earlier ++ later →
    .close link ∈ (new endpoint).orders earlier ∨ .closed ∈ (new endpoint).noticesFrom link earlier →
    .send link text ∉ ((new endpoint).after earlier).orders later

structure Retired (c : Connection) (link : LinkId) : Prop where
  old : link < c.next
  quiet : ∀ user, c.live? ≠ some (link, user)

theorem current_old (c : Connection) (sound : c.Sound) (link : LinkId)
    (current : c.link? = some link) : link < c.next := by
  rw [← sound.newest link current]
  exact Nat.lt_succ_self link

theorem dialling_retired (c : Connection) (link : LinkId) (user : String) (old : link < c.next) :
    (c.dialling user).Retired link := by
  refine ⟨Nat.lt_succ_of_lt old, fun other live => ?_⟩
  have same : c.next = link := by simpa [live?, dialling] using congrArg (Option.map Prod.fst) live
  exact Nat.ne_of_gt old same

theorem move_retired (c : Connection) (link : LinkId) (retired : c.Retired link) (call : Call)
    (outcome : Outcome) (move : Move c call outcome) : outcome.connection.Retired link := by
  obtain ⟨old, quiet⟩ := retired
  cases move with
  | superseded | redirected | dropped | cancelled => exact ⟨old, by simp [live?]⟩
  | dialled | redialled => exact dialling_retired c link _ old
  | lost | ended => exact ⟨old, by simp [live?, gone]⟩
  | opened other user connecting =>
      refine ⟨old, fun someone => ?_⟩
      simpa [live?, connecting] using quiet someone
  | refused | unneeded | sent | unsent | unjoined | ignored | heard => exact ⟨old, quiet⟩

theorem retired_silent (c : Connection) (link : LinkId) (retired : c.Retired link) (call : Call)
    (outcome : Outcome) (move : Move c call outcome) :
    ∀ order ∈ outcome.orders, order.link ≠ link := by
  obtain ⟨old, quiet⟩ := retired
  have notLive : ∀ other user, c.live? = some (other, user) → other ≠ link :=
    fun other user live same => quiet user (same ▸ live)
  have notNext : c.next ≠ link := Nat.ne_of_gt old
  cases move with
  | superseded user url other who reached live => simpa [Order.link] using notLive other who live
  | dropped other user live => simpa [Order.link] using notLive other user live
  | sent call message other user asks live => simpa [Order.link] using notLive other user live
  | dialled | redialled => simpa [Order.link] using notNext
  | refused | redirected | cancelled | unneeded | unsent | unjoined | ignored | opened | heard
    | lost | ended => simp

theorem close_move (c : Connection) (link : LinkId) (call : Call) (outcome : Outcome)
    (move : Move c call outcome) (asked : .close link ∈ outcome.orders) :
    outcome.orders = [.close link] ∧ (∃ user, c.live? = some (link, user)) ∧
      ∃ waiting, outcome.connection.phase = .disconnecting link waiting := by
  cases move <;> simp_all

theorem close_retires (c : Connection) (sound : c.Sound) (link : LinkId) (call : Call)
    (outcome : Outcome) (move : Move c call outcome) (asked : .close link ∈ outcome.orders) :
    outcome.connection.Retired link := by
  obtain ⟨_, ⟨user, live⟩, _⟩ := close_move c link call outcome move asked
  have old := current_old c sound link (live_link c link user live)
  cases move with
  | superseded | dropped => exact ⟨old, by simp [live?]⟩
  | _ => simp at asked

theorem closed_retires (c : Connection) (sound : c.Sound) (report : Report) (outcome : Outcome)
    (move : Move c (.receive report) outcome) (told : .closed ∈ outcome.notices) :
    outcome.connection.Retired report.link := by
  cases move with
  | lost link user live =>
      exact ⟨current_old c sound link (live_link c link user live), by simp [live?, gone]⟩
  | ended link closing =>
      exact ⟨current_old c sound link (closing_link c link none closing), by simp [live?, gone]⟩
  | redialled link user url closing reached =>
      exact dialling_retired c link user (current_old c sound link (closing_link c link _ closing))
  | heard _ notice user live plain =>
      have same : notice = .closed := (List.mem_singleton.mp told).symm
      exact absurd same (notice_plain report.event notice plain).1
  | ignored | opened | sent => simp at told

theorem after_retired (c : Connection) (sound : c.Sound) (link : LinkId) (retired : c.Retired link)
    (calls : List Call) : (c.after calls).Retired link := by
  induction calls generalizing c with
  | nil => exact retired
  | cons call rest ih =>
      exact ih _ (call_sound c sound call)
        (move_retired c link retired call _ (c.call_moves sound call))

theorem orders_silent (c : Connection) (sound : c.Sound) (link : LinkId) (retired : c.Retired link)
    (calls : List Call) : ∀ order ∈ c.orders calls, order.link ≠ link := by
  induction calls generalizing c with
  | nil => simp [orders, outcomes]
  | cons call rest ih =>
      have move := c.call_moves sound call
      intro order member
      simp only [orders, outcomes, List.flatMap_cons, List.mem_append] at member
      rcases member with now | later
      · exact retired_silent c link retired call _ move order now
      · exact ih _ (call_sound c sound call) (move_retired c link retired call _ move) order later

theorem asked_retired (c : Connection) (sound : c.Sound) (link : LinkId) (calls : List Call)
    (asked : .close link ∈ c.orders calls) : (c.after calls).Retired link := by
  induction calls using List.reverseRecOn with
  | nil => simp [orders, outcomes] at asked
  | append_singleton calls call ih =>
      have before := after_sound c sound calls
      have move := (c.after calls).call_moves before call
      rw [orders_snoc, List.mem_append] at asked
      rw [after_snoc]
      rcases asked with earlier | now
      · exact move_retired _ link (ih earlier) call _ move
      · exact close_retires _ before link call _ move now

theorem told_retired (c : Connection) (sound : c.Sound) (link : LinkId) (calls : List Call)
    (told : .closed ∈ c.noticesFrom link calls) : (c.after calls).Retired link := by
  induction calls using List.reverseRecOn with
  | nil => simp [noticesFrom, outcomes] at told
  | append_singleton calls call ih =>
      have before := after_sound c sound calls
      have move := (c.after calls).call_moves before call
      rw [notices_from_snoc, List.mem_append] at told
      rw [after_snoc]
      rcases told with earlier | now
      · exact move_retired _ link (ih earlier) call _ move
      · cases call with
        | receive report =>
            by_cases same : report.link = link
            · subst same
              exact closed_retires _ before report _ move (by simpa [Call.reports] using now)
            · simp [Call.reports, same] at now
        | _ => simp [Call.reports] at now

theorem close_at_most_once (c : Connection) (sound : c.Sound) (link : LinkId) (calls : List Call) :
    (c.orders calls).count (.close link) ≤ 1 := by
  induction calls using List.reverseRecOn with
  | nil => simp [orders, outcomes]
  | append_singleton calls call ih =>
      have move := (c.after calls).call_moves (after_sound c sound calls) call
      rw [orders_snoc, List.count_append]
      by_cases now : .close link ∈ ((c.after calls).call call).orders
      · obtain ⟨only, ⟨user, live⟩, _⟩ := close_move _ link call _ move now
        have first : .close link ∉ c.orders calls := fun earlier =>
          (asked_retired c sound link calls earlier).quiet user live
        rw [List.count_eq_zero.mpr first, only]
        simp
      · rw [List.count_eq_zero.mpr now]
        exact ih

-- The phase is entered in the call that orders the close, and left with the link.
theorem entered_asked (c : Connection) (sound : c.Sound) (fresh : c.link? = none) (link : LinkId)
    (waiting : Option String) (calls : List Call)
    (closing : (c.after calls).phase = .disconnecting link waiting) :
    .close link ∈ c.orders calls := by
  induction calls using List.reverseRecOn generalizing waiting with
  | nil =>
      have current : c.link? = some link := closing_link c link waiting closing
      simp [fresh] at current
  | append_singleton calls call ih =>
      have move := (c.after calls).call_moves (after_sound c sound calls) call
      rw [after_snoc] at closing
      rw [orders_snoc, List.mem_append]
      generalize (c.after calls).call call = outcome at move closing ⊢
      cases move with
      | superseded user url other old reached live =>
          cases closing
          exact .inr (by simp)
      | dropped other user live =>
          cases closing
          exact .inr (by simp)
      | redirected user url other before reached closing' =>
          cases closing
          exact .inl (ih before closing')
      | cancelled other before closing' =>
          cases closing
          exact .inl (ih before closing')
      | refused | unneeded | sent | unsent | unjoined | ignored | heard => exact .inl (ih waiting closing)
      | opened => cases closing
      | dialled | redialled => cases closing
      | lost | ended => cases closing

theorem asked_entered (endpoint : Endpoint) (link : LinkId) (calls : List Call)
    (asked : .close link ∈ (new endpoint).orders calls) : Entered endpoint link calls := by
  induction calls using List.reverseRecOn with
  | nil => simp [orders, outcomes] at asked
  | append_singleton calls call ih =>
      have sound := after_sound _ (new_sound endpoint) calls
      rw [orders_snoc, List.mem_append] at asked
      rcases asked with earlier | now
      · obtain ⟨before, since, waiting, split, closing⟩ := ih earlier
        exact ⟨before, since ++ [call], waiting, by simp [split], closing⟩
      · obtain ⟨_, _, waiting, closing⟩ := close_move _ link call _ (call_moves _ sound call) now
        exact ⟨calls ++ [call], [], waiting, by simp, by rw [after_snoc]; exact closing⟩

theorem entered_closed_once (endpoint : Endpoint) (link : LinkId) (calls : List Call)
    (entered : Entered endpoint link calls) : ((new endpoint).orders calls).count (.close link) = 1 := by
  obtain ⟨earlier, later, waiting, split, closing⟩ := entered
  have asked := entered_asked _ (new_sound endpoint) rfl link waiting earlier closing
  have member : .close link ∈ (new endpoint).orders calls := by
    rw [split, orders_append]
    exact List.mem_append_left _ asked
  exact Nat.le_antisymm (close_at_most_once _ (new_sound endpoint) link calls)
    (List.count_pos_iff.mpr member)

def lives (c : Connection) : Nat := if c.link?.isSome then 1 else 0

theorem lives_current (c : Connection) (link : LinkId) (current : c.link? = some link) :
    c.lives = 1 := by
  simp [lives, current]

theorem lives_idle (c : Connection) (idle : c.link? = none) : c.lives = 0 := by
  simp [lives, idle]

theorem move_links (c : Connection) (call : Call) (outcome : Outcome) (move : Move c call outcome) :
    (outcome.connection.link? = c.link? ∧ outcome.connection.next = c.next ∧
      openedLinks outcome.orders = [] ∧ outcome.notices.count .closed = 0) ∨
    (outcome.connection.link? = some c.next ∧ outcome.connection.next = c.next + 1 ∧
      openedLinks outcome.orders = [c.next] ∧ outcome.notices.count .closed = c.lives) ∨
    (outcome.connection.link? = none ∧ outcome.connection.next = c.next ∧
      openedLinks outcome.orders = [] ∧ outcome.notices.count .closed = c.lives) := by
  cases move with
  | superseded user url link old reached live =>
      exact .inl ⟨(live_link c link old live).symm, rfl, rfl, rfl⟩
  | dropped link user live => exact .inl ⟨(live_link c link user live).symm, rfl, rfl, rfl⟩
  | redirected user url link waiting reached closing =>
      exact .inl ⟨(closing_link c link waiting closing).symm, rfl, rfl, rfl⟩
  | cancelled link waiting closing =>
      exact .inl ⟨(closing_link c link waiting closing).symm, rfl, rfl, rfl⟩
  | opened link user connecting =>
      exact .inl ⟨by simp [link?, connecting], rfl, rfl, rfl⟩
  | heard report notice user live told =>
      have plain := (notice_plain report.event notice told).1
      exact .inl ⟨rfl, rfl, rfl, by simp [plain]⟩
  | dialled user url reached idle => exact .inr (.inl ⟨rfl, rfl, rfl, (lives_idle c idle).symm⟩)
  | redialled link user url closing reached =>
      exact .inr (.inl ⟨rfl, rfl, rfl, (lives_current c link (closing_link c link _ closing)).symm⟩)
  | lost link user live =>
      exact .inr (.inr ⟨rfl, rfl, rfl, (lives_current c link (live_link c link user live)).symm⟩)
  | ended link closing =>
      exact .inr (.inr ⟨rfl, rfl, rfl, (lives_current c link (closing_link c link none closing)).symm⟩)
  | refused | unneeded | sent | unsent | unjoined | ignored => exact .inl ⟨rfl, rfl, rfl, rfl⟩

theorem move_counts (c : Connection) (call : Call) (outcome : Outcome) (move : Move c call outcome) :
    ∃ more : Nat, outcome.connection.next = c.next + more ∧
      openedLinks outcome.orders = List.range' c.next more ∧
      more + c.lives = outcome.notices.count .closed + outcome.connection.lives := by
  rcases move_links c call outcome move with
    ⟨same, next, links, told⟩ | ⟨fresh, next, links, told⟩ | ⟨lost, next, links, told⟩
  · exact ⟨0, next, links, by simp [told, lives, same]⟩
  · exact ⟨1, next, links, by rw [told, lives_current _ _ fresh, Nat.add_comm]⟩
  · exact ⟨0, next, links, by rw [told, lives_idle _ lost, Nat.add_comm]⟩

theorem opened_links_append (earlier later : List Order) :
    openedLinks (earlier ++ later) = openedLinks earlier ++ openedLinks later := by
  simp [openedLinks]

theorem openings_counted (endpoint : Endpoint) (calls : List Call) :
    ∃ opened : Nat, ((new endpoint).after calls).next = 1 + opened ∧
      openedLinks ((new endpoint).orders calls) = List.range' 1 opened ∧
      opened = ((new endpoint).notices calls).count .closed + ((new endpoint).after calls).lives := by
  induction calls using List.reverseRecOn with
  | nil => exact ⟨0, rfl, rfl, rfl⟩
  | append_singleton calls call ih =>
      have sound := after_sound _ (new_sound endpoint) calls
      obtain ⟨opened, next, links, counted⟩ := ih
      obtain ⟨more, grown, fresh, balance⟩ := move_counts _ call _ (call_moves _ sound call)
      rw [next] at grown fresh
      refine ⟨opened + more, ?_, ?_, ?_⟩
      · rw [after_snoc, grown, Nat.add_assoc]
      · rw [orders_snoc, opened_links_append, links, fresh, List.range'_append_1]
      · rw [notices_snoc, after_snoc, List.count_append]
        omega

theorem length_opened (endpoint : Endpoint) (calls : List Call) :
    openedLinks ((new endpoint).orders calls) =
        List.range' 1 (openedLinks ((new endpoint).orders calls)).length ∧
      ((new endpoint).after calls).next = (openedLinks ((new endpoint).orders calls)).length + 1 ∧
      (openedLinks ((new endpoint).orders calls)).length =
        ((new endpoint).notices calls).count .closed + ((new endpoint).after calls).lives := by
  obtain ⟨opened, next, links, counted⟩ := openings_counted endpoint calls
  rw [links, List.length_range']
  exact ⟨rfl, next.trans (Nat.add_comm 1 opened), counted⟩

theorem link_ledger (endpoint : Endpoint) (calls : List Call) : Ledger endpoint calls := by
  have start := new_sound endpoint
  have sound := after_sound _ start calls
  obtain ⟨opened, next, counted⟩ := length_opened endpoint calls
  refine ⟨opened, counted, ?_, ?_, ?_, ?_, ?_⟩
  · intro link current
    have newest := (sound.newest link current).trans next
    exact ⟨Nat.succ.inj newest, sound.held.trans current⟩
  · intro idle
    exact sound.held.trans idle
  · exact fun link => entered_closed_once endpoint link calls
  · exact fun link => asked_entered endpoint link calls
  · intro link earlier later text _ quieted sent
    have retired : ((new endpoint).after earlier).Retired link := by
      rcases quieted with asked | told
      · exact asked_retired _ start link earlier asked
      · exact told_retired _ start link earlier told
    exact orders_silent _ (after_sound _ start earlier) link retired later _ sent rfl

end Connection
end DarkDrop
