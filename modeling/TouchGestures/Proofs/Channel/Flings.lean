import TouchGestures.Proofs.Channel.Acceptance
import TouchGestures.Proofs.Channel.Turns
import TouchGestures.Proofs.Detector.Motion

namespace TouchGestures

open Velocity (InOrder Tracker average)

section FollowsCentre

variable {tracker : Tracker} {count : Nat} {start : Velocity.Fix} {fixes : List Velocity.Fix}
  {now : Time} {contacts : List Contact}

-- The tracker has followed the centre of so many contacts from fix to fix. A lone contact may
-- have been taken for its centre to begin with.
def FollowsCentre (tracker : Tracker) (count : Nat) (start : Velocity.Fix)
    (fixes : List Velocity.Fix) : Prop :=
  ∃ contacts position, contacts.length = count ∧ Centred contacts position ∧
    start.position = (centroid contacts).location ∧
    tracker = Tracker.follow ⟨start.time, position⟩ fixes ∧
    ∀ fix ∈ fixes.head?, fix.position - position = fix.position - start.position

theorem followsCentre_start {position : Point} (h : Centred contacts position)
    (hstart : start.position = (centroid contacts).location) :
    FollowsCentre (Tracker.start start.time position) contacts.length start [] :=
  ⟨contacts, position, rfl, h, hstart, rfl, by simp⟩

theorem FollowsCentre.add (h : FollowsCentre tracker contacts.length start fixes)
    (fix : Velocity.Fix) (hfix : fix.position = (centroid contacts).location) :
    FollowsCentre (tracker.add fix.time fix.position) contacts.length start (fixes ++ [fix]) := by
  obtain ⟨others, position, hlength, hcentred, hstart, rfl, hfirst⟩ := h
  refine ⟨others, position, hlength, hcentred, hstart, (Tracker.follow_concat _ _ _).symm, ?_⟩
  cases fixes with
  | nil =>
    rintro first ⟨⟩
    rw [hfix, hstart]
    exact hcentred.sub_eq hlength.symm
  | cons => exact hfirst

theorem FollowsCentre.velocity_eq (h : FollowsCentre tracker count start fixes)
    (hnow : InOrder (start :: fixes) now) : tracker.velocity now = average start fixes now := by
  obtain ⟨others, position, -, -, -, rfl, hfirst⟩ := h
  rw [Tracker.velocity_follow _ hnow.le_of_cons, Velocity.average_congr hfirst]

end FollowsCentre

-- Where the contacts of an accepted touch are centred: those that stay down, or the last one
-- as it lifts.
def ContactTable.center (u : ContactTable) : Point :=
  (centroid (if u.action = .ended then u.contacts else u.settle.contacts)).location

namespace ContactTable

variable {t u : ContactTable}

theorem center_of_ne_ended (h : u.action ≠ .ended) :
    u.center = (centroid u.settle.contacts).location := by
  rw [center, if_neg h]

theorem time?_of_accept? {touch : Touch} (h : t.accept? touch = some u) :
    u.time? = some touch.time := by
  obtain ⟨change, hlatest, -, htime⟩ := latest_of_accept? h
  rw [time?, hlatest, Option.map_some, htime]

-- The last release finds one contact, which is still there as it lifts.
theorem length_of_ended {touch : Touch} (h : t.accept? touch = some u)
    (hended : u.action = .ended) : u.contacts.length = 1 ∧ t.contacts.length = 1 := by
  obtain ⟨-, -, -, rfl⟩ | ⟨index, -, ⟨-, rfl⟩ | ⟨action, rfl, ⟨-, rfl⟩ | ⟨-, rfl⟩⟩⟩ :=
    accept?_eq_some h
  · rw [action_note] at hended
    split at hended <;> cases hended
  · cases hended
  · rw [action_note] at hended
    split at hended
    · next hone => exact ⟨(length_contacts_move t touch index).trans hone, hone⟩
    · cases hended
  · cases hended

-- Of the touches that go on with a stream, only moves leave the contacts as they are.
theorem Remains.map_id_ne (h : t.Remains u) (hmoved : u.action ≠ .moved)
    (hlasts : ¬(u.action = .ended ∨ u.action = .cancelled)) :
    u.settle.contacts.map Contact.id ≠ t.contacts.map Contact.id := by
  intro hids
  have hlength : u.settle.contacts.length = t.contacts.length := by
    simpa using congrArg List.length hids
  cases h with
  | began contact _ _ hcontacts hfirst =>
    rw [hcontacts, ← count, hfirst] at hlength
    cases hlength
  | joined haction hcontacts hcount htwo =>
    rw [hcontacts, ← count, ← count, hcount] at hlength
    omega
  | moved haction => exact hmoved haction
  | left haction hcontacts hcount _ hsame =>
    rw [hcontacts, ← count] at hlength
    omega
  | gone haction => exact hlasts haction

end ContactTable

namespace Channel

theorem view_fling? : View Gesture.fling? where
  detected := by
    intro g hkind
    unfold Gesture.fling?
    split
    · next hpayload =>
      rw [Gesture.kind, hpayload] at hkind
      simp [Gesture.Payload.kind] at hkind
    · rfl
  untallied := by
    intro g
    unfold Gesture.untallied
    split
    · next h => simp [Gesture.fling?, h]
    · rfl
  marked := fun _ _ _ => rfl

namespace Turn

-- When a touch was accepted, and where the contacts were centred by it.
def fix? (x : Turn) : Option Velocity.Fix :=
  match x.event with
  | .touch t => (x.before.packet? t).map fun _ => ⟨t.time, (x.before.contacts.touch t).2.center⟩
  | _ => none

def changes (x : Turn) : Bool :=
  x.after.contacts.live.map Contact.id != x.before.contacts.live.map Contact.id

theorem changes_eq {x : Turn} (hbefore : x.before.contacts.leaving = none)
    (hafter : x.after.contacts.leaving = none) :
    x.changes =
      (x.after.contacts.contacts.map Contact.id != x.before.contacts.contacts.map Contact.id) := by
  rw [changes, ContactTable.live_of_leaving_eq_none hbefore,
    ContactTable.live_of_leaving_eq_none hafter]

end Turn

-- The fixes since the set of contacts changed last, and the one of that change.
def SinceChange (turns : List Turn) (start : Velocity.Fix) (fixes : List Velocity.Fix) : Prop :=
  ∃ before x since, turns = before ++ x :: since ∧ x.changes = true ∧ x.fix? = some start ∧
    (∀ y ∈ since, y.changes = false) ∧ fixes = since.filterMap Turn.fix?

section SinceChange

variable {turns : List Turn} {x : Turn} {start : Velocity.Fix} {fixes : List Velocity.Fix}

theorem sinceChange_concat (hx : x.changes = true) (hfix : x.fix? = some start) :
    SinceChange (turns ++ [x]) start [] :=
  ⟨turns, x, [], rfl, hx, hfix, by simp, rfl⟩

theorem SinceChange.concat (h : SinceChange turns start fixes) (hx : x.changes = false) :
    SinceChange (turns ++ [x]) start (fixes ++ x.fix?.toList) := by
  obtain ⟨before, y, since, rfl, hy, hstart, hsince, rfl⟩ := h
  refine ⟨before, y, since ++ [x], by simp, hy, hstart, fun z hz => ?_, ?_⟩
  · obtain hz | hz := List.mem_append.mp hz
    · exact hsince z hz
    · rwa [List.mem_singleton.mp hz]
  · cases hfix : x.fix? <;> simp [hfix]

end SinceChange

section Step

variable {c d : Channel} {e : Event} {gestures : List Gesture}

-- What no touch that is accepted is behind changes neither contacts nor the velocity.
structure Unmoved (c d : Channel) : Prop where
  contacts : d.contacts.contacts = c.contacts.contacts
  lastTime : d.detector.lastTime = c.detector.lastTime
  velocity : ∀ s', d.detector.stream = some s' →
    ∃ s, c.detector.stream = some s ∧ s'.velocity = s.velocity

theorem Unmoved.refl (c : Channel) : Unmoved c c := ⟨rfl, rfl, fun s hs => ⟨s, hs, rfl⟩⟩

theorem unmoved_of_ne_touch (hq : c.queue.HeadPending) (hsettled : c.contacts.leaving = none)
    (h : c.step e = .ok (gestures, d)) (he : ∀ t, e ≠ .touch t) : Unmoved c d := by
  have houtcome := outcome_step hq hsettled h
  generalize hdetections : c.detectedBy (.event e) = detections at houtcome
  cases houtcome with
  | quiet hquiet =>
    refine ⟨hquiet.contacts, hquiet.lastTime, fun s' hs' => ?_⟩
    obtain ⟨allowed, hstream⟩ := hquiet.stream
    rw [hstream, Option.map_eq_some_iff] at hs'
    obtain ⟨s, hs, rfl⟩ := hs'
    exact ⟨s, hs, rfl⟩
  | alarms now hcontacts hdetector =>
    refine ⟨congrArg _ hcontacts, by rw [hdetector, Detector.lastTime_tick], fun s' hs' => ?_⟩
    rw [hdetector] at hs'
    cases hs : c.detector.stream with
    | none => cases (Detector.stream_tick_eq_none_iff.mpr hs).symm.trans hs'
    | some s =>
      obtain ⟨after, hafter, tap, alarms, rfl⟩ := Detector.focus_tick hs now
      obtain rfl := Option.some.inj (hafter.symm.trans hs')
      exact ⟨s, rfl, rfl⟩
  | touched t contacts found haccept =>
    obtain ⟨change, hlatest, -⟩ := ContactTable.latest_of_accept? haccept
    rw [hlatest] at hdetections
    cases e with
    | touch t => exact absurd rfl (he t)
    | ack | drain | tick | configure | setDoubleTap | reassign | forgetHistory =>
      cases hdetections

-- An accepted touch, the table of contacts with it and what was detected by it.
structure Touched (x : Turn) (t : Touch) (u : ContactTable) (found : List Gesture) : Prop where
  event : x.event = .touch t
  accepted : x.before.contacts.accept? t = some u
  detected : x.before.detector.touch u = some (found, x.after.detector)
  settled : x.after.contacts = u.settle
  fix : x.fix? = some ⟨t.time, u.center⟩
  shown : x.shown Gesture.fling? = found.filterMap Gesture.fling?

-- A step moves nothing, or a touch is accepted and detection follows it.
theorem motion_cases (hq : c.queue.HeadPending) (hsettled : c.contacts.leaving = none)
    (h : c.step e = .ok (gestures, d)) :
    (Turn.fix? ⟨c, e, gestures, d⟩ = none ∧ Turn.shown Gesture.fling? ⟨c, e, gestures, d⟩ = [] ∧
      Unmoved c d) ∨
    ∃ t u found, Touched ⟨c, e, gestures, d⟩ t u found := by
  cases e with
  | touch t =>
    obtain ⟨⟨result, after⟩, htouch, heq⟩ := map_eq_ok.mp h
    cases heq
    have hsettle := ContactTable.settle_of_leaving_eq_none hsettled
    obtain ⟨-, hnone, hsame⟩ | ⟨u, found, detector, packet, -, haccept, hdetect, hpacket, hsome,
      rfl⟩ := touch_cases hq htouch
    · refine .inl ⟨by simp [Turn.fix?, hnone], by simp [Turn.shown, shownBy, queuedBy, hnone], ?_⟩
      obtain rfl | rfl := hsame
      · rw [hsettle]
        exact .refl c
      · exact .refl _
    · have htouched : c.contacts.touch t = (true, u) := by simp [ContactTable.touch, haccept]
      obtain ⟨_, _, -, -, rfl⟩ := Packet.ofTouch_eq_ok hpacket
      rw [hsettle] at haccept
      refine .inr ⟨t, u, found, rfl, haccept, hdetect, rfl, ?_, ?_⟩
      · simp [Turn.fix?, hsome, htouched]
      · rw [Turn.shown, shownBy, queuedBy, hsome, Option.toList_some, List.flatMap_singleton,
          view_fling?.filterMap_pushAll]
        rfl
  | ack | drain | tick | configure | setDoubleTap | reassign | forgetHistory =>
    exact .inl ⟨rfl, rfl, unmoved_of_ne_touch hq hsettled h (by simp)⟩

end Step

-- What a stream under way has followed: the centre of the contacts since their set changed last,
-- at times that do not decrease.
structure Tracked (turns : List Turn) (c : Channel) (tracker : Tracker) (start : Velocity.Fix)
    (fixes : List Velocity.Fix) : Prop where
  since : SinceChange turns start fixes
  ordered : ∃ last ∈ c.detector.lastTime, InOrder (start :: fixes) last
  follows : FollowsCentre tracker c.contacts.contacts.length start fixes

section Tracked

variable {turns : List Turn} {x : Turn} {tracker : Tracker} {start : Velocity.Fix}
  {fixes : List Velocity.Fix} {t : Touch} {u : ContactTable} {found : List Gesture}
  {s : Detector.Stream}

theorem Tracked.of_unmoved (h : Tracked turns x.before tracker start fixes)
    (hunmoved : Unmoved x.before x.after) (hchanges : x.changes = false) (hfix : x.fix? = none) :
    Tracked (turns ++ [x]) x.after tracker start fixes where
  since := by
    have hsince := h.since.concat hchanges
    rwa [hfix, Option.toList_none, List.append_nil] at hsince
  ordered := by
    rw [hunmoved.lastTime]
    exact h.ordered
  follows := by
    rw [hunmoved.contacts]
    exact h.follows

theorem Touched.lastTime (h : Touched x t u found) : x.after.detector.lastTime = some t.time := by
  obtain ⟨change, hlatest, -, htime⟩ := ContactTable.latest_of_accept? h.accepted
  rw [Detector.lastTime_touch hlatest h.detected, htime]

-- A touch that goes on with the stream or completes it comes in order.
theorem Touched.inOrder (h : Touched x t u found) (hbegan : u.action ≠ .began)
    (hcancelled : u.action ≠ .cancelled) (htracked : Tracked turns x.before tracker start fixes) :
    InOrder (start :: (fixes ++ [⟨t.time, u.center⟩])) t.time := by
  obtain ⟨last, hlast, hordered⟩ := htracked.ordered
  have htime := ContactTable.time?_of_accept? h.accepted
  exact hordered.concat (Detector.le_of_touch htime h.detected hbegan hcancelled last hlast)

-- When the set of contacts changes, another centre is followed.
theorem Touched.tracked_start (h : Touched x t u found)
    (hsettled : x.before.contacts.leaving = none) (hmoved : u.action ≠ .moved)
    (hs : x.after.detector.stream = some s) :
    Tracked (turns ++ [x]) x.after (Tracker.start t.time s.focus) ⟨t.time, u.center⟩ [] where
  since := by
    have hremains := ContactTable.remains hsettled h.accepted
    refine sinceChange_concat ?_ h.fix
    rw [Turn.changes_eq hsettled (by rw [h.settled, ContactTable.leaving_settle]), h.settled,
      bne_iff_ne]
    exact hremains.map_id_ne hmoved fun hgone => by
      cases (Detector.stream_touch_of_closes hgone h.detected).symm.trans hs
  ordered := ⟨t.time, h.lastTime, Velocity.inOrder_singleton _⟩
  follows := by
    have hremains := ContactTable.remains hsettled h.accepted
    rw [h.settled]
    refine followsCentre_start (Detector.centred_touch hremains h.detected hs)
      (ContactTable.center_of_ne_ended fun hended => ?_)
    cases (Detector.stream_touch_of_closes (.inl hended) h.detected).symm.trans hs

-- The centre of the same contacts is followed on by a move.
theorem Touched.tracked_add (h : Touched x t u found) (hsettled : x.before.contacts.leaving = none)
    (hmoved : u.action = .moved) (htracked : Tracked turns x.before tracker start fixes) :
    Tracked (turns ++ [x]) x.after (tracker.add t.time u.focus.location) start
      (fixes ++ [⟨t.time, u.center⟩]) := by
  obtain ⟨hkept, hcount, hids⟩ := (ContactTable.remains hsettled h.accepted).of_moved hmoved
  have hchanges : x.changes = false := by
    rw [Turn.changes_eq hsettled (by rw [h.settled, ContactTable.leaving_settle]), h.settled,
      hkept, hids, bne_self_eq_false]
  have hcenter : u.center = (centroid u.contacts).location := by
    rw [ContactTable.center_of_ne_ended (by simp [hmoved]), hkept]
  have hlength : u.contacts.length = x.before.contacts.contacts.length := by
    simpa using congrArg List.length hids
  have hsince := htracked.since.concat hchanges
  rw [h.fix, Option.toList_some] at hsince
  refine ⟨hsince, ⟨t.time, h.lastTime, ?_⟩, ?_⟩
  · exact h.inOrder (by simp [hmoved]) (by simp [hmoved]) htracked
  · have hfollows := htracked.follows
    rw [← hlength] at hfollows
    rw [h.settled, hkept, Detector.focus_of_count_pos hcount, ← hcenter]
    exact hfollows.add ⟨t.time, u.center⟩ hcenter

end Tracked

namespace Ran

variable {settings : ChannelSettings} {turns : List Turn} {c : Channel}

theorem settled (h : Ran settings turns c) : c.contacts.leaving = none := by
  obtain ⟨k, hk, rfl, -⟩ := h.lived
  exact hk.sound.settled

theorem motion_cases {d : Channel} {e : Event} {gestures : List Gesture}
    (h : Ran settings turns c) (hstep : c.step e = .ok (gestures, d)) :
    (Turn.fix? ⟨c, e, gestures, d⟩ = none ∧ Turn.shown Gesture.fling? ⟨c, e, gestures, d⟩ = [] ∧
      Unmoved c d) ∨
    ∃ t u found, Touched ⟨c, e, gestures, d⟩ t u found := by
  obtain ⟨k, hk, rfl, -⟩ := h.lived
  exact Channel.motion_cases hk.sound.head h.settled hstep

-- Every stream under way is followed from the change of the set of contacts on.
theorem tracked (h : Ran settings turns c) {s : Detector.Stream}
    (hs : c.detector.stream = some s) :
    ∃ start fixes, Tracked turns c s.velocity start fixes := by
  induction h generalizing s with
  | start consumer => cases hs
  | @step turns c d e gestures h hstep ih =>
    obtain ⟨hfix, -, hunmoved⟩ | ⟨t, u, found, htouched⟩ := h.motion_cases hstep
    · obtain ⟨s₀, hs₀, hvelocity⟩ := hunmoved.velocity s hs
      obtain ⟨start, fixes, htracked⟩ := ih hs₀
      have hchanges : Turn.changes ⟨c, e, gestures, d⟩ = false := by
        rw [Turn.changes_eq h.settled (h.step hstep).settled, hunmoved.contacts, bne_self_eq_false]
      rw [hvelocity]
      exact ⟨start, fixes, htracked.of_unmoved hunmoved hchanges hfix⟩
    · obtain ⟨hmoved, hvelocity⟩ | ⟨hmoved, s₀, hs₀, hvelocity⟩ :=
        Detector.velocity_touch (ContactTable.remains h.settled htouched.accepted)
          (ContactTable.time?_of_accept? htouched.accepted) htouched.detected hs
      · rw [hvelocity]
        exact ⟨⟨t.time, u.center⟩, [], htouched.tracked_start h.settled hmoved hs⟩
      · obtain ⟨start, fixes, htracked⟩ := ih hs₀
        rw [hvelocity]
        exact ⟨start, _, htouched.tracked_add h.settled hmoved htracked⟩

-- A move or a release finds the stream followed, and comes no earlier than what was added.
theorem tracked_of_touch (h : Ran settings turns c) {before after : List Turn} {x : Turn}
    (hturns : turns = before ++ x :: after) {t : Touch} (ht : x.event = .touch t)
    (hkind : t.kind = .moved ∨ t.kind = .released) {last : Velocity.Fix}
    (hlast : x.fix? = some last) {s : Detector.Stream} (hs : x.before.detector.stream = some s) :
    ∃ start fixes, Tracked before x.before s.velocity start fixes ∧
      InOrder (start :: (fixes ++ [last])) last.time := by
  obtain ⟨hbefore, hstep⟩ := h.of_split before x after hturns
  obtain ⟨hnone, -, -⟩ | ⟨t', u, found, htouched⟩ := hbefore.motion_cases hstep
  · cases hnone.symm.trans hlast
  · cases htouched.event.symm.trans ht
    obtain rfl := Option.some.inj (htouched.fix.symm.trans hlast)
    obtain ⟨start, fixes, htracked⟩ := hbefore.tracked hs
    have haction : u.action = .moved ∨ u.action = .ended ∨ u.action = .left :=
      hkind.imp (ContactTable.action_of_moved htouched.accepted)
        (ContactTable.action_of_released htouched.accepted)
    refine ⟨start, fixes, htracked, htouched.inOrder ?_ ?_ htracked⟩
    · intro hbegan
      simp [hbegan] at haction
    · intro hcancelled
      simp [hcancelled] at haction

-- A fling that is detected has the average velocity of the contacts since their set changed
-- last.
theorem exists_fixes_of_shown (h : Ran settings turns c) {before after : List Turn} {x : Turn}
    (hturns : turns = before ++ x :: after) {velocity : Point}
    (hx : velocity ∈ x.shown Gesture.fling?) :
    ∃ start fixes last, SinceChange before start fixes ∧ x.fix? = some last ∧
      InOrder (start :: (fixes ++ [last])) last.time ∧
      .flingStart velocity = Detector.releaseScroll x.before.thresholds
        (average start (fixes ++ [last]) last.time) := by
  obtain ⟨hbefore, hstep⟩ := h.of_split before x after hturns
  obtain ⟨-, hnothing, -⟩ | ⟨t, u, found, htouched⟩ := hbefore.motion_cases hstep
  · cases hnothing ▸ hx
  · have hshown : velocity ∈ found.filterMap Gesture.fling? := htouched.shown ▸ hx
    obtain ⟨g, hg, hfling⟩ := List.mem_filterMap.mp hshown
    have htime := ContactTable.time?_of_accept? htouched.accepted
    obtain ⟨hended, s, hs, hrelease⟩ :=
      Detector.fling_of_mem_touch htime htouched.detected hg hfling
    obtain ⟨start, fixes, htracked⟩ := hbefore.tracked hs
    obtain ⟨hcount, hcountBefore⟩ := ContactTable.length_of_ended htouched.accepted hended
    have hcenter : u.center = (centroid u.contacts).location := by
      rw [ContactTable.center, if_pos hended]
    have hordered := htouched.inOrder (by simp [hended]) (by simp [hended]) htracked
    have hfollows := htracked.follows
    rw [hcountBefore, ← hcount] at hfollows
    have haverage : (s.velocity.add t.time u.center).velocity t.time =
        average start (fixes ++ [⟨t.time, u.center⟩]) t.time :=
      (hfollows.add ⟨t.time, u.center⟩ hcenter).velocity_eq hordered
    rw [Detector.focus_of_count_pos hcount.ge, ← hcenter, haverage] at hrelease
    exact ⟨start, fixes, ⟨t.time, u.center⟩, htracked.since, htouched.fix, hordered, hrelease⟩

end Ran

-- A point that is followed through fixes in order has the average velocity, and this is how
-- streams are followed: a move or a release comes in order after the fixes since the set of
-- contacts changed last. So a fling has the average velocity since then, and the flings that are
-- released are among those.
theorem fling_velocity_eq_average :
    (∀ (start : Velocity.Fix) (fixes : List Velocity.Fix) (now : Time),
      InOrder (start :: fixes) now →
      (Tracker.follow start fixes).velocity now = average start fixes now) ∧
    ∀ (settings : ChannelSettings) (turns : List Turn) (c : Channel), Ran settings turns c →
      (∀ (before : List Turn) (x : Turn) (after : List Turn), turns = before ++ x :: after →
        (∀ (t : Touch) (last : Velocity.Fix) (s : Detector.Stream), x.event = .touch t →
          t.kind = .moved ∨ t.kind = .released →
          x.fix? = some last → x.before.detector.stream = some s →
          ∃ (start : Velocity.Fix) (fixes : List Velocity.Fix) (position : Point),
            SinceChange before start fixes ∧
            InOrder (start :: (fixes ++ [last])) last.time ∧
            s.velocity = Tracker.follow ⟨start.time, position⟩ fixes ∧
            ∀ now, InOrder (start :: fixes) now →
              s.velocity.velocity now = average start fixes now) ∧
        ∀ velocity ∈ x.shown Gesture.fling?,
          ∃ (start : Velocity.Fix) (fixes : List Velocity.Fix) (last : Velocity.Fix),
            SinceChange before start fixes ∧ x.fix? = some last ∧
            InOrder (start :: (fixes ++ [last])) last.time ∧
            .flingStart velocity = Detector.releaseScroll x.before.thresholds
              (average start (fixes ++ [last]) last.time)) ∧
      ((turns.flatMap (·.released)).filterMap Gesture.fling?).Sublist
        (turns.flatMap (Turn.shown Gesture.fling?)) := by
  refine ⟨fun start fixes now h => Tracker.velocity_follow start h.le_of_cons,
    fun settings turns c hran => ⟨fun before x after hturns => ⟨?_, fun velocity hx => ?_⟩,
      hran.filterMap_released view_fling?⟩⟩
  · intro t last s ht hkind hlast hs
    obtain ⟨start, fixes, htracked, hordered⟩ :=
      hran.tracked_of_touch hturns ht hkind hlast hs
    obtain ⟨-, position, -, -, -, hfollow, -⟩ := htracked.follows
    exact ⟨start, fixes, position, htracked.since, hordered, hfollow,
      fun now hnow => htracked.follows.velocity_eq hnow⟩
  · exact hran.exists_fixes_of_shown hturns hx

-- A finger goes 30 pixels in each 10 ms and is lifted in the midst of that.
def flungTurns : List Turn :=
  (ofSettings 1 {}).turnsOf [.touch (finger .pressed 1 10 0 1), .ack 1 false false,
    .touch (finger .moved 1 40 10 2), .ack 2 false false,
    .touch (finger .moved 1 70 20 3), .ack 3 false false,
    .touch (finger .released 1 100 30 4), .ack 4 false false]

-- Of these, only the second counts at 120 ms: by then the first is too old, and the third took
-- no time.
def jumps : List Velocity.Fix :=
  [⟨Duration.milliseconds 10, ⟨50, 0⟩⟩, ⟨Duration.milliseconds 110, ⟨70, 0⟩⟩,
    ⟨Duration.milliseconds 110, ⟨95, 0⟩⟩]

theorem flung_velocity_eq_average :
    (Tracker.follow ⟨0, ⟨0, 0⟩⟩ jumps).velocity (Duration.milliseconds 120) = ⟨200, 0⟩ ∧
      average ⟨0, ⟨0, 0⟩⟩ jumps (Duration.milliseconds 120) = ⟨200, 0⟩ ∧
      (∃ c, Ran {} flungTurns c) ∧
      (flungTurns.flatMap (·.released)).filterMap Gesture.fling? = [⟨3000, 0⟩] ∧
      ∃ before x after start fixes last, flungTurns = before ++ x :: after ∧
        SinceChange before start fixes ∧ x.fix? = some last ∧
        InOrder (start :: (fixes ++ [last])) last.time ∧
        .flingStart ⟨3000, 0⟩ = Detector.releaseScroll x.before.thresholds
          (average start (fixes ++ [last]) last.time) := by
  obtain ⟨hfollow, hruns⟩ := fling_velocity_eq_average
  obtain ⟨c, hran⟩ := Ran.exists_turnsOf {} 1 _
  have haverage : average ⟨0, ⟨0, 0⟩⟩ jumps (Duration.milliseconds 120) = ⟨200, 0⟩ := by
    decide +kernel
  have hreleased : (flungTurns.flatMap (·.released)).filterMap Gesture.fling? = [⟨3000, 0⟩] := by
    decide +kernel
  obtain ⟨hturns, hsublist⟩ := hruns {} flungTurns c hran
  have hshown : ⟨3000, 0⟩ ∈ flungTurns.flatMap (Turn.shown Gesture.fling?) :=
    hsublist.subset (by simp [hreleased])
  obtain ⟨x, hx, hfling⟩ := List.mem_flatMap.mp hshown
  obtain ⟨before, after, hsplit⟩ := List.append_of_mem hx
  obtain ⟨start, fixes, last, hfixes⟩ := (hturns before x after hsplit).2 ⟨3000, 0⟩ hfling
  exact ⟨(hfollow _ jumps _ (by decide +kernel)).trans haverage, haverage, ⟨c, hran⟩, hreleased,
    before, x, after, start, fixes, last, hsplit, hfixes⟩

end Channel

end TouchGestures
