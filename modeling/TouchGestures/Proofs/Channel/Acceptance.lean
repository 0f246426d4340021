import TouchGestures.Proofs.Channel.Streams
import TouchGestures.Proofs.ContactTable.Ids

namespace TouchGestures

namespace Detector

variable {d : Detector} {t : ContactTable} {change : Change}

-- A touch is detected just if it begins a stream, cancels, or finds a stream under way and
-- is not older than the one before.
theorem exists_touch_iff_fresh (hlatest : t.latest = some change) :
    (∃ result, d.touch t = some result) ↔
      change.action = .began ∨ change.action = .cancelled ∨
        d.stream.isSome = true ∧ ∀ time ∈ d.lastTime, time ≤ change.time := by
  have hfresh : d.lastTime.any (change.time < ·) = false ↔
      ∀ time ∈ d.lastTime, time ≤ change.time := by
    cases d.lastTime <;> simp
  have htouch : (∃ result, d.touch t = some result) ↔ d.refuses change = false := by
    simp only [touch, hlatest]
    cases d.refuses change <;> simp
  rw [← hfresh, htouch, refuses]
  cases change.action <;> cases d.stream <;> cases d.lastTime.any (change.time < ·) <;> simp

theorem exists_touch_iff (hlatest : t.latest = some change)
    (htime : ∀ time ∈ d.lastTime, time ≤ change.time) :
    (∃ result, d.touch t = some result) ↔
      change.action = .began ∨ change.action = .cancelled ∨ d.stream.isSome = true := by
  rw [exists_touch_iff_fresh hlatest, and_iff_left htime]

theorem lastTime_pinch (d : Detector) (s : Stream) (t : ContactTable) (time : Time) :
    (d.pinch s t time).2.lastTime = d.lastTime := by
  unfold pinch
  simp only []
  split
  · split
    · split <;> rfl
    · split <;> rfl
  · rfl

theorem lastTime_finish (d : Detector) (s : Stream) (t : ContactTable) (time : Time) :
    (d.finish s t time).2.lastTime = d.lastTime := by
  unfold finish
  split
  · rfl
  · simp only []
    split
    · rfl
    · split <;> try rfl
      split <;> rfl

-- The handlers leave the time of the last touch alone.
theorem lastTime_handle (d : Detector) (t : ContactTable) (change : Change) :
    (d.handle t change).2.lastTime = d.lastTime := by
  unfold handle
  split
  · unfold begin
    split <;> rfl
  · rfl
  · unfold join
    simp only []
    split <;> rfl
  · exact lastTime_pinch _ _ _ _
  · unfold leave
    simp only []
    split <;> rfl
  · exact lastTime_finish _ _ _ _
  · rfl

theorem lastTime_touch {d' : Detector} {gestures : List Gesture}
    (hlatest : t.latest = some change) (h : d.touch t = some (gestures, d')) :
    d'.lastTime = some change.time := by
  obtain ⟨latest, hlatest', -, hhandle⟩ := touch_eq_some h
  rw [hlatest, Option.some.injEq] at hlatest'
  have htime := lastTime_handle { d with lastTime := some latest.time } t latest
  rw [hhandle] at htime
  rw [htime, hlatest']

theorem lastTime_tick (d : Detector) (now : Time) : (d.tick now).2.lastTime = d.lastTime := by
  unfold tick
  split <;> rfl

end Detector

namespace Channel.Diary

open Detector (lastTime_touch lastTime_tick)

variable {y : Diary} {t : Touch}

-- The contacts of a channel are told apart by their numbers, and its detector goes by the
-- time of a touch that was accepted.
structure Keeps (c : Channel) (detections : List Detection) : Prop where
  distinct : c.contacts.Distinct
  lastTime : ∀ time ∈ c.detector.lastTime,
    ∃ x ∈ detections, ∃ change ∈ x.change, change.time = time

theorem Keeps.outcome {c d : Channel} {detections added : List Detection}
    (h : Keeps c detections) (houtcome : Outcome c d added) : Keeps d (detections ++ added) := by
  have holder : ∀ time ∈ c.detector.lastTime,
      ∃ x ∈ detections ++ added, ∃ change ∈ x.change, change.time = time := by
    intro time htime
    obtain ⟨x, hx, hchange⟩ := h.lastTime time htime
    exact ⟨x, List.mem_append_left _ hx, hchange⟩
  cases houtcome with
  | quiet hquiet =>
    refine ⟨?_, by rwa [hquiet.lastTime]⟩
    unfold ContactTable.Distinct
    rw [hquiet.contacts]
    exact h.distinct
  | alarms now hcontacts hdetector =>
    exact ⟨hcontacts ▸ h.distinct, by rwa [hdetector, lastTime_tick]⟩
  | touched t contacts gestures haccept hdetect hcontacts =>
    refine ⟨hcontacts ▸ (h.distinct.accept? haccept).settle, ?_⟩
    obtain ⟨change, hlatest, -, -⟩ := ContactTable.latest_of_accept? haccept
    rw [lastTime_touch hlatest hdetect]
    rintro time ⟨⟩
    exact ⟨_, List.mem_append_right _ (List.mem_singleton_self _), change, hlatest, rfl⟩

theorem Kept.keeps (h : Kept y) : Keeps y.channel y.detections := by
  refine h.induct (P := Keeps) (fun consumer settings => ⟨List.nodup_nil, by simp [ofSettings,
    Pipeline.ofSettings]⟩) ?_
  intro k d detections added _ houtcome hkeeps
  exact hkeeps.outcome houtcome

-- The detector accepts what fits the contacts just if it cancels, or the press begins a
-- stream, or a stream is under way.
theorem Kept.exists_touch_iff {contacts : ContactTable} (h : Kept y)
    (haccept : y.channel.contacts.accept? t = some contacts)
    (htime : ∀ x ∈ y.detections, ∀ change ∈ x.change, change.time ≤ t.time) :
    (∃ result, y.channel.detector.touch contacts = some result) ↔
      t.kind = .cancelled ∨ y.channel.contacts.contacts = [] ∨
        (current y.detections).isSome = true := by
  obtain ⟨change, hlatest, haction, htouched⟩ := ContactTable.latest_of_accept? haccept
  have hfresh : ∀ time ∈ y.channel.detector.lastTime, time ≤ change.time := by
    intro time hlast
    obtain ⟨x, hx, accepted, haccepted, rfl⟩ := h.keeps.lastTime time hlast
    rw [htouched]
    exact htime x hx accepted haccepted
  have hunderway : y.channel.detector.stream.isSome = (current y.detections).isSome :=
    h.leads.1.isSome_stream
  rw [Detector.exists_touch_iff hlatest hfresh, haction, ContactTable.action_eq_began_iff haccept,
    ContactTable.action_eq_cancelled_iff haccept, hunderway, or_left_comm]

-- A touch that fits the contacts and is no older than those before it is accepted, and what
-- it lifts or cancels taken out, just if it is a cancel, or no contact is down, or no
-- contact was cancelled since the first of those that are down was pressed.
theorem Kept.accepted_iff (h : Kept y) (hfits : y.channel.contacts.Fits t)
    (htime : ∀ x ∈ y.detections, ∀ change ∈ x.change, change.time ≤ t.time) :
    (∃ result c, y.channel.touch t = .ok (result, c) ∧ result.accepted = true ∧
        (t.kind = .released ∨ t.kind = .cancelled → c.contacts.index? t.contact.id = none)) ↔
      t.kind = .cancelled ∨ y.channel.contacts.contacts = [] ∨
        (current y.detections).isSome = true := by
  obtain ⟨contacts, haccept⟩ := ContactTable.exists_accept?_iff.mpr hfits
  obtain ⟨k, hk, hchannel⟩ := h.lived
  have hhead : y.channel.queue.HeadPending := hchannel ▸ hk.sound.head
  have hsettled : y.channel.contacts.leaving = none := hchannel ▸ hk.sound.settled
  rw [← h.exists_touch_iff haccept htime]
  constructor
  · rintro ⟨result, c, htouch, haccepted, -⟩
    obtain ⟨hrejected, -, -⟩ | ⟨contacts', gestures, -, haccept', hdetect, -, -⟩ :=
      detection?_cases hhead hsettled htouch
    · rw [haccepted] at hrejected
      cases hrejected
    · rw [haccept, Option.some.injEq] at haccept'
      exact ⟨_, haccept' ▸ hdetect⟩
  · rintro ⟨⟨gestures, detector⟩, hdetect⟩
    have hsame := ContactTable.settle_of_leaving_eq_none hsettled
    obtain ⟨packet, -, -, htouch⟩ := touch_of_accept? hhead (hsame.symm ▸ haccept) hdetect
    refine ⟨_, _, htouch, rfl, fun hkind => ?_⟩
    exact ContactTable.index?_settle_of_leaving (h.keeps.distinct.accept? haccept)
      (ContactTable.leaving_of_accept? haccept hkind)

def bothDown : List Call :=
  [.event (.touch (finger .pressed 1 10 0 1)), .event (.touch (finger .pressed 2 50 10 2))]

theorem accepted_of_bothDown :
    Kept (ofCalls {} bothDown) ∧
      (ofCalls {} bothDown).channel.contacts.Fits (finger .released 2 50 20 3) ∧
      ∃ result c, (ofCalls {} bothDown).channel.touch (finger .released 2 50 20 3) =
          .ok (result, c) ∧ result.accepted = true ∧ c.contacts.index? 2 = none := by
  have hkept := kept_ofCalls {} bothDown
  have hfits : (ofCalls {} bothDown).channel.contacts.Fits (finger .released 2 50 20 3) := by
    decide +kernel
  have htime : ∀ x ∈ (ofCalls {} bothDown).detections, ∀ change ∈ x.change,
      change.time ≤ (finger .released 2 50 20 3).time := by
    decide +kernel
  obtain ⟨result, c, htouch, haccepted, hout⟩ :=
    (hkept.accepted_iff hfits htime).mpr (.inr (.inr (by decide +kernel)))
  exact ⟨hkept, hfits, result, c, htouch, haccepted, hout (.inl rfl)⟩

def mateCancelled : List Call := bothDown ++ [.event (.touch (finger .cancelled 1 10 20 3))]

-- The other finger is still down, but its release is turned down.
theorem not_accepted_of_mateCancelled :
    Kept (ofCalls {} mateCancelled) ∧
      (ofCalls {} mateCancelled).channel.contacts.Fits (finger .released 2 50 30 4) ∧
      (∀ x ∈ (ofCalls {} mateCancelled).detections, ∀ change ∈ x.change,
        change.time ≤ (finger .released 2 50 30 4).time) ∧
      ¬∃ result c, (ofCalls {} mateCancelled).channel.touch (finger .released 2 50 30 4) =
          .ok (result, c) ∧ result.accepted = true := by
  refine ⟨kept_ofCalls {} mateCancelled, by decide +kernel, by decide +kernel, ?_⟩
  have hrejected : ((ofCalls {} mateCancelled).channel.touch
      (finger .released 2 50 30 4)).toOption.map (·.1.accepted) = some false := by
    decide +kernel
  rintro ⟨result, c, htouch, haccepted⟩
  rw [htouch] at hrejected
  simp [Except.toOption, haccepted] at hrejected

end Channel.Diary

end TouchGestures
