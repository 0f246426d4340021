import TouchGestures.Proofs.Channel.Acceptance
import TouchGestures.Proofs.Channel.Standing

namespace TouchGestures.Channel.Diary

open Detector (lastTime_touch lastTime_tick)

variable {y : Diary} {t : Touch}

def latestTime? (detections : List Detection) : Option Time :=
  (detections.filterMap (·.change)).getLast?.map (·.time)

theorem latestTime?_concat_none (detections : List Detection) (gestures : List Gesture) :
    latestTime? (detections ++ [⟨none, gestures⟩]) = latestTime? detections := by
  simp [latestTime?]

theorem latestTime?_concat_some (detections : List Detection) (change : Change)
    (gestures : List Gesture) :
    latestTime? (detections ++ [⟨some change, gestures⟩]) = some change.time := by
  simp [latestTime?]

-- The detector goes by the last accepted touch, whether its stream is over or not.
theorem Kept.lastTime_eq (h : Kept y) :
    y.channel.detector.lastTime = latestTime? y.detections := by
  refine h.induct (P := fun c detections => c.detector.lastTime = latestTime? detections)
    (fun _ _ => rfl) ?_
  intro k d detections added _ houtcome hlast
  cases houtcome with
  | quiet hquiet => rw [hquiet.lastTime, hlast, List.append_nil]
  | alarms now _ hdetector => rw [hdetector, lastTime_tick, hlast, latestTime?_concat_none]
  | touched t contacts gestures haccept hdetect _ =>
    obtain ⟨change, hlatest, -, -⟩ := ContactTable.latest_of_accept? haccept
    rw [lastTime_touch hlatest hdetect, hlatest, latestTime?_concat_some]

-- The detector takes what fits the contacts just if it is a first press or a cancel, or if
-- a stream is under way and the touch is no older than the last accepted one.
theorem Kept.exists_touch_iff_fresh {contacts : ContactTable} (h : Kept y)
    (haccept : y.channel.contacts.accept? t = some contacts) :
    (∃ result, y.channel.detector.touch contacts = some result) ↔
      t.kind = .cancelled ∨ y.channel.contacts.contacts = [] ∨
        (current y.detections).isSome = true ∧
          ∀ time ∈ latestTime? y.detections, time ≤ t.time := by
  obtain ⟨change, hlatest, haction, htime⟩ := ContactTable.latest_of_accept? haccept
  have hunderway : y.channel.detector.stream.isSome = (current y.detections).isSome :=
    h.leads.1.isSome_stream
  rw [Detector.exists_touch_iff_fresh hlatest, haction, ContactTable.action_eq_began_iff haccept,
    ContactTable.action_eq_cancelled_iff haccept, hunderway, h.lastTime_eq, htime, or_left_comm]

-- With contacts down and a stream under way, only a cancel may be older than the last
-- accepted touch. An additional press is held to it like a move or a release, although a
-- press is never meant to be too old.
theorem Kept.refused_iff (h : Kept y) (hfits : y.channel.contacts.Fits t) :
    ∃ result c, y.channel.touch t = .ok (result, c) ∧
      (result.accepted = false ↔
        t.kind ≠ .cancelled ∧ y.channel.contacts.contacts ≠ [] ∧
          (current y.detections = none ∨ ∃ time ∈ latestTime? y.detections, t.time < time)) ∧
      (t.kind = .pressed → (current y.detections).isSome = true →
        (result.accepted = true ↔ ∀ time ∈ latestTime? y.detections, time ≤ t.time)) := by
  obtain ⟨k, hk, hchannel⟩ := h.lived
  obtain ⟨result, c, htouch⟩ := Chronicle.exists_touch hk.sound t
  obtain ⟨contacts, haccept⟩ := ContactTable.exists_accept?_iff.mpr hfits
  have haccepted : result.accepted = true ↔
      t.kind = .cancelled ∨ y.channel.contacts.contacts = [] ∨
        (current y.detections).isSome = true ∧
          ∀ time ∈ latestTime? y.detections, time ≤ t.time := by
    have haccepts : k.accepts t = result.accepted := by simp [Chronicle.accepts, htouch]
    rw [← h.exists_touch_iff_fresh haccept, ← haccepts, Chronicle.accepts_iff hk.sound, hchannel,
      haccept]
    simp
  refine ⟨result, c, hchannel ▸ htouch, ?_, fun hkind hunderway => ?_⟩
  · rw [← Bool.not_eq_true, haccepted, not_or, not_or, not_and_or, Option.not_isSome_iff_eq_none]
    simp only [ne_eq, not_forall, Int.not_le, exists_prop]
  · -- While a stream is under way some contact is down, hence the press is not a first one.
    have hdown : y.channel.contacts.contacts ≠ [] := by
      intro hnil
      have hstream : y.channel.detector.stream.isSome = (current y.detections).isSome :=
        h.leads.1.isSome_stream
      rw [← hchannel] at hnil hstream
      rw [hk.sound.idle hnil, hunderway] at hstream
      cases hstream
    rw [haccepted, hkind]
    simp [hdown, hunderway]

def oneDown : List Call := [.event (.touch (finger .pressed 1 10 10 1))]

-- A second finger is taken in at any time from then on.
theorem accepted_of_oneDown :
    Kept (ofCalls {} oneDown) ∧
      (ofCalls {} oneDown).channel.contacts.Fits (finger .pressed 2 50 10 2) ∧
      ∃ result c, (ofCalls {} oneDown).channel.touch (finger .pressed 2 50 10 2) =
        .ok (result, c) ∧ result.accepted = true := by
  have hkept := kept_ofCalls {} oneDown
  have hfits : (ofCalls {} oneDown).channel.contacts.Fits (finger .pressed 2 50 10 2) := by
    decide +kernel
  obtain ⟨result, c, htouch, -, haccepted⟩ := hkept.refused_iff hfits
  exact ⟨hkept, hfits, result, c, htouch,
    (haccepted rfl (by decide +kernel)).mpr (by decide +kernel)⟩

-- If it came down earlier it is turned down, although there is room for it and the stream
-- of the first finger is under way.
theorem not_accepted_of_earlierPress :
    Kept (ofCalls {} oneDown) ∧ (current (ofCalls {} oneDown).detections).isSome = true ∧
      (ofCalls {} oneDown).channel.contacts.Fits (finger .pressed 2 50 5 2) ∧
      ¬∃ result c, (ofCalls {} oneDown).channel.touch (finger .pressed 2 50 5 2) =
        .ok (result, c) ∧ result.accepted = true := by
  refine ⟨kept_ofCalls {} oneDown, by decide +kernel, by decide +kernel, ?_⟩
  have hrejected : ((ofCalls {} oneDown).channel.touch
      (finger .pressed 2 50 5 2)).toOption.map (·.1.accepted) = some false := by
    decide +kernel
  rintro ⟨result, c, htouch, haccepted⟩
  rw [htouch] at hrejected
  simp [Except.toOption, haccepted] at hrejected

end TouchGestures.Channel.Diary
