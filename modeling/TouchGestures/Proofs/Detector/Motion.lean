import TouchGestures.Proofs.Detector.Taps
import TouchGestures.Proofs.Velocity

namespace TouchGestures

def Gesture.fling? (g : Gesture) : Option Point :=
  match g.payload with
  | .flingStart velocity => some velocity
  | _ => none

theorem Gesture.fling?_eq_some_iff {g : Gesture} {velocity : Point} :
    g.fling? = some velocity ↔ g.payload = .flingStart velocity := by
  unfold fling?
  cases g.payload <;> simp

namespace Detector

open Velocity (Tracker)

variable {d d' : Detector} {s s' : Stream} {t u : ContactTable} {time : Time}
  {gestures : List Gesture}

-- After a touch, velocity is measured anew from where the contacts are centred, or the touch
-- was a move, and it has been added.
theorem velocity_touch (hremains : t.Remains u) (htime : u.time? = some time)
    (h : d.touch u = some (gestures, d')) (hs' : d'.stream = some s') :
    (u.action ≠ .moved ∧ s'.velocity = Tracker.start time s'.focus) ∨
    (u.action = .moved ∧ ∃ s, d.stream = some s ∧
      s'.velocity = s.velocity.add time u.focus.location) := by
  have hleaves : gestures ≠ [] ∨ d'.stream ≠ none := .inr (by simp [hs'])
  cases hremains with
  | began contact hbegan hacting =>
    obtain ⟨now, hbegin, hnow⟩ := touch_of_began hbegan h
    obtain rfl := Option.some.inj (htime.symm.trans hnow)
    simp only [begin, hacting] at hbegin
    cases hbegin
    obtain rfl := Option.some.inj hs'
    exact .inl ⟨by simp [hbegan], rfl⟩
  | joined hjoined =>
    obtain ⟨s, now, -, hjoin, hnow⟩ := touch_of_underway (by simp [hjoined]) h hleaves
    obtain rfl := Option.some.inj (htime.symm.trans hnow)
    simp only [hjoined] at hjoin
    obtain rfl := congrArg Prod.snd hjoin
    obtain rfl := Option.some.inj hs'
    exact .inl ⟨by simp [hjoined], rfl⟩
  | moved hmoved =>
    obtain ⟨s, now, hs, hmove, hnow⟩ := touch_of_underway (by simp [hmoved]) h hleaves
    obtain rfl := Option.some.inj (htime.symm.trans hnow)
    simp only [hmoved] at hmove
    obtain rfl := congrArg Prod.snd hmove
    obtain ⟨tap, alarms, scrolling, pinching, hafter⟩ := exists_stream_move _ s u time
    obtain rfl := Option.some.inj (hafter.symm.trans hs')
    exact .inr ⟨hmoved, s, hs, rfl⟩
  | left hleft =>
    obtain ⟨s, now, -, hleave, hnow⟩ := touch_of_underway (by simp [hleft]) h hleaves
    obtain rfl := Option.some.inj (htime.symm.trans hnow)
    simp only [hleft] at hleave
    obtain rfl := congrArg Prod.snd hleave
    obtain rfl := Option.some.inj hs'
    exact .inl ⟨by simp [hleft], rfl⟩
  | gone hgone => cases (stream_touch_of_closes hgone h).symm.trans hs'

-- A fling comes of the last release, and it has the velocity that there is once the release
-- has been added.
theorem fling_of_mem_touch {g : Gesture} {velocity : Point} (htime : u.time? = some time)
    (h : d.touch u = some (gestures, d')) (hg : g ∈ gestures) (hfling : g.fling? = some velocity) :
    u.action = .ended ∧ ∃ s, d.stream = some s ∧
      .flingStart velocity = releaseScroll d.settings.thresholds
        ((s.velocity.add time u.focus.location).velocity time) := by
  have hpayload := Gesture.fling?_eq_some_iff.mp hfling
  have hended : u.action = .ended := by
    by_contra hended
    obtain ⟨change, hlatest, -, hhandle⟩ := touch_eq_some h
    have haction : change.action ≠ .ended := by
      simpa [ContactTable.action, hlatest] using hended
    have hongoing := ongoing_handle (d := { d with lastTime := some change.time }) (t := u) haction
    rw [hhandle] at hongoing
    have hkind := hongoing g hg
    rw [Gesture.kind, hpayload] at hkind
    cases hkind
  obtain ⟨s, now, hs, hfinish, hnow⟩ :=
    touch_of_underway (by simp [hended]) h (.inl (List.ne_nil_of_mem hg))
  obtain rfl := Option.some.inj (htime.symm.trans hnow)
  simp only [hended] at hfinish
  obtain rfl := congrArg Prod.fst hfinish
  refine ⟨hended, s, hs, ?_⟩
  obtain hkind | hrelease := mem_finish hg
  · rw [Gesture.kind, hpayload] at hkind
    simp [Gesture.Payload.kind] at hkind
  · rw [← hpayload, hrelease]

end Detector

end TouchGestures
