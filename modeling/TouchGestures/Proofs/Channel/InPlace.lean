import TouchGestures.Channel
import TouchGestures.Proofs.ContactTable.Accepted
import TouchGestures.Proofs.Outcome

namespace TouchGestures

namespace Detector

-- Detects the gestures of the last touch of a table, with the detector changed in place.
def touchInPlace (t : ContactTable) : EStateM Violation Detector (Option (List Gesture)) := do
  let some change := t.latest | return none
  if (← get).refuses change then
    return none
  modify fun d => { d with lastTime := some change.time }
  let (gestures, d) := (← get).handle t change
  set d
  return some gestures

-- What is turned down has changed nothing.
theorem run_touchInPlace (d : Detector) (t : ContactTable) :
    (touchInPlace t).run d =
      match d.touch t with
      | none => .ok none d
      | some (gestures, d') => .ok (some gestures) d' := by
  cases hlatest : t.latest with
  | none => simp [touchInPlace, touch, hlatest]
  | some change =>
    cases hrefuses : d.refuses change with
    | true => simp [touchInPlace, touch, hlatest, hrefuses]
    | false => simp [touchInPlace, touch, hlatest, hrefuses, -bind_pure_comp]

-- The first press of a stream is never turned down.
theorem action_ne_began_of_touch_eq_none {d : Detector} {t : ContactTable}
    (hlatest : t.latest.isSome = true) (h : d.touch t = none) : t.action ≠ .began := by
  intro hbegan
  cases hchange : t.latest with
  | none => simp [hchange] at hlatest
  | some change =>
    have haction : change.action = .began := by simpa [ContactTable.action, hchange] using hbegan
    simp [touch, hchange, refuses, haction] at h

end Detector

namespace Pipeline

-- Detects the gestures of the last touch of a table and queues them, with the pipeline
-- changed in place. A new stream is inside its slop region before anything is detected.
def touchInPlace (t : ContactTable) :
    EStateM Violation Pipeline (TouchResult × List Gesture) := do
  modify fun p => { p with slopExceeded := p.slopExceeded && t.action ≠ .began }
  let some gestures ← within detector (fun p detector => { p with detector })
      (Detector.touchInPlace t)
    | return ((← get).result false, [])
  modify fun p =>
    { p with slopExceeded := p.slopExceeded || gestures.any fun g => g.kind = .scrollBegin }
  let packet ← MonadExcept.ofExcept (Packet.ofTouch t)
  let (released, queue) ← MonadExcept.ofExcept ((← get).queue.submit (packet.pushAll gestures))
  modify fun p => { p with queue }
  return ((← get).result true, released)

-- When detection turns the touch down, the slop region is as it was: only a first press
-- changes it by then, and that is never turned down.
theorem run_touchInPlace (p : Pipeline) {t : ContactTable} (hlatest : t.latest.isSome = true) :
    (touchInPlace t).run p =
      match p.touch t with
      | (.ok answer, p') => .ok answer p'
      | (.error violation, p') => .error violation p' := by
  cases hdetect : p.detector.touch t with
  | none =>
    have hbegan := Detector.action_ne_began_of_touch_eq_none hlatest hdetect
    simp [touchInPlace, touch, hdetect, hbegan, run_within, Detector.run_touchInPlace,
      -bind_pure_comp]
  | some detected =>
    obtain ⟨gestures, detector⟩ := detected
    cases hpacket : Packet.ofTouch t with
    | error violation =>
      simp [touchInPlace, touch, detected, hdetect, hpacket, run_within, run_ofExcept,
        Detector.run_touchInPlace, Except.bind, -bind_pure_comp]
    | ok packet =>
      cases hsubmit : p.queue.submit (packet.pushAll gestures) with
      | error | ok =>
        simp [touchInPlace, touch, result, detected, hdetect, hpacket, hsubmit, run_within,
          run_ofExcept, Detector.run_touchInPlace, Except.bind, -bind_pure_comp]

end Pipeline

namespace Channel

-- Handles a touch with the channel changed in place. The contacts take it in first, and are
-- put back as they were if detection turns it down.
def touchInPlace (t : Touch) : EStateM Violation Channel TouchResult := do
  let before := (← get).contacts
  let (fits, contacts) := before.touch t
  modify fun c => { c with contacts }
  if !fits then
    return {}
  let (result, gestures) ← within pipeline (fun c pipeline => { c with pipeline })
    (Pipeline.touchInPlace contacts)
  modify fun c => c.collect gestures
  if !result.accepted then
    modify fun c => { c with contacts := before }
    return result
  modify fun c => { c with contacts := c.contacts.settle }
  return result

-- Changed in place, a channel comes to what it comes to otherwise.
theorem run_touchInPlace {c d : Channel} {t : Touch} {result : TouchResult}
    (h : c.touch t = .ok (result, d)) : (touchInPlace t).run c = .ok result d := by
  cases haccept : c.contacts.settle.accept? t with
  | none =>
    have htouch := ContactTable.touch_of_accept?_eq_none haccept
    rw [touch_of_not_accepted htouch] at h
    cases h
    simp [touchInPlace, htouch, -bind_pure_comp]
  | some contacts =>
    have htouch : c.contacts.touch t = (true, contacts) := by
      simp [ContactTable.touch, haccept]
    have hrun := Pipeline.run_touchInPlace c.pipeline (ContactTable.accepted_note haccept).2.1
    unfold Channel.touch at h
    simp only [htouch] at h
    cases hpipeline : c.pipeline.touch contacts with
    | mk answer pipeline =>
      rw [hpipeline] at h hrun
      cases answer with
      | error violation => cases h
      | ok answer =>
        obtain ⟨answer, gestures⟩ := answer
        cases h
        cases haccepted : result.accepted with
        | false | true =>
          simp [touchInPlace, htouch, run_within, hrun, haccepted, collect, numberTaps, thresholds,
            -bind_pure_comp]

end Channel

end TouchGestures
