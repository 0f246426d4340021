import Mathlib.Logic.Function.Basic
import TouchGestures.Detector.Touch

namespace TouchGestures

-- Other numbers for touches, different ones for different touches. Zero stands for no touch
-- whatever the numbers.
structure Renumbering where
  apply : EventId → EventId
  injective : Function.Injective apply
  zero : apply 0 = 0

namespace Renumbering

instance : CoeFun Renumbering fun _ => EventId → EventId := ⟨apply⟩

theorem apply_eq_iff (ρ : Renumbering) {first second : EventId} :
    ρ first = ρ second ↔ first = second := ρ.injective.eq_iff

end Renumbering

variable (ρ : Renumbering)

def Gesture.renumber (g : Gesture) : Gesture := { g with eventId := ρ g.eventId }

def Touch.renumber (t : Touch) : Touch := { t with id := ρ t.id }

def Change.renumber (c : Change) : Change := { c with eventId := ρ c.eventId }

@[simp] theorem Gesture.kind_renumber (g : Gesture) : (g.renumber ρ).kind = g.kind := rfl

namespace ContactTable

def renumber (t : ContactTable) : ContactTable :=
  { t with latest := t.latest.map (·.renumber ρ) }

variable {ρ} (t : ContactTable)

@[simp] theorem contacts_renumber : (t.renumber ρ).contacts = t.contacts := rfl

@[simp] theorem latest_renumber : (t.renumber ρ).latest = t.latest.map (·.renumber ρ) := rfl

@[simp] theorem count_renumber : (t.renumber ρ).count = t.count := rfl

@[simp] theorem live_renumber : (t.renumber ρ).live = t.live := rfl

@[simp] theorem eventId_renumber : (t.renumber ρ).eventId = ρ t.eventId := by
  unfold eventId
  cases h : t.latest <;> simp [h, ρ.zero, Change.renumber]

@[simp] theorem action_renumber : (t.renumber ρ).action = t.action := by
  unfold action
  cases h : t.latest <;> simp [h, Change.renumber]

@[simp] theorem actingIndex_renumber : (t.renumber ρ).actingIndex = t.actingIndex := by
  unfold actingIndex
  cases h : t.latest <;> simp [h, Change.renumber]

@[simp] theorem acting?_renumber : (t.renumber ρ).acting? = t.acting? := by simp [acting?]

@[simp] theorem synthesized_renumber : (t.renumber ρ).synthesized = t.synthesized := by
  unfold synthesized
  cases h : t.latest <;> simp [h, Change.renumber]

@[simp] theorem focusOf_renumber (contacts : List Contact) :
    (t.renumber ρ).focusOf contacts = t.focusOf contacts := by simp [focusOf]

@[simp] theorem focus_renumber : (t.renumber ρ).focus = t.focus := by simp [focus]

@[simp] theorem staying_renumber : (t.renumber ρ).staying = t.staying := by simp [staying]

@[simp] theorem bounds_renumber : (t.renumber ρ).bounds = t.bounds := rfl

theorem settle_renumber : (t.renumber ρ).settle = t.settle.renumber ρ := by
  unfold settle
  cases h : t.leaving <;> simp [renumber, h]

theorem press?_renumber (touch : Touch) :
    (t.renumber ρ).press? (touch.renumber ρ) = (t.press? touch).map (·.renumber ρ) := by
  unfold press?
  rw [apply_ite (Option.map (renumber ρ))]
  rfl

theorem accept?_renumber (touch : Touch) :
    (t.renumber ρ).accept? (touch.renumber ρ) = (t.accept? touch).map (·.renumber ρ) := by
  have hindex : (t.renumber ρ).index? touch.contact.id = t.index? touch.contact.id := rfl
  unfold accept?
  simp only [Touch.renumber, hindex]
  cases touch.kind <;> cases t.index? touch.contact.id
  case pressed.none => exact press?_renumber t touch
  all_goals rfl

theorem touch_renumber (touch : Touch) :
    (t.renumber ρ).touch (touch.renumber ρ) =
      ((t.touch touch).1, (t.touch touch).2.renumber ρ) := by
  unfold ContactTable.touch
  simp only [settle_renumber, accept?_renumber]
  cases t.settle.accept? touch <;> rfl

end ContactTable

namespace Detector

def Press.renumber (p : Press) : Press := { p with eventId := ρ p.eventId }

def Stream.renumber (s : Stream) : Stream := { s with press := s.press.renumber ρ }

end Detector

def Detector.renumber (d : Detector) : Detector :=
  { d with stream := d.stream.map (·.renumber ρ) }

namespace Detector

variable {ρ} {t : ContactTable} {time : Time}

theorem nextDeadline_renumber (d : Detector) :
    (d.renumber ρ).nextDeadline = d.nextDeadline := by
  unfold nextDeadline renumber
  cases d.stream <;> rfl

-- The gestures of a touch do not have its number yet.
@[simp] theorem gestureAt_renumber (payload : Gesture.Payload) (place : Place) :
    gestureAt (t.renumber ρ) time payload place = gestureAt t time payload place := by
  simp [gestureAt]

namespace Stream

variable (s : Stream)

@[simp] theorem tap_renumber : (s.renumber ρ).tap = s.tap := rfl

@[simp] theorem pinching_renumber : (s.renumber ρ).pinching = s.pinching := rfl

@[simp] theorem scrolling_renumber : (s.renumber ρ).scrolling = s.scrolling := rfl

theorem cancelTap_renumber :
    (s.renumber ρ).cancelTap (t.renumber ρ) time =
      (s.cancelTap t time).map id (·.renumber ρ) := by
  simp only [cancelTap, tap_renumber, ContactTable.acting?_renumber, gestureAt_renumber]
  cases s.tap <;> rfl

theorem beginScroll_renumber (slop : Scalar) :
    (s.renumber ρ).beginScroll slop (t.renumber ρ) time =
      (s.beginScroll slop t time).map id (·.renumber ρ) := by
  simp only [beginScroll, ContactTable.focus_renumber, cancelTap_renumber, gestureAt_renumber]
  rw [apply_ite (Prod.map id (renumber ρ))]
  rfl

theorem updateScroll_renumber :
    (s.renumber ρ).updateScroll (t.renumber ρ) time = s.updateScroll t time := by
  simp only [updateScroll, ContactTable.focus_renumber, gestureAt_renumber]
  rfl

theorem scroll_renumber (slop : Scalar) :
    (s.renumber ρ).scroll slop (t.renumber ρ) time =
      (s.scroll slop t time).map id (·.renumber ρ) := by
  simp only [scroll, beginScroll_renumber, ContactTable.focus_renumber, Prod.map_fst,
    Prod.map_snd, updateScroll_renumber]
  rfl

-- The alarms of a stream ring for its first press.
theorem ring_renumber (alarm : Alarm) (deadline : Time) :
    (s.renumber ρ).ring alarm deadline =
      (s.ring alarm deadline).map (List.map (·.renumber ρ)) (·.renumber ρ) := by
  simp only [ring, tap_renumber]
  cases s.tap <;> cases alarm <;> rfl

theorem ringDue_renumber (now : Time) (rounds : Nat) :
    (s.renumber ρ).ringDue now rounds =
      (s.ringDue now rounds).map (List.map (·.renumber ρ)) (·.renumber ρ) := by
  induction rounds generalizing s with
  | zero => rfl
  | succ rounds ih =>
    have halarms : (s.renumber ρ).alarms = s.alarms := rfl
    simp only [ringDue, halarms]
    cases s.alarms.takeDue? now with
    | none => rfl
    | some due =>
      obtain ⟨alarm, deadline, rest⟩ := due
      have hrest : { s.renumber ρ with alarms := rest } =
          renumber ρ { s with alarms := rest } := rfl
      simp only [hrest, ring_renumber, Prod.map_fst, Prod.map_snd, ih, ← List.map_append]
      rfl

end Stream

@[simp] theorem settings_renumber (d : Detector) : (d.renumber ρ).settings = d.settings := rfl

variable (d : Detector) (s : Stream)

theorem begin_renumber :
    (d.renumber ρ).begin (t.renumber ρ) time = (d.begin t time).map id (·.renumber ρ) := by
  simp only [begin, ContactTable.acting?_renumber, ContactTable.eventId_renumber,
    gestureAt_renumber]
  cases t.acting? <;> rfl

theorem measure_renumber (contacts : List Contact) (center : Point) :
    (d.renumber ρ).measure contacts center = (d.measure contacts center).renumber ρ := rfl

theorem join_renumber :
    (d.renumber ρ).join (s.renumber ρ) (t.renumber ρ) time =
      (d.join s t time).map id (·.renumber ρ) := by
  simp only [join, Stream.cancelTap_renumber, ContactTable.focus_renumber, Prod.map_snd,
    ContactTable.contacts_renumber, settings_renumber, Stream.pinching_renumber,
    measure_renumber, ← apply_ite (renumber ρ)]
  rfl

theorem pinch_renumber :
    (d.renumber ρ).pinch (s.renumber ρ) (t.renumber ρ) time =
      (d.pinch s t time).map id (·.renumber ρ) := by
  simp only [pinch, Stream.cancelTap_renumber, ContactTable.focus_renumber,
    ContactTable.contacts_renumber, ContactTable.count_renumber, settings_renumber,
    Stream.pinching_renumber, gestureAt_renumber, apply_ite (Prod.map id (renumber ρ))]
  rfl

theorem move_renumber :
    (d.renumber ρ).move (s.renumber ρ) (t.renumber ρ) time =
      (d.move s t time).map id (·.renumber ρ) := by
  simp only [move, settings_renumber, Stream.scroll_renumber, Prod.map_fst, Prod.map_snd,
    pinch_renumber]
  rfl

theorem leave_renumber :
    (d.renumber ρ).leave (s.renumber ρ) (t.renumber ρ) time =
      (d.leave s t time).map id (·.renumber ρ) := by
  simp only [leave, ContactTable.staying_renumber, ContactTable.focusOf_renumber,
    ContactTable.count_renumber, settings_renumber, Stream.pinching_renumber, gestureAt_renumber,
    measure_renumber, ← apply_ite (renumber ρ)]
  rfl

theorem finish_renumber :
    (d.renumber ρ).finish (s.renumber ρ) (t.renumber ρ) time =
      (d.finish s t time).map id (·.renumber ρ) := by
  simp only [finish, ContactTable.acting?_renumber, ContactTable.focus_renumber,
    settings_renumber, Stream.pinching_renumber, Stream.scrolling_renumber, Stream.tap_renumber,
    gestureAt_renumber]
  cases t.acting? with
  | none => rfl
  | some contact =>
    cases hscrolling : s.scrolling with
    | true => rfl
    | false =>
      cases htap : s.tap with
      | long | off => rfl
      | possible => cases hdouble : s.doubleTap <;> simp [hdouble, Stream.renumber] <;> rfl

theorem abort_renumber :
    (d.renumber ρ).abort (s.renumber ρ) (t.renumber ρ) time =
      (d.abort s t time).map id (·.renumber ρ) := by
  simp only [abort, ContactTable.acting?_renumber, ContactTable.focus_renumber,
    Stream.pinching_renumber, Stream.scrolling_renumber, Stream.tap_renumber, gestureAt_renumber]
  rfl

theorem refuses_renumber (change : Change) :
    (d.renumber ρ).refuses (change.renumber ρ) = d.refuses change := by
  have hstream : (d.renumber ρ).stream.isNone = d.stream.isNone := Option.isNone_map
  simp only [refuses, hstream]
  rfl

theorem handle_renumber (change : Change) :
    (d.renumber ρ).handle (t.renumber ρ) (change.renumber ρ) =
      (d.handle t change).map id (·.renumber ρ) := by
  have hstream : (d.renumber ρ).stream = d.stream.map (·.renumber ρ) := rfl
  simp only [handle, Change.renumber, hstream]
  cases d.stream with
  | none =>
    cases change.action with
    | began => exact begin_renumber d
    | _ => rfl
  | some s =>
    cases change.action with
    | began => exact begin_renumber d
    | joined => exact join_renumber d s
    | moved => exact move_renumber d s
    | left => exact leave_renumber d s
    | ended => exact finish_renumber d s
    | cancelled => exact abort_renumber d s

theorem touch_renumber :
    (d.renumber ρ).touch (t.renumber ρ) =
      (d.touch t).map (Prod.map id (·.renumber ρ)) := by
  simp only [touch, ContactTable.latest_renumber]
  cases t.latest with
  | none => rfl
  | some change =>
    simp only [Option.map_some, refuses_renumber]
    cases d.refuses change with
    | true => rfl
    | false => exact congrArg some (handle_renumber { d with lastTime := some change.time } change)

-- An alarm rings for the first press of a stream, whose number it has.
theorem tick_renumber (now : Time) :
    (d.renumber ρ).tick now =
      (d.tick now).map (List.map (·.renumber ρ)) (·.renumber ρ) := by
  obtain ⟨settings, stream, lastTime, lastTap, initialSpan, lastSpan⟩ := d
  cases stream with
  | none => rfl
  | some s =>
    simp only [tick, renumber, Option.map_some, Stream.tick, Stream.ringDue_renumber,
      Prod.map_fst, Prod.map_snd]
    rfl

end Detector

end TouchGestures
