import TouchGestures.Proofs.Detector.Family

namespace TouchGestures.Detector

variable {d d' : Detector} {t : ContactTable} {gestures : List Gesture} {now : Time}

def pressId? (d : Detector) : Option EventId := d.stream.map (·.press.eventId)

theorem press_cancelTap (s : Stream) (t : ContactTable) (time : Time) :
    (s.cancelTap t time).2.press = s.press := by
  unfold Stream.cancelTap
  split <;> rfl

theorem pressId?_join (d : Detector) (s : Stream) (t : ContactTable) (time : Time) :
    (d.join s t time).2.pressId? = some s.press.eventId :=
  congrArg (fun press : Press => some press.eventId) (press_cancelTap s t time)

theorem press_scroll (s : Stream) (slop : Scalar) (t : ContactTable) (time : Time) :
    (s.scroll slop t time).2.press = s.press := by
  simp only [Stream.scroll, Stream.beginScroll, Stream.follow]
  split
  · exact press_cancelTap s t time
  · rfl

theorem pressId?_pinch (d : Detector) (s : Stream) (t : ContactTable) (time : Time) :
    (d.pinch s t time).2.pressId? = some s.press.eventId := by
  simp only [pinch]
  split
  · split
    · split
      · exact congrArg (fun press : Press => some press.eventId) (press_cancelTap s t time)
      · rfl
    · split <;> rfl
  · rfl

-- The press that began a stream stays the same while the stream lasts.
theorem pressId?_handle {change : Change} (hbegan : change.action ≠ .began) :
    (d.handle t change).2.pressId? = d.pressId? ∨ (d.handle t change).2.pressId? = none := by
  cases hstream : d.stream with
  | none =>
    right
    unfold handle
    cases hchange : change.action <;> simp_all [pressId?]
  | some s =>
    have hpress : d.pressId? = some s.press.eventId := by rw [pressId?, hstream]; rfl
    unfold handle
    rw [hstream, hpress]
    cases hchange : change.action with
    | began => exact absurd hchange hbegan
    | joined =>
      exact .inl (pressId?_join d s t change.time)
    | moved =>
      left
      simp only [move]
      rw [pressId?_pinch, press_scroll]
    | left => exact .inl rfl
    | ended =>
      right
      simp only [pressId?]
      rw [stream_finish]
      rfl
    | cancelled => exact .inr rfl

theorem pressId?_touch (haction : t.action ≠ .began) (h : d.touch t = some (gestures, d')) :
    d'.pressId? = d.pressId? ∨ d'.pressId? = none := by
  obtain ⟨change, hlatest, -, hhandle⟩ := touch_eq_some h
  have hbegan : change.action ≠ .began := by simpa [ContactTable.action, hlatest] using haction
  have hpress := pressId?_handle (d := { d with lastTime := some change.time }) (t := t) hbegan
  rw [hhandle] at hpress
  exact hpress

theorem pressId?_of_began (hacting : t.acting?.isSome = true) (haction : t.action = .began)
    (h : d.touch t = some (gestures, d')) : d'.pressId? = some t.eventId := by
  obtain ⟨change, hlatest, -, hhandle⟩ := touch_eq_some h
  have hbegan : change.action = .began := by simpa [ContactTable.action, hlatest] using haction
  obtain ⟨contact, hcontact⟩ := Option.isSome_iff_exists.mp hacting
  simp only [handle, hbegan, begin, hcontact] at hhandle
  cases hhandle
  rfl

-- An alarm is attributed to the press that set it.
theorem ringDue_press (s : Stream) (now : Time) (rounds : Nat) :
    (∀ g ∈ (s.ringDue now rounds).1, g.eventId = s.press.eventId) ∧
      (s.ringDue now rounds).2.press = s.press := by
  induction rounds generalizing s with
  | zero => exact ⟨by simp [Stream.ringDue], rfl⟩
  | succ rounds ih =>
    unfold Stream.ringDue
    split
    · exact ⟨by simp, rfl⟩
    · next alarm deadline rest _ =>
      have hring : (∀ g ∈ ({ s with alarms := rest }.ring alarm deadline).1,
          g.eventId = s.press.eventId) ∧
          ({ s with alarms := rest }.ring alarm deadline).2.press = s.press := by
        unfold Stream.ring
        split <;> simp
      obtain ⟨hids, hpress⟩ := ih ({ s with alarms := rest }.ring alarm deadline).2
      rw [hring.2] at hids
      refine ⟨fun g hg => ?_, hpress.trans hring.2⟩
      rcases List.mem_append.mp hg with hg | hg
      · exact hring.1 g hg
      · exact hids g hg

theorem pressId?_of_mem_tick {g : Gesture} (hg : g ∈ (d.tick now).1) :
    d.pressId? = some g.eventId := by
  unfold tick at hg
  split at hg
  · cases hg
  · next s hs => rw [pressId?, hs, (ringDue_press s now 2).1 g hg, Option.map_some]

theorem pressId?_tick (d : Detector) (now : Time) : (d.tick now).2.pressId? = d.pressId? := by
  unfold tick
  split
  · rfl
  · next s hs => simp [pressId?, hs, Stream.tick, (ringDue_press s now 2).2]

theorem pressId?_configure (d : Detector) (settings : ChannelSettings) :
    (d.configure settings).pressId? = d.pressId? := by
  rw [pressId?, configure, Option.map_map]
  rfl

end TouchGestures.Detector
