import TouchGestures.Proofs.Channel.Diary
import TouchGestures.Proofs.Detector.Course
import TouchGestures.Proofs.Splits

namespace TouchGestures

open Gesture (Grammar)

namespace Channel

namespace Detection

variable {change : Change} {gestures : List Gesture} {stream : Option (List Detection)}

theorem begins_iff : begins ⟨some change, gestures⟩ = true ↔ change.action = .began := by
  simp [begins]

theorem closes_iff : closes ⟨some change, gestures⟩ = true ↔
    change.action = .ended ∨ change.action = .cancelled := by
  simp [closes, lifts]

theorem extend_of_begins {x : Detection} (hx : x.begins = true) : extend stream x = some [x] := by
  simp [extend, hx]

theorem extend_of_closes {x : Detection} (hbegins : x.begins = false) (hx : x.closes = true) :
    extend stream x = none := by
  simp [extend, hbegins, hx]

theorem extend_of_stays {x : Detection} (hbegins : x.begins = false) (hx : x.closes = false) :
    extend stream x = stream.map (· ++ [x]) := by
  simp [extend, hbegins, hx]

end Detection

namespace Diary

variable {y : Diary} {d : Detector} {detections : List Detection} {x : Detection}

def gesturesOf (stream : List Detection) : List Gesture := stream.flatMap Detection.gestures

theorem gesturesOf_concat (stream : List Detection) (x : Detection) :
    gesturesOf (stream ++ [x]) = gesturesOf stream ++ x.gestures := by
  simp [gesturesOf]

-- The detector has a stream under way just if the diary has, and what was detected has led
-- it to where it is.
structure Leads (detections : List Detection) (d : Detector) : Prop where
  idle : d.stream = none → current detections = none
  course : ∀ s ∈ d.stream, ∃ stream, current detections = some stream ∧ s.Course (gesturesOf stream)

-- What one more detection has to be, after others.
structure Proper (before : List Detection) (x : Detection) : Prop where
  begins : x.begins = true → current before = none
  grammar : ∀ stream ∈ current before, x.closes = true →
    Grammar (gesturesOf (stream ++ [x])) x.lifts
  silent : current before = none → x.begins = false → x.gestures = []

namespace Leads

theorem isSome_stream (h : Leads detections d) :
    d.stream.isSome = (current detections).isSome := by
  cases hd : d.stream with
  | none =>
    rw [h.idle hd]
    rfl
  | some s =>
    obtain ⟨stream, hstream, -⟩ := h.course s hd
    rw [hstream]
    rfl

theorem stream_eq_none (h : Leads detections d) (hcurrent : current detections = none) :
    d.stream = none := by
  rw [← Option.isNone_iff_eq_none, ← Option.not_isSome, h.isSome_stream, hcurrent]
  rfl

theorem exists_course (h : Leads detections d) {stream : List Detection}
    (hcurrent : current detections = some stream) :
    ∃ s, d.stream = some s ∧ s.Course (gesturesOf stream) := by
  cases hd : d.stream with
  | none =>
    rw [h.idle hd] at hcurrent
    cases hcurrent
  | some s =>
    obtain ⟨stream', hstream, hcourse⟩ := h.course s hd
    rw [hcurrent, Option.some.injEq] at hstream
    exact ⟨s, rfl, hstream ▸ hcourse⟩

theorem of_none {d' : Detector} (hd' : d'.stream = none) (hcurrent : current detections = none) :
    Leads detections d' where
  idle := fun _ => hcurrent
  course := by simp [hd']

theorem of_some {d' : Detector} {s : Detector.Stream} (stream : List Detection)
    (hd' : d'.stream = some s) (hcurrent : current detections = some stream)
    (hcourse : s.Course (gesturesOf stream)) : Leads detections d' where
  idle := by simp [hd']
  course := by
    rw [hd']
    rintro s ⟨⟩
    exact ⟨stream, hcurrent, hcourse⟩

variable {t : ContactTable} {change : Change} {gestures : List Gesture} {d' : Detector}

-- The first press begins a stream.
theorem begin (h : Leads detections d) (ht : t.acting?.isSome) (haction : change.action = .began)
    (hd : d.stream = none) (hhandle : d.handle t change = (gestures, d')) :
    Leads (detections ++ [⟨some change, gestures⟩]) d' ∧
      Proper detections ⟨some change, gestures⟩ := by
  have hbegins : Detection.begins ⟨some change, gestures⟩ = true :=
    Detection.begins_iff.mpr haction
  obtain ⟨s, hs, hcourse⟩ := Detector.exists_course_begin ht hd change.time
  have hbegin : d.handle t change = d.begin t change.time := by simp [Detector.handle, haction]
  rw [← hbegin, hhandle] at hs hcourse
  refine ⟨of_some [⟨some change, gestures⟩] hs ?_ ?_, ⟨fun _ => h.idle hd, ?_, ?_⟩⟩
  · rw [current_concat, Detection.extend_of_begins hbegins]
  · simpa [gesturesOf] using hcourse
  · simp [h.idle hd]
  · simp [hbegins]

-- The last release and every cancel close the stream, if one is under way.
theorem close (h : Leads detections d) (ht : t.acting?.isSome)
    (haction : change.action = .ended ∨ change.action = .cancelled)
    (hhandle : d.handle t change = (gestures, d')) :
    Leads (detections ++ [⟨some change, gestures⟩]) d' ∧
      Proper detections ⟨some change, gestures⟩ := by
  have hbegan : change.action ≠ .began := by
    intro hbegan
    simp [hbegan] at haction
  have hbegins : Detection.begins ⟨some change, gestures⟩ = false := by
    simpa [Detection.begins] using hbegan
  have hcloses : Detection.closes ⟨some change, gestures⟩ = true :=
    Detection.closes_iff.mpr haction
  have hnone := Detector.stream_handle_of_closes (d := d) (t := t) haction
  rw [hhandle] at hnone
  refine ⟨of_none hnone ?_, ⟨?_, fun stream hstream _ => ?_, fun hcurrent _ => ?_⟩⟩
  · rw [current_concat, Detection.extend_of_closes hbegins hcloses]
  · simp [hbegins]
  · obtain ⟨s, hs, hcourse⟩ := h.exists_course hstream
    have hgrammar := Detector.grammar_handle ht hs hcourse haction
    rw [hhandle] at hgrammar
    rw [gesturesOf_concat]
    exact hgrammar
  · rw [Detector.handle_of_stream_eq_none (h.stream_eq_none hcurrent) hbegan] at hhandle
    exact (congrArg Prod.fst hhandle).symm

-- Every other touch goes on with the stream that is under way.
theorem go_on {s : Detector.Stream} (h : Leads detections d) (ht : t.acting?.isSome)
    (hd : d.stream = some s) (hbegan : change.action ≠ .began)
    (hopen : ¬(change.action = .ended ∨ change.action = .cancelled))
    (hhandle : d.handle t change = (gestures, d')) :
    Leads (detections ++ [⟨some change, gestures⟩]) d' ∧
      Proper detections ⟨some change, gestures⟩ := by
  have hbegins : Detection.begins ⟨some change, gestures⟩ = false := by
    simpa [Detection.begins] using hbegan
  have hcloses : Detection.closes ⟨some change, gestures⟩ = false := by
    rw [← Bool.not_eq_true, Detection.closes_iff]
    exact hopen
  obtain ⟨stream, hstream, hcourse⟩ := h.course s hd
  rw [not_or] at hopen
  obtain ⟨s', hs', hcontinues⟩ :=
    Detector.exists_continues_handle (t := t) hd hbegan hopen.1 hopen.2
  have hfollows := Detector.follows_handle change ht
    (Detector.sound_of_stream_eq_some hd hcourse.sound) fun hbegan' => absurd hbegan' hbegan
  rw [hhandle] at hs' hcontinues hfollows
  have hrun : ∀ f : Gesture.Family, f.run (s.isOpen f) gestures = some (s'.isOpen f) := by
    intro f
    rw [← Detector.isOpen_of_stream_eq_some hd, ← Detector.isOpen_of_stream_eq_some hs']
    exact hfollows.run f
  refine ⟨of_some (stream ++ [⟨some change, gestures⟩]) hs' ?_ ?_, ⟨?_, ?_, ?_⟩⟩
  · rw [current_concat, Detection.extend_of_stays hbegins hcloses, hstream]
    rfl
  · rw [gesturesOf_concat]
    exact hcourse.continue hcontinues hrun (hfollows.sound s' hs')
  · simp [hbegins]
  · simp [hcloses]
  · simp [hstream]

theorem touch (h : Leads detections d) (ht : t.acting?.isSome)
    (hbegan : t.action = .began → d.stream = none) (hdetect : d.touch t = some (gestures, d')) :
    Leads (detections ++ [⟨t.latest, gestures⟩]) d' ∧ Proper detections ⟨t.latest, gestures⟩ := by
  obtain ⟨change, hlatest, hrefuses, hhandle⟩ := Detector.touch_eq_some hdetect
  have haction : t.action = change.action := by simp [ContactTable.action, hlatest]
  have hsame : Leads detections { d with lastTime := some change.time } := ⟨h.idle, h.course⟩
  rw [hlatest]
  by_cases hbegins : change.action = .began
  · exact hsame.begin ht hbegins (hbegan (haction.trans hbegins)) hhandle
  by_cases hcloses : change.action = .ended ∨ change.action = .cancelled
  · exact hsame.close ht hcloses hhandle
  · -- A touch that neither begins nor cancels is turned down without a stream.
    have hsome : d.stream.isSome = true := by
      unfold Detector.refuses at hrefuses
      cases hchange : change.action <;> simp_all
    obtain ⟨s, hs⟩ := Option.isSome_iff_exists.mp hsome
    exact hsame.go_on (s := s) ht hs hbegins hcloses hhandle

-- Alarms go on with the stream that is under way.
theorem tick (h : Leads detections d) (now : Time) :
    Leads (detections ++ [⟨none, (d.tick now).1⟩]) (d.tick now).2 ∧
      Proper detections ⟨none, (d.tick now).1⟩ := by
  have hextend : ∀ stream, Detection.extend stream ⟨none, (d.tick now).1⟩ =
      stream.map (· ++ [⟨none, (d.tick now).1⟩]) := fun _ => Detection.extend_of_stays rfl rfl
  refine ⟨?_, ⟨?_, ?_, ?_⟩⟩
  · cases hd : d.stream with
    | none =>
      refine of_none (Detector.stream_tick_eq_none_iff.mpr hd) ?_
      rw [current_concat, hextend, h.idle hd]
      rfl
    | some s =>
      obtain ⟨stream, hstream, hcourse⟩ := h.course s hd
      refine of_some (s := (s.tick now).2) (stream ++ [⟨none, (d.tick now).1⟩]) ?_ ?_ ?_
      · simp [Detector.tick, hd]
      · rw [current_concat, hextend, hstream]
        rfl
      · rw [gesturesOf_concat]
        simpa [Detector.tick, hd, Detector.Stream.tick] using hcourse.ringDue now 2
  · simp [Detection.begins]
  · simp [Detection.closes, Detection.lifts]
  · intro hcurrent _
    simp [Detector.tick, h.stream_eq_none hcurrent]

-- Ruling out double taps changes nothing about the course of a stream.
theorem quiet {allowed : Bool} (h : Leads detections d)
    (hstream : d'.stream = d.stream.map fun s => { s with doubleTap := s.doubleTap && allowed }) :
    Leads detections d' := by
  cases hd : d.stream with
  | none => exact of_none (by rw [hstream, hd]; rfl) (h.idle hd)
  | some s =>
    obtain ⟨stream, hcurrent, hcourse⟩ := h.course s hd
    refine of_some stream (by rw [hstream, hd]; rfl) hcurrent ?_
    exact ⟨hcourse.first, hcourse.isOpen, hcourse.sound, hcourse.stages⟩

theorem start (consumer : ConsumerId) (settings : ChannelSettings) :
    Leads [] (ofSettings consumer settings).detector := of_none rfl rfl

end Leads

-- The detector of a channel is where its diary has led it, and whatever is in the diary is
-- in its place.
theorem Kept.leads (h : Kept y) : Leads y.detections y.channel.detector ∧
    ∀ before x after, y.detections = before ++ x :: after → Proper before x := by
  refine h.induct (P := fun c detections => Leads detections c.detector ∧
    ∀ before x after, detections = before ++ x :: after → Proper before x) ?_ ?_
  · intro consumer settings
    exact ⟨.start consumer settings, by simp⟩
  · intro k d detections added hk houtcome ⟨hleads, hproper⟩
    cases houtcome with
    | quiet hquiet =>
      obtain ⟨allowed, hstream⟩ := hquiet.stream
      rw [List.append_nil]
      exact ⟨hleads.quiet hstream, hproper⟩
    | alarms now _ hdetector =>
      obtain ⟨hnext, hadded⟩ := hleads.tick now
      exact ⟨hdetector ▸ hnext, forall_split_concat hproper hadded⟩
    | touched t contacts gestures haccept hdetect _ =>
      have hidle : contacts.action = .began → k.channel.detector.stream = none := fun hbegan =>
        hk.idle (ContactTable.contacts_eq_nil_of_began haccept hbegan)
      obtain ⟨hnext, hadded⟩ :=
        hleads.touch (ContactTable.accepted_note haccept).1 hidle hdetect
      exact ⟨hnext, forall_split_concat hproper hadded⟩

-- Whatever is detected begins a stream when none is under way, goes on with the one that
-- is, or closes it, and then what was detected of it is as it should be. Without a stream
-- no gesture is detected.
theorem Kept.proper_of_split (h : Kept y) {before after : List Detection} {x : Detection}
    (hsplit : y.detections = before ++ x :: after) :
    (x.begins = true → current before = none) ∧
      (∀ stream ∈ current before, x.closes = true →
        Grammar (gesturesOf (stream ++ [x])) x.lifts) ∧
      (current before = none → x.begins = false → x.gestures = []) :=
  have hproper := h.leads.2 before x after hsplit
  ⟨hproper.begins, hproper.grammar, hproper.silent⟩

-- A press is shown and found to be long, then a second finger pinches with it and lifts,
-- and the first finger lifts last.
def longPressedPinch : List Call :=
  [.event (.touch (finger .pressed 1 10 0 1)), .event (.tick (Duration.milliseconds 150)),
    .event (.setDoubleTap true), .event (.tick (Duration.milliseconds 1000)),
    .event (.touch (finger .pressed 2 50 1010 2)), .event (.touch (finger .moved 2 150 1020 3)),
    .event (.touch (finger .released 2 150 1030 4)),
    .event (.touch (finger .released 1 10 1040 5))]

theorem proper_of_longPressedPinch :
    ∃ before x stream, Kept (ofCalls {} longPressedPinch) ∧
      (ofCalls {} longPressedPinch).detections = before ++ [x] ∧
      current before = some stream ∧ x.closes = true ∧
      (gesturesOf (stream ++ [x])).map Gesture.kind =
        [.tapDown, .showPress, .longPress, .pinchBegin, .pinchEnd, .longTap] ∧
      Grammar (gesturesOf (stream ++ [x])) true := by
  have hkept := kept_ofCalls {} longPressedPinch
  let log := (ofCalls {} longPressedPinch).detections
  let last := log.getLast?.getD ⟨none, []⟩
  have hsplit : (ofCalls {} longPressedPinch).detections = log.dropLast ++ [last] := by
    decide +kernel
  have hstream : current log.dropLast = some log.dropLast := by decide +kernel
  have hcloses : last.closes = true := by decide +kernel
  have hlifts : last.lifts = true := by decide +kernel
  have hgrammar := (hkept.proper_of_split hsplit).2.1 _ hstream hcloses
  rw [hlifts] at hgrammar
  exact ⟨log.dropLast, last, log.dropLast, hkept, hsplit, hstream, hcloses, by decide +kernel,
    hgrammar⟩

end Diary

end Channel

end TouchGestures
