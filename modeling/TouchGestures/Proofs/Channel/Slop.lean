import TouchGestures.Proofs.Channel.Acceptance
import TouchGestures.Proofs.Channel.Standing

namespace TouchGestures.Channel

def Detection.scrolls (x : Detection) : Bool := x.gestures.any (·.kind = .scrollBegin)

-- Whether the contacts have left the slop region, as a channel reports it.
abbrev slopExceeded (c : Channel) : Bool := c.pipeline.slopExceeded

variable {c d : Channel} {a : Call}

-- What is detected tells what becomes of the report: a press that begins a stream takes it
-- back, and a scroll that begins makes it.
def reportAfter (exceeded : Bool) (detections : List Detection) : Bool :=
  detections.foldl (fun exceeded x => (exceeded && !x.begins) || x.scrolls) exceeded

theorem reportAfter_tick (d : Detector) (now : Time) (exceeded : Bool) :
    reportAfter exceeded [⟨none, (d.tick now).1⟩] = exceeded := by
  have hscrolls : Detection.scrolls ⟨none, (d.tick now).1⟩ = false := by
    refine List.any_eq_false.mpr fun g hg => ?_
    obtain hkind | hkind := Detector.kind_of_mem_tick hg <;> simp [hkind]
  simp [reportAfter, hscrolls, Detection.begins]

theorem reportAfter_touched {contacts : ContactTable} (hlatest : contacts.latest.isSome = true)
    (c : Channel) (gestures : List Gesture) (detector : Detector) :
    (c.pipeline.detected contacts.action gestures detector).slopExceeded =
      reportAfter c.slopExceeded [⟨contacts.latest, gestures⟩] := by
  obtain ⟨change, hchange⟩ := Option.isSome_iff_exists.mp hlatest
  simp [Pipeline.detected, reportAfter, Detection.begins, Detection.scrolls, ContactTable.action,
    hchange]

-- What a touch reports: nothing if it does not fit the contacts, and otherwise what has been
-- detected up to and with it.
theorem slopExceeded_touch {t : Touch} {result : TouchResult} (hq : c.queue.HeadPending)
    (hsettled : c.contacts.leaving = none) (h : c.touch t = .ok (result, d)) :
    d.slopExceeded = reportAfter c.slopExceeded (c.detection? t).toList ∧
      result.slopExceeded = (decide (c.contacts.Fits t) && d.slopExceeded) := by
  have hsettle := ContactTable.settle_of_leaving_eq_none hsettled
  cases haccept : c.contacts.settle.accept? t with
  | none =>
    have hnone := ContactTable.touch_of_accept?_eq_none haccept
    rw [touch_of_not_accepted hnone] at h
    cases h
    have hfits : ¬c.contacts.Fits t := by
      rw [← ContactTable.exists_accept?_iff, ← hsettle, haccept]
      simp
    simp [detection?, hnone, reportAfter, hfits]
  | some contacts =>
    have htouch : c.contacts.touch t = (true, contacts) := by simp [ContactTable.touch, haccept]
    have hfits : c.contacts.Fits t :=
      ContactTable.exists_accept?_iff.mp ⟨contacts, hsettle ▸ haccept⟩
    cases hdetect : c.detector.touch contacts with
    | none =>
      unfold Channel.touch at h
      simp only [htouch, Pipeline.touch_of_detector_touch_eq_none hdetect, Pipeline.result,
        Except.ok.injEq, Prod.mk.injEq] at h
      obtain ⟨rfl, rfl⟩ := h
      simp [detection?, htouch, hdetect, reportAfter, hfits, collect_nil]
    | some detected =>
      obtain ⟨gestures, detector⟩ := detected
      obtain ⟨packet, -, -, hok⟩ := touch_of_accept? hq haccept hdetect
      rw [hok] at h
      cases h
      have hreport := reportAfter_touched (ContactTable.accepted_note haccept).2.1 c gestures
        detector
      simp [detection?, htouch, hdetect, hfits, hreport]

theorem slopExceeded_ack {id : EventId} {consumed nonBlocking : Bool}
    (h : c.ack id consumed nonBlocking = .ok d) : d.slopExceeded = c.slopExceeded := by
  obtain ⟨judged, -, rfl⟩ := ack_eq_ok h
  rfl

-- The report goes with what is detected, whatever a channel is asked.
theorem slopExceeded_call (hq : c.queue.HeadPending) (hsettled : c.contacts.leaving = none)
    (h : c.call a = .ok d) : d.slopExceeded = reportAfter c.slopExceeded (c.detectedBy a) := by
  cases a with
  | enter contact now id =>
    obtain ⟨⟨result, between⟩, htouch, hrest⟩ := bind_eq_ok.mp h
    refine Eq.trans ?_ (slopExceeded_touch hq hsettled htouch).1
    dsimp only at hrest
    split at hrest
    · exact slopExceeded_ack hrest
    · cases hrest
      rfl
  | event e =>
    obtain ⟨⟨gestures, after⟩, hstep, rfl⟩ := map_eq_ok.mp h
    cases e with
    | touch t =>
      obtain ⟨⟨result, between⟩, htouch, heq⟩ := map_eq_ok.mp hstep
      cases heq
      exact (slopExceeded_touch hq hsettled htouch).1
    | ack id consumed nonBlocking =>
      obtain ⟨between, hack, heq⟩ := map_eq_ok.mp hstep
      cases heq
      exact slopExceeded_ack hack
    | tick now =>
      rw [step, tick_eq] at hstep
      cases hstep
      exact (reportAfter_tick _ _ _).symm
    | configure | setDoubleTap | drain | reassign | forgetHistory =>
      cases hstep
      rfl

namespace Diary

variable {y : Diary}

-- A scroll has begun since the press that began the latest stream.
def Scrolled (detections : List Detection) : Prop :=
  Since (fun x => x.scrolls = true) (fun x => x.begins = false) detections

theorem scrolled_append_iff (before added : List Detection) (exceeded : Bool)
    (h : exceeded = true ↔ Scrolled before) :
    reportAfter exceeded added = true ↔ Scrolled (before ++ added) := by
  induction added generalizing before exceeded with
  | nil => simpa [reportAfter] using h
  | cons x rest ih =>
    have hnext := ih (before ++ [x]) ((exceeded && !x.begins) || x.scrolls) (by
      rw [Scrolled, since_concat, ← Scrolled, ← h]
      cases x.begins <;> cases x.scrolls <;> simp)
    rwa [List.append_assoc, List.singleton_append] at hnext

theorem Kept.slopExceeded_eq (h : Kept y) :
    y.channel.slopExceeded = true ↔ Scrolled y.detections := by
  induction h with
  | start => exact iff_of_false (by simp [ofSettings, Pipeline.ofSettings]) not_since_nil
  | @step y y' a hy hstepped ih =>
    obtain ⟨k, hk, hchannel⟩ := hy.lived
    obtain ⟨after, hcall, rfl⟩ := map_eq_ok.mp hstepped
    have hreport := slopExceeded_call (hchannel ▸ hk.sound.head) (hchannel ▸ hk.sound.settled)
      hcall
    rw [hreport]
    exact scrolled_append_iff _ _ _ ih

-- Every touch is told that the contacts have left the slop region just if it fits the
-- contacts and, by what was detected up to and with it, a scroll has begun since the press
-- that began the latest stream. A touch that does not fit is told otherwise even where one
-- has, so the report is right just if the touch fits or nothing has scrolled.
theorem Kept.reports_iff (h : Kept y) (t : Touch) :
    ∃ result c, y.channel.touch t = .ok (result, c) ∧
      (result.slopExceeded = true ↔ y.channel.contacts.Fits t ∧
        Scrolled (y.detections ++ y.channel.detectedBy (.event (.touch t)))) ∧
      ((result.slopExceeded = true ↔
          Scrolled (y.detections ++ y.channel.detectedBy (.event (.touch t)))) ↔
        y.channel.contacts.Fits t ∨ ¬Scrolled y.detections) := by
  obtain ⟨k, hk, hchannel⟩ := h.lived
  have hhead : y.channel.queue.HeadPending := hchannel ▸ hk.sound.head
  have hsettled : y.channel.contacts.leaving = none := hchannel ▸ hk.sound.settled
  obtain ⟨result, c, htouch⟩ := Chronicle.exists_touch hk.sound t
  rw [hchannel] at htouch
  obtain ⟨hreport, hresult⟩ := slopExceeded_touch hhead hsettled htouch
  have hscrolled : c.slopExceeded = true ↔
      Scrolled (y.detections ++ y.channel.detectedBy (.event (.touch t))) :=
    hreport ▸ scrolled_append_iff _ _ _ h.slopExceeded_eq
  refine ⟨result, c, htouch, by simp [hresult, hscrolled], ?_⟩
  rw [hresult]
  by_cases hfits : y.channel.contacts.Fits t
  · simp [hfits, hscrolled]
  · have hnothing : y.channel.detectedBy (.event (.touch t)) = [] := by
      have hsettle := ContactTable.settle_of_leaving_eq_none hsettled
      have haccept : y.channel.contacts.settle.accept? t = none := by
        rw [hsettle, Option.eq_none_iff_forall_ne_some]
        exact fun contacts hsome => hfits (ContactTable.exists_accept?_iff.mp ⟨contacts, hsome⟩)
      simp [detectedBy, detection?, ContactTable.touch_of_accept?_eq_none haccept]
    simp [hfits, hnothing]

def scrolling : List Call :=
  [.event (.touch (finger .pressed 1 10 10 1)), .event (.touch (finger .moved 1 60 20 2))]

theorem scrolled_scrolling : Scrolled (ofCalls {} scrolling).detections := by
  rw [← (kept_ofCalls {} scrolling).slopExceeded_eq]
  decide +kernel

-- A move that detection turns down for its age is told so as well.
theorem reports_of_scrolling :
    Kept (ofCalls {} scrolling) ∧ ∃ result c,
      (ofCalls {} scrolling).channel.touch (finger .moved 1 60 5 3) = .ok (result, c) ∧
        result.accepted = false ∧ result.slopExceeded = true := by
  have hkept := kept_ofCalls {} scrolling
  obtain ⟨result, c, htouch, -, hright⟩ := hkept.reports_iff (finger .moved 1 60 5 3)
  have hrejected : (ofCalls {} scrolling).channel.touch (finger .moved 1 60 5 3) =
      .ok (⟨false, true⟩, (ofCalls {} scrolling).channel) := by
    decide +kernel
  have hnothing : (ofCalls {} scrolling).channel.detectedBy
      (.event (.touch (finger .moved 1 60 5 3))) = [] := by
    decide +kernel
  have hreported := (hright.mpr (.inl (by decide +kernel))).mpr (by
    rw [hnothing, List.append_nil]
    exact scrolled_scrolling)
  rw [hrejected] at htouch
  cases htouch
  exact ⟨hkept, _, _, hrejected, rfl, hreported⟩

-- If the finger is pressed again while it is down, that is turned down by the contacts, and
-- the finger is said to be inside its slop region although it has scrolled.
theorem not_reports_of_repressed :
    Kept (ofCalls {} scrolling) ∧ ∃ result c,
      (ofCalls {} scrolling).channel.touch (finger .pressed 1 60 30 3) = .ok (result, c) ∧
        ¬(result.slopExceeded = true ↔ Scrolled ((ofCalls {} scrolling).detections ++
          (ofCalls {} scrolling).channel.detectedBy
            (.event (.touch (finger .pressed 1 60 30 3))))) := by
  have hrejected : (ofCalls {} scrolling).channel.touch (finger .pressed 1 60 30 3) =
      .ok (⟨false, false⟩, (ofCalls {} scrolling).channel) := by
    decide +kernel
  have hnothing : (ofCalls {} scrolling).channel.detectedBy
      (.event (.touch (finger .pressed 1 60 30 3))) = [] := by
    decide +kernel
  refine ⟨kept_ofCalls {} scrolling, _, _, hrejected, ?_⟩
  rw [hnothing, List.append_nil]
  simp [scrolled_scrolling]

end Diary

end TouchGestures.Channel
