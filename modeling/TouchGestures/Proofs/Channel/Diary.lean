import TouchGestures.Proofs.Channel.Soundness
import TouchGestures.Proofs.Outcome

namespace TouchGestures.Channel

-- What is asked of a channel: to let something happen, or to take over a contact.
inductive Call
  | event (e : Event)
  | enter (contact : Contact) (now : Time) (id : EventId)
  deriving DecidableEq

def call (c : Channel) : Call → Except Violation Channel
  | .event e => (c.step e).map (·.2)
  | .enter contact now id => c.enter contact now id

-- The gestures that were detected at one time, by an accepted touch or, if nothing
-- changed, by the alarms.
structure Detection where
  change : Option Change
  gestures : List Gesture
  deriving DecidableEq

namespace Detection

def begins (x : Detection) : Bool := x.change.any (·.action = .began)

def lifts (x : Detection) : Bool := x.change.any (·.action = .ended)

def closes (x : Detection) : Bool :=
  x.lifts || x.change.any (·.action = .cancelled)

-- The stream that is under way after one more detection.
def extend (stream : Option (List Detection)) (x : Detection) : Option (List Detection) :=
  if x.begins then some [x] else if x.closes then none else stream.map (· ++ [x])

end Detection

-- The stream that is under way after some detections, if there is one: what was detected
-- since the press that began it.
def current (detections : List Detection) : Option (List Detection) :=
  detections.foldl Detection.extend none

theorem current_concat (detections : List Detection) (x : Detection) :
    current (detections ++ [x]) = Detection.extend (current detections) x := by
  simp [current]

def detection? (c : Channel) (t : Touch) : Option Detection :=
  match c.contacts.touch t with
  | (false, _) => none
  | (true, contacts) =>
    (c.detector.touch contacts).map fun (gestures, _) => ⟨contacts.latest, gestures⟩

def detectedBy (c : Channel) : Call → List Detection
  | .event (.touch t) => (c.detection? t).toList
  | .event (.tick now) => [⟨none, (c.detector.tick now).1⟩]
  | .event _ => []
  | .enter contact now id => (c.detection? (contact.synthesize .pressed now id)).toList

-- A channel with everything that was detected in its life.
structure Diary where
  channel : Channel
  detections : List Detection := []
  deriving DecidableEq

namespace Diary

def step (y : Diary) (a : Call) : Except Violation Diary :=
  (y.channel.call a).map fun channel =>
    { channel, detections := y.detections ++ y.channel.detectedBy a }

def run (y : Diary) : List Call → Except Violation Diary
  | [] => .ok y
  | a :: rest => do
    let y ← y.step a
    y.run rest

-- The diaries of channels of which anything may be asked.
inductive Kept : Diary → Prop
  | start (consumer : ConsumerId) (settings : ChannelSettings) :
    Kept { channel := ofSettings consumer settings }
  | step {y y' : Diary} {a : Call} (h : Kept y) (hy : y.step a = .ok y') : Kept y'

theorem Kept.run {y y' : Diary} {calls : List Call} (h : Kept y) (hrun : y.run calls = .ok y') :
    Kept y' := by
  induction calls generalizing y with
  | nil =>
    cases hrun
    exact h
  | cons a rest ih =>
    obtain ⟨between, hstep, hrest⟩ := bind_eq_ok.mp hrun
    exact ih (h.step hstep) hrest

def ofCalls (settings : ChannelSettings) (calls : List Call) : Diary :=
  match ({ channel := ofSettings 1 settings } : Diary).run calls with
  | .ok y => y
  | .error _ => { channel := ofSettings 1 settings }

theorem kept_ofCalls (settings : ChannelSettings) (calls : List Call) :
    Kept (ofCalls settings calls) := by
  unfold ofCalls
  split
  · next y hy => exact (Kept.start 1 settings).run hy
  · exact .start 1 settings

end Diary

variable {c d : Channel} {a : Call}

-- A touch is turned down and nothing is detected, or it is accepted and detection follows it.
theorem detection?_cases {t : Touch} {result : TouchResult} (hq : c.queue.HeadPending)
    (hsettled : c.contacts.leaving = none) (h : c.touch t = .ok (result, d)) :
    (result.accepted = false ∧ c.detection? t = none ∧ d = c) ∨
    ∃ contacts gestures, result.accepted = true ∧ c.contacts.accept? t = some contacts ∧
      c.detector.touch contacts = some (gestures, d.detector) ∧
      c.detection? t = some ⟨contacts.latest, gestures⟩ ∧ d.contacts = contacts.settle := by
  have hsettle := ContactTable.settle_of_leaving_eq_none hsettled
  obtain ⟨hrejected, hnone, hsame⟩ | ⟨contacts, gestures, detector, packet, haccepted, haccept,
    hdetect, -, -, rfl⟩ := touch_cases hq h
  · refine .inl ⟨hrejected, ?_, ?_⟩
    · cases haccept : c.contacts.settle.accept? t with
      | none => simp [detection?, ContactTable.touch_of_accept?_eq_none haccept]
      | some contacts =>
        have htouch : c.contacts.touch t = (true, contacts) := by
          simp [ContactTable.touch, haccept]
        cases hdetect : c.detector.touch contacts with
        | none => simp [detection?, htouch, hdetect]
        | some detected =>
          obtain ⟨packet, -, hsome, -⟩ := touch_of_accept? hq haccept hdetect
          rw [hnone] at hsome
          cases hsome
    · obtain rfl | rfl := hsame
      · rw [hsettle]
      · rfl
  · have htouch : c.contacts.touch t = (true, contacts) := by simp [ContactTable.touch, haccept]
    rw [hsettle] at haccept
    exact .inr ⟨contacts, gestures, haccepted, haccept, hdetect,
      by simp [detection?, htouch, hdetect], rfl⟩

-- A touch that is turned down changes nothing at all.
theorem eq_of_rejected {t : Touch} {result : TouchResult} (hq : c.queue.HeadPending)
    (hsettled : c.contacts.leaving = none) (h : c.touch t = .ok (result, d))
    (hrejected : result.accepted = false) : d = c := by
  obtain ⟨-, -, hsame⟩ | ⟨_, _, haccepted, -⟩ := detection?_cases hq hsettled h
  · exact hsame
  · rw [hrejected] at haccepted
    cases haccepted

-- What no touch and no alarm is behind leaves the contacts and detection as they are,
-- except that double taps may be ruled out for the stream under way.
structure Quiet (c d : Channel) : Prop where
  contacts : d.contacts.contacts = c.contacts.contacts
  lastTime : d.detector.lastTime = c.detector.lastTime
  lastSpan : d.detector.lastSpan = c.detector.lastSpan
  stream : ∃ allowed, d.detector.stream =
    c.detector.stream.map fun s => { s with doubleTap := s.doubleTap && allowed }

theorem quiet_of_eq (hcontacts : d.contacts.contacts = c.contacts.contacts)
    (hdetector : d.detector = c.detector) : Quiet c d where
  contacts := hcontacts
  lastTime := by rw [hdetector]
  lastSpan := by rw [hdetector]
  stream := ⟨true, by simp [hdetector]⟩

theorem detector_ack {id : EventId} {consumed nonBlocking : Bool}
    (h : c.ack id consumed nonBlocking = .ok d) :
    d.contacts = c.contacts ∧ d.detector = c.detector := by
  obtain ⟨judged, -, rfl⟩ := ack_eq_ok h
  exact ⟨rfl, rfl⟩

inductive Outcome (c : Channel) : Channel → List Detection → Prop
  | quiet {d : Channel} (h : Quiet c d) : Outcome c d []
  | alarms {d : Channel} (now : Time) (hcontacts : d.contacts = c.contacts)
    (hdetector : d.detector = (c.detector.tick now).2) :
    Outcome c d [⟨none, (c.detector.tick now).1⟩]
  | touched {d : Channel} (t : Touch) (contacts : ContactTable) (gestures : List Gesture)
    (haccept : c.contacts.accept? t = some contacts)
    (hdetect : c.detector.touch contacts = some (gestures, d.detector))
    (hcontacts : d.contacts = contacts.settle) : Outcome c d [⟨contacts.latest, gestures⟩]

theorem outcome_touch {t : Touch} {result : TouchResult} (hq : c.queue.HeadPending)
    (hsettled : c.contacts.leaving = none) (h : c.touch t = .ok (result, d)) :
    Outcome c d (c.detection? t).toList := by
  obtain ⟨-, hnone, rfl⟩ | ⟨contacts, gestures, -, haccept, hdetect, hsome, hcontacts⟩ :=
    detection?_cases hq hsettled h
  · rw [hnone]
    exact .quiet (quiet_of_eq rfl rfl)
  · rw [hsome]
    exact .touched t contacts gestures haccept hdetect hcontacts

-- The outcome only tells of the contacts and of detection.
theorem Outcome.congr {d' : Channel} {detections : List Detection} (h : Outcome c d detections)
    (hcontacts : d'.contacts = d.contacts) (hdetector : d'.detector = d.detector) :
    Outcome c d' detections := by
  cases h with
  | quiet hquiet =>
    refine .quiet ⟨?_, ?_, ?_, ?_⟩
    · rw [hcontacts, hquiet.contacts]
    · rw [hdetector, hquiet.lastTime]
    · rw [hdetector, hquiet.lastSpan]
    · rw [hdetector]
      exact hquiet.stream
  | alarms now hsame hticked =>
    exact .alarms now (hcontacts.trans hsame) (hdetector.trans hticked)
  | touched t contacts gestures haccept hdetect hsettled =>
    exact .touched t contacts gestures haccept (by rwa [hdetector]) (hcontacts.trans hsettled)

theorem outcome_enter {contact : Contact} {now : Time} {id : EventId} (hq : c.queue.HeadPending)
    (hsettled : c.contacts.leaving = none) (h : c.enter contact now id = .ok d) :
    Outcome c d (c.detection? (contact.synthesize .pressed now id)).toList := by
  obtain ⟨⟨result, between⟩, htouch, hrest⟩ := bind_eq_ok.mp h
  have houtcome := outcome_touch hq hsettled htouch
  simp only [] at hrest
  split at hrest
  · obtain ⟨hcontacts, hdetector⟩ := detector_ack hrest
    exact houtcome.congr hcontacts hdetector
  · cases hrest
    exact houtcome

theorem quiet_setDoubleTap (c : Channel) (enabled : Bool) : Quiet c (c.setDoubleTap enabled) where
  contacts := rfl
  lastTime := by
    change (c.detector.setDoubleTap enabled).lastTime = c.detector.lastTime
    cases enabled <;> rfl
  lastSpan := by
    change (c.detector.setDoubleTap enabled).lastSpan = c.detector.lastSpan
    cases enabled <;> rfl
  stream := ⟨enabled, Detector.stream_setDoubleTap c.detector enabled⟩

theorem outcome_step {e : Event} {gestures : List Gesture} (hq : c.queue.HeadPending)
    (hsettled : c.contacts.leaving = none) (h : c.step e = .ok (gestures, d)) :
    Outcome c d (c.detectedBy (.event e)) := by
  cases e with
  | touch t =>
    obtain ⟨⟨result, after⟩, htouch, heq⟩ := map_eq_ok.mp h
    cases heq
    exact outcome_touch hq hsettled htouch
  | tick now =>
    rw [step, tick_eq] at h
    cases h
    exact .alarms now rfl rfl
  | ack id consumed nonBlocking =>
    obtain ⟨after, hack, heq⟩ := map_eq_ok.mp h
    cases heq
    obtain ⟨hcontacts, hdetector⟩ := detector_ack hack
    exact .quiet (quiet_of_eq (congrArg _ hcontacts) hdetector)
  | configure settings =>
    cases h
    exact .quiet ⟨rfl, rfl, rfl, settings.doubleTap, rfl⟩
  | setDoubleTap enabled =>
    cases h
    exact .quiet (quiet_setDoubleTap c enabled)
  | drain =>
    cases h
    exact .quiet (quiet_of_eq rfl rfl)
  | reassign consumer =>
    cases h
    exact .quiet (quiet_of_eq rfl rfl)
  | forgetHistory =>
    cases h
    exact .quiet (quiet_of_eq rfl rfl)

-- A call comes to nothing for detection, lets alarms ring, or has a touch accepted.
theorem outcome_call (hq : c.queue.HeadPending) (hsettled : c.contacts.leaving = none)
    (h : c.call a = .ok d) : Outcome c d (c.detectedBy a) := by
  cases a with
  | event e =>
    obtain ⟨⟨gestures, after⟩, hstep, rfl⟩ := map_eq_ok.mp h
    exact outcome_step hq hsettled hstep
  | enter contact now id => exact outcome_enter hq hsettled h

namespace Diary

variable {y y' : Diary}

-- Whatever is asked of a channel, it could have been led there by events.
theorem Kept.lived (h : Kept y) :
    ∃ k : Chronicle, Lived (fun _ => True) k ∧ k.channel = y.channel := by
  induction h with
  | start consumer settings => exact ⟨_, .start consumer settings, rfl⟩
  | @step y y' a _ hy ih =>
    obtain ⟨k, hk, hchannel⟩ := ih
    obtain ⟨after, hcall, rfl⟩ := map_eq_ok.mp hy
    have hlives : ∀ {k : Chronicle} {e : Event} {result}, Lived (fun _ => True) k →
        k.channel.step e = .ok result →
          ∃ k' : Chronicle, Lived (fun _ => True) k' ∧ k'.channel = result.2 := by
      intro k e result hk hstep
      exact ⟨_, hk.step trivial (map_eq_ok.mpr ⟨result, hstep, rfl⟩), rfl⟩
    cases a with
    | event e =>
      obtain ⟨result, hstep, rfl⟩ := map_eq_ok.mp hcall
      exact hlives hk (hchannel ▸ hstep)
    | enter contact now id =>
      obtain ⟨⟨result, between⟩, htouch, hrest⟩ := bind_eq_ok.mp hcall
      obtain ⟨k', hk', hbetween⟩ := hlives (e := .touch (contact.synthesize .pressed now id)) hk
        (map_eq_ok.mpr ⟨(result, between), hchannel ▸ htouch, rfl⟩)
      simp only [] at hrest hbetween
      split at hrest
      · exact hlives (e := .ack id true false) hk'
          (map_eq_ok.mpr ⟨after, hbetween ▸ hrest, rfl⟩)
      · cases hrest
        exact ⟨k', hk', hbetween⟩

-- What holds of a diary all its life if it does of a new one and is kept by whatever can
-- come of a call.
theorem Kept.induct {P : Channel → List Detection → Prop} (h : Kept y)
    (hstart : ∀ consumer settings, P (ofSettings consumer settings) [])
    (hstep : ∀ {k : Chronicle} {d : Channel} {detections added : List Detection}, k.Sound →
      Outcome k.channel d added → P k.channel detections → P d (detections ++ added)) :
    P y.channel y.detections := by
  induction h with
  | start consumer settings => exact hstart consumer settings
  | @step y y' a hy hstepped ih =>
    obtain ⟨k, hk, hchannel⟩ := hy.lived
    obtain ⟨after, hcall, rfl⟩ := map_eq_ok.mp hstepped
    rw [← hchannel] at ih hcall
    have houtcome := outcome_call hk.sound.head hk.sound.settled hcall
    rw [← hchannel]
    exact hstep hk.sound houtcome ih

end Diary

end TouchGestures.Channel
