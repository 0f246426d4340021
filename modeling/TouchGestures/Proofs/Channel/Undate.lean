import TouchGestures.Proofs.Channel.Renumber
import TouchGestures.Proofs.Detector.Taps

namespace TouchGestures

variable (known : List EventId)

-- The time of something that comes of a touch, blanked unless the touch is a known one.
def dated (id : EventId) (time : Time) : Time := if id ∈ known then time else 0

theorem dated_of_not_mem {known : List EventId} {id : EventId} (h : id ∉ known) (time : Time) :
    dated known id time = 0 := if_neg h

-- Taps keep their time, since the taps after them are numbered by it.
def Gesture.undate (g : Gesture) : Gesture :=
  { g with time := if g.kind = .tap then g.time else dated known g.eventId g.time }

def Touch.undate (t : Touch) : Touch := { t with time := dated known t.id t.time }

def Change.undate (c : Change) : Change := { c with time := dated known c.eventId c.time }

def Packet.undate (p : Packet) : Packet :=
  { p with
    time := dated known p.eventId p.time
    gestures := p.gestures.map (·.undate known) }

namespace Packet

variable {known} (p : Packet)

theorem ack_undate {q : Packet} {consumed nonBlocking : Bool}
    (h : p.ack consumed nonBlocking = .ok q) :
    (p.undate known).ack consumed nonBlocking = .ok (q.undate known) := by
  have hpending : (p.undate known).isPending = p.isPending := rfl
  simp only [ack, hpending] at h ⊢
  split at h
  · next hwaiting =>
    cases h
    simp only [hwaiting, if_true, undate, List.map_map]
    rfl
  · cases h

-- The gestures of one touch all have its time.
theorem pushAll_undate (hnew : p.eventId ∉ known) {gestures : List Gesture}
    (htaps : ∀ g ∈ gestures, g.kind ≠ .tap) :
    (p.undate known).pushAll (gestures.map fun g => { g with time := 0 }) =
      (p.pushAll gestures).undate known := by
  have hpushed : ∀ g ∈ gestures, ({ g with time := 0, eventId := p.eventId } : Gesture) =
      ({ g with eventId := p.eventId } : Gesture).undate known := fun g hg => by
    have hkind : ({ g with eventId := p.eventId } : Gesture).kind ≠ .tap := htaps g hg
    simp only [Gesture.undate, if_neg hkind, dated_of_not_mem hnew]
  rw [pushAll_eq, pushAll_eq]
  simpa [undate] using hpushed

end Packet

-- When touches happened makes no difference to what is released.
def undating : Relabelling where
  gesture := Gesture.undate known
  packet := Packet.undate known
  number := id
  injective := Function.injective_id
  kind := fun _ => rfl
  source := fun _ => rfl
  verdict := fun _ => rfl
  eventId := fun _ => rfl
  gestures := fun _ => rfl
  ack := Packet.ack_undate _
  closing := fun hpayload _ _ => by
    simp [Gesture.undate, Release.Outlet.closing, Gesture.kind, hpayload, Packet.undate]

namespace ContactTable

def undate (t : ContactTable) : ContactTable :=
  { t with latest := t.latest.map (·.undate known) }

variable {known} (t : ContactTable)

@[simp] theorem contacts_undate : (t.undate known).contacts = t.contacts := rfl

@[simp] theorem latest_undate : (t.undate known).latest = t.latest.map (·.undate known) := rfl

@[simp] theorem count_undate : (t.undate known).count = t.count := rfl

@[simp] theorem bounds_undate : (t.undate known).bounds = t.bounds := rfl

@[simp] theorem action_undate : (t.undate known).action = t.action := by
  unfold action
  cases h : t.latest <;> simp [h, Change.undate]

@[simp] theorem acting?_undate : (t.undate known).acting? = t.acting? := by
  unfold acting? actingIndex
  cases h : t.latest <;> simp [h, Change.undate]

@[simp] theorem synthesized_undate : (t.undate known).synthesized = t.synthesized := by
  unfold synthesized
  cases h : t.latest <;> simp [h, Change.undate]

@[simp] theorem focus_undate : (t.undate known).focus = t.focus := by simp [focus, focusOf]

theorem settle_undate : (t.undate known).settle = t.settle.undate known := by
  unfold settle
  cases h : t.leaving <;> simp [undate, h]

theorem eventId_settle : t.settle.eventId = t.eventId := by
  unfold settle
  cases t.leaving <;> rfl

-- Only presses leave their time with the contacts.
theorem accept?_undate {touch : Touch} (hkind : touch.kind ≠ .pressed) :
    (t.undate known).accept? (touch.undate known) =
      (t.accept? touch).map (·.undate known) := by
  have hindex : (t.undate known).index? touch.contact.id = t.index? touch.contact.id := rfl
  unfold accept?
  simp only [Touch.undate, hindex]
  cases hcase : touch.kind <;> cases t.index? touch.contact.id
  case pressed.none => exact absurd hcase hkind
  all_goals rfl

theorem latest_of_cancelled {t u : ContactTable} {touch : Touch} (hkind : touch.kind = .cancelled)
    (h : t.accept? touch = some u) :
    ∃ change, u.latest = some change ∧ change.action = .cancelled ∧ change.eventId = touch.id := by
  obtain ⟨hpressed, -⟩ | ⟨index, -, ⟨hmoved, -⟩ | ⟨action, rfl, ⟨hreleased, -⟩ | ⟨-, rfl⟩⟩⟩ :=
    accept?_eq_some h
  · cases hkind.symm.trans hpressed
  · cases hkind.symm.trans hmoved
  · cases hkind.symm.trans hreleased
  · exact ⟨_, rfl, rfl, rfl⟩

theorem touch_undate {touch : Touch} (hkind : touch.kind ≠ .pressed) :
    (t.undate known).touch (touch.undate known) =
      ((t.touch touch).1, (t.touch touch).2.undate known) := by
  unfold ContactTable.touch
  simp only [settle_undate, accept?_undate _ hkind]
  cases t.settle.accept? touch <;> rfl

end ContactTable

theorem Packet.ofTouch_undate {known : List EventId} (t : ContactTable) :
    ofTouch (t.undate known) = (ofTouch t).map (·.undate known) := by
  simp only [ofTouch, ContactTable.latest_undate, ContactTable.acting?_undate,
    ContactTable.count_undate]
  cases t.latest <;> cases t.acting? <;> rfl

namespace Detector

-- The last time is that of the touch with the given number.
def undate (last : EventId) (d : Detector) : Detector :=
  { d with lastTime := d.lastTime.map (dated known last) }

variable {known} {d d' : Detector} {t : ContactTable} {change : Change} {gestures : List Gesture}
  {last : EventId}

theorem gestureAt_undate (time : Time) (payload : Gesture.Payload) (place : Place) :
    gestureAt (t.undate known) 0 payload place =
      { gestureAt t time payload place with time := 0 } := by
  simp [gestureAt]

theorem abort_undate (d : Detector) (s : Stream) (time : Time) :
    d.abort s (t.undate known) 0 =
      ((d.abort s t time).1.map fun g => { g with time := 0 }, (d.abort s t time).2) := by
  simp only [abort, ContactTable.focus_undate, ContactTable.acting?_undate, gestureAt_undate time,
    List.map_append, apply_ite (List.map fun g : Gesture => { g with time := (0 : Time) }),
    List.map_cons, List.map_nil, ← Option.toList_map, Option.map_map]
  rfl

-- A cancel is never turned down.
theorem touch_of_cancelled (hlatest : t.latest = some change)
    (haction : change.action = .cancelled) :
    d.touch t = some ({ d with lastTime := some change.time }.handle t change) := by
  simp [touch, hlatest, refuses, haction]

-- A cancel ends the stream whenever it comes, and its gestures have its time.
theorem touch_undate (hlatest : t.latest = some change) (haction : change.action = .cancelled)
    (hnew : change.eventId ∉ known) (h : d.touch t = some (gestures, d')) :
    (d.undate known last).touch (t.undate known) =
      some (gestures.map fun g => { g with time := 0 }, d'.undate known change.eventId) := by
  have hlatest' : (t.undate known).latest = some (change.undate known) := by
    rw [ContactTable.latest_undate, hlatest, Option.map_some]
  have haction' : (change.undate known).action = .cancelled := haction
  have htime : (change.undate known).time = 0 := dated_of_not_mem hnew _
  have hlast : (some change.time).map (dated known change.eventId) = some 0 :=
    congrArg some (dated_of_not_mem hnew _)
  have hstream : (d.undate known last).stream = d.stream := rfl
  rw [touch_of_cancelled hlatest haction, Option.some.injEq] at h
  rw [touch_of_cancelled hlatest' haction', Option.some.injEq]
  simp only [handle, haction] at h
  simp only [handle, haction', htime, hstream]
  cases hs : d.stream with
  | none =>
    rw [hs] at h
    cases h
    simp only [undate, hlast]
    rfl
  | some s =>
    rw [hs] at h
    simp only [abort_undate _ s change.time]
    cases h
    refine congrArg₂ Prod.mk rfl ?_
    simp only [undate, abort, endStream, hlast]

end Detector

namespace Pipeline

def undate (last : EventId) (p : Pipeline) : Pipeline :=
  { p with
    detector := p.detector.undate known last
    queue := p.queue.relabel (undating known) }

variable {known} {p p' : Pipeline} {t : ContactTable} {change : Change} {result : TouchResult}
  {gestures : List Gesture} {last : EventId}

theorem touch_undate (hlatest : t.latest = some change) (haction : change.action = .cancelled)
    (hnew : change.eventId ∉ known) (h : p.touch t = (.ok (result, gestures), p')) :
    (p.undate known last).touch (t.undate known) =
      (.ok (result, gestures.map (·.undate known)), p'.undate known change.eventId) := by
  have hdetect := Detector.touch_of_cancelled (d := p.detector) hlatest haction
  have hongoing : Gesture.Ongoing
      ({ p.detector with lastTime := some change.time }.handle t change).1 :=
    Detector.ongoing_handle (by simp [haction])
  generalize ({ p.detector with lastTime := some change.time }.handle t change) = detected
    at hdetect hongoing
  obtain ⟨raw, d⟩ := detected
  have hdetect' : (p.undate known last).detector.touch (t.undate known) =
      some (raw.map fun g => { g with time := 0 }, d.undate known change.eventId) :=
    Detector.touch_undate hlatest haction hnew hdetect
  have htaps : ∀ g ∈ raw, g.kind ≠ .tap := fun g hg htap => by
    have hkind := hongoing g hg
    rw [htap] at hkind
    cases hkind
  have hdetected : (p.undate known last).detected t.action
      (raw.map fun g => { g with time := 0 }) (d.undate known change.eventId) =
      (p.detected t.action raw d).undate known change.eventId := by
    simp only [detected, undate, List.any_map]
    rfl
  simp only [touch, hdetect] at h
  simp only [touch, hdetect', ContactTable.action_undate, hdetected, Packet.ofTouch_undate]
  cases hpacket : Packet.ofTouch t with
  | error violation =>
    rw [hpacket] at h
    cases h
  | ok packet =>
    have hid : packet.eventId = change.eventId := by
      obtain ⟨change', _, hlatest', -, rfl⟩ := Packet.ofTouch_eq_ok hpacket
      exact congrArg Change.eventId (Option.some.inj (hlatest'.symm.trans hlatest))
    have hsubmit := Release.Queue.submit_relabel (l := undating known) p.queue (packet.pushAll raw)
    have hpushed : (packet.undate known).pushAll (raw.map fun g => { g with time := 0 }) =
        (undating known).packet (packet.pushAll raw) :=
      packet.pushAll_undate (hid ▸ hnew) htaps
    have hqueue : ((p.detected t.action raw d).undate known change.eventId).queue =
        p.queue.relabel (undating known) := rfl
    have hkept : (p.detected t.action raw d).queue = p.queue := rfl
    simp only [hpacket, Except.bind, hkept] at h
    simp only [ok_map, Except.bind, hqueue, hpushed, hsubmit]
    cases hreleased : p.queue.submit (packet.pushAll raw) with
    | error violation =>
      rw [hreleased] at h
      cases h
    | ok released =>
      rw [hreleased] at h
      cases h
      rfl

theorem accepted_of_cancelled (hlatest : t.latest = some change)
    (haction : change.action = .cancelled) (h : p.touch t = (.ok (result, gestures), p')) :
    result.accepted = true := by
  simp only [touch, Detector.touch_of_cancelled hlatest haction] at h
  split at h
  · cases h
  · cases h
    rfl

theorem ack_undate {id : EventId} {consumed nonBlocking : Bool}
    (h : p.ack id consumed nonBlocking = .ok (gestures, p')) :
    (p.undate known last).ack id consumed nonBlocking =
      .ok (gestures.map (·.undate known), p'.undate known last) := by
  obtain ⟨⟨released, queue⟩, hack, heq⟩ := map_eq_ok.mp h
  cases heq
  have hack' : (p.undate known last).queue.ack id consumed nonBlocking =
      .ok (gestures.map (·.undate known), queue.relabel (undating known)) :=
    Release.Queue.ack_relabel (l := undating known) p.queue hack
  rw [ack, hack', ok_map]
  rfl

end Pipeline

namespace Channel

-- The channel but for when the touches happened that were not known.
def undate (c : Channel) : Channel :=
  { c with
    contacts := c.contacts.undate known
    pipeline := c.pipeline.undate known c.contacts.eventId
    released := c.released.map (·.undate known) }

variable {known} {c d : Channel}

@[simp] theorem contacts_undate (c : Channel) :
    (c.undate known).contacts = c.contacts.undate known := rfl

theorem number_undate (thresholds : Thresholds) (previous : Option CountedTap) (g : Gesture) :
    number thresholds previous (g.undate known) =
      (number thresholds previous g).map (·.undate known) id := by
  have hpayload : (g.undate known).payload = g.payload := rfl
  unfold number
  rw [hpayload]
  cases h : g.payload with
  | tap count =>
    have hkind : g.kind = .tap := congrArg Gesture.Payload.kind h
    simp only [Gesture.undate, hkind, if_true]
    rfl
  | _ => rfl

theorem collect_undate (c : Channel) (gestures : List Gesture) :
    (c.undate known).collect (gestures.map (·.undate known)) =
      (c.collect gestures).undate known := by
  simp [collect, numberTaps, thresholds, undate, Pipeline.undate, Detector.undate,
    numberAll_map number_undate]

-- A channel takes in a cancel that was made up in the same way whenever it is made up.
theorem touch_undate {t : Touch} {result : TouchResult} (hkind : t.kind = .cancelled)
    (hnew : t.id ∉ known) (h : c.touch t = .ok (result, d)) :
    (c.undate known).touch (t.undate known) = .ok (result, d.undate known) := by
  have htable : (c.contacts.undate known).touch (t.undate known) =
      ((c.contacts.touch t).1, (c.contacts.touch t).2.undate known) :=
    ContactTable.touch_undate _ (by simp [hkind])
  unfold touch at h ⊢
  rw [contacts_undate, htable]
  cases haccept : c.contacts.settle.accept? t with
  | none =>
    rw [ContactTable.touch_of_accept?_eq_none haccept] at h ⊢
    cases h
    simp only [undate, ContactTable.eventId_settle]
  | some contacts =>
    have htouch : c.contacts.touch t = (true, contacts) := by simp [ContactTable.touch, haccept]
    obtain ⟨change, hlatest, haction, hid⟩ := ContactTable.latest_of_cancelled hkind haccept
    simp only [htouch] at h ⊢
    cases hpipeline : c.pipeline.touch contacts with
    | mk outcome pipeline =>
      simp only [hpipeline] at h
      cases outcome with
      | error violation => cases h
      | ok answer =>
        obtain ⟨answer, gestures⟩ := answer
        have hpipeline' : (c.undate known).pipeline.touch (contacts.undate known) =
            (.ok (answer, gestures.map (·.undate known)), pipeline.undate known change.eventId) :=
          Pipeline.touch_undate hlatest haction (hid ▸ hnew) hpipeline
        have hlast : contacts.settle.eventId = change.eventId := by
          rw [ContactTable.eventId_settle, ContactTable.eventId, hlatest]
        let before : Channel := { c with contacts := contacts.settle, pipeline }
        have hcollect : (before.undate known).collect (gestures.map (·.undate known)) =
            (before.collect gestures).undate known := collect_undate before gestures
        simp only [before, undate, hlast] at hcollect
        have haccepted := Pipeline.accepted_of_cancelled hlatest haction hpipeline
        simp only [haccepted, if_true] at h
        cases h
        simp only [hpipeline', haccepted, if_true, ContactTable.settle_undate]
        exact congrArg (fun e => Except.ok (result, e)) hcollect

theorem ack_undate {id : EventId} {consumed nonBlocking : Bool}
    (h : c.ack id consumed nonBlocking = .ok d) :
    (c.undate known).ack id consumed nonBlocking = .ok (d.undate known) := by
  obtain ⟨⟨gestures, pipeline⟩, hack, rfl⟩ := map_eq_ok.mp h
  have hpipeline : (c.undate known).pipeline = c.pipeline.undate known c.contacts.eventId := rfl
  rw [ack, hpipeline, Pipeline.ack_undate hack, ok_map]
  exact congrArg Except.ok (collect_undate { c with pipeline } gestures)

end Channel

end TouchGestures
