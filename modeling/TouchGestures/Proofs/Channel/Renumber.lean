import TouchGestures.Channel
import TouchGestures.Proofs.Release.Renumber

namespace TouchGestures

variable (ρ : Renumbering)

namespace Pipeline

def renumber (p : Pipeline) : Pipeline :=
  { p with detector := p.detector.renumber ρ, queue := p.queue.renumber ρ }

variable {ρ} (p : Pipeline)

theorem touch_renumber (t : ContactTable) :
    (p.renumber ρ).touch (t.renumber ρ) =
      (p.touch t).map (Except.map (Prod.map id (List.map (·.renumber ρ)))) (·.renumber ρ) := by
  have hdetector : (p.renumber ρ).detector.touch (t.renumber ρ) =
      (p.detector.touch t).map (Prod.map id (·.renumber ρ)) :=
    Detector.touch_renumber p.detector
  simp only [touch, hdetector]
  cases p.detector.touch t with
  | none => rfl
  | some detected =>
    obtain ⟨gestures, d⟩ := detected
    have hqueue : ((p.renumber ρ).detected (t.renumber ρ).action gestures (d.renumber ρ)) =
        (p.detected t.action gestures d).renumber ρ := by
      rw [ContactTable.action_renumber]
      rfl
    simp only [Option.map_some, Prod.map_apply, id_eq, hqueue, Packet.ofTouch_renumber]
    cases Packet.ofTouch t with
    | error violation => rfl
    | ok packet =>
      have hsubmit := Release.Queue.submit_renumber (ρ := ρ) p.queue (packet.pushAll gestures)
      rw [← Packet.pushAll_renumber] at hsubmit
      have hsame : ((p.detected t.action gestures d).renumber ρ).queue =
          p.queue.renumber ρ := rfl
      have hkept : (p.detected t.action gestures d).queue = p.queue := rfl
      simp only [ok_map, Except.bind, hsame, hkept, hsubmit]
      cases p.queue.submit (packet.pushAll gestures) <;> rfl

theorem ack_renumber {id : EventId} {consumed nonBlocking : Bool} {released : List Gesture}
    {p' : Pipeline} (h : p.ack id consumed nonBlocking = .ok (released, p')) :
    (p.renumber ρ).ack (ρ id) consumed nonBlocking =
      .ok (released.map (·.renumber ρ), p'.renumber ρ) := by
  obtain ⟨⟨gestures, queue⟩, hack, heq⟩ := map_eq_ok.mp h
  cases heq
  simp [ack, renumber, Release.Queue.ack_renumber p.queue hack]

theorem submitTimeouts_renumber (queue : Release.Queue) (gestures : List Gesture) :
    submitTimeouts (queue.renumber ρ) (gestures.map (·.renumber ρ)) =
      (submitTimeouts queue gestures).map (Prod.map (List.map (·.renumber ρ)) (·.renumber ρ)) := by
  induction gestures generalizing queue with
  | nil => rfl
  | cons g rest ih =>
    have hpacket : Packet.ofTimeout (g.renumber ρ) = (Packet.ofTimeout g).renumber ρ := rfl
    simp only [List.map_cons, submitTimeouts, hpacket, Release.Queue.submit_renumber]
    cases queue.submit (Packet.ofTimeout g) with
    | error violation => rfl
    | ok first =>
      simp only [ok_map, ok_bind, Prod.map_snd, ih]
      cases submitTimeouts first.2 rest with
      | error violation => rfl
      | ok others => simp

theorem tick_renumber (now : Time) :
    (p.renumber ρ).tick now =
      (p.tick now).map (Prod.map (List.map (·.renumber ρ)) (·.renumber ρ)) := by
  have hdetector : (p.renumber ρ).detector.tick now =
      (p.detector.tick now).map (List.map (·.renumber ρ)) (·.renumber ρ) :=
    p.detector.tick_renumber now
  have hqueue : (p.renumber ρ).queue = p.queue.renumber ρ := rfl
  simp only [tick, hdetector, hqueue, Prod.map_fst, Prod.map_snd, submitTimeouts_renumber]
  cases submitTimeouts p.queue (p.detector.tick now).1 <;> rfl

end Pipeline

def Channel.renumber (c : Channel) : Channel :=
  { c with
    contacts := c.contacts.renumber ρ
    pipeline := c.pipeline.renumber ρ
    released := c.released.map (·.renumber ρ) }

namespace Channel

variable {ρ} (c : Channel)

@[simp] theorem contacts_renumber : (c.renumber ρ).contacts = c.contacts.renumber ρ := rfl

theorem nextDeadline_renumber : (c.renumber ρ).nextDeadline = c.nextDeadline :=
  Detector.nextDeadline_renumber c.pipeline.detector

theorem configure_renumber (settings : ChannelSettings) :
    (c.renumber ρ).configure settings = (c.configure settings).renumber ρ := by
  have hstream : (c.pipeline.detector.renumber ρ).configure settings =
      (c.pipeline.detector.configure settings).renumber ρ := by
    simp only [Detector.configure, Detector.renumber, Option.map_map]
    rfl
  simp only [configure, Pipeline.configure, renumber, Pipeline.renumber, hstream]
  rfl

theorem numberAll_map {f : Gesture → Gesture}
    (hf : ∀ thresholds previous g, number thresholds previous (f g) =
      (number thresholds previous g).map f id)
    (thresholds : Thresholds) (previous : Option CountedTap) (gestures : List Gesture) :
    numberAll thresholds previous (gestures.map f) =
      (numberAll thresholds previous gestures).map (List.map f) id := by
  induction gestures generalizing previous with
  | nil => rfl
  | cons g rest ih => simp [numberAll, hf, ih]

-- Taps are told apart by where and when they are.
theorem number_renumber (thresholds : Thresholds) (previous : Option CountedTap) (g : Gesture) :
    number thresholds previous (g.renumber ρ) =
      (number thresholds previous g).map (·.renumber ρ) id := by
  have hpayload : (g.renumber ρ).payload = g.payload := rfl
  simp only [number, hpayload]
  cases g.payload <;> rfl

theorem collect_renumber (gestures : List Gesture) :
    (c.renumber ρ).collect (gestures.map (·.renumber ρ)) = (c.collect gestures).renumber ρ := by
  simp [collect, numberTaps, thresholds, renumber, Pipeline.renumber, numberAll_map number_renumber]

theorem touch_renumber (t : Touch) :
    (c.renumber ρ).touch (t.renumber ρ) = (c.touch t).map (Prod.map id (·.renumber ρ)) := by
  simp only [touch, contacts_renumber, ContactTable.touch_renumber]
  obtain ⟨fits, contacts⟩ := c.contacts.touch t
  cases fits with
  | false => rfl
  | true =>
    have hpipeline : (c.renumber ρ).pipeline = c.pipeline.renumber ρ := rfl
    simp only [hpipeline, Pipeline.touch_renumber]
    obtain ⟨outcome, pipeline⟩ := c.pipeline.touch contacts
    cases outcome with
    | error violation => rfl
    | ok answer =>
      obtain ⟨result, gestures⟩ := answer
      have hcollect : collect ⟨(c.renumber ρ).consumer, c.contacts.renumber ρ,
          pipeline.renumber ρ, (c.renumber ρ).released, (c.renumber ρ).previousTap⟩
          (gestures.map (Gesture.renumber ρ)) = ({ c with pipeline }.collect gestures).renumber ρ :=
        collect_renumber { c with pipeline } gestures
      simp only [ok_map, Prod.map, id, ContactTable.settle_renumber]
      rw [hcollect]
      cases result.accepted <;> rfl

theorem ack_renumber {id : EventId} {consumed nonBlocking : Bool} {d : Channel}
    (h : c.ack id consumed nonBlocking = .ok d) :
    (c.renumber ρ).ack (ρ id) consumed nonBlocking = .ok (d.renumber ρ) := by
  obtain ⟨⟨gestures, pipeline⟩, hack, rfl⟩ := map_eq_ok.mp h
  have hpipeline : (c.renumber ρ).pipeline = c.pipeline.renumber ρ := rfl
  rw [ack, hpipeline, Pipeline.ack_renumber c.pipeline hack, ok_map]
  exact congrArg Except.ok (collect_renumber { c with pipeline } gestures)

theorem tick_renumber (now : Time) :
    (c.renumber ρ).tick now =
      (c.tick now).map (Prod.map (List.map (·.renumber ρ)) (·.renumber ρ)) := by
  have hpipeline : (c.renumber ρ).pipeline = c.pipeline.renumber ρ := rfl
  simp only [tick, hpipeline, Pipeline.tick_renumber]
  cases c.pipeline.tick now with
  | error violation => rfl
  | ok answer =>
    simp [numberTaps, thresholds, renumber, Pipeline.renumber, numberAll_map number_renumber]

end Channel

end TouchGestures
