import TouchGestures.Proofs.Channel.Soundness
import TouchGestures.Proofs.Outcome

namespace TouchGestures

namespace Release.Queue

variable (q : Queue)

-- Which packets leave a queue does not depend on what has left it before.
theorem forgetHistory_drain (o : Outlet) (packets : List Packet) :
    (drain o packets).2.forgetHistory = ⟨waiting packets, {}⟩ := by
  rw [drain_eq]
  rfl

theorem submit_forgetHistory (p : Packet) :
    (q.forgetHistory.submit p).map (·.2.forgetHistory) =
      (q.submit p).map (·.2.forgetHistory) := by
  unfold submit
  cases p.source
  case undetermined | unattributable => rfl
  case timeout => rfl
  all_goals
    simp only [ok_map, forgetHistory_drain]
    rfl

theorem ack_forgetHistory (id : EventId) (consumed nonBlocking : Bool) :
    (q.forgetHistory.ack id consumed nonBlocking).map (·.2.forgetHistory) =
      (q.ack id consumed nonBlocking).map (·.2.forgetHistory) := by
  have hjudge : q.forgetHistory.judge id consumed nonBlocking =
      q.judge id consumed nonBlocking := rfl
  unfold ack
  rw [hjudge]
  cases q.judge id consumed nonBlocking with
  | error violation => rfl
  | ok packets => simp only [ok_map, forgetHistory_drain]

end Release.Queue

namespace Pipeline

variable (p : Pipeline)

theorem touch_forgetHistory (t : ContactTable) :
    (p.forgetHistory.touch t).map (Except.map Prod.fst) (·.forgetHistory) =
      (p.touch t).map (Except.map Prod.fst) (·.forgetHistory) := by
  have hdetector : p.forgetHistory.detector = p.detector := rfl
  unfold touch
  rw [hdetector]
  cases p.detector.touch t with
  | none => rfl
  | some detected =>
    obtain ⟨gestures, detector⟩ := detected
    cases Packet.ofTouch t with
    | error violation => rfl
    | ok packet =>
      have hsubmit := p.queue.submit_forgetHistory (packet.pushAll gestures)
      simp only [Except.bind, Pipeline.detected, forgetHistory] at hsubmit ⊢
      cases hkept : p.queue.submit (packet.pushAll gestures) <;>
        cases hforgotten : p.queue.forgetHistory.submit (packet.pushAll gestures) <;>
        simp_all [result, Release.Queue.forgetHistory]

theorem ack_forgetHistory (id : EventId) (consumed nonBlocking : Bool) :
    (p.forgetHistory.ack id consumed nonBlocking).map (·.2.forgetHistory) =
      (p.ack id consumed nonBlocking).map (·.2.forgetHistory) := by
  have hack := p.queue.ack_forgetHistory id consumed nonBlocking
  have hqueue : p.forgetHistory.queue = p.queue.forgetHistory := rfl
  unfold ack
  rw [hqueue, map_map, map_map]
  exact map_eq_map_of hack fun released released' hsame => by
    simp only [forgetHistory, hsame]

end Pipeline

namespace Channel

variable (c : Channel)

-- A channel apart from what has gone out of it.
def bare (c : Channel) : Channel := { c.forgetHistory with released := [], previousTap := none }

@[simp] theorem bare_forgetHistory : c.forgetHistory.bare = c.bare := rfl

@[simp] theorem bare_bare : c.bare.bare = c.bare := rfl

@[simp] theorem bare_collect (gestures : List Gesture) : (c.collect gestures).bare = c.bare := rfl

-- How a touch fares does not depend on what has gone out.
theorem touch_bare (t : Touch) :
    (c.bare.touch t).map (Prod.map id bare) = (c.touch t).map (Prod.map id bare) := by
  have hcontacts : c.bare.contacts = c.contacts := rfl
  have hpipeline : c.bare.pipeline = c.pipeline.forgetHistory := rfl
  unfold touch
  rw [hcontacts, hpipeline]
  obtain ⟨fits, contacts⟩ := c.contacts.touch t
  cases fits with
  | false => rfl
  | true =>
    have htouch := c.pipeline.touch_forgetHistory contacts
    dsimp only
    generalize c.pipeline.forgetHistory.touch contacts = forgotten at htouch ⊢
    generalize c.pipeline.touch contacts = kept at htouch ⊢
    obtain ⟨outcome, pipeline⟩ := kept
    obtain ⟨outcome', pipeline'⟩ := forgotten
    obtain ⟨houtcome, hafter⟩ := Prod.mk.inj htouch
    have hbare : ∀ table : ContactTable,
        ({ c.bare with pipeline := pipeline', contacts := table } : Channel).bare =
          ({ c with pipeline, contacts := table } : Channel).bare := fun table => by
      simp only [bare, Channel.forgetHistory, hafter]
    cases outcome with
    | error violation =>
      cases outcome' with
      | error violation' => rw [Except.error.inj houtcome]
      | ok answer' => cases houtcome
    | ok answer =>
      cases outcome' with
      | error violation' => cases houtcome
      | ok answer' =>
        have hresult : answer'.1 = answer.1 := Except.ok.inj houtcome
        rw [ok_map, ok_map, Prod.map_apply, Prod.map_apply, hresult]
        split
        · exact congrArg (fun d => Except.ok (answer.1, d)) (hbare contacts.settle)
        · exact congrArg (fun d => Except.ok (answer.1, d)) (hbare c.contacts)

theorem ack_bare (id : EventId) (consumed nonBlocking : Bool) :
    (c.bare.ack id consumed nonBlocking).map bare = (c.ack id consumed nonBlocking).map bare := by
  have hack := c.pipeline.ack_forgetHistory id consumed nonBlocking
  have hpipeline : c.bare.pipeline = c.pipeline.forgetHistory := rfl
  unfold ack
  rw [hpipeline, map_map, map_map]
  exact map_eq_map_of hack fun released released' hsame => by
    simp only [bare_collect]
    simp only [bare, forgetHistory, hsame]

theorem tick_bare (now : Time) :
    (c.bare.tick now).map (·.2.bare) = (c.tick now).map (·.2.bare) := by
  rw [tick_eq, tick_eq]
  rfl

end Channel

end TouchGestures
