import TouchGestures.Proofs.Channel.Acceptance
import TouchGestures.Proofs.Channel.Reentry
import TouchGestures.Proofs.ContactTable.Ids

namespace TouchGestures

namespace Detector

variable {d d' : Detector} {t : ContactTable} {gestures : List Gesture}

-- A stream that is under way stays so unless it ends or is cancelled, and one that begins
-- is.
theorem isSome_stream_handle {change : Change} (hacting : t.acting?.isSome = true)
    (hstream : change.action ≠ .began → d.stream.isSome = true)
    (haction : change.action ≠ .ended ∧ change.action ≠ .cancelled) :
    (d.handle t change).2.stream.isSome = true := by
  unfold handle
  cases hchange : change.action with
  | began =>
    obtain ⟨contact, hcontact⟩ := Option.isSome_iff_exists.mp hacting
    simp [begin, hcontact]
  | ended => exact absurd hchange haction.1
  | cancelled => exact absurd hchange haction.2
  | joined | left =>
    obtain ⟨s, hs⟩ := Option.isSome_iff_exists.mp (hstream (by simp [hchange]))
    rw [hs]
    rfl
  | moved =>
    obtain ⟨s, hs⟩ := Option.isSome_iff_exists.mp (hstream (by simp [hchange]))
    rw [hs]
    simp only [move, pinch]
    split
    · split
      · split <;> rfl
      · split <;> rfl
    · rfl

theorem isSome_stream_touch (hacting : t.acting?.isSome = true)
    (h : d.touch t = some (gestures, d')) :
    d'.stream.isSome = true ↔ t.action ≠ .ended ∧ t.action ≠ .cancelled := by
  constructor
  · intro hstream
    rw [← not_or]
    intro hcloses
    rw [stream_touch_of_closes hcloses h] at hstream
    cases hstream
  · intro haction
    obtain ⟨change, hlatest, hrefuses, hhandle⟩ := touch_eq_some h
    have hchange : t.action = change.action := by simp [ContactTable.action, hlatest]
    rw [hchange] at haction
    have hstream := isSome_stream_handle (d := { d with lastTime := some change.time }) hacting
      (fun hbegan => ?_) haction
    · rwa [hhandle] at hstream
    · cases hsome : d.stream with
      | some s => rfl
      | none => cases hkind : change.action <;> simp_all [refuses]

end Detector

namespace Channel

variable {c d e : Channel}

-- Whose a channel is, what is down on it and which stream detection is in stays the same.
structure Rests (c d : Channel) : Prop where
  consumer : d.consumer = c.consumer
  contacts : d.contacts = c.contacts
  lastTime : d.detector.lastTime = c.detector.lastTime
  stream : d.detector.stream.isSome = c.detector.stream.isSome

theorem rests_refl (c : Channel) : Rests c c := ⟨rfl, rfl, rfl, rfl⟩

theorem Rests.trans (h : Rests c d) (h' : Rests d e) : Rests c e where
  consumer := h'.consumer.trans h.consumer
  contacts := h'.contacts.trans h.contacts
  lastTime := h'.lastTime.trans h.lastTime
  stream := h'.stream.trans h.stream

-- Whether an event concerns neither the contacts nor the settings nor the owner.
def Event.isStill : Event → Bool
  | .ack .. | .drain | .tick _ | .setDoubleTap _ | .forgetHistory => true
  | .touch _ | .configure _ | .reassign _ => false

-- Whether an event concerns neither the settings nor the owner.
def Event.isLocal : Event → Bool
  | .touch _ => true
  | event => event.isStill

theorem rests_step {event : Event} {gestures : List Gesture} (hstill : event.isStill = true)
    (h : c.step event = .ok (gestures, d)) : Rests c d := by
  cases event with
  | ack id consumed nonBlocking =>
    obtain ⟨after, hack, heq⟩ := map_eq_ok.mp h
    cases heq
    obtain ⟨judged, -, rfl⟩ := ack_eq_ok hack
    exact ⟨rfl, rfl, rfl, rfl⟩
  | tick now =>
    rw [step, tick_eq] at h
    cases h
    refine ⟨rfl, rfl, Detector.lastTime_tick _ _, ?_⟩
    have hstream : (c.detector.tick now).2.stream = none ↔ c.detector.stream = none :=
      Detector.stream_tick_eq_none_iff
    rw [Bool.eq_iff_iff, Option.isSome_iff_ne_none, Option.isSome_iff_ne_none]
    exact not_congr hstream
  | drain | forgetHistory =>
    cases h
    exact ⟨rfl, rfl, rfl, rfl⟩
  | setDoubleTap enabled =>
    cases h
    obtain ⟨-, hlastTime, -, allowed, hstream⟩ := quiet_setDoubleTap c enabled
    exact ⟨rfl, rfl, hlastTime, by rw [hstream, Option.isSome_map]⟩
  | touch | configure | reassign => cases hstill

namespace Chronicle

variable {k k' : Chronicle} {t : Touch}

theorem rests_next {event : Event} (hstill : event.isStill = true) :
    Rests k.channel (k.next event).channel := by
  unfold next
  split
  · next hk =>
    obtain ⟨gestures, channel, hstep, rfl⟩ := step_eq_ok hk
    exact rests_step hstill hstep
  · exact rests_refl _

-- A channel takes in every touch, if only to turn it down.
theorem exists_touch (h : k.Sound) (t : Touch) :
    ∃ result d, k.channel.touch t = .ok (result, d) := by
  cases haccept : k.channel.contacts.settle.accept? t with
  | none => exact ⟨_, _, touch_of_not_accepted (ContactTable.touch_of_accept?_eq_none haccept)⟩
  | some contacts =>
    cases hdetect : k.channel.detector.touch contacts with
    | some detected =>
      obtain ⟨packet, -, -, htouch⟩ := touch_of_accept? h.head haccept hdetect
      exact ⟨_, _, htouch⟩
    | none =>
      have htouch : k.channel.contacts.touch t = (true, contacts) := by
        simp [ContactTable.touch, haccept]
      simp [Channel.touch, htouch, Pipeline.touch_of_detector_touch_eq_none hdetect,
        Pipeline.result]

-- A touch is accepted if it is by the contacts and by detection.
theorem accepts_iff (h : k.Sound) :
    k.accepts t = true ↔ ∃ contacts result, k.channel.contacts.accept? t = some contacts ∧
      k.channel.detector.touch contacts = some result := by
  have hsettle := ContactTable.settle_of_leaving_eq_none h.settled
  constructor
  · intro haccepts
    obtain ⟨result, d, htouch⟩ := exists_touch h t
    obtain ⟨hrejected, -, -⟩ | ⟨contacts, gestures, -, haccept, hdetect, -, -⟩ :=
      detection?_cases h.head h.settled htouch
    · simp [accepts, htouch, hrejected] at haccepts
    · exact ⟨contacts, _, haccept, hdetect⟩
  · rintro ⟨contacts, ⟨gestures, detector⟩, haccept, hdetect⟩
    obtain ⟨packet, -, -, htouch⟩ := touch_of_accept? h.head (hsettle.symm ▸ haccept) hdetect
    simp [accepts, htouch]

-- Whatever the time, the oldest contact can be cancelled.
theorem accepts_cancel {c : Contact} {rest : List Contact} (h : k.Sound)
    (hcontacts : k.channel.contacts.contacts = c :: rest) (now : Time) (id : EventId) :
    k.accepts (c.synthesize .cancelled now id) = true := by
  obtain ⟨contacts, haccept, haction, -⟩ := ContactTable.accept?_cancel hcontacts now id
  obtain ⟨result, hdetect⟩ := k.channel.detector.exists_touch_of_cancelled
    (ContactTable.accepted_note haccept).2.1 haction
  exact (accepts_iff h).mpr ⟨contacts, result, haccept, hdetect⟩

theorem channel_of_not_accepts (h : k.Sound) (haccepts : k.accepts t = false) :
    (k.next (.touch t)).channel = k.channel := by
  obtain ⟨result, d, htouch⟩ := exists_touch h t
  rw [(next_of_touch h htouch).1]
  exact eq_of_rejected h.head h.settled htouch (by simpa [accepts, htouch] using haccepts)

structure Takes (k : Chronicle) (t : Touch) (contacts : ContactTable) : Prop where
  accept : k.channel.contacts.accept? t = some contacts
  detect : ∃ gestures, k.channel.detector.touch contacts =
    some (gestures, (k.next (.touch t)).channel.detector)
  contacts : (k.next (.touch t)).channel.contacts = contacts.settle
  consumer : (k.next (.touch t)).channel.consumer = k.channel.consumer

theorem exists_takes (h : k.Sound) (haccepts : k.accepts t = true) :
    ∃ contacts, k.Takes t contacts := by
  obtain ⟨contacts, ⟨gestures, detector⟩, haccept, hdetect⟩ := (accepts_iff h).mp haccepts
  have hsettle := ContactTable.settle_of_leaving_eq_none h.settled
  obtain ⟨packet, -, -, htouch⟩ := touch_of_accept? h.head (hsettle.symm ▸ haccept) hdetect
  have hchannel := (next_of_touch h htouch).1
  exact ⟨contacts, haccept, ⟨gestures, by rw [hchannel]; exact hdetect⟩, by rw [hchannel],
    by rw [hchannel]⟩

-- Neither its owner nor its limit changes with a touch.
theorem fixed_next_touch (h : k.Sound) (t : Touch) :
    (k.next (.touch t)).channel.consumer = k.channel.consumer ∧
      (k.next (.touch t)).channel.contacts.limit = k.channel.contacts.limit := by
  cases haccepts : k.accepts t with
  | false =>
    rw [channel_of_not_accepts h haccepts]
    exact ⟨rfl, rfl⟩
  | true =>
    obtain ⟨contacts, htakes⟩ := exists_takes h haccepts
    refine ⟨htakes.consumer, ?_⟩
    rw [htakes.contacts, ContactTable.limit_settle, ContactTable.limit_accept? htakes.accept]

theorem count_next_touch (h : k.Sound) (t : Touch)
    (hroom : k.channel.contacts.count ≤ k.channel.contacts.limit.toNat) :
    (k.next (.touch t)).channel.contacts.count ≤ k.channel.contacts.limit.toNat := by
  cases haccepts : k.accepts t with
  | false => rwa [channel_of_not_accepts h haccepts]
  | true =>
    obtain ⟨contacts, htakes⟩ := exists_takes h haccepts
    rw [htakes.contacts]
    exact ContactTable.count_settle_le hroom htakes.accept

inductive Evolves (allowed : Event → Prop) (k : Chronicle) : Chronicle → Prop
  | refl : Evolves allowed k k
  | next {k' : Chronicle} (h : Evolves allowed k k') {event : Event} (he : allowed event) :
    Evolves allowed k (k'.next event)

section Evolves

variable {allowed : Event → Prop}

theorem Evolves.trans {k₁ k₂ : Chronicle} (h : Evolves allowed k k₁) (h' : Evolves allowed k₁ k₂) :
    Evolves allowed k k₂ := by
  induction h' with
  | refl => exact h
  | next _ he ih => exact ih.next he

theorem Evolves.lived (h : Evolves allowed k k') (hk : Lived (fun _ => True) k) :
    Lived (fun _ => True) k' := by
  induction h with
  | refl => exact hk
  | next _ _ ih => exact ih.next _

theorem Evolves.mono {other : Event → Prop} (h : Evolves allowed k k')
    (hmono : ∀ event, allowed event → other event) : Evolves other k k' := by
  induction h with
  | refl => exact .refl
  | next _ he ih => exact ih.next (hmono _ he)

theorem evolves_answer (k : Chronicle) (t : Touch) (consumed : Bool) :
    Evolves (·.isLocal = true) k (k.answer t consumed) := by
  have htouched : Evolves (·.isLocal = true) k (k.next (.touch t)) := Evolves.refl.next rfl
  unfold answer
  split
  · exact htouched.next rfl
  · exact htouched

theorem evolves_inject (k : Chronicle) (handles : Touch → Bool) (t : Touch) :
    Evolves (·.isLocal = true) k (k.inject handles t) := by
  unfold inject
  split
  · exact (evolves_answer _ _ _).next rfl
  · exact evolves_answer _ _ _

theorem evolves_injectAll (k : Chronicle) (handles : Touch → Bool) (touches : List Touch) :
    Evolves (·.isLocal = true) k (touches.foldl (·.inject handles) k) := by
  induction touches generalizing k with
  | nil => exact .refl
  | cons t rest ih => exact (evolves_inject k handles t).trans (ih _)

theorem evolves_reenter (k : Chronicle) (presses : List Touch) :
    Evolves (·.isLocal = true) k (k.reenter presses) := by
  have hforgotten : Evolves (·.isLocal = true) k (k.next .forgetHistory) := Evolves.refl.next rfl
  have hpressed : ∀ k : Chronicle,
      Evolves (·.isLocal = true) k (presses.foldl (fun k t => k.answer t true) k) := by
    induction presses with
    | nil => exact fun _ => .refl
    | cons t rest ih => exact fun k => (evolves_answer k t true).trans (ih _)
  exact (hforgotten.trans (hpressed _)).next rfl

theorem Evolves.rests (h : Evolves (·.isStill = true) k k') : Rests k.channel k'.channel := by
  induction h with
  | refl => exact rests_refl _
  | next _ he ih => exact ih.trans (rests_next he)

-- A channel keeps its owner and its limit as long as it is neither reassigned nor
-- configured, and takes in no more contacts than there is room for.
theorem Evolves.fixed (h : Evolves (·.isLocal = true) k k') (hk : Lived (fun _ => True) k) :
    k'.channel.consumer = k.channel.consumer ∧
      k'.channel.contacts.limit = k.channel.contacts.limit ∧
      (k.channel.contacts.count ≤ k.channel.contacts.limit.toNat →
        k'.channel.contacts.count ≤ k.channel.contacts.limit.toNat) := by
  induction h with
  | refl => exact ⟨rfl, rfl, id⟩
  | @next k' h event he ih =>
    obtain ⟨hconsumer, hlimit, hroom⟩ := ih
    cases hstill : event.isStill with
    | true =>
      have hrests := rests_next (k := k') hstill
      rw [hrests.consumer, hrests.contacts]
      exact ⟨hconsumer, hlimit, hroom⟩
    | false =>
      obtain ⟨t, rfl⟩ : ∃ t, event = .touch t := by
        cases event <;> simp_all [Event.isLocal, Event.isStill]
      have hsound := (h.lived hk).sound
      obtain ⟨hconsumer', hlimit'⟩ := fixed_next_touch hsound t
      exact ⟨hconsumer'.trans hconsumer, hlimit'.trans hlimit, fun hcount =>
        hlimit ▸ count_next_touch hsound t (hlimit.symm ▸ hroom hcount)⟩

end Evolves

-- The contacts of a channel are told apart by their numbers.
theorem distinct_of_lived (h : Lived (fun _ => True) k) : k.channel.contacts.Distinct := by
  induction h with
  | start => exact List.nodup_nil
  | @step k _ e h _ hk ih =>
    obtain ⟨gestures, channel, hstep, rfl⟩ := step_eq_ok hk
    have houtcome := outcome_step h.sound.head h.sound.settled hstep
    generalize k.channel.detectedBy (.event e) = added at houtcome
    cases houtcome with
    | quiet hquiet =>
      unfold ContactTable.Distinct
      rw [hquiet.contacts]
      exact ih
    | alarms now hcontacts _ => exact hcontacts ▸ ih
    | touched t contacts gestures haccept _ hcontacts =>
      exact hcontacts ▸ (ih.accept? haccept).settle

end Chronicle

end Channel

end TouchGestures
