import TouchGestures.Proofs.Channel.Scrolling
import TouchGestures.Proofs.Channel.Streams
import TouchGestures.Proofs.Detector.Pinching

namespace TouchGestures

open Gesture (Family)

theorem Gesture.Family.run_pinch_of_alarms {gestures : List Gesture} {isOpen : Bool}
    (hkinds : ∀ g ∈ gestures, g.kind = .showPress ∨ g.kind = .longPress) :
    Family.pinch.run isOpen gestures = some isOpen := by
  induction gestures with
  | nil => rfl
  | cons g rest ih =>
    have hnext : Family.pinch.next isOpen g.kind = some isOpen := by
      obtain hkind | hkind := hkinds g List.mem_cons_self <;> rw [hkind] <;> rfl
    rw [Family.run_cons, hnext]
    exact ih fun g' hg' => hkinds g' (List.mem_cons_of_mem g hg')

namespace Channel

def span (c : Channel) : Scalar := spanOf c.contacts.live

-- The span that the next one is compared with.
def reference (c : Channel) : Scalar := c.detector.lastSpan

-- The span stays as it is if a contact joins the others, and if they move while nothing can
-- be compared with it.
def SpanKept (c d : Channel) : Prop :=
  c.contacts.live.length < d.contacts.live.length ∨
      d.contacts.live.length = c.contacts.live.length ∧ ¬0 < c.span → d.span = c.span

instance (c d : Channel) : Decidable (SpanKept c d) :=
  inferInstanceAs (Decidable (_ → _))

namespace Diary

variable {y y' : Diary} {t : Touch} {result : TouchResult} {c : Channel} {x : Detection}

-- A pinch is in progress: one has begun that has not ended.
def Pinching (detections : List Detection) : Prop :=
  Family.pinch.run false (gesturesOf detections) = some true

instance (detections : List Detection) : Decidable (Pinching detections) :=
  inferInstanceAs (Decidable (_ = _))

theorem isOpen_of_quiet {c d : Channel} (h : Quiet c d) :
    d.detector.isOpen .pinch = c.detector.isOpen .pinch := by
  obtain ⟨allowed, hstream⟩ := h.stream
  rw [Detector.isOpen, hstream, Detector.isOpen, Option.any_map]
  rfl

-- What a diary tells about pinches is what the detector goes by.
structure Tells (c : Channel) (detections : List Detection) : Prop where
  run : Family.pinch.run false (gesturesOf detections) = some (c.detector.isOpen .pinch)
  count : c.detector.isOpen .pinch = true → 2 ≤ c.contacts.count

theorem Tells.outcome {k : Chronicle} {d : Channel} {detections added : List Detection}
    (hk : k.Sound) (houtcome : Outcome k.channel d added) (h : Tells k.channel detections) :
    Tells d (detections ++ added) := by
  have hrun : Family.pinch.run false (gesturesOf (detections ++ added)) =
      Family.pinch.run (k.channel.detector.isOpen .pinch) (gesturesOf added) := by
    rw [gesturesOf, List.flatMap_append, Family.run_append]
    change (Family.pinch.run false (gesturesOf detections)).bind _ = _
    rw [h.run]
    rfl
  cases houtcome with
  | quiet hquiet =>
    have hsame := isOpen_of_quiet hquiet
    refine ⟨?_, ?_⟩
    · rw [hrun, hsame]
      rfl
    · rw [hsame, ContactTable.count, hquiet.contacts]
      exact h.count
  | alarms now hcontacts hdetector =>
    have hsame : d.detector.isOpen .pinch = k.channel.detector.isOpen .pinch := by
      rw [hdetector, Detector.isOpen_tick]
    refine ⟨?_, ?_⟩
    · rw [hrun, hsame]
      refine Family.run_pinch_of_alarms fun g hg => ?_
      rw [gesturesOf, List.flatMap_singleton] at hg
      exact Detector.kind_of_mem_tick hg
    · rw [hsame, hcontacts]
      exact h.count
  | touched t contacts gestures haccept hdetect hcontacts =>
    have hsettle := ContactTable.settle_of_leaving_eq_none hk.settled
    have hfollows := hk.follows (hsettle.symm ▸ haccept) hdetect
    refine ⟨?_, fun hopen => ?_⟩
    · rw [hrun, ← hfollows.run .pinch, gesturesOf, List.flatMap_singleton]
    · rw [hcontacts]
      exact (Detector.lastSpan_touch h.count (ContactTable.remains hk.settled haccept) hdetect
        hopen).1

theorem Kept.tells (h : Kept y) : Tells y.channel y.detections :=
  h.induct (P := Tells) (fun consumer settings => ⟨rfl, by simp [Detector.isOpen, ofSettings,
    Pipeline.ofSettings]⟩) fun hk houtcome htells => htells.outcome hk houtcome

theorem Kept.pinching_iff (h : Kept y) :
    Pinching y.detections ↔ y.channel.detector.isOpen .pinch = true := by
  rw [Pinching, h.tells.run, Option.some.injEq]

-- Whatever is asked of a channel, it has dropped the contacts that lifted.
theorem Kept.live_eq (h : Kept y) :
    y.channel.contacts.live = y.channel.contacts.contacts := by
  obtain ⟨k, hk, hchannel⟩ := h.lived
  exact ContactTable.live_of_leaving_eq_none (hchannel ▸ hk.sound.settled)

-- If the reference was the span of the contacts, it is so again just if the span is the
-- same wherever it is not measured.
theorem reference_eq_span_iff {k : Chronicle} {d : Channel} {detections added : List Detection}
    (hk : k.Sound) (houtcome : Outcome k.channel d added) (htells : Tells k.channel detections)
    (hlive : d.contacts.live = d.contacts.contacts)
    (hon : k.channel.detector.settings.pinch = true)
    (hcurrent : k.channel.detector.isOpen .pinch = true → k.channel.reference = k.channel.span)
    (hopen : d.detector.isOpen .pinch = true) :
    d.reference = d.span ↔
      (k.channel.detector.isOpen .pinch = true → SpanKept k.channel d) := by
  have hbefore : k.channel.contacts.live = k.channel.contacts.contacts :=
    ContactTable.live_of_leaving_eq_none hk.settled
  -- What is no touch changes neither the contacts nor the reference.
  have hstill (hcontacts : d.contacts.contacts = k.channel.contacts.contacts)
      (hreference : d.reference = k.channel.reference)
      (hsame : d.detector.isOpen .pinch = k.channel.detector.isOpen .pinch) :
      d.reference = d.span ↔
        (k.channel.detector.isOpen .pinch = true → SpanKept k.channel d) := by
    have hspan : d.span = k.channel.span := by rw [span, span, hlive, hbefore, hcontacts]
    refine iff_of_true ?_ fun _ _ => hspan
    rw [hreference, hspan]
    exact hcurrent (hsame ▸ hopen)
  cases houtcome with
  | quiet hquiet => exact hstill hquiet.contacts hquiet.lastSpan (isOpen_of_quiet hquiet)
  | alarms now hcontacts hdetector =>
    refine hstill (congrArg _ hcontacts) ?_ (by rw [hdetector, Detector.isOpen_tick])
    rw [reference, hdetector, Detector.lastSpan_tick]
    rfl
  | touched t contacts gestures haccept hdetect hcontacts =>
    have hremains := ContactTable.remains hk.settled haccept
    have hspan : d.span = spanOf contacts.settle.contacts := by rw [span, hlive, hcontacts]
    rw [hspan]
    refine ((Detector.lastSpan_touch htells.count hremains hdetect hopen).2 hon).trans ?_
    rw [and_imp]
    refine forall_congr' fun hwas => ?_
    have hdown : k.channel.contacts.count ≠ 0 := by
      have := htells.count hwas
      omega
    have hlasts : ¬(contacts.action = .ended ∨ contacts.action = .cancelled) := by
      intro hover
      rw [Detector.isOpen_of_stream_eq_none (Detector.stream_touch_of_closes hover hdetect)] at hopen
      cases hopen
    obtain ⟨hjoined, hmoved⟩ := hremains.count_iff hdown hlasts
    have hreference : k.channel.detector.lastSpan = k.channel.span := hcurrent hwas
    rw [SpanKept, hspan, hlive, hbefore, hcontacts, ← hjoined, ← hmoved, hreference]
    exact imp_congr Iff.rfl eq_comm

-- What alarms and touches report of a pinch under way.
theorem scale_of_mem {k : Chronicle} {d : Channel} {added : List Detection} {g : Gesture}
    {scale : Scalar} (hk : k.Sound) (houtcome : Outcome k.channel d added)
    (hlive : d.contacts.live = d.contacts.contacts) (hx : x ∈ added) (hg : g ∈ x.gestures)
    (hscale : g.payload = .pinchUpdate scale) :
    (∃ change ∈ x.change, change.action = .moved) ∧
      k.channel.detector.isOpen .pinch = true ∧
      d.contacts.live.map Contact.id = k.channel.contacts.live.map Contact.id ∧
      scale = d.span / k.channel.reference ∧ d.span ≠ k.channel.reference := by
  have hbefore : k.channel.contacts.live = k.channel.contacts.contacts :=
    ContactTable.live_of_leaving_eq_none hk.settled
  cases houtcome with
  | quiet => cases hx
  | alarms now =>
    obtain rfl := List.mem_singleton.mp hx
    obtain hkind | hkind := Detector.kind_of_mem_tick hg <;>
      simp [Gesture.kind, hscale, Gesture.Payload.kind] at hkind
  | touched t contacts gestures haccept hdetect hcontacts =>
    obtain rfl := List.mem_singleton.mp hx
    have hremains := ContactTable.remains hk.settled haccept
    obtain ⟨hmoved, hwas, hratio, hdiffers⟩ :=
      Detector.scale_of_mem_touch hremains hdetect hg hscale
    obtain ⟨hsame, -, hids⟩ := hremains.of_moved hmoved
    obtain ⟨change, hlatest, haction, -⟩ := ContactTable.latest_of_accept? haccept
    have hspan : d.span = spanOf contacts.settle.contacts := by rw [span, hlive, hcontacts]
    refine ⟨⟨change, hlatest, haction.trans hmoved⟩, hwas, ?_, ?_, ?_⟩
    · rw [hlive, hbefore, hcontacts, hsame, hids]
    · rw [hspan, hratio]
      rfl
    · rw [hspan]
      exact hdiffers

-- The runs with pinches switched on all the time in which the span of a pinch in progress
-- stays as it is wherever it is not measured.
inductive Steady : Diary → Prop
  | start (consumer : ConsumerId) (settings : ChannelSettings) (hon : settings.pinch = true) :
    Steady { channel := ofSettings consumer settings }
  | step {y y' : Diary} {a : Call} (h : Steady y) (hy : y.step a = .ok y')
    (hon : y'.channel.detector.settings.pinch = true)
    (hkept : Pinching y.detections → Pinching y'.detections → SpanKept y.channel y'.channel) :
    Steady y'

theorem Steady.on (h : Steady y) : y.channel.detector.settings.pinch = true := by
  cases h with
  | start consumer settings hon => exact hon
  | step _ _ hon => exact hon

theorem Steady.kept (h : Steady y) : Kept y := by
  induction h with
  | start consumer settings => exact .start consumer settings
  | step _ hy _ _ ih => exact ih.step hy

-- One more call, if the reference was the span of the contacts before.
theorem Steady.reference_step {a : Call} (h : Steady y) (hy : y.step a = .ok y')
    (hcurrent : Pinching y.detections → y.channel.reference = y.channel.span)
    (hpinching : Pinching y'.detections) :
    y'.channel.reference = y'.channel.span ↔
      (Pinching y.detections → SpanKept y.channel y'.channel) := by
  have hlive := (h.kept.step hy).live_eq
  rw [(h.kept.step hy).pinching_iff] at hpinching
  rw [h.kept.pinching_iff] at hcurrent ⊢
  have htells := h.kept.tells
  have hon := h.on
  obtain ⟨k, hk, hchannel⟩ := h.kept.lived
  obtain ⟨after, hcall, rfl⟩ := map_eq_ok.mp hy
  rw [← hchannel] at hcall htells hon hcurrent ⊢
  exact reference_eq_span_iff hk.sound (outcome_call hk.sound.head hk.sound.settled hcall) htells
    hlive hon hcurrent hpinching

theorem Steady.reference_eq (h : Steady y) (hpinching : Pinching y.detections) :
    y.channel.reference = y.channel.span := by
  induction h with
  | start => cases hpinching
  | step h hy _ hkept ih =>
    exact (h.reference_step hy ih hpinching).mpr fun hwas => hkept hwas hpinching

-- In a steady run the reference is the span of the contacts whenever a pinch is in
-- progress, and stays so just as long as the run stays steady. An update comes of a move
-- only, never of one that leaves all contacts where they are, and tells the ratio of the
-- spans after the move and before it.
theorem Steady.reference_eq_iff {a : Call} (h : Steady y) (hy : y.step a = .ok y') :
    (Pinching y.detections → y.channel.reference = y.channel.span) ∧
    (Pinching y'.detections → (y'.channel.reference = y'.channel.span ↔
      (Pinching y.detections → SpanKept y.channel y'.channel))) ∧
    ∀ x ∈ y.channel.detectedBy a, ∀ g ∈ x.gestures, ∀ scale, g.payload = .pinchUpdate scale →
      (∃ change ∈ x.change, change.action = .moved) ∧
      y'.channel.contacts.live.map Contact.id = y.channel.contacts.live.map Contact.id ∧
      y'.channel.contacts.live.map Contact.place ≠ y.channel.contacts.live.map Contact.place ∧
      scale = y'.channel.span / y.channel.span := by
  refine ⟨h.reference_eq, h.reference_step hy h.reference_eq, fun x hx g hg scale hscale => ?_⟩
  have hlive := (h.kept.step hy).live_eq
  have hcurrent := h.reference_eq
  rw [h.kept.pinching_iff] at hcurrent
  obtain ⟨k, hk, hchannel⟩ := h.kept.lived
  obtain ⟨after, hcall, rfl⟩ := map_eq_ok.mp hy
  rw [← hchannel] at hcall hx hcurrent ⊢
  obtain ⟨hmoved, hwas, hids, hratio, hdiffers⟩ := scale_of_mem hk.sound
    (outcome_call hk.sound.head hk.sound.settled hcall) hlive hx hg hscale
  rw [hcurrent hwas] at hratio hdiffers
  exact ⟨hmoved, hids, fun hplaces => hdiffers (spanOf_congr hplaces), hratio⟩

def parting : List Call :=
  [.event (.touch (finger .pressed 1 10 0 1)), .event (.touch (finger .pressed 2 50 10 2)),
    .event (.touch (finger .moved 2 150 20 3))]

theorem steady_parting : Steady (ofCalls {} parting) := by
  have hfirst : Steady (ofCalls {} (parting.take 1)) :=
    .step (.start 1 {} rfl) (a := .event (.touch (finger .pressed 1 10 0 1)))
      (by decide +kernel) (by decide +kernel) (by decide +kernel)
  have hsecond : Steady (ofCalls {} (parting.take 2)) :=
    hfirst.step (a := .event (.touch (finger .pressed 2 50 10 2)))
      (by decide +kernel) (by decide +kernel) (by decide +kernel)
  exact hsecond.step (a := .event (.touch (finger .moved 2 150 20 3)))
    (by decide +kernel) (by decide +kernel) (by decide +kernel)

-- They go apart a little more.
theorem scale_of_parting :
    Steady (ofCalls {} parting) ∧ Pinching (ofCalls {} parting).detections ∧
      ∃ y', (ofCalls {} parting).step (.event (.touch (finger .moved 2 290 30 4))) = .ok y' ∧
        y'.channel.reference = y'.channel.span ∧ y'.channel.span = 140 ∧
        ∃ x ∈ (ofCalls {} parting).channel.detectedBy
            (.event (.touch (finger .moved 2 290 30 4))),
          ∃ g ∈ x.gestures, g.payload = .pinchUpdate 2 ∧
            (2 : Scalar) = y'.channel.span / (ofCalls {} parting).channel.span := by
  have hpinching : Pinching (ofCalls {} parting).detections := by decide +kernel
  have hy : (ofCalls {} parting).step (.event (.touch (finger .moved 2 290 30 4))) =
      .ok (ofCalls {} (parting ++ [.event (.touch (finger .moved 2 290 30 4))])) := by
    decide +kernel
  obtain ⟨-, hkept, hupdates⟩ := steady_parting.reference_eq_iff hy
  have hupdated : ∃ x ∈ (ofCalls {} parting).channel.detectedBy
      (.event (.touch (finger .moved 2 290 30 4))),
      ∃ g ∈ x.gestures, g.payload = .pinchUpdate 2 := by
    decide +kernel
  obtain ⟨x, hx, g, hg, hpayload⟩ := hupdated
  obtain ⟨-, -, -, hratio⟩ := hupdates x hx g hg 2 hpayload
  exact ⟨steady_parting, hpinching, _, hy,
    (hkept (by decide +kernel)).mpr fun _ => by decide +kernel, by decide +kernel,
    x, hx, g, hg, hpayload, hratio⟩

def joined : List Call := parting ++ [.event (.touch (finger .pressed 3 80 30 4))]

-- The reference is still the span of the two, and the third has but to be where it is for
-- an update.
theorem not_reference_eq_of_joined :
    Pinching (ofCalls {} joined).detections ∧
      (ofCalls {} joined).channel.reference ≠ (ofCalls {} joined).channel.span ∧
      ∃ x ∈ (ofCalls {} joined).channel.detectedBy
          (.event (.touch (finger .moved 3 80 40 5))),
        ∃ g ∈ x.gestures, g.kind = .pinchUpdate := by
  decide +kernel

end Diary

end Channel

end TouchGestures
