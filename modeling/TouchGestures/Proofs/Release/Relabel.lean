import Mathlib.Logic.Function.Basic
import TouchGestures.Proofs.Channel.Chronicle
import TouchGestures.Proofs.Outcome

namespace TouchGestures

open Release

-- A change to the circumstances of gestures and packets that their release does not look
-- at. Touches may get other numbers by it, as long as they can still be told apart.
structure Relabelling where
  gesture : Gesture → Gesture
  packet : Packet → Packet
  number : EventId → EventId
  injective : Function.Injective number
  kind : ∀ g, (gesture g).kind = g.kind
  source : ∀ p, (packet p).source = p.source
  verdict : ∀ p, (packet p).verdict = p.verdict
  eventId : ∀ p, (packet p).eventId = number p.eventId
  gestures : ∀ p, (packet p).gestures = p.gestures.map gesture
  ack : ∀ {p q : Packet} {consumed nonBlocking : Bool}, p.ack consumed nonBlocking = .ok q →
    (packet p).ack consumed nonBlocking = .ok (packet q)
  closing : ∀ {payload : Gesture.Payload}, payload.kind ≠ .tap → ∀ g p,
    Outlet.closing payload (gesture g) (packet p) = gesture (Outlet.closing payload g p)

attribute [simp] Relabelling.kind Relabelling.source Relabelling.eventId Relabelling.gestures

namespace Relabelling

variable (l : Relabelling) (p : Packet)

@[simp] theorem isPending (p : Packet) : (l.packet p).isPending = p.isPending := by
  rw [Packet.isPending, l.verdict, Packet.isPending]

@[simp] theorem isConsumed (p : Packet) : (l.packet p).isConsumed = p.isConsumed := by
  rw [Packet.isConsumed, l.verdict, Packet.isConsumed]

theorem number_eq_iff {first second : EventId} :
    l.number first = l.number second ↔ first = second := l.injective.eq_iff

end Relabelling

namespace Release

variable (l : Relabelling)

namespace Outlet

def relabel (o : Outlet) : Outlet :=
  { o with openTap := o.openTap.map l.gesture, openScroll := o.openScroll.map l.gesture }

variable {l} (o : Outlet) (p : Packet)

@[simp] theorem suppression_relabel : (o.relabel l).suppression = o.suppression := rfl

theorem mk_relabel (suppression : Suppression) :
    (⟨suppression, (o.relabel l).openTap, (o.relabel l).openScroll⟩ : Outlet) =
      relabel l ⟨suppression, o.openTap, o.openScroll⟩ := rfl

theorem send_relabel (g : Gesture) :
    (o.relabel l).send (l.gesture g) = (o.send g).relabel l := by
  simp only [send, l.kind, apply_ite (relabel l)]
  rfl

theorem closeTap_relabel :
    (o.relabel l).closeTap (l.packet p) =
      (o.closeTap p).map (List.map l.gesture) (·.relabel l) := by
  have hclosing : (o.openTap.map l.gesture).map (closing .tapCancel · (l.packet p)) =
      (o.openTap.map (closing .tapCancel · p)).map l.gesture := by
    rw [Option.map_map, Option.map_map]
    exact congrArg (o.openTap.map ·) (funext fun g => l.closing (by decide) g p)
  simp only [closeTap, relabel, hclosing, Prod.map_apply, Option.toList_map, Option.map_none]

theorem closeScroll_relabel :
    (o.relabel l).closeScroll (l.packet p) =
      (o.closeScroll p).map (List.map l.gesture) (·.relabel l) := by
  have hclosing : (o.openScroll.map l.gesture).map (closing .scrollEnd · (l.packet p)) =
      (o.openScroll.map (closing .scrollEnd · p)).map l.gesture := by
    rw [Option.map_map, Option.map_map]
    exact congrArg (o.openScroll.map ·) (funext fun g => l.closing (by decide) g p)
  simp only [closeScroll, relabel, hclosing, Prod.map_apply, Option.toList_map, Option.map_none]

theorem closeAll_relabel :
    (o.relabel l).closeAll (l.packet p) =
      (o.closeAll p).map (List.map l.gesture) (·.relabel l) := by
  simp [closeAll, closeScroll_relabel, closeTap_relabel]

-- What is dropped depends on the kinds of gestures alone.
theorem offer_relabel (g : Gesture) :
    (o.relabel l).offer (l.packet p) (l.gesture g) =
      (o.offer p g).map (List.map l.gesture) (·.relabel l) := by
  cases hdropped : (o.suppression.decideOn g.kind).1 with
  | true => simp [offer, hdropped, mk_relabel, closeTap_relabel]
  | false => simp [offer, hdropped, mk_relabel, send_relabel]

theorem offerAll_relabel (gestures : List Gesture) :
    (o.relabel l).offerAll (l.packet p) (gestures.map l.gesture) =
      (o.offerAll p gestures).map (List.map l.gesture) (·.relabel l) := by
  induction gestures generalizing o with
  | nil => rfl
  | cons g rest ih => simp [offerAll, offer_relabel, ih]

theorem sendAll_relabel (gestures : List Gesture) :
    (o.relabel l).sendAll (gestures.map l.gesture) = (o.sendAll gestures).relabel l := by
  unfold sendAll
  induction gestures generalizing o with
  | nil => rfl
  | cons g rest ih => simp [send_relabel, ih]

theorem release_relabel :
    (o.relabel l).release (l.packet p) =
      (o.release p).map (List.map l.gesture) (·.relabel l) := by
  simp only [release, suppression_relabel, l.isConsumed, l.source, l.gestures, mk_relabel]
  cases hcloses : p.source.closesSequence with
  | true => simp [offerAll_relabel, closeAll_relabel]
  | false => simp [offerAll_relabel, Prod.map]

theorem releaseTimeout_relabel (suppressing : Bool) :
    (o.relabel l).releaseTimeout (l.packet p) suppressing =
      (o.releaseTimeout p suppressing).map (List.map l.gesture) (·.relabel l) := by
  cases suppressing <;> simp [releaseTimeout, offerAll_relabel, sendAll_relabel]

end Outlet

namespace Queue

def relabel (q : Queue) : Queue := ⟨q.packets.map l.packet, q.outlet.relabel l⟩

variable {l} (q : Queue)

theorem drain_relabel (o : Outlet) (packets : List Packet) :
    drain (o.relabel l) (packets.map l.packet) =
      (drain o packets).map (List.map l.gesture) (·.relabel l) := by
  induction packets generalizing o with
  | nil => rfl
  | cons p rest ih =>
    cases hp : p.isPending with
    | true => simp [drain, hp, relabel]
    | false => simp [drain, hp, Outlet.release_relabel, ih]

theorem submit_relabel (p : Packet) :
    (q.relabel l).submit (l.packet p) =
      (q.submit p).map (Prod.map (List.map l.gesture) (·.relabel l)) := by
  have hempty : (q.relabel l).isEmpty = q.isEmpty := by simp [isEmpty, relabel]
  have hoffered := drain_relabel (l := l) q.outlet (q.packets ++ [p])
  simp only [submit, l.source, hempty]
  cases p.source
  case undetermined | unattributable => rfl
  case timeout =>
    rw [ok_map]
    simp [relabel, Outlet.releaseTimeout_relabel]
  all_goals
    rw [ok_map, ← hoffered]
    simp [relabel]

-- A verdict finds its packet just as well under another number.
theorem judge_relabel {id : EventId} {consumed nonBlocking : Bool} {packets : List Packet}
    (h : q.judge id consumed nonBlocking = .ok packets) :
    (q.relabel l).judge (l.number id) consumed nonBlocking = .ok (packets.map l.packet) := by
  obtain ⟨waiting, outlet⟩ := q
  cases waiting with
  | nil => cases h
  | cons head rest =>
    simp only [judge, relabel, List.map_cons, l.eventId, l.number_eq_iff,
      List.getLast?_map] at h ⊢
    split at h
    · next hid =>
      obtain ⟨acked, hack, rfl⟩ := map_eq_ok.mp h
      simp [hid, l.ack hack]
    · next hid =>
      cases hlast : rest.getLast? with
      | none =>
        rw [hlast] at h
        cases h
      | some newest =>
        simp only [hlast] at h
        split at h
        · next hnewest =>
          obtain ⟨acked, hack, rfl⟩ := map_eq_ok.mp h
          simp [hid, hnewest, l.ack hack]
        · cases h

theorem ack_relabel {id : EventId} {consumed nonBlocking : Bool} {released : List Gesture}
    {q' : Queue} (h : q.ack id consumed nonBlocking = .ok (released, q')) :
    (q.relabel l).ack (l.number id) consumed nonBlocking =
      .ok (released.map l.gesture, q'.relabel l) := by
  obtain ⟨packets, hjudge, hdrain⟩ := map_eq_ok.mp h
  have hrelabelled := drain_relabel (l := l) q.outlet packets
  rw [hdrain] at hrelabelled
  rw [ack, judge_relabel q hjudge, ok_map]
  exact congrArg Except.ok hrelabelled

end Queue

end Release

end TouchGestures
