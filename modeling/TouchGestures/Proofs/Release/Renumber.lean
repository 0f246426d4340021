import TouchGestures.Proofs.Detector.Renumber
import TouchGestures.Proofs.Release.Relabel

namespace TouchGestures

variable (ρ : Renumbering)

namespace Packet

def renumber (p : Packet) : Packet :=
  { p with eventId := ρ p.eventId, gestures := p.gestures.map (·.renumber ρ) }

variable {ρ} (p : Packet)

@[simp] theorem isPending_renumber : (p.renumber ρ).isPending = p.isPending := rfl

theorem ofTouch_renumber (t : ContactTable) :
    ofTouch (t.renumber ρ) = (ofTouch t).map (·.renumber ρ) := by
  simp only [ofTouch, ContactTable.latest_renumber, ContactTable.acting?_renumber,
    ContactTable.count_renumber]
  cases t.latest <;> cases t.acting? <;> rfl

-- Gestures get the number of their touch when they join its packet.
theorem pushAll_renumber (gestures : List Gesture) :
    (p.renumber ρ).pushAll gestures = (p.pushAll gestures).renumber ρ := by
  rw [pushAll_eq, pushAll_eq]
  simp [renumber, Gesture.renumber]

theorem ack_renumber {q : Packet} {consumed nonBlocking : Bool}
    (h : p.ack consumed nonBlocking = .ok q) :
    (p.renumber ρ).ack consumed nonBlocking = .ok (q.renumber ρ) := by
  simp only [ack, isPending_renumber] at h ⊢
  split at h
  · cases h
    simp [*, renumber, Gesture.renumber, Function.comp_def]
  · cases h

end Packet

-- Other numbers make no difference to what is released.
def Renumbering.relabelling : Relabelling where
  gesture := Gesture.renumber ρ
  packet := Packet.renumber ρ
  number := ρ
  injective := ρ.injective
  kind := fun _ => rfl
  source := fun _ => rfl
  verdict := fun _ => rfl
  eventId := fun _ => rfl
  gestures := fun _ => rfl
  ack := Packet.ack_renumber _
  closing := fun _ _ _ => rfl

namespace Release

def Outlet.renumber (o : Outlet) : Outlet :=
  { o with
    openTap := o.openTap.map (·.renumber ρ)
    openScroll := o.openScroll.map (·.renumber ρ) }

namespace Queue

def renumber (q : Queue) : Queue := ⟨q.packets.map (·.renumber ρ), q.outlet.renumber ρ⟩

variable {ρ} (q : Queue)

theorem drain_renumber (o : Outlet) (packets : List Packet) :
    drain (o.renumber ρ) (packets.map (·.renumber ρ)) =
      (drain o packets).map (List.map (·.renumber ρ)) (·.renumber ρ) :=
  drain_relabel (l := ρ.relabelling) o packets

theorem submit_renumber (p : Packet) :
    (q.renumber ρ).submit (p.renumber ρ) =
      (q.submit p).map (Prod.map (List.map (·.renumber ρ)) (·.renumber ρ)) :=
  submit_relabel (l := ρ.relabelling) q p

theorem ack_renumber {id : EventId} {consumed nonBlocking : Bool} {released : List Gesture}
    {q' : Queue} (h : q.ack id consumed nonBlocking = .ok (released, q')) :
    (q.renumber ρ).ack (ρ id) consumed nonBlocking =
      .ok (released.map (·.renumber ρ), q'.renumber ρ) :=
  ack_relabel (l := ρ.relabelling) q h

end Queue

end Release

end TouchGestures
