import TouchGestures.Proofs.Detector.Taps
import TouchGestures.Proofs.Release.History

namespace TouchGestures

variable {β : Type} {f : Gesture → Option β}

-- A view of gestures that shows none of those that outlets make up, and none of alarms.
def Gesture.Detected (f : Gesture → Option β) : Prop :=
  ∀ g, g.kind ∈ [Gesture.Kind.tapCancel, .scrollEnd, .showPress, .longPress] → f g = none

namespace Release.Outlet

variable {items : List Item}

theorem filterMap_closeTap (hf : Gesture.Detected f) (o : Outlet) (p : Packet) :
    (o.closeTap p).1.filterMap f = [] := by
  unfold closeTap
  cases o.openTap with
  | none => rfl
  | some opener =>
    have hkind : (closing .tapCancel opener p).kind = .tapCancel := rfl
    simpa using hf (closing .tapCancel opener p) (by simp [hkind])

theorem filterMap_closeScroll (hf : Gesture.Detected f) (o : Outlet) (p : Packet) :
    (o.closeScroll p).1.filterMap f = [] := by
  unfold closeScroll
  cases o.openScroll with
  | none => rfl
  | some opener =>
    have hkind : (closing .scrollEnd opener p).kind = .scrollEnd := rfl
    simpa using hf (closing .scrollEnd opener p) (by simp [hkind])

theorem filterMap_closeAll (hf : Gesture.Detected f) (o : Outlet) (p : Packet) :
    (o.closeAll p).1.filterMap f = [] := by
  have hall : (o.closeAll p).1 = (o.closeScroll p).1 ++ ((o.closeScroll p).2.closeTap p).1 := rfl
  rw [hall, List.filterMap_append, filterMap_closeScroll hf, filterMap_closeTap hf]
  rfl

theorem filterMap_offer (hf : Gesture.Detected f) (o : Outlet) (p : Packet) (g : Gesture) :
    ((o.offer p g).1.filterMap f).Sublist ([g].filterMap f) := by
  unfold offer
  simp only []
  split
  · rw [filterMap_closeTap hf]
    exact List.nil_sublist _
  · exact List.Sublist.refl _

theorem filterMap_offerAll (hf : Gesture.Detected f) (o : Outlet) (p : Packet)
    (gestures : List Gesture) :
    ((o.offerAll p gestures).1.filterMap f).Sublist (gestures.filterMap f) := by
  induction gestures generalizing o with
  | nil => exact List.Sublist.refl _
  | cons g rest ih =>
    have hoffer : (o.offerAll p (g :: rest)).1 =
        (o.offer p g).1 ++ ((o.offer p g).2.offerAll p rest).1 := rfl
    rw [hoffer, List.filterMap_append, ← List.singleton_append, List.filterMap_append]
    exact (filterMap_offer hf o p g).append (ih _)

theorem filterMap_release (hf : Gesture.Detected f) (o : Outlet) (p : Packet) :
    ((o.release p).1.filterMap f).Sublist (p.gestures.filterMap f) := by
  unfold release
  simp only []
  split
  · rw [List.filterMap_append, filterMap_closeAll hf, List.append_nil]
    exact filterMap_offerAll hf _ p p.gestures
  · exact filterMap_offerAll hf _ p p.gestures

theorem filterMap_releaseTimeout (hf : Gesture.Detected f) (o : Outlet) (p : Packet)
    (suppressing : Bool) :
    ((o.releaseTimeout p suppressing).1.filterMap f).Sublist (p.gestures.filterMap f) := by
  unfold releaseTimeout
  split
  · exact filterMap_offerAll hf o p p.gestures
  · exact List.Sublist.refl _

-- What is shown of the gestures that go out is some of what is shown of those in the packets
-- of touches, in its order.
theorem filterMap_replay (hf : Gesture.Detected f) (o : Outlet) (h : PressAlarms items) :
    ((o.replay items).1.filterMap f).Sublist
      ((packetsOf items).flatMap fun p => p.gestures.filterMap f) := by
  induction items generalizing o with
  | nil => exact List.Sublist.refl _
  | cons item rest ih =>
    have hsplit : PressAlarms ([item] ++ rest) := h
    have hrest := ih (o.take item).2 hsplit.of_append_right
    rw [replay_cons, List.filterMap_append]
    cases item with
    | packet p => exact (filterMap_release hf o p).append hrest
    | alarm p suppressing =>
      have hsilent : p.gestures.filterMap f = [] := by
        refine List.filterMap_eq_nil_iff.mpr fun g hg => hf g ?_
        obtain hkind | hkind := h p suppressing (by simp) g hg <;> simp [hkind]
      have hnone : (o.take (.alarm p suppressing)).1.filterMap f = [] := by
        refine List.sublist_nil.mp ?_
        rw [← hsilent]
        exact filterMap_releaseTimeout hf o p suppressing
      rw [hnone]
      exact hrest
    | forgotten => exact hrest

end Release.Outlet

end TouchGestures
