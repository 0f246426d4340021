import TouchGestures.Proofs.Packet.Course

namespace TouchGestures.Release

open Gesture (Family)

-- What became of a gesture at the outlet.
inductive Fate
  -- It went out.
  | sent (g : Gesture)
  -- It was dropped. If a tap was open, a made up gesture has called it off.
  | dropped (g : Gesture) (calledOff : Option Gesture)
  -- It was made up to close what was open at the end of a sequence.
  | closing (g : Gesture)
  deriving DecidableEq

namespace Fate

def out : Fate → List Gesture
  | .sent g => [g]
  | .dropped _ calledOff => calledOff.toList
  | .closing g => [g]

def sent? : Fate → Option Gesture
  | .sent g => some g
  | _ => none

end Fate

def outOf (fates : List Fate) : List Gesture := fates.flatMap Fate.out

@[simp] theorem outOf_nil : outOf [] = [] := rfl

@[simp] theorem outOf_cons (x : Fate) (rest : List Fate) :
    outOf (x :: rest) = x.out ++ outOf rest := rfl

@[simp] theorem outOf_append (first second : List Fate) :
    outOf (first ++ second) = outOf first ++ outOf second := by
  simp [outOf]

@[simp] theorem outOf_map_sent (gestures : List Gesture) :
    outOf (gestures.map .sent) = gestures := by
  induction gestures with
  | nil => rfl
  | cons g rest ih => simpa [Fate.out] using ih

@[simp] theorem outOf_map_closing (gestures : List Gesture) :
    outOf (gestures.map .closing) = gestures := by
  induction gestures with
  | nil => rfl
  | cons g rest ih => simpa [Fate.out] using ih

namespace Outlet

variable {o : Outlet} {p : Packet} {f : Family}

-- The outlet once the verdict on a packet has been taken in.
def judging (o : Outlet) (p : Packet) : Outlet :=
  { o with suppression := o.suppression.judge p.isConsumed (p.source = .sequenceStart) }

def fate (o : Outlet) (p : Packet) (g : Gesture) : Fate :=
  if o.suppression.drops g.kind then
    .dropped g (o.openTap.map fun opener => closing .tapCancel opener p)
  else .sent g

def fatesOf (o : Outlet) (p : Packet) : List Gesture → List Fate
  | [] => []
  | g :: rest => o.fate p g :: (o.offer p g).2.fatesOf p rest

-- What becomes of the gestures of an item, and what is made up with them.
def fates (o : Outlet) : Item → List Fate
  | .packet p =>
    (o.judging p).fatesOf p p.gestures ++
      if p.source.closesSequence then
        (((o.judging p).offerAll p p.gestures).2.closeAll p).1.map .closing
      else []
  | .alarm p suppressing => if suppressing then o.fatesOf p p.gestures else p.gestures.map .sent
  | .forgotten => []

def history (o : Outlet) : List Item → List Fate
  | [] => []
  | item :: rest => o.fates item ++ (o.take item).2.history rest

theorem offer_fst (o : Outlet) (p : Packet) (g : Gesture) :
    (o.offer p g).1 = (o.fate p g).out := by
  unfold offer fate Suppression.decideOn
  simp only []
  split <;> rfl

theorem offer_snd_of_drops {g : Gesture} (h : o.suppression.drops g.kind = true) :
    (o.offer p g).2 =
      { o with suppression := o.suppression.note g.kind true, openTap := none } := by
  simp [offer, Suppression.decideOn, h, closeTap]

theorem offer_snd_of_not_drops {g : Gesture} (h : o.suppression.drops g.kind = false) :
    (o.offer p g).2 = { o with suppression := o.suppression.note g.kind false }.send g := by
  simp [offer, Suppression.decideOn, h]

theorem offerAll_cons_snd (g : Gesture) (rest : List Gesture) :
    (o.offerAll p (g :: rest)).2 = ((o.offer p g).2.offerAll p rest).2 := rfl

theorem outOf_fatesOf (o : Outlet) (p : Packet) (gestures : List Gesture) :
    outOf (o.fatesOf p gestures) = (o.offerAll p gestures).1 := by
  induction gestures generalizing o with
  | nil => rfl
  | cons g rest ih =>
    simp only [fatesOf, offerAll, outOf_cons, ih, offer_fst]

theorem release_eq (o : Outlet) (p : Packet) :
    o.release p =
      if p.source.closesSequence then
        (((o.judging p).offerAll p p.gestures).1 ++
            (((o.judging p).offerAll p p.gestures).2.closeAll p).1,
          (((o.judging p).offerAll p p.gestures).2.closeAll p).2)
      else (o.judging p).offerAll p p.gestures := rfl

theorem outOf_fates (o : Outlet) (item : Item) : outOf (o.fates item) = (o.take item).1 := by
  cases item with
  | packet p =>
    simp only [fates, take, release_eq, outOf_append, outOf_fatesOf]
    split <;> simp
  | alarm p suppressing => cases suppressing <;> simp [fates, take, releaseTimeout, outOf_fatesOf]
  | forgotten => rfl

-- Everything that goes out does so because of what became of some gesture.
theorem outOf_history (o : Outlet) (items : List Item) :
    outOf (o.history items) = (o.replay items).1 := by
  induction items generalizing o with
  | nil => rfl
  | cons item rest ih => simp [history, replay_cons, outOf_fates, ih]

theorem history_append (o : Outlet) (first second : List Item) :
    o.history (first ++ second) = o.history first ++ (o.replay first).2.history second := by
  induction first generalizing o with
  | nil => rfl
  | cons item rest ih => simp [history, replay_cons, ih]

end Outlet

end TouchGestures.Release
