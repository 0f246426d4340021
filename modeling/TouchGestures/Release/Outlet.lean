import TouchGestures.Packet
import TouchGestures.Release.Suppression

namespace TouchGestures.Release

-- The consumer's end of a release queue: what is being suppressed, and the openers that
-- went out and have not been closed.
structure Outlet where
  suppression : Suppression := {}
  openTap : Option Gesture := none
  openScroll : Option Gesture := none
  deriving DecidableEq

namespace Outlet

-- A closing gesture made up for an opener, when and where the packet happened.
def closing (payload : Gesture.Payload) (opener : Gesture) (p : Packet) : Gesture :=
  { opener with payload, time := p.time, place := p.place, eventId := p.eventId }

-- Lets a gesture out and keeps count of what is open.
def send (o : Outlet) (g : Gesture) : Outlet :=
  if g.kind = .tapDown then { o with openTap := some g }
  else if g.kind.endsTap then { o with openTap := none }
  else if g.kind = .scrollBegin then { o with openScroll := some g }
  else if g.kind.endsScroll then { o with openScroll := none }
  else o

def closeTap (o : Outlet) (p : Packet) : List Gesture × Outlet :=
  ((o.openTap.map fun g => closing .tapCancel g p).toList, { o with openTap := none })

def closeScroll (o : Outlet) (p : Packet) : List Gesture × Outlet :=
  ((o.openScroll.map fun g => closing .scrollEnd g p).toList, { o with openScroll := none })

-- Lets a gesture of the packet out or drops it. A tap that is open when something is
-- dropped cannot come to its own end and is called off.
def offer (o : Outlet) (p : Packet) (g : Gesture) : List Gesture × Outlet :=
  let (dropped, suppression) := o.suppression.decideOn g.kind
  let o := { o with suppression }
  if dropped then o.closeTap p else ([g], o.send g)

def offerAll (o : Outlet) (p : Packet) : List Gesture → List Gesture × Outlet
  | [] => ([], o)
  | g :: rest =>
    let (first, o) := o.offer p g
    let (others, o) := o.offerAll p rest
    (first ++ others, o)

-- Lets some gestures out whatever is suppressed.
def sendAll (o : Outlet) (gestures : List Gesture) : Outlet := gestures.foldl send o

-- Closes all that is open, scroll before tap.
def closeAll (o : Outlet) (p : Packet) : List Gesture × Outlet :=
  let (scroll, o) := o.closeScroll p
  let (tap, o) := o.closeTap p
  (scroll ++ tap, o)

def release (o : Outlet) (p : Packet) : List Gesture × Outlet :=
  let judged := o.suppression.judge p.isConsumed (p.source = .sequenceStart)
  let (offered, o) := { o with suppression := judged }.offerAll p p.gestures
  if p.source.closesSequence then
    let (closed, o) := o.closeAll p
    (offered ++ closed, o)
  else (offered, o)

-- Releases the packet of an alarm. Suppression lags behind the touches that still wait
-- for a verdict, so it only counts when there are none.
def releaseTimeout (o : Outlet) (p : Packet) (suppressing : Bool) : List Gesture × Outlet :=
  if suppressing then o.offerAll p p.gestures else (p.gestures, o.sendAll p.gestures)

theorem openTap_closeAll (o : Outlet) (p : Packet) : (o.closeAll p).2.openTap = none := rfl

theorem openScroll_closeAll (o : Outlet) (p : Packet) : (o.closeAll p).2.openScroll = none := rfl

end Outlet

end TouchGestures.Release
