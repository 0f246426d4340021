import TouchGestures.Router.Basic

namespace TouchGestures.Router

-- Handles a touch on behalf of a consumer, before the consumer itself sees it. An
-- accepted touch awaits its verdict from now on.
def touch (r : Router) (t : Touch) (consumer : ConsumerId) :
    Except Violation (TouchResult × Router) :=
  let (key, r) := r.obtain consumer
  match r.channels[key]? with
  | none => .ok ({}, r)
  | some channel => do
    let (result, channel) ← channel.touch t
    let r := r.put key channel
    if result.accepted then
      .ok (result, { r.bind t consumer with events := r.events.insert t.id key })
    else .ok (result, r)

-- The channel that a verdict is meant for: the one that saw the touch, or else that of
-- the consumer who sends the verdict.
def awaiting? (r : Router) (id : EventId) (consumer : ConsumerId) : Option ChannelKey :=
  r.events[id]?.or r.owners[consumer]?

-- Takes in the verdict on a touch and gives the gestures that can go out by it. Nothing
-- comes of it when the channel that saw the touch is gone.
def ack (r : Router) (id : EventId) (consumed nonBlocking : Bool) (consumer : ConsumerId) :
    Except Violation (List Gesture × Router) :=
  if r.orphans.contains id then .ok ([], { r with orphans := r.orphans.erase id })
  else
    let key? := r.awaiting? id consumer
    let r := { r with events := r.events.erase id }
    match key? with
    | none => .ok ([], r)
    | some key =>
      match r.channels[key]? with
      | none => .ok ([], r)
      | some channel => do
        let channel ← channel.ack id consumed nonBlocking
        let (gestures, channel) := channel.drain
        .ok (gestures, r.put key channel)

end TouchGestures.Router
