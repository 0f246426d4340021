import TouchGestures.Router.Basic

namespace TouchGestures.Router

-- Runs a made up touch through a channel as if it had come from a device, tells the
-- consumer, and takes in its verdict at once.
def inject (r : Router) (consumer : ConsumerId) (key : ChannelKey) (t : Touch) :
    Except Violation (List Notice × Router) :=
  match r.channels[key]? with
  | none => .ok ([], r)
  | some channel => do
    let (result, channel) ← channel.touch t
    if result.accepted then
      let r := r.bind t consumer
      let channel ← channel.ack t.id (r.handles consumer t) false
      let (gestures, channel) := channel.drain
      .ok (⟨consumer, .touch t⟩ :: gestures.map fun g => ⟨consumer, .gesture g⟩,
        r.put key channel)
    else .ok ([], r.put key channel)

def injectAll (r : Router) (consumer : ConsumerId) (key : ChannelKey) :
    List Touch → Except Violation (List Notice × Router)
  | [] => .ok ([], r)
  | t :: rest => do
    let (first, r) ← r.inject consumer key t
    let (others, r) ← r.injectAll consumer key rest
    .ok (first ++ others, r)

-- Cancels the contacts that are down on a channel, and tells whether there were any.
def cancelChannel (r : Router) (now : Time) (consumer : ConsumerId) (key : ChannelKey) :
    Except Violation (Bool × List Notice × Router) :=
  match r.channels[key]? with
  | none => .ok (false, [], r)
  | some channel => do
    let (touches, ids) := channel.contacts.cancels now r.ids
    let (notices, r) ← { r with ids }.injectAll consumer key touches
    .ok (!touches.isEmpty, notices, r)

def cancel (r : Router) (now : Time) (consumer : ConsumerId) :
    Except Violation (Bool × List Notice × Router) :=
  match r.owners[consumer]? with
  | some key => r.cancelChannel now consumer key
  | none => .ok (false, [], r)

-- Cancels the contacts of several consumers, one after the other. The clock is read anew
-- for each of them.
def cancelEach (r : Router) (clock : Clock) :
    List ConsumerId → Except Violation (List Notice × Router)
  | [] => .ok ([], r)
  | consumer :: rest => do
    let (_, first, r) ← r.cancel clock.now consumer
    let (others, r) ← r.cancelEach clock.rest rest
    .ok (first ++ others, r)

def cancelExcept (r : Router) (clock : Clock) (spared : Option ConsumerId) :
    Except Violation (List Notice × Router) :=
  r.cancelEach clock (r.consumersExcept spared.toList)

end TouchGestures.Router
