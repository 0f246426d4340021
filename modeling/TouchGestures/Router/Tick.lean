import TouchGestures.Router.Basic

namespace TouchGestures.Router

-- Lets the alarms ring that are due on some channels, one channel after the other.
def tickEach (r : Router) (now : Time) :
    List ChannelKey → Except Violation (List Notice × Router)
  | [] => .ok ([], r)
  | key :: rest =>
    match r.channels[key]? with
    | none => r.tickEach now rest
    | some channel => do
      let (gestures, channel) ← channel.tick now
      let (others, r) ← (r.put key channel).tickEach now rest
      .ok (gestures.map (fun g => ⟨channel.consumer, .gesture g⟩) ++ others, r)

def tick (r : Router) (now : Time) : Except Violation (List Notice × Router) :=
  r.tickEach now r.channels.keys

end TouchGestures.Router
