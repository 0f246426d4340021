import Std.Data.ExtTreeMap
import Std.Data.ExtTreeSet
import TouchGestures.Router.Notice

namespace TouchGestures

-- The number of a channel. It stays with the channel when the channel changes hands, and
-- it is never used again.
abbrev ChannelKey := Nat

-- Routes touches to the channels of consumers. A verdict is matched with the channel
-- that saw the touch, whoever owns it by then; the touches of channels that are gone
-- are `orphans` until their verdict comes.
structure Router where
  settings : Settings := {}
  channels : Std.ExtTreeMap ChannelKey Channel := ∅
  owners : Std.ExtTreeMap ConsumerId ChannelKey := ∅
  bindings : Std.ExtTreeMap ContactId ConsumerId := ∅
  events : Std.ExtTreeMap EventId ChannelKey := ∅
  orphans : Std.ExtTreeSet EventId := ∅
  helpers : List (HelperId × Helper) := []
  nextKey : ChannelKey := 0
  nextHelper : HelperId := 0
  ids : EventIds := {}

namespace Router

def drawId (r : Router) : EventId × Router :=
  let (id, ids) := r.ids.fresh
  (id, { r with ids })

def channel? (r : Router) (consumer : ConsumerId) : Option Channel :=
  r.owners[consumer]?.bind fun key => r.channels[key]?

def hasChannel (r : Router) (consumer : ConsumerId) : Bool := r.owners.contains consumer

def boundConsumer? (r : Router) (id : ContactId) : Option ConsumerId := r.bindings[id]?

-- The contacts bound to a consumer, in ascending order.
def boundTo (r : Router) (consumer : ConsumerId) : List ContactId :=
  (r.bindings.toList.filter fun (_, bound) => bound = consumer).map (·.1)

-- The owners of channels other than the given consumers, in ascending order.
def consumersExcept (r : Router) (excluded : List ConsumerId) : List ConsumerId :=
  r.owners.keys.filter fun consumer => consumer ∉ excluded

-- Where the first contact is that is down on a consumer.
def lastLocation? (r : Router) (consumer : ConsumerId) : Option Point :=
  (r.channel? consumer).bind fun channel => channel.contacts.live.head?.map (·.location)

def nextDeadline (r : Router) : Option Time :=
  (r.channels.values.filterMap (·.nextDeadline)).min?

def put (r : Router) (key : ChannelKey) (channel : Channel) : Router :=
  { r with channels := r.channels.insert key channel }

-- The key of a consumer's channel. A consumer without one gets a new channel.
def obtain (r : Router) (consumer : ConsumerId) : ChannelKey × Router :=
  match r.owners[consumer]? with
  | some key => (key, r)
  | none =>
    (r.nextKey,
      { r with
        channels := r.channels.insert r.nextKey (Channel.ofSettings consumer r.settings.channel)
        owners := r.owners.insert consumer r.nextKey
        nextKey := r.nextKey + 1 })

-- The touches that a channel has seen and that await their verdict.
def eventsOf (r : Router) (key : ChannelKey) : List EventId :=
  (r.events.toList.filter fun (_, seen) => seen = key).map (·.1)

-- Destroys a channel. Its touches become orphans.
def removeChannel (r : Router) (key : ChannelKey) : Router :=
  { r with
    channels := r.channels.erase key
    events := r.events.filter fun _ seen => seen ≠ key
    orphans := r.orphans.insertMany (r.eventsOf key) }

-- Binds a contact while it is down. A release or cancel frees it from whomever it is
-- bound to.
def bind (r : Router) (t : Touch) (consumer : ConsumerId) : Router :=
  match t.kind with
  | .pressed => { r with bindings := r.bindings.insert t.contact.id consumer }
  | .moved => r
  | .released | .cancelled => { r with bindings := r.bindings.erase t.contact.id }

-- Adds a helper after those that are there.
def addHelper (r : Router) (helper : Helper) : HelperId × Router :=
  (r.nextHelper,
    { r with helpers := r.helpers ++ [(r.nextHelper, helper)], nextHelper := r.nextHelper + 1 })

def removeHelper (r : Router) (id : HelperId) : Option Helper × Router :=
  (r.helpers.lookup id, { r with helpers := r.helpers.filter fun (other, _) => other ≠ id })

-- The helper that serves a consumer. Of several the first added does.
def helperFor? (r : Router) (consumer : ConsumerId) : Option (HelperId × Helper) :=
  r.helpers.find? fun (_, helper) => helper.serves consumer

-- Whether a consumer handles a made up touch itself. One without helper does not.
def handles (r : Router) (consumer : ConsumerId) (t : Touch) : Bool :=
  match r.helperFor? consumer with
  | some (_, helper) => helper.handles consumer t
  | none => false

-- The notices that reach a helper, with that helper. The others are lost.
def deliveries (r : Router) (notices : List Notice) : List (HelperId × Notice) :=
  notices.filterMap fun notice => (r.helperFor? notice.consumer).map fun (id, _) => (id, notice)

-- Replaces the settings, also those of the channels that are there.
def configure (r : Router) (settings : Settings) : Router :=
  { r with
    settings
    channels := r.channels.map fun _ channel => channel.configure settings.channel }

end Router

end TouchGestures
