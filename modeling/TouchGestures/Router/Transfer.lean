import TouchGestures.Router.Cancel

namespace TouchGestures.Router

-- What the former owner of a stream learns of a transfer: that its touches are
-- cancelled, or nothing.
inductive Transfer
  | cancelling
  | silent
  deriving DecidableEq

def forgetHistory (r : Router) (key : ChannelKey) : Router :=
  match r.channels[key]? with
  | none => r
  | some channel => r.put key channel.forgetHistory

def reassign (r : Router) (source target : ConsumerId) (key : ChannelKey) : Router :=
  let r := { r with owners := (r.owners.erase source).insert target key }
  match r.channels[key]? with
  | none => r
  | some channel => r.put key (channel.reassign target)

-- Presses a contact anew on a channel, with a number of its own.
def enter (r : Router) (now : Time) (key : ChannelKey) (contact : Contact) :
    Except Violation Router :=
  match r.channels[key]? with
  | none => .ok r
  | some channel => do
    let (id, r) := r.drawId
    let channel ← channel.enter contact now id
    .ok (r.put key channel)

-- Presses several contacts anew, each when the clock is read for it.
def enterAll (r : Router) (clock : Clock) (key : ChannelKey) :
    List Contact → Except Violation Router
  | [] => .ok r
  | contact :: rest => do
    let r ← r.enter clock.now key contact
    r.enterAll clock.rest key rest

def dropReleased (r : Router) (key : ChannelKey) : Router :=
  match r.channels[key]? with
  | none => r
  | some channel => r.put key channel.drain.2

-- Starts a channel over with the given contacts down. What it releases on the way is of
-- no interest to anyone.
def reenter (r : Router) (clock : Clock) (key : ChannelKey) (contacts : List Contact) :
    Except Violation Router := do
  let r ← (r.forgetHistory key).enterAll clock key contacts
  .ok (r.dropReleased key)

-- Destroys the channel of a consumer after cancelling its contacts.
def discard (r : Router) (now : Time) (consumer : ConsumerId) :
    Except Violation (List Notice × Router) :=
  match r.owners[consumer]? with
  | none => .ok ([], r)
  | some key => do
    let (_, notices, r) ← r.cancelChannel now consumer key
    .ok (notices, r.removeChannel key)

-- Hands the channel of one consumer to another, in place of any that one had. If the
-- former owner's touches are cancelled, the new owner continues with the same contacts
-- pressed anew.
def handOver (r : Router) (clock : Clock) (source target : ConsumerId) (key : ChannelKey)
    (transfer : Transfer) : Except Violation (List Notice × Router) := do
  let replacing := r.hasChannel target
  let (discarded, r) ← r.discard clock.now target
  let r := r.reassign source target key
  match transfer with
  | .cancelling =>
    let live := (r.channels[key]?.map (·.contacts.live)).getD []
    let (_, cancelled, r) ← r.cancelChannel clock.rest.now source key
    let r ← r.reenter clock.rest.rest key live
    .ok (discarded ++ cancelled, r)
  | .silent => .ok (discarded, if replacing then r.forgetHistory key else r)

-- Hands the touches of one consumer to another and cancels everyone else's. Nothing
-- happens when there is nothing to hand over, and then the answer is false.
def transferTouches (r : Router) (clock : Clock) (source target : ConsumerId)
    (transfer : Transfer) : Except Violation (Bool × List Notice × Router) :=
  let bound := r.boundTo source
  let key? := r.owners[source]?
  if source = target || (key?.isNone && bound.isEmpty) then .ok (false, [], r)
  else do
    let bystanders := r.consumersExcept [source, target]
    let (cancelled, r) ← r.cancelEach clock bystanders
    let (parties, r) ←
      match key? with
      | some key => r.handOver (clock.drop bystanders.length) source target key transfer
      | none =>
        .ok ([], (r.owners[target]?.map r.forgetHistory).getD r)
    .ok (true, cancelled ++ parties,
      { r with bindings := r.bindings.insertMany (bound.map fun id => (id, target)) })

-- Forgets everything about a consumer, and tells whether there was anything.
def forget (r : Router) (consumer : ConsumerId) : Bool × Router :=
  let known := r.hasChannel consumer || !(r.boundTo consumer).isEmpty
  let r :=
    match r.owners[consumer]? with
    | none => r
    | some key => { r with owners := r.owners.erase consumer }.removeChannel key
  (known, { r with bindings := r.bindings.filter fun _ bound => bound ≠ consumer })

end TouchGestures.Router
