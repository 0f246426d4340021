import TouchGestures.Proofs.Outcome
import TouchGestures.Router.Tick
import TouchGestures.Router.Touch
import TouchGestures.Router.Transfer

namespace TouchGestures.Router

inductive Op
  | touch (t : Touch) (consumer : ConsumerId)
  | ack (id : EventId) (consumed nonBlocking : Bool) (consumer : ConsumerId)
  | cancel (now : Time) (consumer : ConsumerId)
  | cancelOn (clock : Clock) (consumers : List ConsumerId)
  | cancelExcept (clock : Clock) (spared : Option ConsumerId)
  | transfer (clock : Clock) (source target : ConsumerId) (transfer : Transfer)
  | forget (consumer : ConsumerId)
  | tick (now : Time)
  | configure (settings : Settings)
  | addHelper (helper : Helper)
  | removeHelper (id : HelperId)
  -- Others draw numbers from the counter.
  | setIds (ids : EventIds)

-- A notice, with the channel on whose account it is given.
structure Handout extends Notice where
  key : ChannelKey
  deriving DecidableEq

def handOut (key : ChannelKey) (notices : List Notice) : List Handout :=
  notices.map fun notice => { notice with key }

def respondent (r : Router) (id : EventId) (consumer : ConsumerId) : ChannelKey × ConsumerId :=
  let key := (r.awaiting? id consumer).getD 0
  (key, (r.channels[key]?.map (·.consumer)).getD consumer)

-- What the host learns of an operation, and the router afterwards. The gestures that a
-- verdict lets out are for the owner of the channel.
def perform (r : Router) : Op → Except Violation (List Notice × Router)
  | .touch t consumer => (r.touch t consumer).map fun (_, r) => ([], r)
  | .ack id consumed nonBlocking consumer =>
    (r.ack id consumed nonBlocking consumer).map fun (gestures, after) =>
      (gestures.map fun g => ⟨(r.respondent id consumer).2, .gesture g⟩, after)
  | .cancel now consumer => (r.cancel now consumer).map fun (_, result) => result
  | .cancelOn clock consumers => r.cancelEach clock consumers
  | .cancelExcept clock spared => r.cancelExcept clock spared
  | .transfer clock source target transfer =>
    (r.transferTouches clock source target transfer).map fun (_, result) => result
  | .forget consumer => .ok ([], (r.forget consumer).2)
  | .tick now => r.tick now
  | .configure settings => .ok ([], r.configure settings)
  | .addHelper helper => .ok ([], (r.addHelper helper).2)
  | .removeHelper id => .ok ([], (r.removeHelper id).2)
  | .setIds ids => .ok ([], { r with ids })

-- The steps of which operations consist. Each concerns no more than one channel, except
-- that the settings reach all and that a channel may displace another.
inductive Act
  | touch (t : Touch) (consumer : ConsumerId)
  | ack (id : EventId) (consumed nonBlocking : Bool) (consumer : ConsumerId)
  | cancelChannel (now : Time) (consumer : ConsumerId) (key : ChannelKey)
  | reenter (clock : Clock) (key : ChannelKey) (contacts : List Contact)
  | tick (now : Time) (key : ChannelKey)
  | forgetHistory (key : ChannelKey)
  | reassign (source target : ConsumerId) (key : ChannelKey)
  | rebind (contacts : List ContactId) (target : ConsumerId)
  | forget (consumer : ConsumerId)
  | configure (settings : Settings)
  | addHelper (helper : Helper)
  | removeHelper (id : HelperId)
  | setIds (ids : EventIds)

-- Gives a channel to a consumer, in place of any that one had.
def displace (r : Router) (source target : ConsumerId) (key : ChannelKey) : Router :=
  match r.owners[target]? with
  | none => r.reassign source target key
  | some displaced => (r.removeChannel displaced).reassign source target key

def act (r : Router) : Act → Except Violation (List Handout × Router)
  | .touch t consumer => (r.touch t consumer).map fun (_, r) => ([], r)
  | .ack id consumed nonBlocking consumer =>
    (r.ack id consumed nonBlocking consumer).map fun (gestures, after) =>
      (handOut (r.respondent id consumer).1
        (gestures.map fun g => ⟨(r.respondent id consumer).2, .gesture g⟩), after)
  | .cancelChannel now consumer key =>
    (r.cancelChannel now consumer key).map fun (_, notices, r) => (handOut key notices, r)
  | .reenter clock key contacts => (r.reenter clock key contacts).map fun r => ([], r)
  | .tick now key =>
    match r.channels[key]? with
    | none => .ok ([], r)
    | some channel =>
      (channel.tick now).map fun (gestures, channel) =>
        (handOut key (gestures.map fun g => ⟨channel.consumer, .gesture g⟩), r.put key channel)
  | .forgetHistory key => .ok ([], r.forgetHistory key)
  | .reassign source target key => .ok ([], r.displace source target key)
  | .rebind contacts target =>
    .ok ([], { r with bindings := r.bindings.insertMany (contacts.map fun id => (id, target)) })
  | .forget consumer => .ok ([], (r.forget consumer).2)
  | .configure settings => .ok ([], r.configure settings)
  | .addHelper helper => .ok ([], (r.addHelper helper).2)
  | .removeHelper id => .ok ([], (r.removeHelper id).2)
  | .setIds ids => .ok ([], { r with ids })

def play (r : Router) : List Act → Except Violation (List Handout × Router)
  | [] => .ok ([], r)
  | a :: rest => do
    let (first, r) ← r.act a
    let (others, r) ← r.play rest
    .ok (first ++ others, r)

def after (r : Router) (acts : List Act) : Router :=
  match r.play acts with
  | .ok (_, r) => r
  | .error _ => r

def cancelActs (r : Router) (now : Time) (consumer : ConsumerId) : List Act :=
  match r.owners[consumer]? with
  | some key => [.cancelChannel now consumer key]
  | none => []

def cancelEachActs (r : Router) (clock : Clock) : List ConsumerId → List Act
  | [] => []
  | consumer :: rest =>
    let first := r.cancelActs clock.now consumer
    first ++ (r.after first).cancelEachActs clock.rest rest

-- What becomes of the source's channel once it has changed hands.
def settleActs (r : Router) (clock : Clock) (source : ConsumerId) (key : ChannelKey)
    (replacing : Bool) : Transfer → List Act
  | .cancelling =>
    let live := (r.channels[key]?.map (·.contacts.live)).getD []
    [.cancelChannel clock.now source key, .reenter clock.rest key live]
  | .silent => if replacing then [.forgetHistory key] else []

def handOverActs (r : Router) (clock : Clock) (source target : ConsumerId) (key : ChannelKey)
    (transfer : Transfer) : List Act :=
  let moving := r.cancelActs clock.now target ++ [.reassign source target key]
  moving ++ (r.after moving).settleActs clock.rest source key (r.hasChannel target) transfer

def transferActs (r : Router) (clock : Clock) (source target : ConsumerId)
    (transfer : Transfer) : List Act :=
  let bound := r.boundTo source
  let key? := r.owners[source]?
  if source = target || (key?.isNone && bound.isEmpty) then []
  else
    let bystanders := r.consumersExcept [source, target]
    let cancelled := r.cancelEachActs clock bystanders
    let r := r.after cancelled
    let parties :=
      match key? with
      | some key => r.handOverActs (clock.drop bystanders.length) source target key transfer
      | none => (r.owners[target]?.map .forgetHistory).toList
    cancelled ++ parties ++ [.rebind bound target]

def acts (r : Router) : Op → List Act
  | .touch t consumer => [.touch t consumer]
  | .ack id consumed nonBlocking consumer => [.ack id consumed nonBlocking consumer]
  | .cancel now consumer => r.cancelActs now consumer
  | .cancelOn clock consumers => r.cancelEachActs clock consumers
  | .cancelExcept clock spared => r.cancelEachActs clock (r.consumersExcept spared.toList)
  | .transfer clock source target transfer => r.transferActs clock source target transfer
  | .forget consumer => [.forget consumer]
  | .tick now => r.channels.keys.map (.tick now)
  | .configure settings => [.configure settings]
  | .addHelper helper => [.addHelper helper]
  | .removeHelper id => [.removeHelper id]
  | .setIds ids => [.setIds ids]

section Frame

variable {r r' : Router} {consumer : ConsumerId} {key : ChannelKey} {now : Time}

-- A made up touch concerns nothing but channels and bindings.
theorem inject_frame {t : Touch} {notices : List Notice}
    (h : r.inject consumer key t = .ok (notices, r')) :
    ∃ channels bindings, r' = { r with channels, bindings } := by
  unfold inject at h
  split at h
  · cases h
    exact ⟨_, _, rfl⟩
  · obtain ⟨⟨result, channel⟩, -, h⟩ := bind_eq_ok.mp h
    dsimp only at h
    split at h
    · obtain ⟨acked, -, h⟩ := bind_eq_ok.mp h
      cases h
      unfold put bind
      split <;> exact ⟨_, _, rfl⟩
    · cases h
      exact ⟨_, _, rfl⟩

theorem injectAll_frame {touches : List Touch} {notices : List Notice}
    (h : r.injectAll consumer key touches = .ok (notices, r')) :
    ∃ channels bindings, r' = { r with channels, bindings } := by
  induction touches generalizing r notices with
  | nil =>
    cases h
    exact ⟨_, _, rfl⟩
  | cons t rest ih =>
    obtain ⟨⟨first, r₁⟩, hfirst, h⟩ := bind_eq_ok.mp h
    obtain ⟨⟨others, r₂⟩, hothers, h⟩ := bind_eq_ok.mp h
    cases h
    obtain ⟨channels, bindings, rfl⟩ := inject_frame hfirst
    obtain ⟨channels', bindings', rfl⟩ := ih hothers
    exact ⟨channels', bindings', rfl⟩

theorem cancelChannel_frame {result : Bool × List Notice × Router}
    (h : r.cancelChannel now consumer key = .ok result) :
    ∃ channels bindings ids, result.2.2 = { r with channels, bindings, ids } := by
  unfold cancelChannel at h
  split at h
  · cases h
    exact ⟨_, _, _, rfl⟩
  · obtain ⟨⟨notices, r₁⟩, hinject, h⟩ := bind_eq_ok.mp h
    cases h
    obtain ⟨channels, bindings, hr⟩ := injectAll_frame hinject
    exact ⟨channels, bindings, _, hr⟩

-- When a channel changes hands, bindings stay as they are.
theorem displace_frame (r : Router) (source target : ConsumerId) (key : ChannelKey) :
    ∃ channels owners events orphans,
      r.displace source target key = { r with channels, owners, events, orphans } := by
  have hreassign : ∀ r : Router, ∃ channels owners,
      r.reassign source target key = { r with channels, owners } := by
    intro r
    unfold reassign
    simp only []
    split <;> exact ⟨_, _, rfl⟩
  unfold displace
  split
  · obtain ⟨channels, owners, hr⟩ := hreassign r
    exact ⟨channels, owners, _, _, hr⟩
  · next displaced _ =>
    obtain ⟨channels, owners, hr⟩ := hreassign (r.removeChannel displaced)
    exact ⟨channels, owners, _, _, hr⟩

end Frame

section Perform

variable {r : Router}

def told (r : Router) (acts : List Act) : Except Violation (List Notice × Router) :=
  (r.play acts).map fun (handouts, r) => (handouts.map (·.toNotice), r)

theorem map_toNotice_handOut (key : ChannelKey) (notices : List Notice) :
    (handOut key notices).map (·.toNotice) = notices := by
  simp [handOut, Function.comp_def]

theorem told_nil (r : Router) : r.told [] = .ok ([], r) := rfl

theorem play_cons (a : Act) (rest : List Act) :
    r.play (a :: rest) =
      r.act a >>= fun first => (first.2.play rest).map fun others =>
        (first.1 ++ others.1, others.2) := rfl

theorem play_append_eq_ok {r' : Router} {first second : List Act} {handouts : List Handout}
    (h : r.play (first ++ second) = .ok (handouts, r')) :
    ∃ earlier between later, r.play first = .ok (earlier, between) ∧
      between.play second = .ok (later, r') ∧ handouts = earlier ++ later := by
  induction first generalizing r handouts with
  | nil => exact ⟨[], r, handouts, rfl, h, rfl⟩
  | cons a rest ih =>
    rw [List.cons_append, play_cons] at h
    obtain ⟨⟨given, r₁⟩, hact, h⟩ := bind_eq_ok.mp h
    obtain ⟨⟨others, r₂⟩, hothers, heq⟩ := map_eq_ok.mp h
    cases heq
    obtain ⟨earlier, between, later, hfirst, hsecond, rfl⟩ := ih hothers
    refine ⟨given ++ earlier, between, later, ?_, hsecond, (List.append_assoc _ _ _).symm⟩
    rw [play_cons, hact, ok_bind, hfirst, ok_map]

theorem told_cons (a : Act) (rest : List Act) :
    r.told (a :: rest) =
      r.act a >>= fun first => (first.2.told rest).map fun others =>
        (first.1.map (·.toNotice) ++ others.1, others.2) := by
  rw [told, play_cons]
  cases r.act a with
  | error violation => rfl
  | ok first =>
    simp only [ok_bind, told]
    cases first.2.play rest <;> simp

theorem told_append (first second : List Act) :
    r.told (first ++ second) =
      r.told first >>= fun earlier => (earlier.2.told second).map fun later =>
        (earlier.1 ++ later.1, later.2) := by
  induction first generalizing r with
  | nil =>
    rw [List.nil_append, told_nil, ok_bind]
    cases r.told second <;> simp
  | cons a rest ih =>
    rw [List.cons_append, told_cons, told_cons]
    cases r.act a with
    | error violation => rfl
    | ok first =>
      simp only [ok_bind, ih]
      cases first.2.told rest with
      | error violation => rfl
      | ok others =>
        simp only [ok_bind, ok_map]
        cases others.2.told second <;> simp

theorem after_of_told {acts : List Act} {notices : List Notice} {r' : Router}
    (h : r.told acts = .ok (notices, r')) : r.after acts = r' := by
  obtain ⟨⟨handouts, r₁⟩, hplay, heq⟩ := map_eq_ok.mp h
  cases heq
  simp [after, hplay]

-- Steps that depend on the router which the first ones lead to.
theorem told_append_after (first : List Act) (more : Router → List Act) :
    r.told (first ++ more (r.after first)) =
      r.told first >>= fun earlier => (earlier.2.told (more earlier.2)).map fun later =>
        (earlier.1 ++ later.1, later.2) := by
  rw [told_append]
  cases hfirst : r.told first with
  | error violation => rfl
  | ok result => simp only [ok_bind, after_of_told hfirst]

theorem told_cancelActs (now : Time) (consumer : ConsumerId) :
    r.told (r.cancelActs now consumer) = (r.cancel now consumer).map fun result => result.2 := by
  unfold cancelActs cancel
  cases r.owners[consumer]? with
  | none => rfl
  | some key =>
    simp only [told_cons, told_nil, act]
    cases r.cancelChannel now consumer key <;> simp [map_toNotice_handOut]

theorem told_cancelEachActs (clock : Clock) (consumers : List ConsumerId) :
    r.told (r.cancelEachActs clock consumers) = r.cancelEach clock consumers := by
  induction consumers generalizing r clock with
  | nil => rfl
  | cons consumer rest ih =>
    unfold cancelEachActs cancelEach
    rw [told_append_after _ fun r => r.cancelEachActs clock.rest rest, told_cancelActs]
    cases r.cancel clock.now consumer with
    | error violation => rfl
    | ok result =>
      simp only [ok_map, ok_bind, ih]
      cases result.2.2.cancelEach clock.rest rest <;> simp

theorem told_tickActs (now : Time) (keys : List ChannelKey) :
    r.told (keys.map (.tick now)) = r.tickEach now keys := by
  induction keys generalizing r with
  | nil => rfl
  | cons key rest ih =>
    rw [List.map_cons, told_cons]
    cases hchannel : r.channels[key]? with
    | none =>
      simp only [tickEach, act, hchannel, ok_bind, ih]
      cases r.tickEach now rest <;> simp
    | some channel =>
      cases hticked : channel.tick now with
      | error violation => simp [tickEach, act, hchannel, hticked]
      | ok result =>
        simp only [tickEach, act, hchannel, hticked, ok_map, ok_bind, ih, map_toNotice_handOut]
        cases (r.put key result.2).tickEach now rest <;> simp

theorem told_moving (now : Time) (source target : ConsumerId) (key : ChannelKey) :
    r.told (r.cancelActs now target ++ [.reassign source target key]) =
      (r.discard now target).map fun result => (result.1, result.2.reassign source target key) := by
  unfold cancelActs discard
  cases howner : r.owners[target]? with
  | none => simp [told_cons, told_nil, act, displace, howner]
  | some displaced =>
    simp only [List.singleton_append, told_cons, told_nil, act]
    cases hcancel : r.cancelChannel now target displaced with
    | error violation => simp
    | ok result =>
      obtain ⟨channels, bindings, ids, hr⟩ := cancelChannel_frame hcancel
      have howner' : result.2.2.owners[target]? = some displaced := by rw [hr]; exact howner
      simp [displace, howner', map_toNotice_handOut]

theorem told_settleActs (clock : Clock) (source : ConsumerId) (key : ChannelKey)
    (replacing : Bool) (transfer : Transfer) :
    r.told (r.settleActs clock source key replacing transfer) =
      match transfer with
      | .cancelling =>
        (r.cancelChannel clock.now source key) >>= fun cancelled =>
          (cancelled.2.2.reenter clock.rest key
            ((r.channels[key]?.map (·.contacts.live)).getD [])).map fun r => (cancelled.2.1, r)
      | .silent => .ok ([], if replacing then r.forgetHistory key else r) := by
  cases transfer with
  | cancelling =>
    simp only [settleActs, told_cons, told_nil, act]
    cases r.cancelChannel clock.now source key with
    | error violation => rfl
    | ok cancelled =>
      simp only [ok_map, ok_bind, map_toNotice_handOut]
      cases cancelled.2.2.reenter clock.rest key
        ((r.channels[key]?.map (·.contacts.live)).getD []) <;> simp
  | silent => cases replacing <;> simp [settleActs, told_cons, told_nil, act]

-- The channel is cancelled, started over or made to forget.
theorem eq_of_mem_settleActs {clock : Clock} {source : ConsumerId} {key : ChannelKey}
    {replacing : Bool} {transfer : Transfer} {a : Act}
    (ha : a ∈ r.settleActs clock source key replacing transfer) :
    a = .cancelChannel clock.now source key ∨ (∃ live, a = .reenter clock.rest key live) ∨
      a = .forgetHistory key := by
  cases transfer with
  | cancelling =>
    obtain rfl | rfl : a = .cancelChannel clock.now source key ∨
        a = .reenter clock.rest key _ := by
      simpa [settleActs] using ha
    · exact .inl rfl
    · exact .inr (.inl ⟨_, rfl⟩)
  | silent =>
    obtain ⟨-, rfl⟩ : replacing = true ∧ a = .forgetHistory key := by
      simpa [settleActs] using ha
    exact .inr (.inr rfl)

theorem told_handOverActs (clock : Clock) (source target : ConsumerId) (key : ChannelKey)
    (transfer : Transfer) :
    r.told (r.handOverActs clock source target key transfer) =
      r.handOver clock source target key transfer := by
  unfold handOverActs handOver
  rw [told_append_after _ fun r' =>
    r'.settleActs clock.rest source key (r.hasChannel target) transfer, told_moving]
  cases r.discard clock.now target with
  | error violation => rfl
  | ok discarded =>
    simp only [ok_map, ok_bind, told_settleActs]
    cases transfer with
    | silent => simp
    | cancelling =>
      simp only []
      cases (discarded.2.reassign source target key).cancelChannel clock.rest.now source key with
      | error violation => rfl
      | ok cancelled =>
        simp only [ok_bind]
        cases cancelled.2.2.reenter clock.rest.rest key _ <;> simp

theorem told_transferActs (clock : Clock) (source target : ConsumerId) (transfer : Transfer) :
    r.told (r.transferActs clock source target transfer) =
      (r.transferTouches clock source target transfer).map fun result => result.2 := by
  unfold transferActs transferTouches
  simp only []
  split
  · rfl
  · rw [List.append_assoc, told_append_after _ fun r' =>
      (match r.owners[source]? with
        | some key => r'.handOverActs
          (clock.drop (r.consumersExcept [source, target]).length) source target key transfer
        | none => (r'.owners[target]?.map Act.forgetHistory).toList) ++
          [Act.rebind (r.boundTo source) target], told_cancelEachActs]
    cases r.cancelEach clock (r.consumersExcept [source, target]) with
    | error violation => rfl
    | ok bystanders =>
      simp only [ok_bind, told_append]
      cases r.owners[source]? with
      | some key =>
        simp only [told_handOverActs]
        cases bystanders.2.handOver _ source target key transfer with
        | error violation => rfl
        | ok parties => simp [told_cons, told_nil, act]
      | none => cases bystanders.2.owners[target]? <;> simp [told_cons, told_nil, act]

-- An operation is nothing but its steps.
theorem perform_eq_told (op : Op) : r.perform op = r.told (r.acts op) := by
  cases op with
  | touch t consumer =>
    simp only [perform, acts, told_cons, told_nil, act]
    cases r.touch t consumer <;> simp
  | ack id consumed nonBlocking consumer =>
    simp only [perform, acts, told_cons, told_nil, act]
    cases r.ack id consumed nonBlocking consumer <;> simp [map_toNotice_handOut]
  | cancel now consumer => exact (told_cancelActs now consumer).symm
  | cancelOn clock consumers => exact (told_cancelEachActs clock consumers).symm
  | cancelExcept clock spared => exact (told_cancelEachActs clock _).symm
  | transfer clock source target transfer =>
    exact (told_transferActs clock source target transfer).symm
  | tick now => exact (told_tickActs now _).symm
  | forget consumer => rfl
  | configure settings => rfl
  | addHelper helper => rfl
  | removeHelper id => rfl
  | setIds ids => rfl

end Perform

end TouchGestures.Router
