import TouchGestures.Proofs.Router.Session
import TouchGestures.Router.Lemmas

namespace TouchGestures

open Channel (Chronicle Lived)

def gesturesIn (notices : List Notice) : List Gesture :=
  notices.filterMap fun notice =>
    match notice.message with
    | .gesture g => some g
    | .touch _ => none

@[simp] theorem gesturesIn_nil : gesturesIn [] = [] := rfl

@[simp] theorem gesturesIn_append (first second : List Notice) :
    gesturesIn (first ++ second) = gesturesIn first ++ gesturesIn second := by
  simp [gesturesIn]

@[simp] theorem gesturesIn_touch_cons (consumer : ConsumerId) (t : Touch) (rest : List Notice) :
    gesturesIn (⟨consumer, .touch t⟩ :: rest) = gesturesIn rest := rfl

@[simp] theorem gesturesIn_map_gesture (consumer : ConsumerId) (gestures : List Gesture) :
    gesturesIn (gestures.map fun g => ⟨consumer, .gesture g⟩) = gestures := by
  unfold gesturesIn
  rw [List.filterMap_map]
  exact List.filterMap_some

namespace Router

variable {r r' : Router} {books : Books} {key : ChannelKey} {k : Chronicle}
  {consumer : ConsumerId} {notices : List Notice}

theorem touch_cases {t : Touch} {result : TouchResult} (h : r.touch t consumer = .ok (result, r')) :
    ((r.obtain consumer).2.channels[(r.obtain consumer).1]? = none ∧ result = {} ∧
      r' = (r.obtain consumer).2) ∨
    ∃ channel channel', (r.obtain consumer).2.channels[(r.obtain consumer).1]? = some channel ∧
      channel.touch t = .ok (result, channel') ∧
      r' = if result.accepted then
          { ((r.obtain consumer).2.put (r.obtain consumer).1 channel').bind t consumer with
            events := (r.obtain consumer).2.events.insert t.id (r.obtain consumer).1 }
        else (r.obtain consumer).2.put (r.obtain consumer).1 channel' := by
  unfold touch at h
  simp only [] at h
  split at h
  · next hnone =>
    cases h
    exact .inl ⟨hnone, rfl, rfl⟩
  · next channel hchannel =>
    obtain ⟨⟨result', channel'⟩, htouch, h⟩ := bind_eq_ok.mp h
    refine .inr ⟨channel, channel', hchannel, ?_⟩
    dsimp only at h
    split at h <;> cases h
    · next haccepted => exact ⟨htouch, by rw [if_pos haccepted]; rfl⟩
    · next haccepted => exact ⟨htouch, by rw [if_neg haccepted]⟩

theorem bind_frame (r : Router) (t : Touch) (consumer : ConsumerId) :
    ∃ bindings, r.bind t consumer = { r with bindings } := by
  unfold bind
  split <;> exact ⟨_, rfl⟩

-- Apart from the channel a touch concerns nothing but bindings and events.
theorem touch_frame {t : Touch} {accepted : Bool} {channel' : Channel}
    {seen : Std.ExtTreeMap EventId ChannelKey}
    (h : r' = if accepted then { (r.put key channel').bind t consumer with events := seen }
      else r.put key channel') :
    ∃ bindings events, r' = { r.put key channel' with bindings, events } := by
  rw [h]
  split
  · obtain ⟨bindings, hbind⟩ := bind_frame (r.put key channel') t consumer
    rw [hbind]
    exact ⟨_, _, rfl⟩
  · exact ⟨_, _, rfl⟩

theorem ack_cases {id : EventId} {consumed nonBlocking : Bool} {gestures : List Gesture}
    (h : r.ack id consumed nonBlocking consumer = .ok (gestures, r')) :
    (id ∈ r.orphans ∧ gestures = [] ∧ r' = { r with orphans := r.orphans.erase id }) ∨
    (id ∉ r.orphans ∧
      (∀ key, r.awaiting? id consumer = some key → r.channels[key]? = none) ∧ gestures = [] ∧
      r' = { r with events := r.events.erase id }) ∨
    ∃ key channel channel', id ∉ r.orphans ∧ r.awaiting? id consumer = some key ∧
      r.channels[key]? = some channel ∧ channel.ack id consumed nonBlocking = .ok channel' ∧
      gestures = channel'.released ∧
      r' = { r with events := r.events.erase id }.put key channel'.drain.2 := by
  unfold ack at h
  split at h
  · next horphan =>
    cases h
    exact .inl ⟨by simpa using horphan, rfl, rfl⟩
  · next horphan =>
    have horphan : id ∉ r.orphans := by simpa using horphan
    right
    simp only [] at h
    split at h
    · next hnone =>
      cases h
      exact .inl ⟨horphan, by simp [hnone], rfl, rfl⟩
    · next key hkey =>
      split at h
      · next hchannel =>
        cases h
        refine .inl ⟨horphan, fun other hother => ?_, rfl, rfl⟩
        rw [hkey] at hother
        cases hother
        exact hchannel
      · next channel hchannel =>
        obtain ⟨channel', hack, h⟩ := bind_eq_ok.mp h
        cases h
        exact .inr ⟨key, channel, channel', horphan, hkey, hchannel, hack, rfl, rfl⟩

theorem mem_channels_iff :
    key ∈ r.channels ↔ ∃ channel, r.channels[key]? = some channel := by
  rw [Std.ExtTreeMap.mem_iff_isSome_getElem?, Option.isSome_iff_exists]

-- A channel is there as its record says, and nobody has to take gestures from it.
structure Accounts (r : Router) (key : ChannelKey) (k : Chronicle) : Prop where
  live : r.channels[key]? = some k.channel
  taken : k.channel.released = []
  lived : Lived (fun _ => True) k

theorem Accounts.channel_eq {channel : Channel} (h : r.Accounts key k)
    (hlive : r.channels[key]? = some channel) : channel = k.channel := by
  rw [h.live] at hlive
  exact (Option.some.inj hlive).symm

theorem Accounts.forgotten (h : r.Accounts key k) :
    (r.forgetHistory key).channels[key]? = some (k.next .forgetHistory).channel := by
  rw [Chronicle.next_of_step (k := k) (e := .forgetHistory) rfl]
  simp [forgetHistory, h.live, getElem?_channels_put]

-- What a step on one channel does to it and to the others, and what the channel gives.
structure Continues (r r' : Router) (key : ChannelKey) (k k' : Chronicle)
    (notices : List Notice) : Prop where
  accounts : r'.Accounts key k'
  released : k'.released = k.released ++ gesturesIn notices
  others : ∀ other, other ≠ key → r'.channels[other]? = r.channels[other]?

theorem getElem?_channels_bind (t : Touch) (other : ChannelKey) :
    (r.bind t consumer).channels[other]? = r.channels[other]? := by
  obtain ⟨bindings, hbind⟩ := bind_frame r t consumer
  rw [hbind]

theorem inject_continues {t : Touch} (h : r.Accounts key k)
    (hr : r.inject consumer key t = .ok (notices, r')) :
    r.Continues r' key k (k.inject (r.handles consumer) t) notices := by
  have hlived := h.lived.inject (r.handles consumer) t
  unfold inject at hr
  simp only [h.live] at hr
  obtain ⟨⟨result, channel⟩, htouch, hr⟩ := bind_eq_ok.mp hr
  obtain ⟨hchannel, hreleased, hrecord⟩ := Chronicle.next_of_touch h.lived.sound htouch
  dsimp only at hr
  split at hr
  · next haccepted =>
    obtain ⟨acked, hack, hr⟩ := bind_eq_ok.mp hr
    rw [h.taken] at hreleased
    cases hr
    have hhandles : (r.bind t consumer).handles consumer t = r.handles consumer t := by
      obtain ⟨bindings, hbind⟩ := bind_frame r t consumer
      rw [hbind]
      rfl
    rw [hhandles] at hack
    have hinject : k.inject (r.handles consumer) t =
        (((k.next (.touch t)).next (.ack t.id (r.handles consumer t) false))).next .drain := by
      simp [Chronicle.inject, Chronicle.answer, Chronicle.accepts, htouch, haccepted]
    obtain ⟨hacked, hgiven⟩ := Chronicle.next_of_ack (k := k.next (.touch t))
      (hchannel ▸ hack)
    rw [hchannel, hreleased, List.length_nil, List.drop_zero] at hgiven
    obtain ⟨hdrained, hkept⟩ := Chronicle.next_drain
      ((k.next (.touch t)).next (.ack t.id (r.handles consumer t) false))
    rw [hacked] at hdrained
    rw [hinject] at hlived ⊢
    refine ⟨⟨?_, by rw [hdrained]; rfl, hlived⟩, ?_, fun other hother => ?_⟩
    · rw [hdrained, getElem?_channels_put, if_pos rfl]
    · rw [hkept, hgiven, hrecord]
      simp [Channel.drain]
    · rw [getElem?_channels_put, if_neg (Ne.symm hother), getElem?_channels_bind]
  · next haccepted =>
    cases hr
    have hinject : k.inject (r.handles consumer) t = k.next (.touch t) := by
      simp [Chronicle.inject, Chronicle.answer, Chronicle.accepts, htouch, haccepted]
    rw [hinject] at hlived ⊢
    refine ⟨⟨?_, by rw [hchannel, hreleased, h.taken], hlived⟩, ?_, fun other hother => ?_⟩
    · rw [hchannel, getElem?_channels_put, if_pos rfl]
    · simp [hrecord]
    · rw [getElem?_channels_put, if_neg (Ne.symm hother)]

theorem injectAll_continues {touches : List Touch} (h : r.Accounts key k)
    (hr : r.injectAll consumer key touches = .ok (notices, r')) :
    r.Continues r' key k (touches.foldl (·.inject (r.handles consumer)) k) notices := by
  induction touches generalizing r k notices with
  | nil =>
    cases hr
    exact ⟨h, by simp, fun _ _ => rfl⟩
  | cons t rest ih =>
    obtain ⟨⟨first, r₁⟩, hfirst, hr⟩ := bind_eq_ok.mp hr
    obtain ⟨⟨others, r₂⟩, hothers, hr⟩ := bind_eq_ok.mp hr
    cases hr
    have hstep := inject_continues h hfirst
    have hrest := ih hstep.accounts hothers
    have hhandles : r₁.handles consumer = r.handles consumer := by
      obtain ⟨channels, bindings, rfl⟩ := inject_frame hfirst
      rfl
    rw [hhandles] at hrest
    refine ⟨hrest.accounts, ?_, fun other hother => ?_⟩
    · rw [List.foldl_cons, hrest.released, hstep.released, gesturesIn_append, List.append_assoc]
    · rw [hrest.others other hother, hstep.others other hother]

theorem cancelChannel_continues {now : Time} {result : Bool × List Notice × Router}
    (h : r.Accounts key k) (hr : r.cancelChannel now consumer key = .ok result) :
    r.Continues result.2.2 key k
      ((k.channel.contacts.cancels now r.ids).1.foldl (·.inject (r.handles consumer)) k)
      result.2.1 := by
  unfold cancelChannel at hr
  simp only [h.live] at hr
  obtain ⟨⟨notices, r₁⟩, hinject, hr⟩ := bind_eq_ok.mp hr
  cases hr
  have hsame : { r with ids := (k.channel.contacts.cancels now r.ids).2 }.Accounts key k :=
    ⟨h.live, h.taken, h.lived⟩
  have hcontinues := injectAll_continues hsame hinject
  exact ⟨hcontinues.accounts, hcontinues.released, hcontinues.others⟩

theorem channel_answer {t : Touch} {consumed : Bool} {result : TouchResult}
    {channel channel' : Channel} (hlived : Lived (fun _ => True) k)
    (htouch : k.channel.touch t = .ok (result, channel))
    (hack : (if result.accepted then channel.ack t.id consumed false else .ok channel) =
      .ok channel') :
    (k.answer t consumed).channel = channel' := by
  obtain ⟨hchannel, -, -⟩ := Chronicle.next_of_touch hlived.sound htouch
  split at hack
  · next haccepted =>
    obtain ⟨hacked, -⟩ := Chronicle.next_of_ack (k := k.next (.touch t)) (hchannel ▸ hack)
    simpa [Chronicle.answer, Chronicle.accepts, htouch, haccepted] using hacked
  · next haccepted =>
    cases hack
    simpa [Chronicle.answer, Chronicle.accepts, htouch, haccepted] using hchannel

theorem enterAll_continues {clock : Clock} {contacts : List Contact}
    (hlive : r.channels[key]? = some k.channel) (hlived : Lived (fun _ => True) k)
    (hr : r.enterAll clock key contacts = .ok r') :
    r'.channels[key]? = some ((synthesizeAll .pressed clock contacts r.ids).1.foldl
        (fun k t => k.answer t true) k).channel ∧
      ∀ other, other ≠ key → r'.channels[other]? = r.channels[other]? := by
  induction contacts generalizing r k clock with
  | nil =>
    cases hr
    exact ⟨hlive, fun _ _ => rfl⟩
  | cons contact rest ih =>
    obtain ⟨r₁, hfirst, hrest⟩ := bind_eq_ok.mp hr
    unfold enter at hfirst
    simp only [hlive] at hfirst
    obtain ⟨channel, henter, hfirst⟩ := bind_eq_ok.mp hfirst
    cases hfirst
    obtain ⟨⟨result, touched⟩, htouch, hack⟩ := bind_eq_ok.mp henter
    have hanswer : (k.answer (contact.synthesize .pressed clock.now r.ids.fresh.1) true).channel =
        channel := channel_answer hlived htouch hack
    have hlive' : (r.drawId.2.put key channel).channels[key]? =
        some (k.answer (contact.synthesize .pressed clock.now r.ids.fresh.1) true).channel := by
      rw [hanswer, getElem?_channels_put, if_pos rfl]
    obtain ⟨hfinal, hothers⟩ := ih hlive' (hlived.answer _ _) hrest
    refine ⟨hfinal, fun other hother => ?_⟩
    rw [hothers other hother, getElem?_channels_put, if_neg (Ne.symm hother)]
    rfl

theorem reenter_continues {clock : Clock} {contacts : List Contact} (h : r.Accounts key k)
    (hr : r.reenter clock key contacts = .ok r') :
    r'.Accounts key (k.reenter (synthesizeAll .pressed clock contacts r.ids).1) ∧
      ∀ other, other ≠ key → r'.channels[other]? = r.channels[other]? := by
  obtain ⟨r₁, henter, hr⟩ := bind_eq_ok.mp hr
  cases hr
  have hids : (r.forgetHistory key).ids = r.ids := by
    unfold forgetHistory
    split <;> rfl
  obtain ⟨hlive, hothers⟩ := enterAll_continues h.forgotten (h.lived.next _) henter
  rw [hids] at hlive
  have hlived := h.lived.reenter (synthesizeAll .pressed clock contacts r.ids).1
  obtain ⟨hdrained, -⟩ := Chronicle.next_drain
    ((synthesizeAll .pressed clock contacts r.ids).1.foldl (fun k t => k.answer t true)
      (k.next .forgetHistory))
  refine ⟨⟨?_, ?_, hlived⟩, fun other hother => ?_⟩
  · rw [dropReleased, hlive]
    simp only []
    rw [getElem?_channels_put, if_pos rfl, ← hdrained]
    rfl
  · rw [Chronicle.reenter, hdrained]
    rfl
  · rw [dropReleased, hlive]
    simp only []
    rw [getElem?_channels_put, if_neg (Ne.symm hother), hothers other hother, forgetHistory, h.live]
    simp only []
    rw [getElem?_channels_put, if_neg (Ne.symm hother)]

theorem tick_continues {now : Time} {gestures : List Gesture} {channel : Channel}
    (h : r.Accounts key k) (htick : k.channel.tick now = .ok (gestures, channel)) :
    r.Continues (r.put key channel) key k (k.next (.tick now))
      (gestures.map fun g => ⟨channel.consumer, .gesture g⟩) := by
  obtain ⟨hchannel, hreleased, hrecord⟩ := Chronicle.next_of_tick htick
  refine ⟨⟨?_, ?_, h.lived.next _⟩, ?_, fun other hother => ?_⟩
  · rw [hchannel, getElem?_channels_put, if_pos rfl]
  · rw [hchannel, hreleased, h.taken]
  · rw [hrecord, gesturesIn_map_gesture]
  · rw [getElem?_channels_put, if_neg (Ne.symm hother)]

-- An event that releases nothing and leaves alone what was released.
theorem quiet_continues {e : Channel.Event} {channel : Channel} (h : r.Accounts key k)
    (hstep : k.channel.step e = .ok ([], channel)) (hreleased : channel.released = k.channel.released) :
    r.Continues (r.put key channel) key k (k.next e) [] := by
  have hnext := Chronicle.next_of_step hstep
  refine ⟨⟨?_, ?_, h.lived.next _⟩, ?_, fun other hother => ?_⟩
  · rw [hnext, getElem?_channels_put, if_pos rfl]
  · rw [hnext, hreleased, h.taken]
  · simp [hnext]
  · rw [getElem?_channels_put, if_neg (Ne.symm hother)]

theorem ack_continues (consumer : ConsumerId) {id : EventId} {consumed nonBlocking : Bool}
    {channel : Channel} (h : r.Accounts key k) (hack : k.channel.ack id consumed nonBlocking = .ok channel) :
    r.Continues (r.put key channel.drain.2) key k
      ((k.next (.ack id consumed nonBlocking)).next .drain)
      (channel.released.map fun g => ⟨consumer, .gesture g⟩) := by
  obtain ⟨hacked, hgiven⟩ := Chronicle.next_of_ack hack
  obtain ⟨hdrained, hkept⟩ := Chronicle.next_drain (k.next (.ack id consumed nonBlocking))
  rw [hacked] at hdrained
  rw [h.taken, List.length_nil, List.drop_zero] at hgiven
  refine ⟨⟨?_, by rw [hdrained]; rfl, (h.lived.next _).next _⟩, ?_, fun other hother => ?_⟩
  · rw [hdrained, getElem?_channels_put, if_pos rfl]
  · rw [hkept, hgiven, gesturesIn_map_gesture]
  · rw [getElem?_channels_put, if_neg (Ne.symm hother)]

-- Every channel is as its record says, whoever owns it.
structure Mirrors (r : Router) (books : Books) : Prop where
  book : ∀ {key channel}, r.channels[key]? = some channel →
    ∃ k, books key = some k ∧ r.Accounts key k
  lived : ∀ {key k}, books key = some k → Lived (fun _ => True) k
  unopened : ∀ {key}, r.nextKey ≤ key → r.channels[key]? = none

theorem Mirrors.accounts (h : Mirrors r books) (hk : books key = some k)
    (hlive : key ∈ r.channels) : r.Accounts key k := by
  obtain ⟨channel, hchannel⟩ := mem_channels_iff.mp hlive
  obtain ⟨k', hk', haccounts⟩ := h.book hchannel
  rw [hk] at hk'
  cases hk'
  exact haccounts

-- A router with fewer channels, all of them as they were.
theorem Mirrors.subset (h : Mirrors r books) (hnext : r'.nextKey = r.nextKey)
    (hsubset : ∀ {key : ChannelKey} {channel : Channel}, r'.channels[key]? = some channel →
      r.channels[key]? = some channel) : Mirrors r' books where
  book := by
    intro key channel hchannel
    have hbefore := hsubset hchannel
    obtain ⟨k, hk, haccounts⟩ := h.book hbefore
    rw [haccounts.live] at hbefore
    cases hbefore
    exact ⟨k, hk, hchannel, haccounts.taken, haccounts.lived⟩
  lived := h.lived
  unopened := by
    intro key hkey
    cases hchannel : r'.channels[key]? with
    | none => rfl
    | some channel =>
      have hsome := hsubset hchannel
      rw [h.unopened (hnext ▸ hkey)] at hsome
      cases hsome

theorem Mirrors.amend {f : Chronicle → Chronicle} (h : Mirrors r books)
    (hnext : r'.nextKey = r.nextKey)
    (hlived : ∀ k, Lived (fun _ => True) k → Lived (fun _ => True) (f k))
    (hothers : ∀ other, other ≠ key → r'.channels[other]? = r.channels[other]?)
    (hkey : ∀ k, r.Accounts key k → r'.Accounts key (f k))
    (hgone : r.channels[key]? = none → r'.channels[key]? = none) :
    Mirrors r' (r.amend books key f) := by
  refine ⟨?_, ?_, ?_⟩
  · intro other channel hchannel
    by_cases hother : other = key
    · subst hother
      cases hlive : r.channels[other]? with
      | none =>
        rw [hgone hlive] at hchannel
        cases hchannel
      | some before =>
        obtain ⟨k, hk, haccounts⟩ := h.book hlive
        have hmem : other ∈ r.channels := mem_channels_iff.mpr ⟨_, hlive⟩
        exact ⟨f k, by simp [Router.amend, hmem, hk], hkey k haccounts⟩
    · rw [hothers other hother] at hchannel
      obtain ⟨k, hk, haccounts⟩ := h.book hchannel
      refine ⟨k, by simp [Router.amend, hother, hk], ?_, haccounts.taken, haccounts.lived⟩
      rw [hothers other hother, haccounts.live]
  · intro other k hk
    unfold Router.amend at hk
    split at hk
    · obtain ⟨k', hk', rfl⟩ := Option.map_eq_some_iff.mp hk
      exact hlived k' (h.lived hk')
    · exact h.lived hk
  · intro other hother
    rw [hnext] at hother
    have hunopened := h.unopened hother
    by_cases heq : other = key
    · subst heq
      exact hgone hunopened
    · rw [hothers other heq, hunopened]

theorem Mirrors.of_channels_eq (h : Mirrors r books) (hnext : r'.nextKey = r.nextKey)
    (hchannels : r'.channels = r.channels) : Mirrors r' books :=
  h.subset hnext fun hchannel => hchannels ▸ hchannel

theorem getElem?_channels_insert (channels : Std.ExtTreeMap ChannelKey Channel)
    (channel : Channel) (other : ChannelKey) :
    (channels.insert key channel)[other]? = if key = other then some channel else channels[other]? := by
  simp [Std.ExtTreeMap.getElem?_insert]

-- A consumer that has a channel gets that one.
theorem obtain_of_some (howner : r.owners[consumer]? = some key) (books : Books) :
    r.obtain consumer = (key, r) ∧ r.enroll books consumer = books := by
  have hmem : consumer ∈ r.owners :=
    Std.ExtTreeMap.mem_iff_isSome_getElem?.mpr (by simp [howner])
  exact ⟨by simp [Router.obtain, howner], by simp [enroll, hmem]⟩

-- Others get a new one, with a record of its own.
theorem obtain_of_none (hnone : r.owners[consumer]? = none) (books : Books) :
    r.obtain consumer =
        (r.nextKey,
          { r with
            channels := r.channels.insert r.nextKey (Channel.ofSettings consumer r.settings.channel)
            owners := r.owners.insert consumer r.nextKey
            nextKey := r.nextKey + 1 }) ∧
      r.enroll books consumer = fun key =>
        if key = r.nextKey then some { channel := Channel.ofSettings consumer r.settings.channel }
        else books key := by
  have hmem : consumer ∉ r.owners := by
    intro hmem
    have hsome := Std.ExtTreeMap.mem_iff_isSome_getElem?.mp hmem
    simp [hnone] at hsome
  exact ⟨by simp [Router.obtain, hnone], by simp [enroll, hmem]⟩

theorem Mirrors.obtain (h : Mirrors r books) :
    Mirrors (r.obtain consumer).2 (r.enroll books consumer) := by
  cases howner : r.owners[consumer]? with
  | some key =>
    obtain ⟨hobtain, henroll⟩ := obtain_of_some howner books
    rw [hobtain, henroll]
    exact h
  | none =>
    obtain ⟨hobtain, henroll⟩ := obtain_of_none howner books
    rw [hobtain, henroll]
    refine ⟨?_, ?_, ?_⟩
    · intro key channel hchannel
      rw [getElem?_channels_insert] at hchannel
      by_cases hkey : r.nextKey = key
      · subst hkey
        rw [if_pos rfl, Option.some.injEq] at hchannel
        subst hchannel
        exact ⟨_, if_pos rfl, by simp, rfl, Lived.start _ _⟩
      · rw [if_neg hkey] at hchannel
        obtain ⟨k, hk, haccounts⟩ := h.book hchannel
        refine ⟨k, by simpa [Ne.symm hkey] using hk, ?_, haccounts.taken, haccounts.lived⟩
        rw [getElem?_channels_insert, if_neg hkey, haccounts.live]
    · intro key k hk
      split at hk
      · cases hk
        exact Lived.start _ _
      · exact h.lived hk
    · intro key hkey
      have hlt : r.nextKey < key := hkey
      rw [getElem?_channels_insert, if_neg (Nat.ne_of_lt hlt)]
      exact h.unopened (Nat.le_of_lt hlt)

-- A step on a channel that is there, along with its record.
theorem Mirrors.continue {f : Chronicle → Chronicle} {channel : Channel} (h : Mirrors r books)
    (hlive : r.channels[key]? = some channel) (hnext : r'.nextKey = r.nextKey)
    (hlived : ∀ k, Lived (fun _ => True) k → Lived (fun _ => True) (f k))
    (hkey : ∀ k, r.Accounts key k → ∃ notices, r.Continues r' key k (f k) notices) :
    Mirrors r' (r.amend books key f) := by
  obtain ⟨k, hk, haccounts⟩ := h.book hlive
  obtain ⟨notices, hcontinues⟩ := hkey k haccounts
  refine h.amend hnext hlived hcontinues.others (fun k' hk' => ?_) fun hnone => ?_
  · obtain ⟨_, hcontinues'⟩ := hkey k' hk'
    exact hcontinues'.accounts
  · rw [hlive] at hnone
    cases hnone

theorem amend_of_none {f : Chronicle → Chronicle} (hnone : r.channels[key]? = none) :
    r.amend books key f = books := by
  have hmem : key ∉ r.channels := by
    intro hmem
    have hsome := Std.ExtTreeMap.mem_iff_isSome_getElem?.mp hmem
    simp [hnone] at hsome
  funext other
  simp [Router.amend, hmem]

theorem Mirrors.touch {t : Touch} {result : TouchResult} (h : Mirrors r books)
    (hr : r.touch t consumer = .ok (result, r')) :
    Mirrors r' (r.record books (.touch t consumer)) := by
  have hobtain : Mirrors (r.obtain consumer).2 (r.enroll books consumer) := h.obtain
  simp only [record]
  obtain ⟨hnone, -, rfl⟩ | ⟨channel, channel', hlive, htouch, hr'⟩ := touch_cases hr
  · rw [amend_of_none hnone]
    exact hobtain
  · obtain ⟨bindings, events, rfl⟩ := touch_frame hr'
    refine hobtain.amend rfl (fun k hk => hk.next _) (fun other hother => ?_) (fun k hk => ?_)
      fun hnone => ?_
    · exact getElem?_channels_put.trans (if_neg (Ne.symm hother))
    · obtain rfl := hk.channel_eq hlive
      obtain ⟨hchannel, hreleased, -⟩ := Chronicle.next_of_touch hk.lived.sound htouch
      refine ⟨?_, by rw [hchannel, hreleased, hk.taken], hk.lived.next _⟩
      rw [hchannel]
      exact getElem?_channels_put.trans (if_pos rfl)
    · rw [hlive] at hnone
      cases hnone

theorem Mirrors.ack {id : EventId} {consumed nonBlocking : Bool} {gestures : List Gesture}
    (h : Mirrors r books) (hr : r.ack id consumed nonBlocking consumer = .ok (gestures, r')) :
    Mirrors r' (r.record books (.ack id consumed nonBlocking consumer)) := by
  simp only [record]
  obtain ⟨horphan, -, rfl⟩ | ⟨horphan, hgone, -, rfl⟩ |
    ⟨key, channel, channel', horphan, hkey, hlive, hack, -, rfl⟩ := ack_cases hr
  · rw [if_pos horphan]
    exact h.of_channels_eq rfl rfl
  · rw [if_neg horphan]
    split
    · exact h.of_channels_eq rfl rfl
    · next key hkey =>
      rw [amend_of_none (hgone key hkey)]
      exact h.of_channels_eq rfl rfl
  · simp only [horphan, if_false, hkey]
    refine h.continue hlive rfl (fun k hk => (hk.next _).next _) fun k hk => ?_
    obtain rfl := hk.channel_eq hlive
    obtain ⟨haccounts, hreleased, hothers⟩ := ack_continues consumer hk hack
    exact ⟨_, ⟨haccounts.live, haccounts.taken, haccounts.lived⟩, hreleased, hothers⟩

theorem Mirrors.cancelChannel {now : Time} {result : Bool × List Notice × Router}
    (h : Mirrors r books) (hr : r.cancelChannel now consumer key = .ok result) :
    Mirrors result.2.2 (r.record books (.cancelChannel now consumer key)) := by
  simp only [record]
  cases hlive : r.channels[key]? with
  | none =>
    simp only [Router.cancelChannel, hlive] at hr
    cases hr
    rw [amend_of_none hlive]
    exact h
  | some channel =>
    have hnext : result.2.2.nextKey = r.nextKey := by
      obtain ⟨_, _, _, hframe⟩ := cancelChannel_frame hr
      rw [hframe]
    refine h.continue hlive hnext (fun k hk => hk.injectAll _ _) fun k hk => ⟨result.2.1, ?_⟩
    obtain rfl := hk.channel_eq hlive
    exact cancelChannel_continues hk hr

theorem enterAll_of_none {clock : Clock} {contacts : List Contact}
    (hnone : r.channels[key]? = none) :
    r.enterAll clock key contacts = .ok r := by
  induction contacts generalizing clock with
  | nil => rfl
  | cons contact rest ih =>
    have henter : r.enter clock.now key contact = .ok r := by simp [enter, hnone]
    rw [enterAll, henter, ok_bind, ih]

theorem reenter_of_none {clock : Clock} {contacts : List Contact}
    (hnone : r.channels[key]? = none) :
    r.reenter clock key contacts = .ok r := by
  have hforget : r.forgetHistory key = r := by simp [forgetHistory, hnone]
  rw [reenter, hforget, enterAll_of_none hnone, ok_bind, dropReleased]
  simp [hnone]

theorem enterAll_frame {clock : Clock} {contacts : List Contact}
    (hr : r.enterAll clock key contacts = .ok r') :
    ∃ channels ids, r' = { r with channels, ids } := by
  induction contacts generalizing r clock with
  | nil =>
    cases hr
    exact ⟨_, _, rfl⟩
  | cons contact rest ih =>
    obtain ⟨r₁, henter, hrest⟩ := bind_eq_ok.mp hr
    obtain ⟨channels', ids', rfl⟩ := ih hrest
    unfold enter at henter
    split at henter
    · cases henter
      exact ⟨_, _, rfl⟩
    · obtain ⟨channel, -, heq⟩ := bind_eq_ok.mp henter
      cases heq
      exact ⟨_, _, rfl⟩

theorem forgetHistory_frame (r : Router) (key : ChannelKey) :
    ∃ channels, r.forgetHistory key = { r with channels } := by
  unfold forgetHistory
  split <;> exact ⟨_, rfl⟩

theorem reenter_frame {clock : Clock} {contacts : List Contact}
    (hr : r.reenter clock key contacts = .ok r') :
    ∃ channels ids, r' = { r with channels, ids } := by
  obtain ⟨r₁, henter, hr⟩ := bind_eq_ok.mp hr
  cases hr
  obtain ⟨channels, hforget⟩ := forgetHistory_frame r key
  rw [hforget] at henter
  obtain ⟨channels', ids, rfl⟩ := enterAll_frame henter
  unfold dropReleased
  split <;> exact ⟨_, _, rfl⟩

theorem Mirrors.reenter {clock : Clock} {contacts : List Contact} (h : Mirrors r books)
    (hr : r.reenter clock key contacts = .ok r') :
    Mirrors r' (r.record books (.reenter clock key contacts)) := by
  simp only [record]
  cases hlive : r.channels[key]? with
  | none =>
    rw [reenter_of_none hlive] at hr
    cases hr
    rw [amend_of_none hlive]
    exact h
  | some channel =>
    obtain ⟨channels, ids, hframe⟩ := reenter_frame hr
    refine h.amend (by rw [hframe]) (fun k hk => hk.reenter _) ?_ (fun k hk => ?_) fun hnone => ?_
    · obtain ⟨k, -, hk⟩ := h.book hlive
      exact (reenter_continues hk hr).2
    · exact (reenter_continues hk hr).1
    · rw [hlive] at hnone
      cases hnone

theorem Mirrors.tick {now : Time} {handouts : List Handout} (h : Mirrors r books)
    (hr : r.act (.tick now key) = .ok (handouts, r')) :
    Mirrors r' (r.record books (.tick now key)) := by
  simp only [record]
  cases hlive : r.channels[key]? with
  | none =>
    simp only [Router.act, hlive] at hr
    cases hr
    rw [amend_of_none hlive]
    exact h
  | some channel =>
    simp only [Router.act, hlive] at hr
    obtain ⟨⟨gestures, channel'⟩, htick, hr⟩ := map_eq_ok.mp hr
    cases hr
    refine h.continue hlive rfl (fun k hk => hk.next _) fun k hk => ?_
    obtain rfl := hk.channel_eq hlive
    exact ⟨_, tick_continues hk htick⟩

theorem Mirrors.forgetHistory (h : Mirrors r books) :
    Mirrors (r.forgetHistory key) (r.record books (.forgetHistory key)) := by
  simp only [record]
  unfold Router.forgetHistory
  cases hlive : r.channels[key]? with
  | none =>
    rw [amend_of_none hlive]
    exact h
  | some channel =>
    refine h.continue hlive rfl (fun k hk => hk.next _) fun k hk => ?_
    obtain rfl := hk.channel_eq hlive
    exact ⟨_, quiet_continues hk rfl rfl⟩

theorem Mirrors.removeChannel (h : Mirrors r books) : Mirrors (r.removeChannel key) books := by
  refine h.subset rfl fun hchannel => ?_
  simp only [Router.removeChannel, Std.ExtTreeMap.getElem?_erase] at hchannel
  split at hchannel
  · cases hchannel
  · exact hchannel

-- Nothing is asked of the record of a channel that is gone.
theorem Mirrors.amend_gone {earlier : Router} {f : Chronicle → Chronicle} (h : Mirrors r books)
    (hlived : ∀ k, Lived (fun _ => True) k → Lived (fun _ => True) (f k))
    (hgone : r.channels[key]? = none) : Mirrors r (earlier.amend books key f) := by
  refine ⟨?_, ?_, h.unopened⟩
  · intro other channel hchannel
    have hother : other ≠ key := by
      rintro rfl
      rw [hgone] at hchannel
      cases hchannel
    simpa [Router.amend, hother] using h.book hchannel
  · intro other k hk
    unfold Router.amend at hk
    split at hk
    · obtain ⟨k', hk', rfl⟩ := Option.map_eq_some_iff.mp hk
      exact hlived k' (h.lived hk')
    · exact h.lived hk

theorem Mirrors.reassign {earlier : Router} {source target : ConsumerId} (h : Mirrors r books)
    (hsubset : ∀ {channel : Channel}, r.channels[key]? = some channel → key ∈ earlier.channels) :
    Mirrors (r.reassign source target key)
      (earlier.amend books key (·.next (.reassign target))) := by
  unfold Router.reassign
  simp only []
  cases hlive : r.channels[key]? with
  | none =>
    have hmoved : Mirrors { r with owners := (r.owners.erase source).insert target key } books :=
      h.of_channels_eq rfl rfl
    exact hmoved.amend_gone (fun k hk => hk.next _) hlive
  | some channel =>
    have hmem : key ∈ r.channels := mem_channels_iff.mpr ⟨_, hlive⟩
    have hsame : earlier.amend books key (·.next (.reassign target)) =
        r.amend books key (·.next (.reassign target)) := by
      unfold Router.amend
      simp only [hsubset hlive, hmem]
    rw [hsame]
    refine h.continue hlive rfl (fun k hk => hk.next _) fun k hk => ?_
    obtain rfl := hk.channel_eq hlive
    have hstep : k.channel.step (.reassign target) = .ok ([], k.channel.reassign target) := rfl
    obtain ⟨haccounts, hreleased, hothers⟩ := quiet_continues hk hstep rfl
    exact ⟨[], ⟨haccounts.live, haccounts.taken, haccounts.lived⟩, hreleased, hothers⟩

theorem Mirrors.displace {source target : ConsumerId} (h : Mirrors r books) :
    Mirrors (r.displace source target key) (r.record books (.reassign source target key)) := by
  have hmem : ∀ {channel : Channel}, r.channels[key]? = some channel → key ∈ r.channels :=
    fun hlive => mem_channels_iff.mpr ⟨_, hlive⟩
  simp only [record]
  unfold Router.displace
  split
  · exact h.reassign hmem
  · next displaced _ =>
    refine h.removeChannel.reassign fun hlive => ?_
    simp only [Router.removeChannel, Std.ExtTreeMap.getElem?_erase] at hlive
    split at hlive
    · cases hlive
    · exact hmem hlive

theorem Mirrors.forget (h : Mirrors r books) : Mirrors (r.forget consumer).2 books := by
  unfold Router.forget
  split
  · exact h.of_channels_eq rfl rfl
  · next key _ =>
    have hleft : Mirrors { r with owners := r.owners.erase consumer } books :=
      h.of_channels_eq rfl rfl
    exact hleft.removeChannel.of_channels_eq rfl rfl

theorem Mirrors.configure {settings : Settings} (h : Mirrors r books) :
    Mirrors (r.configure settings) (r.record books (.configure settings)) := by
  simp only [record]
  have hget : ∀ key : ChannelKey, (r.configure settings).channels[key]? =
      r.channels[key]?.map fun channel => channel.configure settings.channel := by
    intro key
    simp [Router.configure]
  refine ⟨?_, ?_, ?_⟩
  · intro key channel hchannel
    rw [hget key] at hchannel
    obtain ⟨before, hlive, rfl⟩ := Option.map_eq_some_iff.mp hchannel
    obtain ⟨k, hk, haccounts⟩ := h.book hlive
    obtain rfl := haccounts.channel_eq hlive
    have hmem : key ∈ r.channels := mem_channels_iff.mpr ⟨_, hlive⟩
    have hnext := Chronicle.next_of_step (k := k) (e := .configure settings.channel) rfl
    refine ⟨k.next (.configure settings.channel), by simp [hmem, hk], ?_, ?_, haccounts.lived.next _⟩
    · rw [hget, hlive, hnext]
      rfl
    · rw [hnext]
      exact haccounts.taken
  · intro key k hk
    split at hk
    · obtain ⟨k', hk', rfl⟩ := Option.map_eq_some_iff.mp hk
      exact (h.lived hk').next _
    · exact h.lived hk
  · intro key hkey
    rw [hget, h.unopened hkey]
    rfl

-- The records stay true whatever is done with the router.
theorem Mirrors.act {a : Act} {handouts : List Handout} (h : Mirrors r books)
    (hr : r.act a = .ok (handouts, r')) : Mirrors r' (r.record books a) := by
  cases a with
  | touch t consumer =>
    obtain ⟨⟨result, after⟩, htouch, heq⟩ := map_eq_ok.mp hr
    cases heq
    exact h.touch htouch
  | ack id consumed nonBlocking consumer =>
    obtain ⟨⟨gestures, after⟩, hack, heq⟩ := map_eq_ok.mp hr
    cases heq
    exact h.ack hack
  | cancelChannel now consumer key =>
    obtain ⟨result, hcancel, heq⟩ := map_eq_ok.mp hr
    cases heq
    exact h.cancelChannel hcancel
  | reenter clock key contacts =>
    obtain ⟨after, hreenter, heq⟩ := map_eq_ok.mp hr
    cases heq
    exact h.reenter hreenter
  | tick now key => exact h.tick hr
  | forgetHistory key =>
    cases hr
    exact h.forgetHistory
  | reassign source target key =>
    cases hr
    exact h.displace
  | forget consumer =>
    cases hr
    exact h.forget
  | configure settings =>
    cases hr
    exact h.configure
  | rebind contacts target =>
    cases hr
    exact h.of_channels_eq rfl rfl
  | addHelper helper =>
    cases hr
    exact h.of_channels_eq rfl rfl
  | removeHelper id =>
    cases hr
    exact h.of_channels_eq rfl rfl
  | setIds ids =>
    cases hr
    exact h.of_channels_eq rfl rfl

end Router

namespace Session

open Router (Act Op Mirrors)

variable {s s' : Session} {permits : Session → Op → Prop}

-- What every step preserves, operations preserve.
theorem play_induction {P : Session → Prop} {acts : List Act} (hs : P s)
    (hact : ∀ s s' a, a ∈ acts → P s → s.act a = .ok s' → P s') (hplay : s.play acts = .ok s') :
    P s' := by
  induction acts generalizing s with
  | nil =>
    cases hplay
    exact hs
  | cons a rest ih =>
    obtain ⟨s₁, ha, hrest⟩ := bind_eq_ok.mp hplay
    exact ih (hact s s₁ a List.mem_cons_self hs ha)
      (fun s s' b hb => hact s s' b (List.mem_cons_of_mem a hb)) hrest

theorem mirrors_act {a : Act} (h : s.router.Mirrors s.books) (ha : s.act a = .ok s') :
    s'.router.Mirrors s'.books := by
  obtain ⟨handouts, router, hact, rfl⟩ := act_eq_ok ha
  exact h.act hact

theorem mirrors_play {acts : List Act} (h : s.router.Mirrors s.books) (hs : s.play acts = .ok s') :
    s'.router.Mirrors s'.books :=
  play_induction (P := fun s => s.router.Mirrors s.books) h (fun _ _ _ _ => mirrors_act) hs

theorem mirrors_start (settings : Settings) (ids : EventIds) :
    Mirrors { settings, ids } fun _ => none where
  book := by simp
  lived := by simp
  unopened := by simp

theorem Reached.mirrors (h : Reached permits s) : s.router.Mirrors s.books := by
  induction h with
  | start settings ids => exact mirrors_start settings ids
  | step _ _ hs ih => exact mirrors_play ih hs

end Session

end TouchGestures
