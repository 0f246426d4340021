import TouchGestures.Proofs.Router.Closing
import TouchGestures.Proofs.Router.Coherence

namespace TouchGestures

open Channel (Chronicle Lived)

theorem Pipeline.touch_releases_nothing {p pipeline : Pipeline} {contacts : ContactTable}
    {result : TouchResult} {gestures : List Gesture} (hq : p.queue.HeadPending)
    (h : p.touch contacts = (.ok (result, gestures), pipeline)) : gestures = [] := by
  unfold Pipeline.touch at h
  split at h
  · cases h
    rfl
  · next detected detector _ =>
    cases hpacket : Packet.ofTouch contacts with
    | error violation => simp [hpacket, Except.bind] at h
    | ok packet =>
      obtain ⟨change, contact, -, -, rfl⟩ := Packet.ofTouch_eq_ok hpacket
      have hsubmit := Release.Queue.submit_of_isTouch hq
        (p := (Packet.mk (.ofAction change.action) change.time contact.place change.eventId
          .pending []).pushAll detected)
        (by simp [Packet.pushAll_eq, Packet.isPending])
        (by simp [Packet.pushAll_eq, Packet.Source.isTouch_ofAction])
      simp only [hpacket, Except.bind, Pipeline.detected, hsubmit] at h
      cases h
      rfl

namespace Channel.Chronicle

variable {k : Chronicle} {presses : List Touch}

-- What a verdict lets out waits to be taken.
theorem exists_released_next_ack (k : Chronicle) (id : EventId) (consumed nonBlocking : Bool) :
    ∃ gestures,
      (k.next (.ack id consumed nonBlocking)).released = k.released ++ gestures ∧
      (k.next (.ack id consumed nonBlocking)).channel.released =
        k.channel.released ++ gestures := by
  cases hack : k.channel.ack id consumed nonBlocking with
  | error violation =>
    refine ⟨[], ?_⟩
    simp [next, step, Channel.step, hack]
  | ok channel =>
    obtain ⟨hchannel, hreleased⟩ := next_of_ack hack
    obtain ⟨judged, -, rfl⟩ := ack_eq_ok hack
    refine ⟨_, hreleased, ?_⟩
    rw [hchannel, released_collect, List.drop_left]

theorem exists_released_answer (h : Lived (fun _ => True) k) (t : Touch) (consumed : Bool) :
    ∃ gestures, (k.answer t consumed).released = k.released ++ gestures ∧
      (k.answer t consumed).channel.released = k.channel.released ++ gestures := by
  obtain ⟨result, channel, htouch⟩ := exists_touch h.sound t
  obtain ⟨hchannel, hwaiting, hreleased⟩ := next_of_touch h.sound htouch
  unfold answer
  split
  · obtain ⟨gestures, hout, hin⟩ :=
      (k.next (.touch t)).exists_released_next_ack t.id consumed false
    rw [hreleased] at hout
    rw [hchannel, hwaiting] at hin
    exact ⟨gestures, hout, hin⟩
  · exact ⟨[], by simp [hreleased], by simp [hchannel, hwaiting]⟩

theorem exists_released_answerAll (h : Lived (fun _ => True) k) (presses : List Touch) :
    ∃ gestures,
      (presses.foldl (fun k t => k.answer t true) k).released = k.released ++ gestures ∧
      (presses.foldl (fun k t => k.answer t true) k).channel.released =
        k.channel.released ++ gestures := by
  induction presses generalizing k with
  | nil => exact ⟨[], by simp, by simp⟩
  | cons t rest ih =>
    obtain ⟨first, hfirst, hfirst'⟩ := exists_released_answer h t true
    obtain ⟨others, hothers, hothers'⟩ := ih (h.answer t true)
    refine ⟨first ++ others, ?_, ?_⟩
    · rw [List.foldl_cons, hothers, hfirst, List.append_assoc]
    · rw [List.foldl_cons, hothers', hfirst', List.append_assoc]

-- When nothing is down, nobody misses what pressing contacts anew leaves to be taken:
-- there is nothing of the kind.
theorem released_entered (h : Lived (fun _ => True) k) (htaken : k.channel.released = [])
    (hcontacts : k.channel.contacts.contacts = []) (hkinds : ∀ t ∈ presses, t.kind = .pressed)
    (hids : (presses.map (·.id)).Nodup)
    (hfresh : ∀ p ∈ k.channel.queue.packets, p.eventId ∉ presses.map (·.id)) :
    (presses.foldl (fun k t => k.answer t true) (k.next .forgetHistory)).channel.released =
      [] := by
  have hquiet := released_reenter h hcontacts hkinds hids hfresh
  have hforgotten := next_of_step (k := k) (e := .forgetHistory) rfl
  obtain ⟨gestures, hout, hin⟩ := exists_released_answerAll (h.next .forgetHistory) presses
  rw [reenter, (next_drain _).2, hout, hforgotten, List.append_nil,
    List.append_right_eq_self] at hquiet
  rw [hin, hquiet, hforgotten]
  simpa [Channel.forgetHistory] using htaken

end Channel.Chronicle

namespace Session

open Router (Act Op Handout gesturesOf mem_channels_iff)

variable {s s' : Session} {permits : Session → Op → Prop} {acts : List Act}

theorem consistent_play (hm : s.router.Mirrors s.books) (h : s.Consistent)
    (hnodup : s'.numbers.Nodup) (hplay : s.play acts = .ok s') : s'.Consistent := by
  induction acts generalizing s with
  | nil =>
    cases hplay
    exact h
  | cons a rest ih =>
    obtain ⟨s₁, ha, hrest⟩ := bind_eq_ok.mp hplay
    have hnodup₁ := (prefix_numbers_play hrest).sublist.nodup hnodup
    have hm₁ := mirrors_act hm ha
    obtain ⟨handouts, router, hr, rfl⟩ := act_eq_ok ha
    exact ih hm₁ (h.act hm hnodup₁ hr) hrest

-- Whatever the order of its verdicts, a host is given just what the channels release.
theorem Reached.handed (h : Reached permits s) (hnodup : s.numbers.Nodup) : s.Handed := by
  refine (h.induct (P := fun s => s.numbers.Nodup → s.Consistent ∧ s.Handed)
    (fun settings ids _ => ⟨consistent_start settings ids, handed_start settings ids⟩) ?_
    hnodup).2
  intro s s' a hm hgranted hs hact hnodup
  obtain ⟨handouts, router, hr, rfl⟩ := act_eq_ok hact
  obtain ⟨hconsistent, hhanded⟩ := hs (List.nodup_append.mp hnodup).1
  refine ⟨hconsistent.act hm hnodup hr, ?_⟩
  cases a with
  | ack id consumed nonBlocking consumer =>
    obtain ⟨⟨gestures, after⟩, hack, heq⟩ := map_eq_ok.mp hr
    cases heq
    exact hhanded.ack hm hack
  | _ => exact hhanded.act hconsistent hm hgranted hnodup hr

def releasedBy (s : Session) (key : ChannelKey) : List Gesture :=
  ((s.books key).map (·.released)).getD []

-- What becomes of the gestures that are released in an operation.
structure Delivers (s : Session) (op : Op) (s' : Session) (handouts : List Handout) : Prop where
  -- Between any two of its steps, and before and after it, no channel holds back gestures.
  taken : ∀ {earlier later : List Act} {between : Session} {key : ChannelKey} {channel : Channel},
    s.router.acts op = earlier ++ later → s.play earlier = .ok between →
    between.router.channels[key]? = some channel → channel.released = []
  -- No touch makes a channel release gestures.
  quiet : ∀ {earlier later : List Act} {between : Session} {key : ChannelKey} {channel : Channel}
    {contacts : ContactTable} {result : TouchResult} {gestures : List Gesture}
    {pipeline : Pipeline}, s.router.acts op = earlier ++ later → s.play earlier = .ok between →
    between.router.channels[key]? = some channel →
    channel.pipeline.touch contacts = (.ok (result, gestures), pipeline) → gestures = []
  -- Where contacts are pressed anew, what is thrown away afterwards is nothing.
  entered : ∀ {earlier later : List Act} {between : Session} {clock : Clock} {key : ChannelKey}
    {contacts : List Contact} {router : Router} {channel : Channel},
    s.router.acts op = earlier ++ .reenter clock key contacts :: later →
    s.play earlier = .ok between →
    (between.router.forgetHistory key).enterAll clock key contacts = .ok router →
    router.channels[key]? = some channel → channel.released = []
  -- The host learns of what is released on account of each channel, of each gesture once
  -- and in order. That is what its outlet let out, with the taps numbered.
  told : s.router.perform op = .ok (handouts.map (·.toNotice), s'.router)
  once : ∀ key, s'.releasedBy key = s.releasedBy key ++ gesturesOf key handouts
  given : ∀ key, s'.givenBy key = s'.releasedBy key
  outlet : ∀ {key : ChannelKey} {k : Chronicle}, s'.books key = some k →
    (s'.releasedBy key).map Gesture.untallied =
      (Release.Outlet.replay {} k.items).1.map Gesture.untallied
  -- A verdict returns its gestures. The helpers hear all others, except those for consumers
  -- that no helper serves.
  returned : ∀ {id : EventId} {consumed nonBlocking : Bool} {consumer : ConsumerId},
    op = .ack id consumed nonBlocking consumer →
    s.router.ack id consumed nonBlocking consumer =
      .ok (gesturesIn (handouts.map (·.toNotice)), s'.router)
  dispatched : (s.router.deliveries (handouts.map (·.toNotice))).map (·.2) =
    (handouts.map (·.toNotice)).filter fun notice => (s.router.helperFor? notice.consumer).isSome

section Delivers

variable {op : Op} {earlier later : List Act} {between : Session} {key : ChannelKey}
  {channel : Channel}

theorem play_rest (hsplit : s.router.acts op = earlier ++ later) (hs : s.perform op = .ok s')
    (hplay : s.play earlier = .ok between) : between.play later = .ok s' := by
  rw [perform, hsplit] at hs
  obtain ⟨other, hother, hrest⟩ := play_append_eq_ok hs
  rw [hplay, Except.ok.injEq] at hother
  exact hother ▸ hrest

-- The contacts that are pressed anew in an operation are pressed where none is down.
theorem proper_reenter {clock : Clock} {contacts : List Contact} (hm : s.router.Mirrors s.books)
    (hsplit : s.router.acts op = earlier ++ .reenter clock key contacts :: later)
    (hplay : s.play earlier = .ok between) : between.Proper (.reenter clock key contacts) := by
  have hop : s.Orderly op := by
    cases op with
    | ack id consumed nonBlocking consumer =>
      have hmem : Act.reenter clock key contacts ∈ s.router.acts (.ack id consumed nonBlocking
        consumer) := by simp [hsplit]
      cases List.mem_singleton.mp hmem
    | _ => trivial
  have hsuits := suits_acts hm hop
  rw [hsplit] at hsuits
  exact (hsuits.of_append.2 between hplay).1

theorem released_enterAll {clock : Clock} {contacts : List Contact} {router : Router}
    (hm : s.router.Mirrors s.books) (hconsistent : s.Consistent)
    (hproper : s.Proper (.reenter clock key contacts))
    (hnodup : (s.numbers ++ s.router.numbersOf (.reenter clock key contacts)).Nodup)
    (henter : (s.router.forgetHistory key).enterAll clock key contacts = .ok router)
    (hlive : router.channels[key]? = some channel) : channel.released = [] := by
  cases hbefore : s.router.channels[key]? with
  | none =>
    have hforget : s.router.forgetHistory key = s.router := by
      simp [Router.forgetHistory, hbefore]
    rw [hforget, Router.enterAll_of_none hbefore] at henter
    cases henter
    rw [hbefore] at hlive
    cases hlive
  | some before =>
    obtain ⟨k, -, hk⟩ := hm.book hbefore
    have hmem : key ∈ s.router.channels := mem_channels_iff.mpr ⟨_, hbefore⟩
    have hids : (s.router.forgetHistory key).ids = s.router.ids := by
      obtain ⟨_, hframe⟩ := Router.forgetHistory_frame s.router key
      rw [hframe]
    have hnumbers : s.router.numbersOf (.reenter clock key contacts) =
        (synthesizeAll .pressed clock contacts s.router.ids).1.map (·.id) := by
      simp [Router.numbersOf, hmem]
    rw [hnumbers] at hnodup
    obtain ⟨-, hdistinct, hdisjoint⟩ := List.nodup_append.mp hnodup
    obtain ⟨hafter, -⟩ := Router.enterAll_continues hk.forgotten (hk.lived.next _) henter
    rw [hlive, Option.some.injEq, hids] at hafter
    rw [hafter]
    exact Chronicle.released_entered hk.lived hk.taken (hproper _ hk.live)
      (fun t ht => kind_of_mem_synthesizeAll ht) hdistinct
      fun p hp hid => hdisjoint _ (hconsistent.numbered hk.live p hp) _ hid rfl

theorem map_deliveries (r : Router) (notices : List Notice) :
    (r.deliveries notices).map (·.2) =
      notices.filter fun notice => (r.helperFor? notice.consumer).isSome := by
  induction notices with
  | nil => rfl
  | cons notice rest ih =>
    unfold Router.deliveries at ih ⊢
    cases hhelper : r.helperFor? notice.consumer <;> simp [hhelper, ih]

theorem ack_of_perform {id : EventId} {consumed nonBlocking : Bool} {consumer : ConsumerId}
    {r router : Router} {notices : List Notice}
    (h : r.perform (.ack id consumed nonBlocking consumer) = .ok (notices, router)) :
    r.ack id consumed nonBlocking consumer = .ok (gesturesIn notices, router) := by
  obtain ⟨⟨gestures, after⟩, hack, heq⟩ := map_eq_ok.mp h
  cases heq
  rw [hack, gesturesIn_map_gesture]

end Delivers

end Session

end TouchGestures
