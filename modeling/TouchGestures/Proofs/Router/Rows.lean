import TouchGestures.Proofs.Channel.Rows
import TouchGestures.Proofs.Router.Delivery
import TouchGestures.Proofs.Router.Down
import TouchGestures.Proofs.Router.Separate

namespace TouchGestures

open Gesture (latestTap)

namespace Router

variable {r r' : Router} {consumer : ConsumerId} {key : ChannelKey}
  {handed handouts : List Handout} {before : Router} {now : Time}

def gesturesFor (consumer : ConsumerId) (handouts : List Handout) : List Gesture :=
  gesturesIn ((handouts.filter fun handout => handout.consumer = consumer).map (·.toNotice))

@[simp] theorem gesturesFor_append (consumer : ConsumerId) (first second : List Handout) :
    gesturesFor consumer (first ++ second) =
      gesturesFor consumer first ++ gesturesFor consumer second := by
  simp [gesturesFor]

-- The latest tap that an owner was given is that of its channel, if that has given one.
def InStep (r : Router) (handed : List Handout) : Prop :=
  ∀ {consumer : ConsumerId} {key : ChannelKey}, r.owners[consumer]? = some key →
    latestTap (gesturesOf key handed) ≠ none →
      latestTap (gesturesFor consumer handed) = latestTap (gesturesOf key handed)

-- What owners are given of their channels is the same by owner and by channel.
theorem gesturesFor_eq (howned : r.Owned) (howner : r.owners[consumer]? = some key)
    (hhandouts : ∀ x ∈ handouts, r.owners[x.consumer]? = some x.key) :
    gesturesFor consumer handouts = gesturesOf key handouts := by
  have hsame : ∀ x ∈ handouts, decide (x.consumer = consumer) = decide (x.key = key) := by
    intro x hx
    refine decide_eq_decide.mpr ⟨?_, ?_⟩
    · rintro rfl
      exact Option.some.inj ((hhandouts x hx).symm.trans howner)
    · rintro rfl
      exact howned.single (hhandouts x hx) howner
  rw [gesturesFor, gesturesOf, List.filter_congr hsame]

-- Owners and channels stay in step as long as owners are given what their channels give.
theorem InStep.append (h : r.InStep handed) (howned : r.Owned)
    (hhandouts : ∀ x ∈ handouts, r.owners[x.consumer]? = some x.key) :
    r.InStep (handed ++ handouts) := by
  intro consumer key howner hgiven
  rw [gesturesOf_append, Gesture.latestTap_append] at hgiven ⊢
  rw [gesturesFor_append, Gesture.latestTap_append, gesturesFor_eq howned howner hhandouts]
  cases hlatest : latestTap (gesturesOf key handouts) with
  | some n => rfl
  | none =>
    rw [hlatest, Option.none_or] at hgiven
    exact h howner hgiven

def Attributed (r before : Router) : Prop :=
  ∀ {key : ChannelKey} {channel : Channel}, r.channels[key]? = some channel →
    before.owners[channel.consumer]? = some key

-- What channels give when their alarms ring is for the consumers they name.
theorem owner_of_mem_ticks {keys : List ChannelKey} (h : r.Attributed before)
    (hr : r.play (keys.map (.tick now)) = .ok (handouts, r')) :
    ∀ x ∈ handouts, before.owners[x.consumer]? = some x.key := by
  induction keys generalizing r handouts with
  | nil =>
    cases hr
    simp
  | cons key rest ih =>
    rw [List.map_cons, play_cons] at hr
    obtain ⟨⟨first, r₁⟩, hfirst, hr⟩ := bind_eq_ok.mp hr
    obtain ⟨⟨others, r₂⟩, hothers, heq⟩ := map_eq_ok.mp hr
    cases heq
    simp only [act] at hfirst
    split at hfirst
    · cases hfirst
      exact ih h hothers
    · next channel hlive =>
      rw [Channel.tick_eq_rung, ok_map, Except.ok.injEq, Prod.mk.injEq] at hfirst
      obtain ⟨rfl, rfl⟩ := hfirst
      have hkept : (r.put key (channel.rung now).2).Attributed before := by
        intro other channel' hother
        rw [getElem?_channels_put] at hother
        split at hother
        · next heq =>
          cases hother
          rw [Channel.consumer_rung, ← heq]
          exact h hlive
        · exact h hother
      intro x hx
      rcases List.mem_append.mp hx with hx | hx
      · obtain ⟨notice, hnotice, rfl⟩ := List.mem_map.mp hx
        obtain ⟨g, -, rfl⟩ := List.mem_map.mp hnotice
        dsimp only
        rw [Channel.consumer_rung]
        exact h hlive
      · exact ih hkept hothers x hx

-- What a verdict lets out is for the owner of the channel.
theorem owner_of_mem_ack {id : EventId} {consumed nonBlocking : Bool} (h : r.Attributed r)
    (hr : r.act (.ack id consumed nonBlocking consumer) = .ok (handouts, r')) :
    ∀ x ∈ handouts, r.owners[x.consumer]? = some x.key := by
  obtain ⟨⟨gestures, after⟩, hack, heq⟩ := map_eq_ok.mp hr
  cases heq
  obtain ⟨-, rfl, -⟩ | ⟨-, -, rfl, -⟩ | ⟨key, channel, channel', -, hkey, hlive, -, -, -⟩ :=
    ack_cases hack
  · simp [handOut]
  · simp [handOut]
  · intro x hx
    obtain ⟨notice, hnotice, rfl⟩ := List.mem_map.mp hx
    obtain ⟨g, -, rfl⟩ := List.mem_map.mp hnotice
    simpa [respondent, hkey, hlive] using h hlive

end Router

namespace Session

open Router (Act Op Handout gesturesOf gesturesFor mem_channels_iff)

variable {permits : Session → Op → Prop} {s s' : Session} {op : Op} {consumer : ConsumerId}
  {key : ChannelKey}

theorem Reached.attributed_router (h : Reached permits s) : s.router.Attributed s.router :=
  h.named.owner_of_live h.owned

-- A transfer does something only if the source has a channel and is not the target.
theorem Reached.transferActs_cases (h : Reached permits s) (clock : Clock)
    (source target : ConsumerId) (transfer : Router.Transfer) :
    (source ≠ target ∧ ∃ key, s.router.owners[source]? = some key) ∨
      s.router.transferActs clock source target transfer = [] := by
  by_cases hne : source = target
  · simp [Router.transferActs, hne]
  · cases howner : s.router.owners[source]? with
    | some key => exact .inl ⟨hne, key, rfl⟩
    | none => simp [Router.transferActs, howner, h.bound.boundTo_eq_nil howner]

-- Whatever is handed out in an operation is for the consumer that owned the channel when the
-- operation began.
theorem Reached.owner_of_mem_handed (h : Reached permits s) (hs : s.perform op = .ok s') :
    ∃ handouts, s'.handed = s.handed ++ handouts ∧
      ∀ x ∈ handouts, s.router.owners[x.consumer]? = some x.key := by
  obtain ⟨handouts, hplay, hhanded⟩ := play_router hs
  refine ⟨handouts, hhanded, ?_⟩
  cases op with
  | ack id consumed nonBlocking consumer =>
    obtain ⟨⟨first, r₁⟩, hact, hnil⟩ := bind_eq_ok.mp hplay
    cases hnil
    rw [List.append_nil]
    exact Router.owner_of_mem_ack h.attributed_router hact
  | tick now => exact Router.owner_of_mem_ticks h.attributed_router hplay
  | transfer clock source target transfer =>
    obtain ⟨hne, key, howner⟩ | hnil := h.transferActs_cases clock source target transfer
    · exact Router.owner_of_mem_play (Router.addresses_transferActs howner hne) hplay
    · rw [Router.acts, hnil] at hplay
      obtain ⟨rfl, -⟩ := Prod.mk.inj (Except.ok.inj hplay)
      simp
  | cancel now consumer =>
    exact Router.owner_of_mem_play (Router.addresses_cancelActs s.router now consumer) hplay
  | cancelOn clock consumers | cancelExcept clock spared =>
    refine Router.owner_of_mem_play (fun a ha => ?_) hplay
    obtain ⟨visit, -, key, howner, rfl⟩ := Router.mem_cancelEachActs.mp ha
    exact howner
  | touch | forget | configure | addHelper | removeHelper | setIds =>
    refine Router.owner_of_mem_play (fun a ha => ?_) hplay
    obtain rfl := List.mem_singleton.mp ha
    trivial

-- A channel that an operation brings to a consumer is new or was handed over.
theorem Reached.owner_of_perform (h : Reached permits s) (hs : s.perform op = .ok s')
    (howner : s'.router.owners[consumer]? = some key) :
    s.router.owners[consumer]? = some key ∨ s.router.nextKey ≤ key ∨
      ∃ clock source transfer, op = .transfer clock source consumer transfer ∧ source ≠ consumer ∧
        s.router.owners[source]? = some key := by
  obtain ⟨handouts, hplay, -⟩ := play_router hs
  cases op with
  | touch t other =>
    obtain ⟨result, htouch⟩ := touch_of_act (play_singleton.mp hs)
    rw [Router.owners_touch htouch, Router.getElem?_owners_obtain] at howner
    split at howner
    · next heq =>
      cases hown : s.router.owners[other]? with
      | some own =>
        rw [(Router.obtain_of_some hown s.books).1] at howner
        exact .inl (by rw [← heq, hown, ← howner])
      | none =>
        rw [(Router.obtain_of_none hown s.books).1] at howner
        exact .inr (.inl (Nat.le_of_eq (Option.some.inj howner)))
    · exact .inl howner
  | forget other =>
    obtain ⟨_, _, hact, rfl⟩ := act_eq_ok (play_singleton.mp hs)
    cases hact
    exact .inl (Router.owner_forget_iff.mp howner).1
  | transfer clock source target transfer =>
    obtain ⟨hne, moved, hmoved⟩ | hnil := h.transferActs_cases clock source target transfer
    · rw [owners_of_transfer hmoved hne hs] at howner
      split at howner
      · next heq =>
        cases howner
        exact .inr (.inr ⟨clock, source, transfer, by rw [heq], heq ▸ hne, hmoved⟩)
      · split at howner
        · cases howner
        · exact .inl howner
    · rw [perform, Router.acts, hnil] at hs
      cases hs
      exact .inl howner
  | cancel now other =>
    rw [(Router.loosens_play (Router.isCalm_of_cancels (s.router.cancels_cancelActs now other))
      hplay).owners] at howner
    exact .inl howner
  | cancelOn clock consumers | cancelExcept clock spared =>
    rw [(Router.loosens_play (Router.isCalm_of_cancels (s.router.cancels_cancelEachActs clock _))
      hplay).owners] at howner
    exact .inl howner
  | tick now =>
    have hcalm : ∀ a ∈ s.router.channels.keys.map (Act.tick now), a.isCalm = true := by
      intro a ha
      obtain ⟨key, -, rfl⟩ := List.mem_map.mp ha
      rfl
    rw [(Router.loosens_play hcalm hplay).owners] at howner
    exact .inl howner
  | ack | configure | addHelper | removeHelper | setIds =>
    refine .inl ?_
    rwa [(Router.loosens_play (fun a ha => by rw [List.mem_singleton.mp ha]; rfl) hplay).owners]
      at howner

-- Channels that are handed over have released no tap by then.
def MovesNoTaps (s : Session) : Op → Prop
  | .transfer clock source target transfer => ∀ key s', source ≠ target →
    s.router.owners[source]? = some key →
      s.perform (.transfer clock source target transfer) = .ok s' →
        latestTap (s'.givenBy key) = none
  | _ => True

-- The taps of a channel are numbered in rows, whoever they are for.
theorem Reached.inRows (h : Reached permits s) (hnodup : s.numbers.Nodup) (key : ChannelKey) :
    Gesture.InRows (s.givenBy key) := by
  rw [(h.handed hnodup).given key]
  cases hbook : s.books key with
  | none => exact Channel.counts_nil.rows
  | some k => exact (h.mirrors.lived hbook).counts.rows

-- What a channel that does not exist yet has given, and what it is given for, is nothing.
theorem Reached.gesturesOf_of_unopened (h : Reached permits s) (hnodup : s.numbers.Nodup)
    {handouts : List Handout}
    (hhandouts : ∀ x ∈ handouts, s.router.owners[x.consumer]? = some x.key)
    (hkey : s.router.nextKey ≤ key) : gesturesOf key (s.handed ++ handouts) = [] := by
  have hgiven : gesturesOf key s.handed = [] := by
    have hgiven := (h.handed hnodup).given key
    rwa [(h.handed hnodup).unopened key hkey, Option.map_none, Option.getD_none] at hgiven
  have hnone : handouts.filter (fun x => x.key = key) = [] := by
    refine List.filter_eq_nil_iff.mpr fun x hx heq => ?_
    obtain ⟨channel, hlive⟩ := mem_channels_iff.mp (h.owned.live (hhandouts x hx))
    rw [of_decide_eq_true heq, h.mirrors.unopened hkey] at hlive
    cases hlive
  rw [Router.gesturesOf_append, hgiven, gesturesOf, hnone]
  rfl

-- Owners stay in step with their channels if the ones that they are handed have given no tap.
theorem Reached.inStep_perform (h : Reached permits s) (hs : s.perform op = .ok s')
    (hnodup : s.numbers.Nodup) (hop : s.MovesNoTaps op) (hstep : s.router.InStep s.handed) :
    s'.router.InStep s'.handed := by
  obtain ⟨handouts, hhanded, hhandouts⟩ := h.owner_of_mem_handed hs
  intro consumer key howner hgiven
  obtain hkept | hnew | ⟨now, source, transfer, rfl, hne, hmoved⟩ := h.owner_of_perform hs howner
  · rw [hhanded] at hgiven ⊢
    exact hstep.append h.owned hhandouts hkept hgiven
  · rw [hhanded, h.gesturesOf_of_unopened hnodup hhandouts hnew] at hgiven
    exact absurd rfl hgiven
  · exact absurd (hop key s' hne hmoved hs) hgiven

-- The latest tap that a consumer was given before a gesture is that of the channel that the
-- gesture comes from, if that has given one.
def Continued (handed : List Handout) : Prop :=
  ∀ earlier x later, handed = earlier ++ x :: later → latestTap (gesturesOf x.key earlier) ≠ none →
    latestTap (gesturesFor x.consumer earlier) = latestTap (gesturesOf x.key earlier)

theorem Continued.append {r : Router} {handed handouts : List Handout} (h : Continued handed)
    (hstep : r.InStep handed) (howned : r.Owned)
    (hhandouts : ∀ x ∈ handouts, r.owners[x.consumer]? = some x.key) :
    Continued (handed ++ handouts) := by
  intro earlier x later hsplit
  obtain ⟨before, rfl, hafter⟩ | ⟨rest, hrest, htail⟩ := List.append_eq_append_iff.mp hsplit
  · have hbefore : ∀ y ∈ before, r.owners[y.consumer]? = some y.key := fun y hy =>
      hhandouts y (by rw [hafter]; exact List.mem_append_left _ hy)
    exact hstep.append howned hbefore (hhandouts x (by simp [hafter]))
  · cases rest with
    | nil =>
      rw [List.append_nil] at hrest
      rw [List.nil_append] at htail
      subst hrest
      exact hstep (hhandouts x (by simp [← htail]))
    | cons y rest =>
      obtain ⟨rfl, -⟩ := List.cons.inj htail
      exact h earlier x rest hrest

theorem Reached.continued (h : Reached permits s) (hnodup : s.numbers.Nodup)
    (hpermits : ∀ s op, permits s op → s.MovesNoTaps op) :
    s.router.InStep s.handed ∧ Continued s.handed := by
  induction h with
  | start settings ids =>
    refine ⟨fun {consumer key} howner => ?_, fun earlier x later hsplit => ?_⟩
    · simp at howner
    · simp at hsplit
  | @step s s' op h hop hs ih =>
    have hnodup₀ := (prefix_numbers_play hs).sublist.nodup hnodup
    obtain ⟨hstep, hcontinued⟩ := ih hnodup₀
    obtain ⟨handouts, hhanded, hhandouts⟩ := h.owner_of_mem_handed hs
    refine ⟨h.inStep_perform hs hnodup₀ (hpermits s op hop) hstep, ?_⟩
    rw [hhanded]
    exact hcontinued.append hstep h.owned hhandouts

-- A tap that does not start a row has the number after that of the latest tap before it of
-- its channel, which may have gone to another consumer. So it goes on with a row of its own
-- consumer just if the latest tap that this one was given has the same number as that of the
-- channel. It always does as long as no channel is handed over that has released a tap.
theorem Reached.follows_of_tap (h : Reached permits s) (hnodup : s.numbers.Nodup)
    {earlier later : List Handout} {x : Handout} {g : Gesture} {n : Nat}
    (hsplit : s.handed = earlier ++ x :: later) (hgesture : x.message = .gesture g)
    (htap : g.payload = .tap n) (hn : 1 < n) :
    latestTap (gesturesOf x.key earlier) = some (n - 1) ∧
      (latestTap (gesturesFor x.consumer earlier) = some (n - 1) ↔
        latestTap (gesturesFor x.consumer earlier) = latestTap (gesturesOf x.key earlier)) ∧
      ((∀ s op, permits s op → s.MovesNoTaps op) →
        latestTap (gesturesFor x.consumer earlier) = some (n - 1)) := by
  have hgiven : s.givenBy x.key =
      gesturesOf x.key earlier ++ g :: gesturesOf x.key later := by
    simp [givenBy, hsplit, gesturesOf, hgesture, gesturesIn]
  have hnumber : n ∈ g.tapNumber? := by simp [Gesture.tapNumber?, htap]
  have hlatest := h.inRows hnodup x.key _ _ _ hgiven n hnumber hn
  refine ⟨hlatest, by rw [hlatest], fun hpermits => ?_⟩
  have hcontinued := (h.continued hnodup hpermits).2 earlier x later hsplit
  rw [hlatest] at hcontinued
  exact hcontinued (Option.some_ne_none _)

-- A finger is down for one consumer, and its press was not consumed.
def openedTap : Session :=
  ((start 1).attempt (.touch (Channel.finger .pressed 1 10 0 1) 1)).attempt (.ack 1 false false 1)

-- The finger is handed over before it lifts, and taps once more.
def tappedTwice : Session :=
  ((((((openedTap.attempt (.transfer (.still (Duration.milliseconds 10)) 1 2 .silent)).attempt
    (.touch (Channel.finger .released 1 10 20 2) 2)).attempt (.ack 2 false false 2)).attempt
      (.touch (Channel.finger .pressed 1 10 100 3) 2)).attempt (.ack 3 false false 2)).attempt
        (.touch (Channel.finger .released 1 10 120 4) 2)).attempt (.ack 4 false false 2)

theorem movesNoTaps_openedTap :
    openedTap.MovesNoTaps (.transfer (.still (Duration.milliseconds 10)) 1 2 .silent) := by
  intro key s' _ howner hs
  have hattempt : openedTap.attempt (.transfer (.still (Duration.milliseconds 10)) 1 2 .silent) =
      s' := by rw [attempt, hs]
  obtain rfl := hattempt
  have hfirst : openedTap.router.owners[(1 : ConsumerId)]? = some 0 := by decide +kernel
  rw [hfirst] at howner
  cases howner
  decide +kernel

theorem reached_tappedTwice : Reached MovesNoTaps tappedTwice := by
  have hopened : Reached MovesNoTaps openedTap :=
    ((Reached.start {} ⟨1⟩).attempt (by trivial)).attempt (by trivial)
  exact ((((((hopened.attempt movesNoTaps_openedTap).attempt (by trivial)).attempt
    (by trivial)).attempt (by trivial)).attempt (by trivial)).attempt (by trivial)).attempt
      (by trivial)

-- The second tap goes on with the row that the first one started.
theorem follows_of_tappedTwice :
    Reached MovesNoTaps tappedTwice ∧ tappedTwice.numbers.Nodup ∧
      ∃ earlier x g, tappedTwice.handed = earlier ++ [x] ∧ x.message = .gesture g ∧
        g.payload = .tap 2 ∧ x.consumer = 2 ∧ latestTap (gesturesFor 2 earlier) = some 1 := by
  have hnodup : tappedTwice.numbers.Nodup := by decide +kernel
  have hlast : (tappedTwice.handed.getLast?.map fun x =>
      (x.consumer, (gesturesIn [x.toNotice]).map (·.payload))) = some (2, [.tap 2]) := by
    decide +kernel
  obtain ⟨x, hx, hpair⟩ := Option.map_eq_some_iff.mp hlast
  obtain ⟨earlier, hsplit⟩ := List.getLast?_eq_some_iff.mp hx
  obtain ⟨hconsumer, hpayload⟩ := Prod.mk.inj hpair
  cases hmessage : x.message with
  | touch t => simp [gesturesIn, hmessage] at hpayload
  | gesture g =>
    have htap : g.payload = .tap 2 := by simpa [gesturesIn, hmessage] using hpayload
    obtain ⟨-, -, hrow⟩ :=
      reached_tappedTwice.follows_of_tap hnodup hsplit hmessage htap (by decide)
    exact ⟨reached_tappedTwice, hnodup, earlier, x, g, hsplit, hmessage, htap, hconsumer,
      hconsumer ▸ hrow fun _ _ hop => hop⟩

-- Had it lifted before it was handed over, the first tap would have gone to the first
-- consumer.
def inheritedRow : Session :=
  ((((((openedTap.attempt (.touch (Channel.finger .released 1 10 20 2) 1)).attempt
    (.ack 2 false false 1)).attempt
      (.transfer (.still (Duration.milliseconds 30)) 1 2 .silent)).attempt
      (.touch (Channel.finger .pressed 1 10 100 3) 2)).attempt (.ack 3 false false 2)).attempt
        (.touch (Channel.finger .released 1 10 120 4) 2)).attempt (.ack 4 false false 2)

-- The second consumer is given the second tap of a row without the first.
theorem not_follows_of_inheritedRow :
    Reached (fun _ _ => True) inheritedRow ∧ inheritedRow.numbers.Nodup ∧
      (gesturesFor 1 inheritedRow.handed).filterMap Gesture.tapNumber? = [1] ∧
      (gesturesFor 2 inheritedRow.handed).filterMap Gesture.tapNumber? = [2] := by
  refine ⟨(((((((((Reached.start {} ⟨1⟩).attempt trivial).attempt trivial).attempt
    trivial).attempt trivial).attempt trivial).attempt trivial).attempt trivial).attempt
      trivial).attempt trivial, ?_⟩
  decide +kernel

end Session

end TouchGestures
