import TouchGestures.Proofs.Channel.Bare
import TouchGestures.Proofs.Router.Equip
import TouchGestures.Proofs.Router.Transferred

namespace TouchGestures

namespace Router

namespace View

variable {v : View} {target c : ConsumerId}

-- The view apart from what has gone out of the channel of one consumer.
def bareAt (v : View) (target : ConsumerId) : View :=
  { v with channel := Function.update v.channel target ((v.channel target).map Channel.bare) }

@[simp] theorem channel_bareAt_self :
    (v.bareAt target).channel target = (v.channel target).map Channel.bare :=
  Function.update_self ..

theorem channel_bareAt_of_ne (hne : c ≠ target) : (v.bareAt target).channel c = v.channel c :=
  Function.update_of_ne hne ..

-- A channel that is put in place of the consumer's own.
theorem bareAt_update_self {channel channel' : Channel} (seenBy : EventId → Option ConsumerId)
    (h : channel'.bare = channel.bare) :
    bareAt { v.bareAt target with
        channel := Function.update (v.bareAt target).channel target (some channel'), seenBy }
      target =
    bareAt { v with channel := Function.update v.channel target (some channel), seenBy }
      target := by
  simp [bareAt, h]

-- A channel that is put in place of another one.
theorem bareAt_update_of_ne (hne : c ≠ target) (channel : Option Channel)
    (seenBy : EventId → Option ConsumerId) :
    bareAt { v.bareAt target with
        channel := Function.update (v.bareAt target).channel c channel, seenBy } target =
    bareAt { v with channel := Function.update v.channel c channel, seenBy } target := by
  have hbare : Channel.bare ∘ Channel.bare = Channel.bare := funext Channel.bare_bare
  simp [bareAt, Function.update_of_ne (Ne.symm hne), Function.update_comm hne, hbare]

theorem bareAt_congr (seenBy : EventId → Option ConsumerId) (orphans : Std.ExtTreeSet EventId) :
    bareAt { v.bareAt target with seenBy, orphans } target =
      bareAt { v with seenBy, orphans } target := by
  have hbare : Channel.bare ∘ Channel.bare = Channel.bare := funext Channel.bare_bare
  simp [bareAt, hbare]

theorem own_bareAt_self : (v.bareAt target).own target = (v.own target).bare := by
  unfold own
  rw [channel_bareAt_self]
  cases v.channel target <;> rfl

theorem own_bareAt_of_ne (hne : c ≠ target) : (v.bareAt target).own c = v.own c := by
  unfold own
  rw [channel_bareAt_of_ne hne]
  rfl

theorem touch_bareAt (t : Touch) (c : ConsumerId) :
    ((v.bareAt target).touch t c).map (Prod.map id (·.bareAt target)) =
      (v.touch t c).map (Prod.map id (·.bareAt target)) := by
  unfold View.touch
  rw [map_map, map_map]
  by_cases hc : c = target
  · subst hc
    rw [own_bareAt_self]
    refine map_eq_map_of ((v.own c).touch_bare t) fun answer answer' hsame => ?_
    obtain ⟨hresult, hbare⟩ := Prod.mk.inj hsame
    have hresult : answer.1 = answer'.1 := hresult
    simp only [Prod.map_apply, id, hresult]
    exact congrArg (Prod.mk answer'.1) (bareAt_update_self _ hbare)
  · rw [own_bareAt_of_ne hc]
    refine congrArg ((v.own c).touch t).map (funext fun answer => ?_)
    exact congrArg (Prod.mk answer.1) (bareAt_update_of_ne hc (some answer.2) _)

-- The gestures that a verdict lets out may differ only if they are for the consumer.
theorem ack_bareAt {γ : Type} {f : List Gesture → γ} (id : EventId) (consumed nonBlocking : Bool)
    (sender : ConsumerId) (hf : v.addressee id sender = target → ∀ gestures others,
      f gestures = f others) :
    ((v.bareAt target).ack id consumed nonBlocking sender).map (Prod.map f (·.bareAt target)) =
      (v.ack id consumed nonBlocking sender).map (Prod.map f (·.bareAt target)) := by
  have haddressee : (v.bareAt target).addressee id sender = v.addressee id sender := rfl
  have horphans : (v.bareAt target).orphans = v.orphans := rfl
  unfold View.ack
  rw [haddressee, horphans]
  split
  · exact congrArg (fun after => Except.ok (f [], after)) (bareAt_congr v.seenBy _)
  · dsimp only
    by_cases hto : v.addressee id sender = target
    · rw [hto, channel_bareAt_self]
      cases v.channel target with
      | none => exact congrArg (fun after => Except.ok (f [], after)) (bareAt_congr _ v.orphans)
      | some channel =>
        simp only [Option.map_some, map_map]
        have hsame := channel.ack_bare id consumed nonBlocking
        refine map_eq_map_of hsame fun after after' hsame => ?_
        rw [Prod.map_apply, Prod.map_apply, hf hto after.released after'.released]
        exact congrArg (Prod.mk _) (bareAt_update_self _ hsame)
    · rw [channel_bareAt_of_ne hto]
      cases v.channel (v.addressee id sender) with
      | none => exact congrArg (fun after => Except.ok (f [], after)) (bareAt_congr _ v.orphans)
      | some channel =>
        simp only [map_map]
        refine congrArg (channel.ack id consumed nonBlocking).map (funext fun after => ?_)
        exact congrArg (Prod.mk _) (bareAt_update_of_ne hto _ _)

theorem tick_bareAt (now : Time) :
    ((v.bareAt target).tick now).bareAt target = (v.tick now).bareAt target := by
  have hrung : ∀ channel : Channel, (channel.bare.rung now).2.bare = (channel.rung now).2.bare := by
    intro channel
    have htick := channel.tick_bare now
    rw [Channel.tick_eq_rung, Channel.tick_eq_rung] at htick
    exact Except.ok.inj htick
  have hchannel : (((v.bareAt target).tick now).bareAt target).channel =
      ((v.tick now).bareAt target).channel := by
    funext c
    by_cases hc : c = target
    · subst hc
      simp only [channel_bareAt_self, tick, Option.map_map]
      exact Option.map_congr fun channel _ => hrung channel
    · rw [channel_bareAt_of_ne hc, channel_bareAt_of_ne hc, tick, tick]
      dsimp only
      rw [channel_bareAt_of_ne hc]
  exact View.ext rfl hchannel rfl rfl

-- What of an output does not depend on the gestures for one consumer.
def Neglects {γ : Type} (target c : ConsumerId) (f : Output → γ) : Prop :=
  ∀ o o' : Output, o.answer = o'.answer → (c ≠ target → o.gestures = o'.gestures) → f o = f o'

variable {γ : Type} {f : Output → γ}

theorem output_bareAt (hf : Neglects target c f) (input : Input) :
    ((v.bareAt target).output c input).map (Prod.map f (·.bareAt target)) =
      (v.output c input).map (Prod.map f (·.bareAt target)) := by
  cases input with
  | touch t d =>
    simp only [View.output, map_map]
    refine map_eq_map_of (touch_bareAt t d) fun answer answer' hsame => ?_
    obtain ⟨hresult, hbare⟩ := Prod.mk.inj hsame
    have hresult : answer.1 = answer'.1 := hresult
    simp only [Prod.map_apply, hresult, hbare]
  | ack id consumed nonBlocking sender =>
    have haddressee : (v.bareAt target).addressee id sender = v.addressee id sender := rfl
    simp only [View.output, map_map, haddressee]
    have hneglects : v.addressee id sender = target → ∀ gestures others : List Gesture,
        f ⟨none, if v.addressee id sender = c then gestures else []⟩ =
          f ⟨none, if v.addressee id sender = c then others else []⟩ := fun hto gestures others =>
      hf _ _ rfl fun hne => by rw [hto, if_neg (Ne.symm hne), if_neg (Ne.symm hne)]
    exact map_eq_map_of (ack_bareAt id consumed nonBlocking sender hneglects)
      fun first first' hsame => hsame
  | tick now =>
    refine congrArg Except.ok (congrArg₂ Prod.mk (hf _ _ rfl fun hne => ?_) (tick_bareAt now))
    rw [channel_bareAt_of_ne hne]

-- How touches fare does not depend on what has gone out to one consumer, and no more does
-- what is released for the others.
theorem outputs_bareAt (hf : Neglects target c f) (inputs : List Input) :
    ((v.bareAt target).outputs c inputs).map (List.map f) =
      (v.outputs c inputs).map (List.map f) := by
  induction inputs generalizing v with
  | nil => rfl
  | cons input rest ih =>
    refine bind_map_of (output_bareAt hf input) fun first first' hsame => ?_
    obtain ⟨hseen, hbare⟩ := Prod.mk.inj hsame
    have hrest : (first.2.outputs c rest).map (List.map f) =
        (first'.2.outputs c rest).map (List.map f) := by
      rw [← ih (v := first.2), ← ih (v := first'.2)]
      exact congrArg (fun after : View => (after.outputs c rest).map (List.map f)) hbare
    refine bind_map_of hrest fun others others' hothers => ?_
    simp only [ok_map, List.map_cons, hseen, hothers]

end View

section Reset

variable {r : Router} {c target : ConsumerId} {own next : ChannelKey} {moved : Channel}

-- Making the channel of a consumer forget its history changes nothing else.
theorem bareAt_forgetHistory (h : r.Tidy) (howner : r.owners[target]? = some own) :
    (r.forgetHistory own).view.bareAt target = r.view.bareAt target := by
  obtain ⟨moved, hlive, hchannel, -⟩ := h.live_of_owner howner
  have hforget : r.forgetHistory own = r.put own moved.forgetHistory := by
    simp only [forgetHistory, hlive]
  have hseen : (r.put own moved.forgetHistory).seenBy? = r.seenBy? := seenBy?_put hlive rfl
  have hput : (r.put own moved.forgetHistory).channel? = _ := channel?_put_eq h.owned howner
  have hview : (r.forgetHistory own).view =
      { r.view with channel := Function.update r.channel? target (some moved.forgetHistory) } := by
    rw [hforget, view, hseen, hput]
    rfl
  have hsame : r.view.channel target = some moved := hchannel
  rw [hview, View.bareAt, View.bareAt]
  simp only [Function.update_self, Function.update_idem, hsame, Option.map_some,
    Channel.bare_forgetHistory]
  rfl

theorem mem_channels_forgetHistory (hlive : r.channels[own]? = some moved) {key : ChannelKey} :
    key ∈ (r.forgetHistory own).channels ↔ key ∈ r.channels := by
  simp only [forgetHistory, hlive]
  exact mem_channels_put hlive key

theorem outputs_forgetHistory {γ : Type} {f : Output → γ} (hf : View.Neglects target c f)
    (h : r.Tidy) (howner : r.owners[target]? = some own) (inputs : List Input) :
    ((r.forgetHistory own).outputs c inputs).map (List.map f) =
      (r.outputs c inputs).map (List.map f) := by
  rw [outputs_view (h.forgetHistory own), outputs_view h, ← View.outputs_bareAt hf,
    ← View.outputs_bareAt (v := r.view) hf, bareAt_forgetHistory h howner]

-- It changes nothing at all if there is nothing to forget.
theorem forgetHistory_of_outlet (hlive : r.channels[own]? = some moved)
    (houtlet : moved.queue.outlet = {}) : r.forgetHistory own = r := by
  have hsame : moved.forgetHistory = moved := by
    unfold Channel.forgetHistory Pipeline.forgetHistory Release.Queue.forgetHistory
    rw [← houtlet]
  simp only [forgetHistory, hlive, hsame]
  exact put_self hlive

-- Where keys for new channels come from does not matter.
theorem outputs_nextKey (h : r.Tidy) (hnext : ∀ key, key ∈ r.channels → key < next)
    (inputs : List Input) : ({ r with nextKey := next } : Router).outputs c inputs =
      r.outputs c inputs := by
  have htidy : ({ r with nextKey := next } : Router).Tidy :=
    h.congr rfl rfl (fun hkey hmem => absurd (hnext _ hmem) (Nat.not_lt.mpr hkey)) ⟨h.attended.live⟩
  rw [outputs_view htidy, outputs_view h]
  rfl

end Reset

end Router

namespace Session

open Router (Input Output Op)

variable {s : Session} {permits : Session → Op → Prop} {source target : ConsumerId}
  {own key next : ChannelKey} {idle : Channel}

-- A transfer opens no channel.
theorem Reached.lt_of_mem_channels (h : Reached permits s)
    (hnext : ∀ other, other ∈ s.router.channels → other < next)
    (hsource : s.router.owners[source]? = some own) (hne : source ≠ target) {s' : Session}
    {clock : Clock} {transfer : Router.Transfer}
    (hs : s.perform (.transfer clock source target transfer) = .ok s') :
    ∀ other, other ∈ s'.router.channels → other < next := by
  have hreached : Reached (fun _ _ => True) s' := (h.mono fun _ _ _ => trivial).step trivial hs
  intro other hother
  obtain ⟨consumer, howner⟩ := hreached.owned.owned hother
  rw [owners_of_transfer hsource hne hs] at howner
  split at howner
  · cases howner
    exact hnext _ (h.owned.live hsource)
  · split at howner
    · cases howner
    · exact hnext _ (h.owned.live howner)

-- Suppose that touches are handed over silently to a consumer that has no channel, and on
-- the other hand to one that has an idle channel, everything else being the same. Whatever
-- happens then, touches fare the same, and the same gestures are released for all others. For
-- the consumer itself those are released that would be if the channel that it gets had been
-- made to forget its history. So it gets the same ones just if this makes no difference, as
-- when nothing was suppressed or open.
theorem Reached.outputs_of_equip (h : Reached permits s)
    (hsource : s.router.owners[source]? = some own)
    (htarget : s.router.hasChannel target = false) (hidle : idle.Idle)
    (hkey : key ∉ s.router.channels) (hnext : ∀ other, other ∈ s.router.channels → other < next)
    (clock : Clock) :
    ∃ notices router router' moved,
      s.router.transferTouches clock source target .silent = .ok (true, notices, router) ∧
      (s.router.equip target key idle next).transferTouches clock source target .silent =
        .ok (true, notices, router') ∧
      router.channel? target = some moved ∧
      ∀ inputs : List Input,
        (∀ c, (router'.outputs c inputs).map (List.map Output.answer) =
          (router.outputs c inputs).map (List.map Output.answer)) ∧
        (∀ c, c ≠ target → router'.outputs c inputs = router.outputs c inputs) ∧
        router'.outputs target inputs = (router.forgetHistory own).outputs target inputs ∧
        (router'.outputs target inputs = router.outputs target inputs ↔
          (router.forgetHistory own).outputs target inputs = router.outputs target inputs) ∧
        (moved.queue.outlet = {} →
          router'.outputs target inputs = router.outputs target inputs) := by
  have hnone : s.router.owners[target]? = none := Router.hasChannel_eq_false_iff.mp htarget
  have hne : source ≠ target := by
    rintro rfl
    rw [hsource] at hnone
    cases hnone
  obtain ⟨notices, s', hs, htransfer⟩ := h.exists_transfer hsource hne clock .silent
  have hreached : Reached (fun _ _ => True) s' := (h.mono fun _ _ _ => trivial).step trivial hs
  have htidy := hreached.tidy
  have hmoved : s'.router.owners[target]? = some own :=
    (owners_of_transfer hsource hne hs target).trans (if_pos rfl)
  obtain ⟨moved, hlive, hchannel, -⟩ := htidy.live_of_owner hmoved
  have hbelow : ∀ other, other ∈ (s'.router.forgetHistory own).channels → other < next := by
    intro other hother
    rw [Router.mem_channels_forgetHistory hlive] at hother
    exact h.lt_of_mem_channels hnext hsource hne hs other hother
  have hequip :
      (s.router.equip target key idle next).transferTouches clock source target .silent = _ :=
    Router.transferTouches_equip hkey h.tidy hsource hnone hidle
  rw [htransfer, ok_map] at hequip
  refine ⟨notices, s'.router, _, moved, htransfer, hequip, hchannel, fun inputs => ?_⟩
  have hsame : ∀ c, ({ s'.router.forgetHistory own with nextKey := next } : Router).outputs c
      inputs = (s'.router.forgetHistory own).outputs c inputs := fun c =>
    Router.outputs_nextKey (htidy.forgetHistory own) hbelow inputs
  refine ⟨fun c => ?_, fun c hc => ?_, hsame target, by rw [hsame target], fun houtlet => ?_⟩
  · rw [hsame]
    exact Router.outputs_forgetHistory (fun o o' hanswer _ => hanswer) htidy hmoved inputs
  · have hneglects : Router.View.Neglects target c (id : Output → Output) :=
      fun o o' hanswer hgestures => Output.ext hanswer (hgestures hc)
    have hother := Router.outputs_forgetHistory hneglects htidy hmoved inputs
    rw [List.map_id_fun, Except.map_id] at hother
    rw [hsame]
    exact hother
  · rw [hsame, Router.forgetHistory_of_outlet hlive houtlet]

-- A finger is down, and its press was consumed, so that nothing may come of its sequence.
def consumedPress : Session :=
  ((start 1).attempt (.touch (Channel.finger .pressed 1 10 0 1) 1)).attempt (.ack 1 true false 1)

theorem reached_consumedPress : Reached (fun _ _ => True) consumedPress :=
  ((Reached.start {} ⟨1⟩).attempt trivial).attempt trivial

def laterMove : List Input :=
  [.touch (Channel.finger .moved 1 50 10 2) 2, .ack 2 false false 2]

theorem idle_ofSettings (consumer : ConsumerId) (settings : ChannelSettings) :
    (Channel.ofSettings consumer settings).Idle :=
  ⟨rfl, rfl⟩

theorem outputs_of_consumedPress :
    Reached (fun _ _ => True) consumedPress ∧ consumedPress.router.hasChannel 2 = false ∧
      ∃ notices router router',
        consumedPress.router.transferTouches (.still (Duration.milliseconds 5)) 1 2 .silent =
          .ok (true, notices, router) ∧
        (consumedPress.router.equip 2 1 (Channel.ofSettings 2 {}) 2).transferTouches
          (.still (Duration.milliseconds 5)) 1 2 .silent = .ok (true, notices, router') ∧
        (router'.outputs 2 laterMove).map (List.map Output.answer) =
          (router.outputs 2 laterMove).map (List.map Output.answer) ∧
        router'.outputs 2 laterMove = (router.forgetHistory 0).outputs 2 laterMove := by
  have hsource : consumedPress.router.owners[(1 : ConsumerId)]? = some 0 := by decide +kernel
  have htarget : consumedPress.router.hasChannel 2 = false := by decide +kernel
  have hkeys : consumedPress.router.channels.keys = [0] := by decide +kernel
  have honly : ∀ other, other ∈ consumedPress.router.channels → other = 0 := by
    intro other hother
    rw [← Std.ExtTreeMap.mem_keys, hkeys] at hother
    exact List.mem_singleton.mp hother
  have hkey : 1 ∉ consumedPress.router.channels := fun hmem => absurd (honly 1 hmem) (by decide)
  have hnext : ∀ other, other ∈ consumedPress.router.channels → other < 2 := fun other hother => by
    rw [honly other hother]
    decide
  obtain ⟨notices, router, router', moved, htransfer, htransfer', -, houtputs⟩ :=
    reached_consumedPress.outputs_of_equip hsource htarget (idle_ofSettings 2 {}) hkey hnext
      (.still (Duration.milliseconds 5))
  obtain ⟨hanswers, -, hforgotten, -, -⟩ := houtputs laterMove
  exact ⟨reached_consumedPress, htarget, notices, router, router', htransfer, htransfer',
    hanswers 2, hforgotten⟩

def afterTransfer (r : Router) : Except Violation (List (List Gesture.Kind)) := do
  let (_, _, router) ← r.transferTouches (.still (Duration.milliseconds 5)) 1 2 .silent
  (router.outputs 2 laterMove).map (List.map fun output => output.gestures.map (·.kind))

-- Nothing comes of it, but if the second consumer has an idle channel the move scrolls.
theorem outputs_differ_of_consumedPress :
    Reached (fun _ _ => True) consumedPress ∧ consumedPress.router.hasChannel 2 = false ∧
      (Channel.ofSettings 2 {}).Idle ∧
      afterTransfer consumedPress.router = .ok [[], []] ∧
      afterTransfer (consumedPress.router.equip 2 1 (Channel.ofSettings 2 {}) 2) =
        .ok [[], [.tapCancel, .scrollBegin, .scrollUpdate]] := by
  refine ⟨reached_consumedPress, ?_, idle_ofSettings 2 {}, ?_⟩
  · decide +kernel
  · decide +kernel

end Session

end TouchGestures
