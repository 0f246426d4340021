import TouchGestures.Proofs.Router.Alike.Everyone

namespace TouchGestures

namespace Message

def map (τ : Touch → Touch) (γ : Gesture → Gesture) : Message → Message
  | .gesture g => .gesture (γ g)
  | .touch t => .touch (τ t)

end Message

def Notice.map (τ : Touch → Touch) (γ : Gesture → Gesture) (n : Notice) : Notice :=
  { n with message := n.message.map τ γ }

theorem Notice.map_id (n : Notice) : n.map id id = n := by
  obtain ⟨consumer, message⟩ := n
  cases message <;> rfl

namespace Router

theorem map_insert_channels (channels : Std.ExtTreeMap ChannelKey Channel) (key : ChannelKey)
    (channel : Channel) (φ : ChannelKey → Channel → Channel) :
    (channels.insert key channel).map φ = (channels.map φ).insert key (φ key channel) :=
  Std.ExtTreeMap.ext_getElem? fun other => by
    simp only [Std.ExtTreeMap.getElem?_map, Std.ExtTreeMap.getElem?_insert]
    split
    · next h =>
      obtain rfl : key = other := Std.LawfulEqCmp.eq_of_compare h
      rfl
    · rfl

theorem map_erase_channels (channels : Std.ExtTreeMap ChannelKey Channel) (key : ChannelKey)
    (φ : ChannelKey → Channel → Channel) :
    (channels.erase key).map φ = (channels.map φ).erase key :=
  Std.ExtTreeMap.ext_getElem? fun other => by
    simp only [Std.ExtTreeMap.getElem?_map, Std.ExtTreeMap.getElem?_erase]
    split <;> rfl

-- The router with something changed about each of its channels.
def adjust (φ : ChannelKey → Channel → Channel) (r : Router) : Router :=
  { r with channels := r.channels.map φ }

-- A change to the channel under a key that a made up touch does not meet with, if the touch
-- and what comes of it are changed accordingly.
structure Respects (φ : ChannelKey → Channel → Channel) (τ : Touch → Touch)
    (γ : Gesture → Gesture) (key : ChannelKey) (t : Touch) : Prop where
  kind : (τ t).kind = t.kind
  contact : (τ t).contact = t.contact
  touch : ∀ {c d : Channel} {result : TouchResult}, c.touch t = .ok (result, d) →
    (φ key c).touch (τ t) = .ok (result, φ key d)
  ack : ∀ {c d : Channel} {consumed : Bool}, c.ack t.id consumed false = .ok d →
    (φ key c).ack (τ t).id consumed false = .ok (φ key d)
  drain : ∀ c : Channel, (φ key c).drain = c.drain.map (List.map γ) (φ key)

variable {φ : ChannelKey → Channel → Channel} {τ : Touch → Touch} {γ : Gesture → Gesture}
  {r r₁ : Router} {consumer : ConsumerId} {key : ChannelKey} {now now' : Time}
  {clock clock' : Clock} {t : Touch} {touches : List Touch} {notices : List Notice}

@[simp] theorem channels_adjust :
    (r.adjust φ).channels[key]? = (r.channels[key]?).map (φ key) :=
  Std.ExtTreeMap.getElem?_map

theorem adjust_eq_iff {r' : Router} :
    r'.adjust φ = r.adjust φ ↔
      (∀ key, (r'.channels[key]?).map (φ key) = (r.channels[key]?).map (φ key)) ∧
        { r' with channels := ∅ } = { r with channels := ∅ } := by
  constructor
  · intro h
    refine ⟨fun key => ?_, congrArg (fun r : Router => { r with channels := ∅ }) h⟩
    rw [← channels_adjust, h, channels_adjust]
  · rintro ⟨hchannels, hrest⟩
    have hmapped : r'.channels.map φ = r.channels.map φ := Std.ExtTreeMap.ext_getElem? fun key => by
      rw [Std.ExtTreeMap.getElem?_map, Std.ExtTreeMap.getElem?_map, hchannels]
    unfold adjust
    rw [hmapped]
    exact congrArg (fun bare : Router => { bare with channels := r.channels.map φ }) hrest

theorem put_adjust (channel : Channel) :
    (r.adjust φ).put key (φ key channel) = (r.put key channel).adjust φ := by
  simp [put, adjust, map_insert_channels]

theorem bind_adjust (t : Touch) :
    (r.adjust φ).bind t consumer = (r.bind t consumer).adjust φ := by
  unfold bind
  cases t.kind <;> rfl

theorem removeChannel_adjust :
    (r.adjust φ).removeChannel key = (r.removeChannel key).adjust φ := by
  simp [removeChannel, adjust, map_erase_channels, eventsOf]

theorem forgetHistory_adjust (h : ∀ c : Channel, (φ key c).forgetHistory = φ key c.forgetHistory) :
    (r.adjust φ).forgetHistory key = (r.forgetHistory key).adjust φ := by
  simp only [forgetHistory, channels_adjust]
  cases r.channels[key]? with
  | none => rfl
  | some channel =>
    simp only [Option.map_some, h]
    exact put_adjust channel.forgetHistory

theorem dropReleased_adjust (h : ∀ c : Channel, (φ key c).drain.2 = φ key c.drain.2) :
    (r.adjust φ).dropReleased key = (r.dropReleased key).adjust φ := by
  simp only [dropReleased, channels_adjust]
  cases r.channels[key]? with
  | none => rfl
  | some channel =>
    simp only [Option.map_some, h]
    exact put_adjust channel.drain.2

theorem reassign_adjust {source target : ConsumerId}
    (h : ∀ c : Channel, (φ key c).reassign target = φ key (c.reassign target)) :
    (r.adjust φ).reassign source target key = (r.reassign source target key).adjust φ := by
  simp only [reassign, channels_adjust]
  cases r.channels[key]? with
  | none => rfl
  | some channel =>
    simp only [Option.map_some, h]
    exact put_adjust (r := { r with owners := (r.owners.erase source).insert target key })
      (channel.reassign target)

theorem bind_eq_of_respects (h : Respects φ τ γ key t) (r : Router) :
    r.bind (τ t) consumer = r.bind t consumer := by
  unfold bind
  rw [h.kind, h.contact]

theorem inject_adjust (h : Respects φ τ γ key t)
    (hhandles : r.handles consumer (τ t) = r.handles consumer t)
    (hr : r.inject consumer key t = .ok (notices, r₁)) :
    (r.adjust φ).inject consumer key (τ t) = .ok (notices.map (·.map τ γ), r₁.adjust φ) := by
  unfold inject at hr ⊢
  simp only [channels_adjust]
  cases hlive : r.channels[key]? with
  | none =>
    rw [hlive] at hr
    cases hr
    rfl
  | some channel =>
    rw [hlive] at hr
    obtain ⟨⟨result, touched⟩, htouch, hr⟩ := bind_eq_ok.mp hr
    simp only [Option.map_some, h.touch htouch, ok_bind, bind_eq_of_respects h, bind_adjust,
      put_adjust]
    dsimp only at hr
    split at hr
    · next haccepted =>
      obtain ⟨acked, hack, hr⟩ := bind_eq_ok.mp hr
      cases hr
      have hbound : ((r.bind t consumer).adjust φ).handles consumer (τ t) =
          (r.bind t consumer).handles consumer t := by
        obtain ⟨bindings, hbind⟩ := bind_frame r t consumer
        rw [hbind]
        exact hhandles
      have hack' := h.ack hack
      rw [← hbound] at hack'
      rw [if_pos haccepted, hack', ok_bind]
      simp only [h.drain, Prod.map_fst, Prod.map_snd, put_adjust, List.map_cons, List.map_map]
      rfl
    · next haccepted =>
      cases hr
      rw [if_neg haccepted]
      rfl

theorem injectAll_adjust (h : ∀ t ∈ touches, Respects φ τ γ key t)
    (hhandles : ∀ t ∈ touches, r.handles consumer (τ t) = r.handles consumer t)
    (hr : r.injectAll consumer key touches = .ok (notices, r₁)) :
    (r.adjust φ).injectAll consumer key (touches.map τ) =
      .ok (notices.map (·.map τ γ), r₁.adjust φ) := by
  induction touches generalizing r notices with
  | nil =>
    cases hr
    rfl
  | cons t rest ih =>
    obtain ⟨⟨first, between⟩, hfirst, hr⟩ := bind_eq_ok.mp hr
    obtain ⟨⟨others, last⟩, hothers, hr⟩ := bind_eq_ok.mp hr
    cases hr
    have hfirst' :=
      inject_adjust (h t List.mem_cons_self) (hhandles t List.mem_cons_self) hfirst
    have hsame : between.handles = r.handles := by
      obtain ⟨_, _, rfl⟩ := inject_frame hfirst
      rfl
    have hothers' := ih (fun u hu => h u (List.mem_cons_of_mem t hu))
      (fun u hu => hsame ▸ hhandles u (List.mem_cons_of_mem t hu)) hothers
    simp only [List.map_cons, injectAll, hfirst', hothers', ok_bind, List.map_append]

-- The contacts are cancelled by touches that are changed alike.
theorem cancelChannel_adjust {cancelled : Bool}
    (h : ∀ channel ∈ r.channels[key]?, ∀ t ∈ (channel.contacts.cancels now r.ids).1,
      Respects φ τ γ key t ∧ r.handles consumer (τ t) = r.handles consumer t)
    (hcancels : ∀ channel ∈ r.channels[key]?, (φ key channel).contacts.cancels now' r.ids =
      (channel.contacts.cancels now r.ids).map (List.map τ) id)
    (hr : r.cancelChannel now consumer key = .ok (cancelled, notices, r₁)) :
    (r.adjust φ).cancelChannel now' consumer key =
      .ok (cancelled, notices.map (·.map τ γ), r₁.adjust φ) := by
  unfold cancelChannel at hr ⊢
  simp only [channels_adjust]
  cases hlive : r.channels[key]? with
  | none =>
    rw [hlive] at hr
    cases hr
    rfl
  | some channel =>
    rw [hlive] at hr
    obtain ⟨⟨given, last⟩, hinject, hr⟩ := bind_eq_ok.mp hr
    cases hr
    have hinject' := injectAll_adjust
      (r := { r with ids := (channel.contacts.cancels now r.ids).2 })
      (fun t ht => (h channel hlive t ht).1) (fun t ht => (h channel hlive t ht).2) hinject
    have hids : (r.adjust φ).ids = r.ids := rfl
    simp only [Option.map_some, hids, hcancels channel hlive, Prod.map_fst, Prod.map_snd, id]
    refine (congrArg (· >>= _) hinject').trans ?_
    rw [ok_bind, List.isEmpty_map]
    rfl

section Enter

variable {contacts : List Contact} {channel : Channel} {P : EventId → Prop}
  (henter : ∀ {c d : Channel} {contact : Contact} {now : Time} {id : EventId}, P id →
    c.enter contact now id = .ok d → (φ key c).enter contact now id = .ok (φ key d))

include henter

theorem enterAll_adjust (hlive : r.channels[key]? = some channel)
    (hids : ∀ id ∈ r.ids.drawn contacts.length, P id)
    (hr : r.enterAll clock key contacts = .ok r₁) :
    (r.adjust φ).enterAll clock key contacts = .ok (r₁.adjust φ) := by
  induction contacts generalizing r channel clock with
  | nil =>
    cases hr
    rfl
  | cons contact rest ih =>
    obtain ⟨between, hfirst, hrest⟩ := bind_eq_ok.mp hr
    simp only [enter, hlive, drawId] at hfirst
    obtain ⟨entered, hentered, heq⟩ := bind_eq_ok.mp hfirst
    cases heq
    have hentered' := henter (hids _ List.mem_cons_self) hentered
    have hrest' := ih (by rw [getElem?_channels_put, if_pos rfl])
      (fun id hid => hids id (List.mem_cons_of_mem _ hid)) hrest
    have hsource : (r.adjust φ).ids = r.ids := rfl
    simp only [enterAll, enter, drawId, channels_adjust, hlive, Option.map_some, hsource,
      hentered', ok_bind]
    exact (congrArg (enterAll · clock.rest key rest) (put_adjust entered)).trans hrest'

theorem reenter_adjust
    (hforget : ∀ c : Channel, (φ key c).forgetHistory = φ key c.forgetHistory)
    (hdrain : ∀ c : Channel, (φ key c).drain.2 = φ key c.drain.2)
    (hids : ∀ id ∈ r.ids.drawn contacts.length, P id)
    (hr : r.reenter clock key contacts = .ok r₁) :
    (r.adjust φ).reenter clock key contacts = .ok (r₁.adjust φ) := by
  cases hlive : r.channels[key]? with
  | none =>
    rw [reenter_of_none hlive] at hr
    cases hr
    exact reenter_of_none (by rw [channels_adjust, hlive, Option.map_none])
  | some channel =>
    obtain ⟨between, hentered, heq⟩ := bind_eq_ok.mp hr
    cases heq
    have hforgotten : (r.forgetHistory key).channels[key]? = some channel.forgetHistory := by
      simp [forgetHistory, hlive, getElem?_channels_put]
    have hsource : (r.forgetHistory key).ids = r.ids := by
      simp [forgetHistory, hlive, put]
    have hentered' := enterAll_adjust henter hforgotten (hsource ▸ hids) hentered
    rw [reenter, forgetHistory_adjust hforget, hentered', ok_bind, dropReleased_adjust hdrain]

end Enter

section Elsewhere

variable {source target : ConsumerId} {transfer : Transfer} {keys : List ChannelKey}
  {f : Channel → Channel}

-- A change to all channels but some.
def elsewhere (keys : List ChannelKey) (f : Channel → Channel) (key : ChannelKey) :
    Channel → Channel :=
  if key ∈ keys then id else f

theorem elsewhere_of_mem (h : key ∈ keys) (c : Channel) : elsewhere keys f key c = c := by
  rw [elsewhere, if_pos h, id]

-- Routers differ in just what is changed about some channels if these alone are excepted.
theorem adjust_elsewhere_eq_iff {r' : Router} :
    r'.adjust (elsewhere keys f) = r.adjust (elsewhere keys f) ↔
      (∀ key ∈ keys, r'.channels[key]? = r.channels[key]?) ∧
        r'.adjust (fun _ => f) = r.adjust fun _ => f := by
  rw [adjust_eq_iff, adjust_eq_iff]
  constructor
  · rintro ⟨hchannels, hrest⟩
    have hsame : ∀ key ∈ keys, r'.channels[key]? = r.channels[key]? := fun key hkey => by
      have hkept := hchannels key
      rwa [elsewhere, if_pos hkey, Option.map_id] at hkept
    refine ⟨hsame, fun key => ?_, hrest⟩
    by_cases hkey : key ∈ keys
    · rw [hsame key hkey]
    · have hchanged := hchannels key
      rwa [elsewhere, if_neg hkey] at hchanged
  · rintro ⟨hsame, hchannels, hrest⟩
    refine ⟨fun key => ?_, hrest⟩
    by_cases hkey : key ∈ keys
    · rw [hsame key hkey]
    · rw [elsewhere, if_neg hkey]
      exact hchannels key

-- What is done with one channel goes the same way whatever is changed about the others.
theorem cancelChannel_elsewhere {cancelled : Bool} (hsame : ∀ c, φ key c = c)
    (hr : r.cancelChannel now consumer key = .ok (cancelled, notices, r₁)) :
    (r.adjust φ).cancelChannel now consumer key = .ok (cancelled, notices, r₁.adjust φ) := by
  have hrespects : ∀ t, Respects φ id id key t := fun t =>
    { kind := rfl
      contact := rfl
      touch := fun {c d result} h => by rw [hsame, hsame, id, h]
      ack := fun {c d consumed} h => by rw [hsame, hsame, id, h]
      drain := fun c => by simp [hsame, Prod.map] }
  have hcancel := cancelChannel_adjust (τ := id) (γ := id) (fun _ _ t _ => ⟨hrespects t, rfl⟩)
    (fun channel _ => by rw [hsame, List.map_id_fun, Prod.map_id, id]) hr
  rwa [List.map_congr_left fun notice _ => notice.map_id, List.map_id'] at hcancel

theorem discard_elsewhere
    (hsame : ∀ other, r.owners[consumer]? = some other → ∀ c, φ other c = c)
    (hr : r.discard now consumer = .ok (notices, r₁)) :
    (r.adjust φ).discard now consumer = .ok (notices, r₁.adjust φ) := by
  have howners : (r.adjust φ).owners = r.owners := rfl
  unfold discard at hr ⊢
  rw [howners]
  cases howner : r.owners[consumer]? with
  | none =>
    rw [howner] at hr
    cases hr
    rfl
  | some other =>
    simp only [howner] at hr
    obtain ⟨⟨cancelled, given, between⟩, hcancel, heq⟩ := bind_eq_ok.mp hr
    cases heq
    simp only [cancelChannel_elsewhere (hsame other howner) hcancel, ok_bind, removeChannel_adjust]

theorem handOver_elsewhere (hsame : ∀ c, φ key c = c)
    (htarget : ∀ other, r.owners[target]? = some other → ∀ c, φ other c = c)
    (hr : r.handOver clock source target key transfer = .ok (notices, r₁)) :
    (r.adjust φ).handOver clock source target key transfer = .ok (notices, r₁.adjust φ) := by
  obtain ⟨⟨discarded, between⟩, hdiscard, hr⟩ := bind_eq_ok.mp hr
  have hdiscard' := discard_elsewhere htarget hdiscard
  have hassigned : (between.adjust φ).reassign source target key =
      (between.reassign source target key).adjust φ :=
    reassign_adjust fun c => by rw [hsame, hsame]
  have hforget : ∀ c : Channel, (φ key c).forgetHistory = φ key c.forgetHistory :=
    fun c => by rw [hsame, hsame]
  unfold handOver
  rw [hdiscard', ok_bind]
  dsimp only at hr ⊢
  rw [hassigned]
  cases transfer with
  | silent =>
    cases hr
    have hreplacing : (r.adjust φ).hasChannel target = r.hasChannel target := rfl
    rw [hreplacing, forgetHistory_adjust hforget, ← apply_ite (adjust φ)]
  | cancelling =>
    obtain ⟨⟨cancelled, given, after⟩, hcancel, hr⟩ := bind_eq_ok.mp hr
    obtain ⟨last, hreenter, heq⟩ := bind_eq_ok.mp hr
    cases heq
    have hlive : ((between.reassign source target key).adjust φ).channels[key]? =
        (between.reassign source target key).channels[key]? := by
      rw [channels_adjust, Option.map_congr fun c _ => hsame c, Option.map_id']
    have hreenter' := reenter_adjust (P := fun _ => True) (φ := φ)
      (fun {c d contact now id} _ h => by rw [hsame, hsame, h]) hforget
      (fun c => by rw [hsame, hsame]) (fun _ _ => trivial) hreenter
    dsimp only
    rw [cancelChannel_elsewhere hsame hcancel, ok_bind, hlive]
    dsimp only
    rw [hreenter', ok_bind]

end Elsewhere

end Router

end TouchGestures
