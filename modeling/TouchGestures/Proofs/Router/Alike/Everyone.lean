import TouchGestures.Proofs.Router.Alike.Cancel

namespace TouchGestures

namespace Channel

def rung (c : Channel) (now : Time) : List Gesture × Channel :=
  match c.tick now with
  | .ok result => result
  | .error _ => ([], c)

theorem tick_eq_rung (c : Channel) (now : Time) : c.tick now = .ok (c.rung now) := by
  rw [rung, tick_eq]

theorem consumer_rung (c : Channel) (now : Time) : (c.rung now).2.consumer = c.consumer := by
  rw [rung, tick_eq]
  rfl

theorem rung_renumber {ρ : Renumbering} (c : Channel) (now : Time) :
    (c.renumber ρ).rung now = (c.rung now).map (List.map (·.renumber ρ)) (·.renumber ρ) := by
  have htick := c.tick_renumber (ρ := ρ) now
  rw [tick_eq_rung, tick_eq_rung, ok_map] at htick
  exact Except.ok.inj htick

end Channel

namespace Router

variable {ρ : Renumbering} {r r₁ r' : Router} {c : ConsumerId} {key : ChannelKey} {now : Time}
  {log : List (EventId × ConsumerId)}

structure Named (r : Router) : Prop where
  consumer : ∀ {consumer : ConsumerId} {channel : Channel},
    r.channel? consumer = some channel → channel.consumer = consumer

theorem Named.owner_of_live {channel : Channel} (h : r.Named) (howned : r.Owned)
    (hlive : r.channels[key]? = some channel) : r.owners[channel.consumer]? = some key := by
  obtain ⟨consumer, howner⟩ := howned.owned (mem_channels_iff.mpr ⟨channel, hlive⟩)
  rw [h.consumer (channel?_eq_some_iff.mpr ⟨key, howner, hlive⟩), howner]

def ringing (r : Router) (now : Time) (key : ChannelKey) : List Notice :=
  ((r.channels[key]?).map fun channel =>
    (channel.rung now).1.map fun g => ⟨channel.consumer, .gesture g⟩).getD []

-- The alarms of one channel do not depend on those of the others.
theorem tickEach_eq (now : Time) {keys : List ChannelKey} (hdistinct : keys.Nodup) :
    ∃ channels, r.tickEach now keys = .ok (keys.flatMap (r.ringing now), { r with channels }) ∧
      ∀ key, channels[key]? =
        if key ∈ keys then (r.channels[key]?).map fun channel => (channel.rung now).2
        else r.channels[key]? := by
  induction keys generalizing r with
  | nil => exact ⟨r.channels, rfl, fun _ => rfl⟩
  | cons first rest ih =>
    obtain ⟨hnot, hdistinct⟩ := List.nodup_cons.mp hdistinct
    cases hlive : r.channels[first]? with
    | none =>
      obtain ⟨channels, hrest, hchannels⟩ := ih (r := r) hdistinct
      refine ⟨channels, ?_, fun key => ?_⟩
      · simp [tickEach, hlive, hrest, ringing]
      · rw [hchannels]
        by_cases hkey : key = first
        · simp [hkey, hlive]
        · simp [hkey]
    | some channel =>
      obtain ⟨channels, hrest, hchannels⟩ := ih (r := r.put first (channel.rung now).2) hdistinct
      have hothers : ∀ {key : ChannelKey}, key ≠ first →
          (r.put first (channel.rung now).2).channels[key]? = r.channels[key]? :=
        fun hkey => by rw [getElem?_channels_put, if_neg (Ne.symm hkey)]
      have hringing : rest.flatMap ((r.put first (channel.rung now).2).ringing now) =
          rest.flatMap (r.ringing now) :=
        List.flatMap_congr fun key hkey => by
          rw [ringing, hothers fun heq => hnot (heq ▸ hkey), ringing]
      refine ⟨channels, ?_, fun key => ?_⟩
      · simp only [tickEach, hlive, Channel.tick_eq_rung, ok_bind, hrest, hringing,
          Channel.consumer_rung, List.flatMap_cons]
        simp [ringing, hlive, put]
      · rw [hchannels]
        by_cases hkey : key = first
        · subst hkey
          simp [hnot, hlive, getElem?_channels_put]
        · rw [hothers hkey]
          simp [hkey]

def rings (r : Router) (now : Time) (c : ConsumerId) : List Notice :=
  ((r.channel? c).map fun channel : Channel =>
    (channel.rung now).1.map fun g => ⟨c, .gesture g⟩).getD []

-- Of different keys one comes up at most once.
theorem flatMap_ite {keys : List ChannelKey} (hdistinct : keys.Nodup) (notices : List Notice) :
    (keys.flatMap fun other => if other = key then notices else []) =
      if key ∈ keys then notices else [] := by
  induction keys with
  | nil => rfl
  | cons first rest ih =>
    obtain ⟨hnot, hdistinct⟩ := List.nodup_cons.mp hdistinct
    rw [List.flatMap_cons, ih hdistinct]
    by_cases hfirst : first = key
    · subst hfirst
      simp [hnot]
    · simp [hfirst, Ne.symm hfirst]

theorem filter_ringing {keys : List ChannelKey} (howned : r.Owned) (hnamed : r.Named)
    (hkeys : keys.Perm r.channels.keys) :
    (keys.flatMap (r.ringing now)).filter (fun notice => notice.consumer = c) =
      r.rings now c := by
  -- Of all channels only that of the consumer has something for it.
  have hone : ∀ key, (r.ringing now key).filter (fun notice => notice.consumer = c) =
      if r.owners[c]? = some key then r.rings now c else [] := by
    intro key
    cases hlive : r.channels[key]? with
    | none =>
      have hown : r.owners[c]? ≠ some key := fun hown => by
        simpa [hlive] using mem_channels_iff.mp (howned.live hown)
      simp [ringing, hlive, hown]
    | some channel =>
      obtain ⟨d, hown⟩ := howned.owned (mem_channels_iff.mpr ⟨channel, hlive⟩)
      have hconsumer := hnamed.consumer (channel?_of_live hown hlive)
      by_cases hd : d = c
      · subst hd
        rw [if_pos hown, rings, channel?_of_live hown hlive, List.filter_eq_self.mpr]
        · simp [ringing, hlive, hconsumer]
        · simp [ringing, hlive, hconsumer]
      · rw [if_neg fun hown' => hd (howned.single hown hown'), List.filter_eq_nil_iff]
        simp [ringing, hlive, hconsumer, hd]
  rw [List.filter_flatMap]
  simp only [hone]
  cases hown : r.owners[c]? with
  | none => simp [rings, channel?, hown]
  | some key =>
    simp only [Option.some.injEq, @eq_comm _ key]
    rw [flatMap_ite (hkeys.nodup_iff.mpr r.channels.nodup_keys),
      if_pos (hkeys.mem_iff.mpr (Std.ExtTreeMap.mem_keys.mpr (howned.live hown)))]

-- When alarms ring each consumer is told what its own channel has to say.
theorem tick_eq (now : Time) (howned : r.Owned) (hnamed : r.Named) :
    ∃ notices channels, r.tick now = .ok (notices, { r with channels }) ∧
      ∀ c, ({ r with channels } : Router).channel? c =
          (r.channel? c).map (fun channel => (channel.rung now).2) ∧
        notices.filter (fun notice => notice.consumer = c) = r.rings now c := by
  obtain ⟨channels, htick, hchannels⟩ := tickEach_eq now r.channels.nodup_keys
  refine ⟨_, channels, htick, fun c => ⟨?_, filter_ringing howned hnamed (List.Perm.refl _)⟩⟩
  unfold channel?
  cases r.owners[c]? with
  | none => rfl
  | some key =>
    refine (hchannels key).trans ?_
    split
    · rfl
    · next hkey =>
      rw [Std.ExtTreeMap.mem_keys, mem_channels_iff, not_exists] at hkey
      simp [Option.eq_none_iff_forall_ne_some.mpr hkey]

theorem Alike.rings (h : r.Alike ρ c log r') :
    r'.rings now c = (r.rings now c).map (·.renumber ρ) := by
  unfold Router.rings
  rw [h.channel]
  cases r.channel? c with
  | none => rfl
  | some channel =>
    simp [Channel.rung_renumber, Notice.renumber, Message.renumber, Function.comp_def]

theorem Alike.tick {notices : List Notice} (h : r.Alike ρ c log r') (howned : r.Owned)
    (howned' : r'.Owned) (hnamed : r.Named) (hnamed' : r'.Named)
    (htick : r.tick now = .ok (notices, r₁)) :
    ∃ notices' r₁', r'.tick now = .ok (notices', r₁') ∧ r₁.Alike ρ c log r₁' ∧
      notices'.filter (fun notice => notice.consumer = c) =
        (notices.filter fun notice => notice.consumer = c).map (·.renumber ρ) := by
  obtain ⟨rung, channels, heq, hrung⟩ := tick_eq now howned hnamed
  obtain ⟨rung', channels', heq', hrung'⟩ := tick_eq now howned' hnamed'
  cases heq.symm.trans htick
  obtain ⟨hchannel, htold⟩ := hrung c
  obtain ⟨hchannel', htold'⟩ := hrung' c
  refine ⟨rung', _, heq', ⟨h.settings, h.helpers, h.nextHelper, ?_, h.events, h.orphans⟩, ?_⟩
  · rw [hchannel, hchannel', h.channel]
    cases r.channel? c <;> simp [Channel.rung_renumber]
  · rw [htold, htold', h.rings]

theorem channel?_configure (r : Router) (settings : Settings) (c : ConsumerId) :
    (r.configure settings).channel? c =
      (r.channel? c).map (·.configure settings.channel) := by
  unfold channel?
  cases howner : r.owners[c]? with
  | none => simp [configure, howner]
  | some key => simp [configure, howner]

theorem Alike.configure (h : r.Alike ρ c log r') (settings : Settings) :
    (r.configure settings).Alike ρ c log (r'.configure settings) where
  settings := rfl
  helpers := h.helpers
  nextHelper := h.nextHelper
  channel := by
    rw [channel?_configure, channel?_configure, h.channel]
    cases r.channel? c <;> simp [Channel.configure_renumber]
  events := h.events
  orphans := h.orphans

theorem Alike.addHelper (h : r.Alike ρ c log r') (helper : Helper) :
    (r.addHelper helper).2.Alike ρ c log (r'.addHelper helper).2 where
  settings := h.settings
  helpers := by simp [Router.addHelper, h.helpers, h.nextHelper]
  nextHelper := congrArg (· + 1) h.nextHelper
  channel := h.channel
  events := h.events
  orphans := h.orphans

theorem Alike.removeHelper (h : r.Alike ρ c log r') (id : HelperId) :
    (r.removeHelper id).2.Alike ρ c log (r'.removeHelper id).2 where
  settings := h.settings
  helpers := by simp [Router.removeHelper, h.helpers]
  nextHelper := h.nextHelper
  channel := h.channel
  events := h.events
  orphans := h.orphans

theorem Alike.setIds (h : r.Alike ρ c log r') (ids : EventIds) :
    ({ r with ids } : Router).Alike ρ c log { r' with ids } where
  settings := h.settings
  helpers := h.helpers
  nextHelper := h.nextHelper
  channel := h.channel
  events := h.events
  orphans := h.orphans

end Router

end TouchGestures
