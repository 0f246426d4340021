import Mathlib.Data.List.Sort
import TouchGestures.Proofs.Router.View

namespace TouchGestures

-- Nothing is down on the channel, and it has nothing to release.
structure Channel.Idle (c : Channel) : Prop where
  down : c.contacts.live = []
  queued : c.queue.packets = []

namespace Router

section Equip

variable {r r' : Router} {source target consumer : ConsumerId} {key own other : ChannelKey}
  {idle channel : Channel} {next : ChannelKey} {now : Time} {clock : Clock}

-- The router if a consumer owned a channel besides.
def equip (r : Router) (target : ConsumerId) (key : ChannelKey) (idle : Channel)
    (next : ChannelKey) : Router :=
  { r with
    channels := r.channels.insert key idle
    owners := r.owners.insert target key
    nextKey := next }

theorem channels_equip (hne : other ≠ key) :
    (r.equip target key idle next).channels[other]? = r.channels[other]? := by
  simp [equip, Std.ExtTreeMap.getElem?_insert, Ne.symm hne]

theorem owners_equip (hne : consumer ≠ target) :
    (r.equip target key idle next).owners[consumer]? = r.owners[consumer]? := by
  simp [equip, Std.ExtTreeMap.getElem?_insert, Ne.symm hne]

theorem put_equip (hne : other ≠ key) :
    (r.equip target key idle next).put other channel =
      (r.put other channel).equip target key idle next := by
  have hswap : (r.channels.insert key idle).insert other channel =
      (r.channels.insert other channel).insert key idle :=
    Std.ExtTreeMap.ext_getElem? fun k => by
      simp only [getElem?_channels_insert]
      by_cases hother : other = k
      · subst hother
        simp [Ne.symm hne]
      · simp [hother]
  simp only [put, equip, hswap]

theorem bind_equip (t : Touch) :
    (r.equip target key idle next).bind t consumer =
      (r.bind t consumer).equip target key idle next := by
  unfold bind
  cases t.kind <;> rfl

-- What concerns other channels does not concern the additional one.
theorem inject_equip (hne : other ≠ key) (t : Touch) :
    (r.equip target key idle next).inject consumer other t =
      (r.inject consumer other t).map (Prod.map id (·.equip target key idle next)) := by
  unfold inject
  rw [channels_equip hne]
  cases r.channels[other]? with
  | none => rfl
  | some channel =>
    dsimp only
    cases channel.touch t with
    | error violation => rfl
    | ok answer =>
      obtain ⟨result, touched⟩ := answer
      have hhandles : ∀ u, ((r.bind t consumer).equip target key idle next).handles consumer u =
          (r.bind t consumer).handles consumer u := fun _ => rfl
      simp only [ok_bind, bind_equip, hhandles]
      split
      · cases touched.ack t.id ((r.bind t consumer).handles consumer t) false with
        | error violation => rfl
        | ok acked => simp only [ok_bind, ok_map, put_equip hne, Prod.map_apply, id]
      · simp only [ok_map, put_equip hne, Prod.map_apply, id]

theorem injectAll_equip (hne : other ≠ key) (touches : List Touch) :
    (r.equip target key idle next).injectAll consumer other touches =
      (r.injectAll consumer other touches).map (Prod.map id (·.equip target key idle next)) := by
  induction touches generalizing r with
  | nil => rfl
  | cons t rest ih =>
    simp only [injectAll, inject_equip hne]
    cases r.inject consumer other t with
    | error violation => rfl
    | ok first =>
      simp only [ok_map, ok_bind, Prod.map, id, ih]
      cases first.2.injectAll consumer other rest <;> rfl

theorem cancelChannel_equip (hne : other ≠ key) :
    (r.equip target key idle next).cancelChannel now consumer other =
      (r.cancelChannel now consumer other).map fun (cancelled, notices, after) =>
        (cancelled, notices, after.equip target key idle next) := by
  unfold cancelChannel
  rw [channels_equip hne]
  cases r.channels[other]? with
  | none => rfl
  | some channel =>
    have hdrawn : ∀ ids : EventIds, ({ r.equip target key idle next with ids } : Router) =
        ({ r with ids } : Router).equip target key idle next := fun _ => rfl
    have hids : (r.equip target key idle next).ids = r.ids := rfl
    simp only [hids, hdrawn, injectAll_equip hne]
    cases injectAll { r with ids := (channel.contacts.cancels now r.ids).2 } consumer other
      (channel.contacts.cancels now r.ids).1 <;> rfl

theorem cancel_equip (hne : consumer ≠ target) (hfree : r.owners[consumer]? ≠ some key) :
    (r.equip target key idle next).cancel now consumer =
      (r.cancel now consumer).map fun (cancelled, notices, after) =>
        (cancelled, notices, after.equip target key idle next) := by
  unfold cancel
  rw [owners_equip hne]
  cases howner : r.owners[consumer]? with
  | none => rfl
  | some other => exact cancelChannel_equip fun heq => hfree (heq ▸ howner)

theorem cancelEach_equip {consumers : List ConsumerId} (htarget : target ∉ consumers)
    (hfree : ∀ consumer : ConsumerId, r.owners[consumer]? ≠ some key) :
    (r.equip target key idle next).cancelEach clock consumers =
      (r.cancelEach clock consumers).map (Prod.map id (·.equip target key idle next)) := by
  induction consumers generalizing r clock with
  | nil => rfl
  | cons consumer rest ih =>
    rw [List.mem_cons, not_or] at htarget
    obtain ⟨hne, hrest⟩ := htarget
    simp only [cancelEach, cancel_equip (Ne.symm hne) (hfree consumer)]
    cases hcancel : r.cancel clock.now consumer with
    | error violation => rfl
    | ok result =>
      obtain ⟨_, _, _, hframe⟩ := cancel_frame hcancel
      have hfree' : ∀ consumer : ConsumerId, result.2.2.owners[consumer]? ≠ some key := by
        rw [hframe]
        exact hfree
      simp only [ok_map, ok_bind, ih hrest hfree']
      cases result.2.2.cancelEach clock.rest rest <;> rfl

theorem consumersExcept_equip {excluded : List ConsumerId} (htarget : target ∈ excluded) :
    (r.equip target key idle next).consumersExcept excluded = r.consumersExcept excluded := by
  have hirrefl : Std.Irrefl fun c d : ConsumerId => compare c d = .lt := ⟨fun c => by simp⟩
  have hantisymm : Std.Antisymm fun c d : ConsumerId => compare c d = .lt :=
    ⟨fun c d hlt hgt => absurd hgt (Std.OrientedCmp.not_lt_of_lt hlt)⟩
  refine List.Pairwise.eq_of_mem_iff (Std.ExtTreeMap.ordered_keys.filter _)
    (Std.ExtTreeMap.ordered_keys.filter _) fun consumer => ?_
  rw [mem_consumersExcept, mem_consumersExcept]
  refine and_congr_left fun hnot => ?_
  have hne : consumer ≠ target := fun heq => hnot (heq ▸ htarget)
  rw [hasChannel_eq_isSome, hasChannel_eq_isSome, owners_equip hne]

-- A channel that has seen no touch goes without a trace.
theorem removeChannel_equip (hkey : key ∉ r.channels)
    (hevents : ∀ id : EventId, r.events[id]? ≠ some key) :
    (r.equip target key idle next).removeChannel key =
      { r with owners := r.owners.insert target key, nextKey := next } := by
  have hchannels : (r.channels.insert key idle).erase key = r.channels :=
    Std.ExtTreeMap.ext_getElem? fun other => by
      rw [Std.ExtTreeMap.getElem?_erase, getElem?_channels_insert]
      by_cases hother : key = other
      · subst hother
        simp [hkey]
      · simp [hother]
  have hfilter : (r.events.filter fun _ seen => seen ≠ key) = r.events :=
    Std.ExtTreeMap.filter_eq_self_iff.mpr fun id hid => by
      have hseen := hevents id
      simpa [Std.ExtTreeMap.getElem?_eq_some_getElem hid] using hseen
  have hseen : (r.equip target key idle next).eventsOf key = [] :=
    List.eq_nil_iff_forall_not_mem.mpr fun id hid => hevents id (mem_eventsOf.mp hid)
  have horphans : r.orphans.insertMany ([] : List EventId) = r.orphans :=
    Std.ExtTreeSet.insertMany_nil
  unfold removeChannel
  rw [hseen]
  simp only [equip, hchannels, hfilter, horphans]

theorem reassign_equip :
    Router.reassign { r with owners := r.owners.insert target key, nextKey := next } source target
        own = { r.reassign source target own with nextKey := next } := by
  have howners : ((r.owners.insert target key).erase source).insert target own =
      (r.owners.erase source).insert target own :=
    Std.ExtTreeMap.ext_getElem? fun consumer => by
      simp only [Std.ExtTreeMap.getElem?_insert, Std.ExtTreeMap.getElem?_erase]
      by_cases hconsumer : target = consumer
      · simp [hconsumer]
      · simp [hconsumer]
  unfold reassign
  rw [howners]
  dsimp only
  cases r.channels[own]? <;> rfl

theorem forgetHistory_nextKey :
    Router.forgetHistory { r with nextKey := next } own =
      { r.forgetHistory own with nextKey := next } := by
  unfold forgetHistory
  dsimp only
  cases r.channels[own]? <;> rfl

-- The target loses the additional channel at once, but the one that it gets is made to
-- forget its history for that.
theorem handOver_equip (hkey : key ∉ r.channels)
    (hevents : ∀ id : EventId, r.events[id]? ≠ some key)
    (htarget : r.owners[target]? = none) (hidle : idle.Idle) :
    (r.equip target key idle next).handOver clock source target own .silent =
      (r.handOver clock source target own .silent).map fun (notices, after) =>
        (notices, { after.forgetHistory own with nextKey := next }) := by
  have howner : (r.equip target key idle next).owners[target]? = some key := by simp [equip]
  have hlive : (r.equip target key idle next).channels[key]? = some idle := by simp [equip]
  have hcancel : (r.equip target key idle next).cancelChannel clock.now target key =
      .ok (false, [], r.equip target key idle next) := by
    simp only [cancelChannel, hlive, ContactTable.cancels_eq, hidle.down]
    rfl
  have hhas : (r.equip target key idle next).hasChannel target = true := by
    simp [hasChannel, equip]
  have hnone : r.hasChannel target = false := hasChannel_eq_false_iff.mpr htarget
  simp only [handOver, discard, howner, hcancel, hhas, htarget, hnone, ok_bind, ok_map,
    removeChannel_equip hkey hevents, reassign_equip, forgetHistory_nextKey, if_true,
    Bool.false_eq_true, if_false]

theorem mem_channels_cancelEach {consumers : List ConsumerId} {notices : List Notice}
    (h : r.cancelEach clock consumers = .ok (notices, r')) :
    other ∈ r'.channels ↔ other ∈ r.channels := by
  induction consumers generalizing r clock notices with
  | nil =>
    cases h
    rfl
  | cons consumer rest ih =>
    obtain ⟨⟨cancelled, first, r₁⟩, hfirst, h⟩ := bind_eq_ok.mp h
    obtain ⟨⟨others, r₂⟩, hothers, h⟩ := bind_eq_ok.mp h
    cases h
    rw [ih hothers]
    unfold cancel at hfirst
    split at hfirst
    · exact mem_channels_cancelChannel hfirst
    · cases hfirst
      rfl

-- A transfer to a consumer that has an idle channel does what it would do without that
-- channel, and besides makes the channel that it hands over forget its history.
theorem transferTouches_equip (hkey : key ∉ r.channels) (htidy : r.Tidy)
    (hsource : r.owners[source]? = some own) (htarget : r.owners[target]? = none)
    (hidle : idle.Idle) :
    (r.equip target key idle next).transferTouches clock source target .silent =
      (r.transferTouches clock source target .silent).map fun (transferred, notices, after) =>
        (transferred, notices, { after.forgetHistory own with nextKey := next }) := by
  have hne : source ≠ target := by
    rintro rfl
    rw [hsource] at htarget
    cases htarget
  have hfree : ∀ consumer : ConsumerId, r.owners[consumer]? ≠ some key :=
    fun consumer howner => hkey (htidy.owned.live howner)
  have hevents : ∀ id : EventId, r.events[id]? ≠ some key :=
    fun id hevent => hkey (htidy.attended.live hevent)
  have howner : (r.equip target key idle next).owners[source]? = some own :=
    (owners_equip hne).trans hsource
  have hbound : (r.equip target key idle next).boundTo source = r.boundTo source := rfl
  have hothers : target ∉ r.consumersExcept [source, target] :=
    fun hmem => (mem_consumersExcept.mp hmem).2 (by simp)
  simp only [transferTouches, howner, hsource, hbound, hne, decide_false, Option.isNone_some,
    Bool.false_and, Bool.or_false, Bool.false_eq_true, if_false,
    consumersExcept_equip (List.mem_cons_of_mem _ List.mem_cons_self),
    cancelEach_equip hothers hfree]
  cases hcancel : r.cancelEach clock (r.consumersExcept [source, target]) with
  | error violation => rfl
  | ok result =>
    obtain ⟨bystanders, r₁⟩ := result
    obtain ⟨_, _, _, hframe⟩ := cancelAt_frame (cancelEach_eq clock _ ▸ hcancel)
    have hkey₁ : key ∉ r₁.channels := mt (mem_channels_cancelEach hcancel).mp hkey
    have hevents₁ : ∀ id : EventId, r₁.events[id]? ≠ some key := by
      rw [hframe]
      exact hevents
    have htarget₁ : r₁.owners[target]? = none := by
      rw [hframe]
      exact htarget
    simp only [ok_map, ok_bind, Prod.map_apply, id, handOver_equip hkey₁ hevents₁ htarget₁ hidle]
    cases r₁.handOver _ source target own .silent with
    | error violation => rfl
    | ok handed =>
      simp only [ok_map, ok_bind, forgetHistory]
      cases handed.2.channels[own]? <;> rfl

end Equip

end Router

end TouchGestures
