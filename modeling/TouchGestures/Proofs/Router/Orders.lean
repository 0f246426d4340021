import TouchGestures.Proofs.Router.Undate

namespace TouchGestures

namespace EventIds

variable {ids : EventIds} {count : ConsumerId → Nat} {order order' rest : List ConsumerId}
  {c d : ConsumerId} {known : List EventId}

-- The numbers that one of several consumers gets when they draw some in turn.
def drawnFor (ids : EventIds) (count : ConsumerId → Nat) (order : List ConsumerId)
    (c : ConsumerId) : List EventId :=
  (ids.after ((order.takeWhile (· ≠ c)).map count).sum).drawn (count c)

theorem drawnFor_cons_self : ids.drawnFor count (c :: rest) c = ids.drawn (count c) := by
  simp [drawnFor, after]

theorem drawnFor_cons_of_ne (h : d ≠ c) :
    ids.drawnFor count (d :: rest) c = (ids.after (count d)).drawnFor count rest c := by
  simp [drawnFor, h, after_add]

-- In whichever order they take turns, all of them get the same numbers.
theorem flatMap_drawnFor (hnodup : order.Nodup) :
    order.flatMap (ids.drawnFor count order) = ids.drawn (order.map count).sum := by
  induction order generalizing ids with
  | nil => rfl
  | cons d rest ih =>
    obtain ⟨hnot, hnodup⟩ := List.nodup_cons.mp hnodup
    have hrest : rest.flatMap (ids.drawnFor count (d :: rest)) =
        rest.flatMap ((ids.after (count d)).drawnFor count rest) :=
      List.flatMap_congr fun c hc => drawnFor_cons_of_ne fun heq => hnot (heq ▸ hc)
    rw [List.flatMap_cons, hrest, ih hnodup, drawnFor_cons_self, List.map_cons, List.sum_cons,
      drawn_add]

-- What each of them gets in one order can be changed for what it gets in another, and the
-- numbers that are known before stay as they are.
theorem exists_reordering (hnodup : order.Nodup) (hperm : order'.Perm order)
    (hdistinct : (known ++ ids.drawn (order.map count).sum).Nodup) :
    ∃ ρ : Renumbering, (∀ id ∈ known, ρ id = id) ∧
      ∀ c ∈ order, (ids.drawnFor count order c).map ρ = ids.drawnFor count order' c := by
  have hlength : ∀ order c, (ids.drawnFor count order c).length = count c := fun order c =>
    length_drawn _ _
  let drawn := fun c => (ids.drawnFor count order c).zip (ids.drawnFor count order' c)
  have hfirsts : ∀ c, (drawn c).map (·.1) = ids.drawnFor count order c := fun c =>
    List.map_fst_zip (by simp [hlength])
  have hseconds : ∀ c, (drawn c).map (·.2) = ids.drawnFor count order' c := fun c =>
    List.map_snd_zip (by simp [hlength])
  have hsum : (order'.map count).sum = (order.map count).sum := (hperm.map count).sum_eq
  have hfirst : ((known.map fun id => (id, id)) ++ order.flatMap drawn).map (·.1) =
      known ++ ids.drawn (order.map count).sum := by
    rw [← flatMap_drawnFor hnodup]
    simp [List.map_flatMap, hfirsts, Function.comp_def]
  have hsecond : (((known.map fun id => (id, id)) ++ order.flatMap drawn).map (·.2)).Perm
      (known ++ ids.drawn (order.map count).sum) := by
    rw [← hsum, ← flatMap_drawnFor (hperm.nodup_iff.mpr hnodup)]
    simp only [List.map_append, List.map_map, List.map_flatMap, hseconds, Function.comp_def,
      List.map_id']
    exact (hperm.symm.flatMap_right _).append_left known
  have hzero : ∀ p ∈ (known.map fun id => (id, id)) ++ order.flatMap drawn,
      p.1 = 0 ↔ p.2 = 0 := by
    intro p hp
    rcases List.mem_append.mp hp with hp | hp
    · obtain ⟨id, -, rfl⟩ := List.mem_map.mp hp
      exact Iff.rfl
    · obtain ⟨c, -, hp⟩ := List.mem_flatMap.mp hp
      obtain ⟨hfirst, hsecond⟩ := List.of_mem_zip hp
      exact iff_of_false (ne_zero_of_mem_drawn hfirst) (ne_zero_of_mem_drawn hsecond)
  obtain ⟨ρ, hρ⟩ := exists_renumbering (hfirst ▸ hdistinct) (hsecond.nodup_iff.mpr hdistinct) hzero
  refine ⟨ρ, fun id hid => ?_, fun c hc => Matched.map_drawn fun p hp => ?_⟩
  · exact hρ (id, id) (List.mem_append_left _ (List.mem_map_of_mem hid))
  · exact hρ p (List.mem_append_right _ (List.mem_flatMap.mpr ⟨c, hc, hp⟩))

end EventIds

namespace Router

variable {ρ : Renumbering} {r r₁ r₁' r₂ : Router} {c : ConsumerId}
  {visits visits' : List (Time × ConsumerId)} {notices notices' : List Notice}

-- When the turn of a consumer comes, its contacts are as they were and the numbers that it
-- gets are those for its place.
theorem cancelAt_of_mem {now : Time} (h : r.Ready) (hnodup : (visits.map (·.2)).Nodup)
    (hvisit : (now, c) ∈ visits) (hcancel : r.cancelAt visits = .ok (notices, r₁)) :
    ∃ before cancelled given after, before.Ready ∧ r.Spares c [] before ∧
      before.ids.drawn (before.liveCount c) = r.ids.drawnFor r.liveCount (visits.map (·.2)) c ∧
      before.cancel now c = .ok (cancelled, given, after) ∧ after.Spares c [] r₁ ∧
      notices.filter (fun notice => notice.consumer = c) = given := by
  obtain ⟨earlier, later, rfl⟩ := List.append_of_mem hvisit
  rw [List.map_append, List.map_cons] at hnodup ⊢
  obtain ⟨hearlier, hlater, hapart⟩ := List.nodup_append.mp hnodup
  have hnot : c ∉ earlier.map (·.2) := fun hmem => hapart c hmem c List.mem_cons_self rfl
  have hnot' : c ∉ later.map (·.2) := (List.nodup_cons.mp hlater).1
  obtain ⟨first, before, rest, hfirst, hrest, rfl⟩ := cancelAt_append_eq_ok hcancel
  obtain ⟨⟨cancelled, given, after⟩, hown, hrest⟩ := bind_eq_ok.mp hrest
  obtain ⟨⟨others, last⟩, hothers, heq⟩ := bind_eq_ok.mp hrest
  cases heq
  have hbefore := h.cancelAt hfirst
  obtain ⟨hspares, hsilent⟩ := spares_cancelAt h hnot hfirst
  obtain ⟨hspares', hsilent'⟩ := spares_cancelAt (hbefore.cancel hown) hnot' hothers
  refine ⟨before, cancelled, given, after, hbefore, hspares, ?_, hown, hspares', ?_⟩
  · have htake : (earlier.map (·.2) ++ c :: later.map (·.2)).takeWhile (· ≠ c) =
        earlier.map (·.2) := by
      have hothers : ∀ d ∈ earlier.map (·.2), decide (d ≠ c) = true := fun d hd =>
        decide_eq_true fun heq => hnot (heq ▸ hd)
      rw [List.takeWhile_append_of_pos hothers]
      simp
    rw [EventIds.drawnFor, htake, ids_cancelAt h hearlier hfirst, hspares.liveCount]
  · have hall : given.filter (fun notice => notice.consumer = c) = given :=
      List.filter_eq_self.mpr fun notice hnotice => by
        simp [consumer_of_mem_cancel hown notice hnotice]
    rw [List.filter_append, List.filter_append, hsilent, hsilent', hall, List.nil_append,
      List.append_nil]

theorem Alike.spares_right (h : r.Alike ρ c [] r₁) (hspares : r₁.Spares c [] r₂) :
    r.Alike ρ c [] r₂ :=
  ⟨hspares.settings.trans h.settings, hspares.helpers.trans h.helpers,
    hspares.nextHelper.trans h.nextHelper, hspares.channel.trans h.channel,
    fun hid => (hspares.events hid).trans (h.events hid),
    fun hid => (hspares.orphans hid).trans (h.orphans hid)⟩

theorem alike_of_renumber_eq (hself : r.renumber ρ = r) : r.Alike ρ c [] r := by
  refine ⟨rfl, rfl, rfl, ?_, fun _ => Iff.rfl, fun _ => Iff.rfl⟩
  conv_lhs => rw [← hself]
  unfold channel?
  simp only [owners_renumber, channels_renumber]
  cases r.owners[c]? <;> rfl

-- In two orders the same becomes of each consumer that is visited at the same time, and it
-- is told the same, if one changes the numbers that it gets in the one for those that it gets
-- in the other.
theorem alike_of_reordered (h : r.Ready) (hself : r.renumber ρ = r)
    (hhelpers : ∀ entry ∈ r.helpers, entry.2.Numberless) (hnodup : (visits.map (·.2)).Nodup)
    (hperm : visits'.Perm visits)
    (hdrawn : ∀ c ∈ visits.map (·.2),
      (r.ids.drawnFor r.liveCount (visits.map (·.2)) c).map ρ =
        r.ids.drawnFor r.liveCount (visits'.map (·.2)) c)
    (hcancel : r.cancelAt visits = .ok (notices, r₁))
    (hcancel' : r.cancelAt visits' = .ok (notices', r₁')) :
    r₁.Alike ρ c [] r₁' ∧
      notices'.filter (fun notice => notice.consumer = c) =
        (notices.filter fun notice => notice.consumer = c).map (·.renumber ρ) := by
  have hself : r.Alike ρ c [] r := alike_of_renumber_eq hself
  have hconsumers : (visits'.map (·.2)).Perm (visits.map (·.2)) := hperm.map _
  by_cases hc : c ∈ visits.map (·.2)
  · obtain ⟨⟨now, consumer⟩, hvisit, heq⟩ := List.mem_map.mp hc
    obtain rfl : consumer = c := heq
    obtain ⟨before, cancelled, given, after, hready, hspares, hids, hown, hrest, htold⟩ :=
      cancelAt_of_mem h hnodup hvisit hcancel
    obtain ⟨before', cancelled', given', after', hready', hspares', hids', hown', hrest', htold'⟩ :=
      cancelAt_of_mem h (hconsumers.nodup_iff.mpr hnodup) (hperm.mem_iff.mpr hvisit) hcancel'
    have hbefore : before.Alike ρ consumer [] before' :=
      (hself.spares hspares).spares_right hspares'
    have hsame : (before.ids.drawn (before.liveCount consumer)).map ρ =
        before'.ids.drawn (before.liveCount consumer) := by
      rw [hids, hdrawn consumer hc, ← hids', hspares.liveCount, hspares'.liveCount]
    have hhandles : ∀ t, before.handles consumer (t.renumber ρ) = before.handles consumer t :=
      handles_renumber (hspares.helpers ▸ hhelpers)
    obtain ⟨after₁, hown₁, hafter⟩ :=
      hbefore.cancel hready.owned hready'.owned hhandles hsame hown
    rw [hown', Except.ok.injEq, Prod.mk.injEq, Prod.mk.injEq] at hown₁
    obtain ⟨-, rfl, rfl⟩ := hown₁
    exact ⟨(hafter.spares hrest).spares_right hrest', by rw [htold, htold']⟩
  · obtain ⟨hspares, hsilent⟩ := spares_cancelAt h hc hcancel
    obtain ⟨hspares', hsilent'⟩ :=
      spares_cancelAt h (fun hmem => hc (hconsumers.mem_iff.mp hmem)) hcancel'
    exact ⟨(hself.spares hspares).spares_right hspares', by rw [hsilent, hsilent', List.map_nil]⟩

-- Channels are told apart by their owners.
theorem channels_of_alike (howned : r₁.Owned) (howned' : r₁'.Owned)
    (howners : r₁'.owners = r₁.owners) (halike : ∀ c, r₁.Alike ρ c [] r₁') :
    r₁'.channels = (r₁.renumber ρ).channels :=
  Std.ExtTreeMap.ext_getElem? fun key => by
    rw [channels_renumber]
    by_cases hkey : key ∈ r₁.channels
    · obtain ⟨c, howner⟩ := howned.owned hkey
      have hchannel := (halike c).channel
      unfold channel? at hchannel
      rwa [howners, howner, Option.bind_some, Option.bind_some] at hchannel
    · have hkey' : key ∉ r₁'.channels := fun hmem => by
        obtain ⟨c, howner⟩ := howned'.owned hmem
        exact hkey (howned.live (howners ▸ howner))
      rw [Std.ExtTreeMap.getElem?_eq_none hkey, Std.ExtTreeMap.getElem?_eq_none hkey',
        Option.map_none]

-- Two outcomes of what may be done in different ways are the same up to the numbers of
-- touches that were not known before: so is the router, and so is what every consumer is told.
def AgreeUpTo (known : List EventId) (r : Router) (first second : List Notice × Router) : Prop :=
  ∃ ρ : Renumbering, (∀ id ∈ known, ρ id = id) ∧ second.2 = first.2.renumber ρ ∧
    ∀ c, r.heard c second.1 = (r.heard c first.1).map (·.renumber ρ)

-- They are the same up to the numbers and the times of touches that were not known before.
def AgreeUndated (known : List EventId) (r : Router) (first second : List Notice × Router) :
    Prop :=
  ∃ ρ : Renumbering, (∀ id ∈ known, ρ id = id) ∧
    second.2.undate known = (first.2.renumber ρ).undate known ∧
    ∀ c, (r.heard c second.1).map (Reply.undate known) =
      (r.heard c first.1).map fun reply => (reply.renumber ρ).undate known

theorem AgreeUpTo.undated {known : List EventId} {first second : List Notice × Router}
    (h : AgreeUpTo known r first second) : AgreeUndated known r first second := by
  obtain ⟨ρ, hfixed, hrouter, hheard⟩ := h
  refine ⟨ρ, hfixed, by rw [hrouter], fun c => ?_⟩
  rw [hheard, List.map_map]
  rfl

end Router

namespace Session

variable {s : Session} {permits : Session → Router.Op → Prop} {r₁ r₁' : Router}
  {notices notices' : List Notice} {visits visits' : List (Time × ConsumerId)}
  {known : List EventId}

-- Which contacts are freed does not depend on the order either.
theorem Reached.bindings_reordered (h : Reached permits s)
    (hperm : (visits'.map (·.2)).Perm (visits.map (·.2)))
    (hcancel : s.router.cancelAt visits = .ok (notices, r₁))
    (hcancel' : s.router.cancelAt visits' = .ok (notices', r₁')) :
    r₁'.bindings = r₁.bindings := by
  obtain ⟨_, s₁, hs₁, hfrees⟩ := exists_cancelAt h.mirrors h.owned visits
  obtain ⟨_, s₁', hs₁', hfrees'⟩ := exists_cancelAt h.mirrors h.owned visits'
  cases hcancel.symm.trans hs₁
  cases hcancel'.symm.trans hs₁'
  refine Std.ExtTreeMap.ext_getElem? fun id => ?_
  have hsame : (∃ consumer ∈ visits'.map (·.2), id ∈ s.downFor consumer) ↔
      ∃ consumer ∈ visits.map (·.2), id ∈ s.downFor consumer :=
    exists_congr fun consumer => and_congr_left' hperm.mem_iff
  exact (hfrees'.bindings id).trans ((if_congr hsame rfl rfl).trans (hfrees.bindings id).symm)

-- In whichever order the contacts of some consumers are cancelled, each at its time, the
-- router is the same afterwards, and every consumer is told the same, up to the numbers that
-- are drawn.
theorem Reached.cancelAt_reordered (h : Reached permits s)
    (hhelpers : ∀ entry ∈ s.router.helpers, entry.2.Numberless)
    (hnodup : (visits.map (·.2)).Nodup) (hperm : visits'.Perm visits)
    (hknown : ∀ id ∈ s.numbers, id ∈ known)
    (hdistinct :
      (known ++ s.router.ids.drawn ((visits.map (·.2)).map s.router.liveCount).sum).Nodup)
    (hnumbers : s.numbers.Nodup) (hcancel : s.router.cancelAt visits = .ok (notices, r₁))
    (hcancel' : s.router.cancelAt visits' = .ok (notices', r₁')) :
    ∃ ρ : Renumbering, (∀ id ∈ known, ρ id = id) ∧ r₁' = r₁.renumber ρ ∧
      ∀ c, notices'.filter (fun notice => notice.consumer = c) =
        (notices.filter fun notice => notice.consumer = c).map (·.renumber ρ) := by
  have hconsumers : (visits'.map (·.2)).Perm (visits.map (·.2)) := hperm.map _
  obtain ⟨ρ, hfixed, hdrawn⟩ := EventIds.exists_reordering hnodup hconsumers hdistinct
  have hself := h.renumber_self hnumbers fun id hid => hfixed id (hknown id hid)
  have halike := fun c =>
    Router.alike_of_reordered (c := c) h.ready hself hhelpers hnodup hperm hdrawn hcancel hcancel'
  refine ⟨ρ, hfixed, ?_, fun c => (halike c).2⟩
  have hbindings := h.bindings_reordered hconsumers hcancel hcancel'
  have hids : r₁'.ids = r₁.ids := by
    rw [Router.ids_cancelAt h.ready hnodup hcancel,
      Router.ids_cancelAt h.ready (hconsumers.nodup_iff.mpr hnodup) hcancel',
      (hconsumers.map s.router.liveCount).sum_eq]
  have howned := (h.ready.cancelAt hcancel).owned
  have howned' := (h.ready.cancelAt hcancel').owned
  obtain ⟨channels, bindings, ids, rfl⟩ := Router.cancelAt_frame hcancel
  obtain ⟨channels', bindings', ids', rfl⟩ := Router.cancelAt_frame hcancel'
  have hchannels := Router.channels_of_alike howned howned' rfl fun c => (halike c).1
  obtain rfl : bindings' = bindings := hbindings
  obtain rfl : ids' = ids := hids
  obtain rfl : channels' = _ := hchannels
  rfl

end Session

end TouchGestures
