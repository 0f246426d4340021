import TouchGestures.Proofs.Router.Owned

namespace TouchGestures

namespace Router

variable {r r' : Router} {key : ChannelKey} {consumer : ConsumerId} {now : Time} {clock : Clock}

-- Contacts are bound to consumers that own a channel.
def Bound (r : Router) : Prop :=
  ∀ (id : ContactId) (consumer : ConsumerId), r.bindings[id]? = some consumer →
    ∃ key : ChannelKey, r.owners[consumer]? = some key

-- The owners are the same, and contacts are bound as they were or not at all.
structure Loosens (r r' : Router) : Prop where
  owners : r'.owners = r.owners
  bindings : ∀ {id : ContactId} {consumer : ConsumerId}, r'.bindings[id]? = some consumer →
    r.bindings[id]? = some consumer

theorem loosens_refl (r : Router) : r.Loosens r := ⟨rfl, id⟩

theorem Loosens.trans {between : Router} (h : r.Loosens between) (h' : between.Loosens r') :
    r.Loosens r' :=
  ⟨h'.owners.trans h.owners, fun hbound => h.bindings (h'.bindings hbound)⟩

theorem Bound.loosens (h : r.Bound) (hl : r.Loosens r') : r'.Bound := by
  intro id consumer hbound
  rw [hl.owners]
  exact h id consumer (hl.bindings hbound)

theorem loosens_of_eq (howners : r'.owners = r.owners) (hbindings : r'.bindings = r.bindings) :
    r.Loosens r' :=
  ⟨howners, fun hbound => hbindings ▸ hbound⟩

-- A cancelled contact is freed.
theorem loosens_inject {t : Touch} {notices : List Notice} (ht : t.kind = .cancelled)
    (h : r.inject consumer key t = .ok (notices, r')) : r.Loosens r' := by
  unfold inject at h
  split at h
  · cases h
    exact loosens_refl _
  · obtain ⟨⟨result, channel⟩, -, h⟩ := bind_eq_ok.mp h
    dsimp only at h
    split at h
    · obtain ⟨acked, -, h⟩ := bind_eq_ok.mp h
      cases h
      refine ⟨by simp [Router.bind, ht, put], fun {id other} hbound => ?_⟩
      simp only [Router.bind, ht, put, Std.ExtTreeMap.getElem?_erase] at hbound
      split at hbound
      · cases hbound
      · exact hbound
    · cases h
      exact loosens_of_eq rfl rfl

theorem loosens_injectAll {touches : List Touch} {notices : List Notice}
    (ht : ∀ t ∈ touches, t.kind = .cancelled)
    (h : r.injectAll consumer key touches = .ok (notices, r')) : r.Loosens r' := by
  induction touches generalizing r notices with
  | nil =>
    cases h
    exact loosens_refl _
  | cons t rest ih =>
    obtain ⟨⟨first, r₁⟩, hfirst, h⟩ := bind_eq_ok.mp h
    obtain ⟨⟨others, r₂⟩, hothers, h⟩ := bind_eq_ok.mp h
    cases h
    exact (loosens_inject (ht t List.mem_cons_self) hfirst).trans
      (ih (fun u hu => ht u (List.mem_cons_of_mem t hu)) hothers)

theorem loosens_cancelChannel {result : Bool × List Notice × Router}
    (h : r.cancelChannel now consumer key = .ok result) : r.Loosens result.2.2 := by
  unfold cancelChannel at h
  split at h
  · cases h
    exact loosens_refl _
  · next channel _ =>
    obtain ⟨⟨notices, r₁⟩, hinject, h⟩ := bind_eq_ok.mp h
    cases h
    have hkinds : ∀ t ∈ (channel.contacts.cancels now r.ids).1, t.kind = .cancelled := by
      intro t ht
      rw [ContactTable.cancels_eq] at ht
      exact kind_of_mem_synthesizeAll ht
    have hloosens := loosens_injectAll hkinds hinject
    exact ⟨hloosens.owners, hloosens.bindings⟩

-- Whether a step leaves alone who owns what and what contacts are bound to.
def Act.isQuiet : Act → Bool
  | .touch .. | .cancelChannel .. | .reassign .. | .rebind .. | .forget .. => false
  | _ => true

-- Of these steps only the one that replaces the settings concerns them.
theorem quiet_act {a : Act} {handouts : List Handout} (ha : a.isQuiet = true)
    (hr : r.act a = .ok (handouts, r')) :
    r'.owners = r.owners ∧ r'.bindings = r.bindings ∧
      (r'.settings = r.settings ∨ ∃ settings, a = .configure settings) := by
  cases a with
  | ack id consumed nonBlocking consumer =>
    obtain ⟨⟨gestures, after⟩, hack, heq⟩ := map_eq_ok.mp hr
    cases heq
    obtain ⟨-, -, rfl⟩ | ⟨-, -, -, rfl⟩ | ⟨_, _, _, -, -, -, -, -, rfl⟩ := ack_cases hack <;>
      exact ⟨rfl, rfl, .inl rfl⟩
  | reenter clock key contacts =>
    obtain ⟨after, hreenter, heq⟩ := map_eq_ok.mp hr
    cases heq
    obtain ⟨_, _, rfl⟩ := reenter_frame hreenter
    exact ⟨rfl, rfl, .inl rfl⟩
  | tick now key =>
    simp only [act] at hr
    split at hr
    · cases hr
      exact ⟨rfl, rfl, .inl rfl⟩
    · obtain ⟨⟨gestures, channel⟩, -, heq⟩ := map_eq_ok.mp hr
      cases heq
      exact ⟨rfl, rfl, .inl rfl⟩
  | forgetHistory key =>
    cases hr
    obtain ⟨_, hframe⟩ := forgetHistory_frame r key
    rw [hframe]
    exact ⟨rfl, rfl, .inl rfl⟩
  | configure settings =>
    cases hr
    exact ⟨rfl, rfl, .inr ⟨settings, rfl⟩⟩
  | addHelper | removeHelper | setIds =>
    cases hr
    exact ⟨rfl, rfl, .inl rfl⟩
  | touch | cancelChannel | reassign | rebind | forget => cases ha

-- Whether a step gives neither channels nor contacts to anybody.
def Act.isCalm : Act → Bool
  | .touch .. | .reassign .. | .rebind .. | .forget .. => false
  | _ => true

theorem loosens_act {a : Act} {handouts : List Handout} (ha : a.isCalm = true)
    (hr : r.act a = .ok (handouts, r')) : r.Loosens r' := by
  cases a with
  | cancelChannel now consumer key =>
    obtain ⟨result, hcancel, heq⟩ := map_eq_ok.mp hr
    cases heq
    exact loosens_cancelChannel hcancel
  | ack | reenter | tick | forgetHistory | configure | addHelper | removeHelper | setIds =>
    obtain ⟨howners, hbindings, -⟩ := quiet_act rfl hr
    exact loosens_of_eq howners hbindings
  | touch | reassign | rebind | forget => cases ha

theorem loosens_play {acts : List Act} {handouts : List Handout}
    (hacts : ∀ a ∈ acts, a.isCalm = true) (hr : r.play acts = .ok (handouts, r')) :
    r.Loosens r' := by
  induction acts generalizing r handouts with
  | nil =>
    cases hr
    exact loosens_refl _
  | cons a rest ih =>
    obtain ⟨⟨first, r₁⟩, hact, hr⟩ := bind_eq_ok.mp hr
    obtain ⟨⟨others, r₂⟩, hrest, hr⟩ := bind_eq_ok.mp hr
    cases hr
    exact (loosens_act (hacts a List.mem_cons_self) hact).trans
      (ih (fun b hb => hacts b (List.mem_cons_of_mem a hb)) hrest)

theorem isCalm_of_cancels {acts : List Act}
    (hcancels : ∀ a ∈ acts, ∃ now consumer key, a = .cancelChannel now consumer key) :
    ∀ a ∈ acts, a.isCalm = true := by
  intro a ha
  obtain ⟨now, consumer, key, rfl⟩ := hcancels a ha
  rfl

theorem isCalm_settleActs {source : ConsumerId} {replacing : Bool} {transfer : Transfer} :
    ∀ a ∈ r.settleActs clock source key replacing transfer, a.isCalm = true := by
  intro a ha
  obtain rfl | ⟨live, rfl⟩ | rfl := eq_of_mem_settleActs ha <;> rfl

theorem getElem?_rebind (bindings : Std.ExtTreeMap ContactId ConsumerId) (contacts : List ContactId)
    (target : ConsumerId) (id : ContactId) :
    (bindings.insertMany (contacts.map fun id => (id, target)))[id]? =
      if id ∈ contacts then some target else bindings[id]? := by
  induction contacts generalizing bindings with
  | nil => simp
  | cons first rest ih =>
    rw [List.map_cons, Std.ExtTreeMap.insertMany_cons, ih]
    by_cases hrest : id ∈ rest
    · simp [hrest]
    · by_cases hfirst : first = id
      · simp [hfirst]
      · simp [Std.ExtTreeMap.getElem?_insert, hrest, hfirst, Ne.symm hfirst]

theorem bindings_displace (r : Router) (source target : ConsumerId) (key : ChannelKey) :
    (r.displace source target key).bindings = r.bindings := by
  obtain ⟨_, _, _, _, hframe⟩ := displace_frame r source target key
  rw [hframe]

-- When a consumer has handed its channel over, the contacts that were bound to it are bound
-- to the new owner.
theorem Bound.transfer {source target : ConsumerId} {transfer : Transfer} {handouts : List Handout}
    (h : r.Bound) (howner : r.owners[source]? = some key) (hne : source ≠ target)
    (hr : r.play (r.transferActs clock source target transfer) = .ok (handouts, r')) :
    r'.Bound := by
  obtain ⟨before, replacing, hacts⟩ := transferActs_eq clock transfer howner hne
  rw [hacts, ← List.append_assoc] at hr
  obtain ⟨_, r₁, _, hcancels, hr, -⟩ := play_append_eq_ok hr
  have hreassign : r₁.act (.reassign source target key) =
      .ok ([], r₁.displace source target key) := rfl
  rw [play_cons, hreassign, ok_bind] at hr
  obtain ⟨⟨_, _⟩, hrest, heq⟩ := map_eq_ok.mp hr
  cases heq
  obtain ⟨_, r₃, _, hsettle, hrebind, -⟩ := play_append_eq_ok hrest
  cases hrebind
  have hfirst : r.Loosens r₁ := by
    refine loosens_play (fun a ha => ?_) hcancels
    rcases List.mem_append.mp ha with ha | ha
    · exact isCalm_of_cancels (r.cancels_cancelsOf _) a ha
    · exact isCalm_of_cancels (r.cancels_cancelActs _ target) a ha
  have hsecond := loosens_play isCalm_settleActs hsettle
  intro id consumer hbound
  dsimp only at hbound ⊢
  rw [hsecond.owners, getElem?_owners_displace, hfirst.owners]
  split
  · exact ⟨key, rfl⟩
  · next htarget =>
    rw [getElem?_rebind] at hbound
    split at hbound
    · exact absurd (Option.some.inj hbound) htarget
    · next hnot =>
      have hbefore := hsecond.bindings hbound
      rw [bindings_displace] at hbefore
      have hbefore := hfirst.bindings hbefore
      have hsource : source ≠ consumer := by
        rintro rfl
        exact hnot (mem_boundTo.mpr hbefore)
      rw [if_neg hsource]
      exact h id consumer hbefore

theorem Bound.bind {t : Touch} (h : r.Bound)
    (howner : ∃ key : ChannelKey, r.owners[consumer]? = some key) : (r.bind t consumer).Bound := by
  intro id other hbound
  unfold Router.bind at hbound ⊢
  split at hbound
  · simp only [Std.ExtTreeMap.getElem?_insert] at hbound
    split at hbound
    · cases hbound
      exact howner
    · exact h id other hbound
  · exact h id other hbound
  · simp only [Std.ExtTreeMap.getElem?_erase] at hbound
    split at hbound
    · cases hbound
    · exact h id other hbound
  · simp only [Std.ExtTreeMap.getElem?_erase] at hbound
    split at hbound
    · cases hbound
    · exact h id other hbound

theorem Bound.touch {t : Touch} {result : TouchResult} (h : r.Bound)
    (hr : r.touch t consumer = .ok (result, r')) : r'.Bound := by
  have hbindings : (r.obtain consumer).2.bindings = r.bindings := by
    unfold Router.obtain
    split <;> rfl
  have hopen : (r.obtain consumer).2.Bound := by
    intro id other hbound
    rw [hbindings] at hbound
    rw [getElem?_owners_obtain]
    split
    · exact ⟨_, rfl⟩
    · exact h id other hbound
  obtain ⟨-, -, rfl⟩ | ⟨channel, channel', -, -, hr'⟩ := touch_cases hr
  · exact hopen
  · have hput : ((r.obtain consumer).2.put (r.obtain consumer).1 channel').Bound :=
      hopen.loosens (loosens_of_eq rfl rfl)
    rw [hr']
    split
    · have hbind : (((r.obtain consumer).2.put (r.obtain consumer).1 channel').bind t consumer).Bound :=
        hput.bind ⟨_, (getElem?_owners_obtain consumer).trans (if_pos rfl)⟩
      exact hbind.loosens (loosens_of_eq rfl rfl)
    · exact hput

theorem Bound.forget (h : r.Bound) : (r.forget consumer).2.Bound := by
  intro id other hbound
  have hget : r.bindings[id]? = some other ∧ other ≠ consumer := by
    unfold Router.forget at hbound
    simp only [] at hbound
    split at hbound
    · simpa [Option.filter_eq_some_iff] using hbound
    · simpa [removeChannel, Option.filter_eq_some_iff] using hbound
  obtain ⟨key, howner⟩ := h id other hget.1
  refine ⟨key, ?_⟩
  unfold Router.forget
  simp only []
  split
  · exact howner
  · simp [removeChannel, Std.ExtTreeMap.getElem?_erase, Ne.symm hget.2, howner]

-- There is nothing to hand over without a channel.
theorem Bound.boundTo_eq_nil (h : r.Bound) (hnone : r.owners[consumer]? = none) :
    r.boundTo consumer = [] := by
  rw [List.eq_nil_iff_forall_not_mem]
  intro id hmem
  obtain ⟨key, howner⟩ := h id consumer (mem_boundTo.mp hmem)
  rw [hnone] at howner
  cases howner

theorem Bound.acts {op : Op} {handouts : List Handout} (h : r.Bound)
    (hr : r.play (r.acts op) = .ok (handouts, r')) : r'.Bound := by
  cases op with
  | touch t consumer =>
    obtain ⟨⟨first, r₁⟩, hact, hnil⟩ := bind_eq_ok.mp hr
    obtain ⟨⟨result, after⟩, htouch, heq⟩ := map_eq_ok.mp hact
    cases heq
    cases hnil
    exact h.touch htouch
  | forget consumer =>
    cases hr
    exact h.forget
  | transfer clock source target transfer =>
    by_cases hsame : source = target
    · simp only [Router.acts, transferActs, hsame, decide_true, Bool.true_or, if_true] at hr
      cases hr
      exact h
    · cases howner : r.owners[source]? with
      | some key => exact h.transfer howner hsame hr
      | none =>
        simp only [Router.acts, transferActs, howner, h.boundTo_eq_nil howner, Option.isNone_none,
          List.isEmpty_nil, Bool.and_true, Bool.or_true, if_true] at hr
        cases hr
        exact h
  | cancel now consumer =>
    exact h.loosens (loosens_play (isCalm_of_cancels (r.cancels_cancelActs now consumer)) hr)
  | cancelOn clock consumers =>
    exact h.loosens (loosens_play (isCalm_of_cancels (r.cancels_cancelEachActs clock consumers)) hr)
  | cancelExcept clock spared =>
    exact h.loosens (loosens_play (isCalm_of_cancels (r.cancels_cancelEachActs clock _)) hr)
  | tick now =>
    refine h.loosens (loosens_play (fun a ha => ?_) hr)
    obtain ⟨key, -, rfl⟩ := List.mem_map.mp ha
    rfl
  | ack | configure | addHelper | removeHelper | setIds =>
    refine h.loosens (loosens_play (fun a ha => ?_) hr)
    rw [List.mem_singleton.mp ha]
    rfl

end Router

namespace Session

theorem Reached.bound {permits : Session → Router.Op → Prop} {s : Session}
    (h : Reached permits s) : s.router.Bound := by
  induction h with
  | start settings ids =>
    intro id consumer hbound
    simp at hbound
  | step _ _ hs ih =>
    obtain ⟨handouts, hplay, -⟩ := play_router hs
    exact ih.acts hplay

end Session

end TouchGestures
