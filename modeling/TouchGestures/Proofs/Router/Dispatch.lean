import TouchGestures.Proofs.Router.HandOver

namespace TouchGestures

namespace Router

variable {r r' before : Router} {consumer source target : ConsumerId} {key : ChannelKey}
  {notices : List Notice} {handouts : List Handout} {now : Time} {clock : Clock}

-- What cancelling contacts gives notice of is for the consumer they are cancelled for.
theorem consumer_of_mem_inject {t : Touch} (h : r.inject consumer key t = .ok (notices, r')) :
    ∀ notice ∈ notices, notice.consumer = consumer := by
  unfold inject at h
  split at h
  · cases h
    simp
  · obtain ⟨⟨result, channel⟩, -, h⟩ := bind_eq_ok.mp h
    dsimp only at h
    split at h
    · obtain ⟨acked, -, h⟩ := bind_eq_ok.mp h
      cases h
      simp
    · cases h
      simp

theorem consumer_of_mem_injectAll {touches : List Touch}
    (h : r.injectAll consumer key touches = .ok (notices, r')) :
    ∀ notice ∈ notices, notice.consumer = consumer := by
  induction touches generalizing r notices with
  | nil =>
    cases h
    simp
  | cons t rest ih =>
    obtain ⟨⟨first, r₁⟩, hfirst, h⟩ := bind_eq_ok.mp h
    obtain ⟨⟨others, r₂⟩, hothers, h⟩ := bind_eq_ok.mp h
    cases h
    intro notice hmem
    rcases List.mem_append.mp hmem with hmem | hmem
    · exact consumer_of_mem_inject hfirst notice hmem
    · exact ih hothers notice hmem

theorem consumer_of_mem_cancelChannel {result : Bool × List Notice × Router}
    (h : r.cancelChannel now consumer key = .ok result) :
    ∀ notice ∈ result.2.1, notice.consumer = consumer := by
  unfold cancelChannel at h
  split at h
  · cases h
    simp
  · obtain ⟨⟨notices, r₁⟩, hinject, h⟩ := bind_eq_ok.mp h
    cases h
    exact consumer_of_mem_injectAll hinject

-- Whether a step gives nothing, or cancels contacts for a consumer with its channel.
def Act.Addresses (before : Router) : Act → Prop
  | .cancelChannel _ consumer key => before.owners[consumer]? = some key
  | .ack .. | .tick .. => False
  | _ => True

theorem owner_of_mem_act {a : Act} (ha : a.Addresses before)
    (hr : r.act a = .ok (handouts, r')) :
    ∀ handout ∈ handouts, before.owners[handout.consumer]? = some handout.key := by
  cases a with
  | cancelChannel now consumer key =>
    obtain ⟨result, hcancel, heq⟩ := map_eq_ok.mp hr
    cases heq
    intro handout hmem
    obtain ⟨notice, hnotice, rfl⟩ := List.mem_map.mp hmem
    have hconsumer := consumer_of_mem_cancelChannel hcancel notice hnotice
    dsimp only
    rw [hconsumer]
    exact ha
  | touch | reenter =>
    obtain ⟨result, -, heq⟩ := map_eq_ok.mp hr
    cases heq
    simp
  | forgetHistory | reassign | rebind | forget | configure | addHelper | removeHelper | setIds =>
    cases hr
    simp
  | ack | tick => exact absurd ha id

theorem owner_of_mem_play {acts : List Act} (hacts : ∀ a ∈ acts, a.Addresses before)
    (hr : r.play acts = .ok (handouts, r')) :
    ∀ handout ∈ handouts, before.owners[handout.consumer]? = some handout.key := by
  induction acts generalizing r handouts with
  | nil =>
    cases hr
    simp
  | cons a rest ih =>
    rw [play_cons] at hr
    obtain ⟨⟨first, r₁⟩, hfirst, hr⟩ := bind_eq_ok.mp hr
    obtain ⟨⟨others, r₂⟩, hothers, heq⟩ := map_eq_ok.mp hr
    cases heq
    intro handout hmem
    rcases List.mem_append.mp hmem with hmem | hmem
    · exact owner_of_mem_act (hacts a List.mem_cons_self) hfirst handout hmem
    · exact ih (fun b hb => hacts b (List.mem_cons_of_mem a hb)) hothers handout hmem

theorem addresses_cancelActs (r : Router) (now : Time) (consumer : ConsumerId) :
    ∀ a ∈ r.cancelActs now consumer, a.Addresses r := by
  intro a ha
  obtain ⟨other, hother, rfl⟩ := mem_cancelActs.mp ha
  exact hother

theorem addresses_transferActs {transfer : Transfer} (howner : r.owners[source]? = some key)
    (hne : source ≠ target) : ∀ a ∈ r.transferActs clock source target transfer, a.Addresses r := by
  obtain ⟨r', replacing, hacts⟩ := transferActs_eq clock transfer howner hne
  rw [hacts]
  intro a ha
  simp only [List.mem_append, List.mem_cons, List.not_mem_nil, or_false] at ha
  obtain ha | ha | rfl | ha | rfl := ha
  · obtain ⟨visit, -, other, hother, rfl⟩ := mem_cancelsOf.mp ha
    exact hother
  · exact addresses_cancelActs r _ target a ha
  · trivial
  · obtain rfl | ⟨live, rfl⟩ | rfl := eq_of_mem_settleActs ha
    · exact howner
    · trivial
    · trivial
  · trivial

end Router

namespace Session

open Router (Handout gesturesOf)

variable {s s' : Session} {key : ChannelKey} {consumer source target : ConsumerId}
  {handouts : List Handout}

-- The gestures on account of a channel that reach the helper of a consumer.
def dispatchedTo (s : Session) (consumer : ConsumerId) (key : ChannelKey)
    (handouts : List Handout) : List Gesture :=
  let notices := (handouts.filter fun handout =>
    handout.key = key ∧ handout.consumer = consumer).map (·.toNotice)
  gesturesIn ((s.router.deliveries notices).map (·.2))

theorem deliveries_of_consumer {r : Router} {notices : List Notice}
    (hconsumer : ∀ notice ∈ notices, notice.consumer = consumer) :
    (r.deliveries notices).map (·.2) =
      if (r.helperFor? consumer).isSome then notices else [] := by
  induction notices with
  | nil => simp [Router.deliveries]
  | cons notice rest ih =>
    have hrest := ih fun other hother => hconsumer other (List.mem_cons_of_mem _ hother)
    have hnotice := hconsumer notice List.mem_cons_self
    unfold Router.deliveries at hrest ⊢
    cases hhelper : r.helperFor? consumer with
    | none => simpa [hnotice, hhelper] using hrest
    | some helper => simpa [hnotice, hhelper] using hrest

-- If everything is for the owner of its channel, the helper of the owner hears all of it,
-- and the others nothing.
theorem dispatchedTo_eq (howned : s.router.Owned)
    (howner : ∀ handout ∈ handouts, s.router.owners[handout.consumer]? = some handout.key) :
    s.dispatchedTo consumer key handouts =
      if s.router.owners[consumer]? = some key ∧ (s.router.helperFor? consumer).isSome then
        gesturesOf key handouts
      else [] := by
  have hconsumer : ∀ notice ∈ (handouts.filter fun handout =>
      handout.key = key ∧ handout.consumer = consumer).map (·.toNotice),
      notice.consumer = consumer := by
    intro notice hnotice
    obtain ⟨handout, hhandout, rfl⟩ := List.mem_map.mp hnotice
    exact (of_decide_eq_true (List.mem_filter.mp hhandout).2).2
  unfold dispatchedTo gesturesOf
  dsimp only
  rw [deliveries_of_consumer hconsumer]
  by_cases hown : s.router.owners[consumer]? = some key
  · have hfilter : (handouts.filter fun handout => handout.key = key ∧ handout.consumer = consumer) =
        handouts.filter fun handout => handout.key = key := by
      refine List.filter_congr fun handout hmem => ?_
      have hsame : handout.key = key → handout.consumer = consumer := fun hkey =>
        howned.single (hkey ▸ howner handout hmem) hown
      simpa using hsame
    rw [hfilter]
    by_cases hhelper : (s.router.helperFor? consumer).isSome <;> simp [hown, hhelper]
  · have hfilter : (handouts.filter fun handout => handout.key = key ∧ handout.consumer = consumer) =
        [] := by
      refine List.filter_eq_nil_iff.mpr fun handout hmem => ?_
      have hnot : handout.key = key → handout.consumer ≠ consumer := by
        rintro rfl rfl
        exact hown (howner handout hmem)
      simpa using hnot
    rw [hfilter]
    simp [hown]

end Session

end TouchGestures
