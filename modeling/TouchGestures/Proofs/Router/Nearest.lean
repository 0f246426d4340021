import Mathlib.Data.List.Induction
import TouchGestures.Proofs.Router.View
import TouchGestures.Proofs.Scalar.Order
import TouchGestures.Router.Nearest

namespace TouchGestures

namespace Router

variable {r : Router} {point : Point} {device : DeviceId} {consumer : ConsumerId}
  {contact : Contact} {visited : List (ConsumerId × Contact)}

-- How far from a point of the root a contact is, squared.
def distanceOf (point : Point) (candidate : ConsumerId × Contact) : Scalar :=
  candidate.2.place.root.distanceSquared point

-- The consumer that is found if the contacts are visited in some order.
def consumerNearAmong (r : Router) (point : Point) (visited : List (ConsumerId × Contact)) :
    Option ConsumerId :=
  match nearest? point visited with
  | none => none
  | some (distance, consumer) =>
    if distance < r.settings.separation * r.settings.separation then some consumer else none

theorem consumerNear?_eq (r : Router) (point : Point) (device : DeviceId) :
    r.consumerNear? point device = r.consumerNearAmong point (r.contactsOn device) := rfl

theorem nearest?_concat (point : Point) (visited : List (ConsumerId × Contact))
    (candidate : ConsumerId × Contact) :
    nearest? point (visited ++ [candidate]) =
      match nearest? point visited with
      | none => some (distanceOf point candidate, candidate.1)
      | some (least, chosen) =>
        if distanceOf point candidate < least then some (distanceOf point candidate, candidate.1)
        else some (least, chosen) := by
  rw [nearest?, List.foldl_concat, ← nearest?]
  cases nearest? point visited with
  | none => rfl
  | some best => rfl

-- Some contact is chosen to which no other is preferred. Whether its distance is a number
-- depends on the first contact alone: nothing is less than NaN, and NaN is less than nothing.
theorem nearest?_cons (point : Point) (first : ConsumerId × Contact)
    (rest : List (ConsumerId × Contact)) :
    ∃ chosen ∈ first :: rest,
      nearest? point (first :: rest) = some (distanceOf point chosen, chosen.1) ∧
      (distanceOf point chosen).isNaN = (distanceOf point first).isNaN ∧
      ∀ other ∈ first :: rest, ¬distanceOf point other < distanceOf point chosen := by
  induction rest using List.reverseRecOn with
  | nil =>
    refine ⟨first, List.mem_singleton_self _, rfl, rfl, fun other hother hlt => ?_⟩
    rw [List.mem_singleton.mp hother] at hlt
    exact Scalar.lt_irrefl hlt
  | append_singleton rest last ih =>
    obtain ⟨chosen, hchosen, hnearest, hnan, hleast⟩ := ih
    have hconcat := nearest?_concat point (first :: rest) last
    simp only [hnearest] at hconcat
    rw [← List.cons_append, hconcat]
    have hmem : ∀ {other}, other ∈ first :: rest ++ [last] → other ∈ first :: rest ∨ other = last :=
      fun hother => (List.mem_append.mp hother).imp_right List.mem_singleton.mp
    by_cases hlt : distanceOf point last < distanceOf point chosen
    · obtain ⟨hlast, hnumber⟩ := Scalar.isNaN_eq_false_of_lt hlt
      refine ⟨last, by simp, if_pos hlt, ?_, fun other hother hless => ?_⟩
      · rw [hlast, ← hnan, hnumber]
      · obtain hother | rfl := hmem hother
        · exact hleast other hother (Scalar.lt_trans hless hlt)
        · exact Scalar.lt_irrefl hless
    · refine ⟨chosen, List.mem_append_left [last] hchosen, if_neg hlt, hnan,
        fun other hother hless => ?_⟩
      obtain hother | rfl := hmem hother
      · exact hleast other hother hless
      · exact hlt hless

-- The contacts that are visited are those that a device has down on the owners of channels.
theorem mem_contactsOn : (consumer, contact) ∈ r.contactsOn device ↔
    ∃ key channel, r.owners[consumer]? = some key ∧ r.channels[key]? = some channel ∧
      contact ∈ channel.contacts.live ∧ contact.device = device := by
  unfold contactsOn
  rw [List.mem_flatMap]
  constructor
  · rintro ⟨⟨owner, key⟩, howner, hmem⟩
    dsimp only at hmem
    cases hlive : r.channels[key]? with
    | none =>
      rw [hlive] at hmem
      cases hmem
    | some channel =>
      rw [hlive] at hmem
      obtain ⟨c, hc, heq⟩ := List.mem_map.mp hmem
      obtain ⟨hdown, hdevice⟩ := List.mem_filter.mp hc
      cases heq
      exact ⟨key, channel, Std.ExtTreeMap.mem_toList_iff_getElem?_eq_some.mp howner, hlive,
        hdown, of_decide_eq_true hdevice⟩
  · rintro ⟨key, channel, howner, hlive, hdown, hdevice⟩
    refine ⟨(consumer, key), Std.ExtTreeMap.mem_toList_iff_getElem?_eq_some.mpr howner, ?_⟩
    dsimp only
    rw [hlive]
    exact List.mem_map_of_mem (List.mem_filter.mpr ⟨hdown, decide_eq_true hdevice⟩)

-- A contact that a device has down on a channel, nearer to a point of the root than the
-- separation.
def Near (r : Router) (point : Point) (device : DeviceId) (key : ChannelKey)
    (contact : Contact) : Prop :=
  ∃ channel, r.channels[key]? = some channel ∧ contact ∈ channel.contacts.live ∧
    contact.device = device ∧
    contact.place.root.distanceSquared point < r.settings.separation * r.settings.separation

theorem Near.lt {key : ChannelKey} (h : r.Near point device key contact) :
    contact.place.root.distanceSquared point < r.settings.separation * r.settings.separation := by
  obtain ⟨channel, -, -, -, hlt⟩ := h
  exact hlt

theorem Tidy.exists_candidate_of_near (h : r.Tidy) (hperm : visited.Perm (r.contactsOn device))
    {key : ChannelKey} (hnear : r.Near point device key contact) :
    ∃ consumer, (consumer, contact) ∈ visited := by
  obtain ⟨channel, hlive, hdown, hdevice, -⟩ := hnear
  exact ⟨channel.consumer, hperm.mem_iff.mpr (mem_contactsOn.mpr
    ⟨key, channel, h.owner_of_live hlive, hlive, hdown, hdevice⟩)⟩

-- A contact at a distance to which no other is preferred is no farther than those that are near.
theorem Tidy.le_of_near (h : r.Tidy) (hperm : visited.Perm (r.contactsOn device))
    {chosen : ConsumerId × Contact} (hnumber : (distanceOf point chosen).isNaN = false)
    (hleast : ∀ other ∈ visited, ¬distanceOf point other < distanceOf point chosen)
    {key : ChannelKey} (hnear : r.Near point device key contact) :
    distanceOf point chosen ≤ contact.place.root.distanceSquared point := by
  obtain ⟨consumer, hmem⟩ := h.exists_candidate_of_near hperm hnear
  exact Scalar.le_of_not_lt hnumber (Scalar.isNaN_eq_false_of_lt hnear.lt).1
    (hleast (consumer, contact) hmem)

theorem near_of_candidate (hmem : (consumer, contact) ∈ r.contactsOn device)
    (hlt : distanceOf point (consumer, contact) <
      r.settings.separation * r.settings.separation) :
    ∃ key, r.owners[consumer]? = some key ∧ r.Near point device key contact := by
  obtain ⟨key, channel, howner, hlive, hdown, hdevice⟩ := mem_contactsOn.mp hmem
  exact ⟨key, howner, channel, hlive, hdown, hdevice, hlt⟩

end Router

namespace Session

open Router (Op distanceOf)

variable {s : Session} {permits : Session → Op → Prop} {point : Point} {device : DeviceId}
  {visited : List (ConsumerId × Contact)}

-- In whatever order the contacts are visited, a consumer that is found owns a contact near
-- the point to which none is nearer. None is found if no contact is near, or if the distance
-- of the contact visited first is NaN: then that contact hides all others.
theorem Reached.consumerNearAmong_iff (h : Reached permits s) (point : Point)
    (device : DeviceId) (hperm : visited.Perm (s.router.contactsOn device)) :
    (∀ consumer, s.router.consumerNearAmong point visited = some consumer →
      ∃ key contact, s.router.owners[consumer]? = some key ∧
        s.router.Near point device key contact ∧
        ∀ other contact', s.router.Near point device other contact' →
          contact.place.root.distanceSquared point ≤ contact'.place.root.distanceSquared point) ∧
    (s.router.consumerNearAmong point visited = none ↔
      (∀ key contact, ¬s.router.Near point device key contact) ∨
      ∃ first ∈ visited.head?, (distanceOf point first).isNaN = true) := by
  match visited with
  | [] =>
    refine ⟨nofun, iff_of_true rfl (.inl fun key contact hnear => ?_)⟩
    obtain ⟨consumer, hmem⟩ := h.tidy.exists_candidate_of_near hperm hnear
    cases hmem
  | first :: rest =>
    obtain ⟨chosen, hchosen, hnearest, hnan, hleast⟩ := Router.nearest?_cons point first rest
    have hle (hnumber : (distanceOf point chosen).isNaN = false) {key contact}
        (hnear : s.router.Near point device key contact) :
        distanceOf point chosen ≤ contact.place.root.distanceSquared point :=
      h.tidy.le_of_near hperm hnumber hleast hnear
    rw [Router.consumerNearAmong, hnearest]
    dsimp only
    by_cases hlt : distanceOf point chosen <
        s.router.settings.separation * s.router.settings.separation
    · have hnumber := (Scalar.isNaN_eq_false_of_lt hlt).1
      obtain ⟨key, howner, hnear⟩ := Router.near_of_candidate (hperm.mem_iff.mp hchosen) hlt
      rw [if_pos hlt]
      constructor
      · rintro consumer ⟨⟩
        exact ⟨key, chosen.2, howner, hnear, fun other contact' hnear' => hle hnumber hnear'⟩
      · refine iff_of_false (Option.some_ne_none _) ?_
        rintro (hnone | ⟨other, hother, hisNaN⟩)
        · exact hnone key chosen.2 hnear
        · cases hother
          rw [← hnan, hnumber] at hisNaN
          cases hisNaN
    · rw [if_neg hlt]
      refine ⟨nofun, iff_of_true rfl ?_⟩
      by_cases hisNaN : (distanceOf point first).isNaN = true
      · exact .inr ⟨first, rfl, hisNaN⟩
      · have hnumber : (distanceOf point chosen).isNaN = false :=
          hnan.trans (Bool.eq_false_of_not_eq_true hisNaN)
        refine .inl fun key contact hnear => hlt ?_
        exact Scalar.lt_of_le_of_lt (hle hnumber hnear) hnear.lt

-- A finger down at a place of which only the consumer's own coordinates are known.
def unplaced : Touch :=
  { Channel.finger .pressed 1 10 0 1 with place := ⟨⟨10, 10⟩, ⟨0 / 0, 10⟩⟩ }

def scattered : Session :=
  (((start 10).attempt (.touch unplaced 1)).attempt
    (.touch (Channel.finger .pressed 2 50 10 2) 1)).attempt
    (.touch (Channel.finger .pressed 3 90 20 3) 2)

theorem reached_scattered : Reached (fun _ _ => True) scattered :=
  (((Reached.start {} ⟨10⟩).attempt trivial).attempt trivial).attempt trivial

-- Visited from the last to the first, the finger next to the point is found.
theorem consumerNearAmong_scattered :
    (scattered.router.contactsOn 0).reverse.Perm (scattered.router.contactsOn 0) ∧
    scattered.router.consumerNearAmong ⟨60, 10⟩ (scattered.router.contactsOn 0).reverse = some 1 ∧
    ∃ key contact, scattered.router.owners[(1 : ConsumerId)]? = some key ∧
      scattered.router.Near ⟨60, 10⟩ 0 key contact ∧
      ∀ other contact', scattered.router.Near ⟨60, 10⟩ 0 other contact' →
        contact.place.root.distanceSquared ⟨60, 10⟩ ≤
          contact'.place.root.distanceSquared ⟨60, 10⟩ := by
  have hperm := List.reverse_perm (scattered.router.contactsOn 0)
  have hfound : scattered.router.consumerNearAmong ⟨60, 10⟩
      (scattered.router.contactsOn 0).reverse = some 1 := by decide +kernel
  obtain ⟨hconsumer, -⟩ := reached_scattered.consumerNearAmong_iff ⟨60, 10⟩ 0 hperm
  exact ⟨hperm, hfound, hconsumer 1 hfound⟩

-- Visited in order, that finger is hidden by the one whose distance is NaN.
theorem not_consumerNear_of_unplaced :
    Reached (fun _ _ => True) scattered ∧
    ¬(scattered.router.consumerNear? ⟨60, 10⟩ 0 = none ↔
      ∀ key contact, ¬scattered.router.Near ⟨60, 10⟩ 0 key contact) := by
  refine ⟨reached_scattered, fun hiff => ?_⟩
  have hnone : scattered.router.consumerNear? ⟨60, 10⟩ 0 = none := by decide +kernel
  have hmem : (1, Contact.ofPress (Channel.finger .pressed 2 50 10 2)) ∈
      scattered.router.contactsOn 0 := by decide +kernel
  have hlt : distanceOf ⟨60, 10⟩ (1, Contact.ofPress (Channel.finger .pressed 2 50 10 2)) <
      scattered.router.settings.separation * scattered.router.settings.separation := by
    decide +kernel
  obtain ⟨key, -, hnear⟩ := Router.near_of_candidate hmem hlt
  exact hiff.mp hnone key _ hnear

end Session

end TouchGestures
