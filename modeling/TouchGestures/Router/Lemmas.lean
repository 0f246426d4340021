import TouchGestures.Router.Basic

namespace TouchGestures.Router

variable {r : Router} {consumer : ConsumerId} {key other : ChannelKey} {id : EventId}

theorem channel?_eq_some_iff {channel : Channel} :
    r.channel? consumer = some channel ↔
      ∃ key, r.owners[consumer]? = some key ∧ r.channels[key]? = some channel := by
  simp [channel?, Option.bind_eq_some_iff]

theorem hasChannel_eq_isSome (r : Router) (consumer : ConsumerId) :
    r.hasChannel consumer = r.owners[consumer]?.isSome :=
  Std.ExtTreeMap.contains_eq_isSome_getElem?

theorem hasChannel_eq_false_iff : r.hasChannel consumer = false ↔ r.owners[consumer]? = none := by
  rw [hasChannel_eq_isSome, Option.isSome_eq_false_iff, Option.isNone_iff_eq_none]

theorem mem_boundTo {contact : ContactId} :
    contact ∈ r.boundTo consumer ↔ r.bindings[contact]? = some consumer := by
  simp [boundTo, Std.ExtTreeMap.mem_toList_iff_getElem?_eq_some]

theorem mem_eventsOf : id ∈ r.eventsOf key ↔ r.events[id]? = some key := by
  simp [eventsOf, Std.ExtTreeMap.mem_toList_iff_getElem?_eq_some]

theorem mem_consumersExcept {excluded : List ConsumerId} :
    consumer ∈ r.consumersExcept excluded ↔ r.hasChannel consumer ∧ consumer ∉ excluded := by
  simp [consumersExcept, hasChannel]

theorem nodup_consumersExcept (r : Router) (excluded : List ConsumerId) :
    (r.consumersExcept excluded).Nodup :=
  r.owners.nodup_keys.filter _

theorem getElem?_channels_put {channel : Channel} :
    (r.put key channel).channels[other]? =
      if key = other then some channel else r.channels[other]? := by
  simp [put, Std.ExtTreeMap.getElem?_insert]

-- Whoever had a channel keeps it, and the consumer has one afterwards.
theorem getElem?_owners_obtain (other : ConsumerId) :
    (r.obtain consumer).2.owners[other]? =
      if consumer = other then some (r.obtain consumer).1 else r.owners[other]? := by
  unfold obtain
  split
  · next key hkey =>
    split
    · next h => rw [← h, hkey]
    · rfl
  · simp [Std.ExtTreeMap.getElem?_insert]

theorem getElem?_events_removeChannel :
    (r.removeChannel key).events[id]? = r.events[id]?.filter fun seen => seen ≠ key := by
  simp [removeChannel]

-- Removing a channel orphans exactly the touches it has seen.
theorem mem_orphans_removeChannel :
    id ∈ (r.removeChannel key).orphans ↔ id ∈ r.orphans ∨ r.events[id]? = some key := by
  simp [removeChannel, Std.ExtTreeSet.mem_insertMany_list, mem_eventsOf]

end TouchGestures.Router
