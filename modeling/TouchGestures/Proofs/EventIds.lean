import Mathlib.Data.List.Nodup
import Mathlib.Data.Nat.ModEq
import TouchGestures.EventIds

namespace TouchGestures.EventIds

-- The loop by which a number is handed out, with how often the counter is drawn from until
-- it gives something other than zero.
inductive Loop : EventIds → Nat → EventId × EventIds → Prop
  | done {ids rest : EventIds} {id : EventId} (hdraw : ids.draw = (id, rest)) (hne : id ≠ 0) :
    Loop ids 1 (id, rest)
  | again {ids rest : EventIds} {steps : Nat} {result : EventId × EventIds}
    (hdraw : ids.draw = (0, rest)) (hloop : Loop rest steps result) : Loop ids (steps + 1) result

def take (ids : EventIds) : Nat → List EventId
  | 0 => []
  | count + 1 => ids.fresh.1 :: ids.fresh.2.take count

def period : Nat := UInt32.size - 1

-- A number is handed out by the loop, and the loop draws a second time only if the counter
-- stands at zero.
theorem exists_loop (ids : EventIds) : ∃ steps ≤ 2, ids.Loop steps ids.fresh := by
  by_cases hzero : ids.next = 0
  · obtain ⟨next⟩ := ids
    subst hzero
    have hsecond : Loop ⟨1⟩ 1 (1, ⟨2⟩) := .done (by decide) (by decide)
    exact ⟨2, Nat.le_refl 2, fresh_zero ▸ .again (by decide) hsecond⟩
  · exact ⟨1, by decide, fresh_of_ne_zero hzero ▸ .done rfl hzero⟩

-- The counter goes on after the number that was handed out.
theorem next_fresh (ids : EventIds) : ids.fresh.2.next = ids.fresh.1 + 1 := by
  by_cases hzero : ids.next = 0
  · obtain ⟨next⟩ := ids
    subst hzero
    rw [fresh_zero]
    decide
  · rw [fresh_of_ne_zero hzero]

-- Counted from one, the next number is the value of the counter, and one after a zero.
theorem toNat_fresh (ids : EventIds) :
    ids.fresh.1.toNat = (ids.next.toNat - 1) % period + 1 := by
  by_cases hzero : ids.next = 0
  · obtain ⟨next⟩ := ids
    subst hzero
    rw [fresh_zero]
    decide
  · have hpos : ids.next.toNat ≠ 0 := fun h => hzero (UInt32.toNat_inj.mp h)
    have hlt : ids.next.toNat < UInt32.size := ids.next.toNat_lt
    have hsmall : ids.next.toNat - 1 < period := by
      unfold period
      omega
    rw [fresh_of_ne_zero hzero, Nat.mod_eq_of_lt hsmall, Nat.sub_add_cancel (by omega)]

-- The highest number is followed by one and any other by its successor.
theorem toNat_fresh_fresh (ids : EventIds) :
    ids.fresh.2.fresh.1.toNat = ids.fresh.1.toNat % period + 1 := by
  have hlt : ids.fresh.1.toNat < UInt32.size := ids.fresh.1.toNat_lt
  have hpos : ids.fresh.1.toNat ≠ 0 := fun h => ids.fresh_ne_zero (UInt32.toNat_inj.mp h)
  have hnext : ids.fresh.2.next.toNat = (ids.fresh.1.toNat + 1) % UInt32.size := by
    rw [next_fresh, UInt32.toNat_add]
    rfl
  rw [toNat_fresh, hnext]
  by_cases hlast : ids.fresh.1.toNat + 1 = UInt32.size
  · have hperiod : ids.fresh.1.toNat = period := by
      unfold period
      omega
    rw [hlast, hperiod, Nat.mod_self, Nat.mod_self, Nat.zero_sub, Nat.zero_mod]
  · have hless : ids.fresh.1.toNat + 1 < UInt32.size := Nat.lt_of_le_of_ne hlt hlast
    rw [Nat.mod_eq_of_lt hless, Nat.add_sub_cancel]

-- Whatever the counter stands at, the numbers go round all but zero.
theorem map_toNat_take (ids : EventIds) (count : Nat) :
    (ids.take count).map UInt32.toNat =
      (List.range count).map fun k => (ids.fresh.1.toNat - 1 + k) % period + 1 := by
  induction count generalizing ids with
  | zero => rfl
  | succ count ih =>
    have hpos : ids.fresh.1.toNat ≠ 0 := fun h => ids.fresh_ne_zero (UInt32.toNat_inj.mp h)
    have hlt : ids.fresh.1.toNat < UInt32.size := ids.fresh.1.toNat_lt
    have hfirst : (ids.fresh.1.toNat - 1 + 0) % period + 1 = ids.fresh.1.toNat := by
      have hsmall : ids.fresh.1.toNat - 1 + 0 < period := by
        unfold period
        omega
      rw [Nat.mod_eq_of_lt hsmall]
      omega
    have hrest : ∀ k, (ids.fresh.2.fresh.1.toNat - 1 + k) % period + 1 =
        (ids.fresh.1.toNat - 1 + (k + 1)) % period + 1 := by
      intro k
      rw [toNat_fresh_fresh, Nat.add_sub_cancel, Nat.mod_add_mod]
      congr 2
      omega
    rw [take, List.map_cons, ih, List.range_succ_eq_map, List.map_cons, hfirst, List.map_map]
    simp only [Function.comp_def, hrest, Nat.succ_eq_add_one]

theorem length_take (ids : EventIds) (count : Nat) : (ids.take count).length = count := by
  induction count generalizing ids with
  | zero => rfl
  | succ count ih => rw [take, List.length_cons, ih]

theorem ne_zero_of_mem_take {ids : EventIds} {count : Nat} {id : EventId}
    (hid : id ∈ ids.take count) : id ≠ 0 := by
  induction count generalizing ids with
  | zero => cases hid
  | succ count ih =>
    obtain rfl | hrest := List.mem_cons.mp hid
    · exact ids.fresh_ne_zero
    · exact ih hrest

-- Up to so many calls as there are numbers besides zero, no two hand out the same one, none
-- hands out zero, and each draws from the counter twice at most. The calls may start
-- anywhere, so the counter may wrap around on the way.
theorem nodup_take (ids : EventIds) {count : Nat} (hcount : count ≤ period) :
    (ids.take count).length = count ∧ (ids.take count).Nodup ∧ (∀ id ∈ ids.take count, id ≠ 0) ∧
      ∀ ids : EventIds, ∃ steps ≤ 2, ids.Loop steps ids.fresh := by
  refine ⟨ids.length_take count, List.Nodup.of_map UInt32.toNat ?_,
    fun _ => ne_zero_of_mem_take, exists_loop⟩
  rw [map_toNat_take]
  refine List.Nodup.map_on (fun i hi j hj hij => ?_) List.nodup_range
  -- Two places of the run are less than a round apart.
  have hi := List.mem_range.mp hi
  have hj := List.mem_range.mp hj
  have hmod : Nat.ModEq period i j := Nat.ModEq.add_left_cancel' _ (Nat.succ.inj hij)
  exact Nat.ModEq.eq_of_lt_of_lt hmod (by omega) (by omega)

-- Four calls when the counter is about to wrap around.
theorem nodup_take_wrapping :
    4 ≤ period ∧ (take ⟨4294967294⟩ 4) = [4294967294, 4294967295, 1, 2] ∧
      (take ⟨4294967294⟩ 4).Nodup ∧ ∀ id ∈ take ⟨4294967294⟩ 4, id ≠ 0 := by
  have hcount : 4 ≤ period := by decide
  obtain ⟨-, hnodup, hne, -⟩ := nodup_take ⟨4294967294⟩ hcount
  exact ⟨hcount, by decide, hnodup, hne⟩

end TouchGestures.EventIds
