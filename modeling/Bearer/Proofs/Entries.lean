import Bearer.Entries
import Mathlib.Data.List.Nodup

/-! To set keys one after the other, none of them twice, is to lay one mapping over another: values are replaced where
their keys stood, and new keys follow in order. -/

namespace Bearer

namespace Entries

variable {α : Type} {key : Text} {value : α} {entries more : Entries α}

theorem get?_map {β : Type} (f : α → β) (key : Text) (entries : Entries α) :
    get? key (entries.map fun entry => (entry.1, f entry.2)) = (entries.get? key).map f := by
  induction entries with
  | nil => rfl
  | cons entry rest ih =>
      rw [List.map_cons, get?, get?, ih]
      split <;> rfl

/-- Of two values that are set for a key, the later one remains. -/
theorem put_put (key : Text) (first second : α) (entries : Entries α) :
    (entries.put key first).put key second = entries.put key second := by
  induction entries with
  | nil => simp [put]
  | cons entry entries ih =>
      obtain ⟨k, v⟩ := entry
      by_cases hk : k = key
      · simp [put, hk]
      · simp [put, hk, ih]

/-- A mapping with another one laid over it: the values of keys that it has are replaced in their places, and the
keys that are new follow in order. -/
def overlay (entries more : Entries α) : Entries α :=
  entries.map (fun entry => (entry.1, (more.get? entry.1).getD entry.2)) ++
    more.filter fun entry => entry.1 ∉ entries.keys

theorem mem_keys {entry : Text × α} (h : entry ∈ entries) : entry.1 ∈ entries.keys := List.mem_map_of_mem h

theorem put_of_not_mem (hNew : key ∉ entries.keys) (value : α) :
    entries.put key value = entries ++ [(key, value)] := by
  induction entries with
  | nil => rfl
  | cons entry rest ih =>
      obtain ⟨hHead, hRest⟩ := not_or.mp fun h => hNew (List.mem_cons.mpr h)
      rw [put, if_neg (Ne.symm hHead), ih hRest, List.cons_append]

theorem put_of_mem (hNodup : entries.keys.Nodup) (hMem : key ∈ entries.keys) (value : α) :
    entries.put key value = entries.map fun entry => (entry.1, if key = entry.1 then value else entry.2) := by
  induction entries with
  | nil => cases hMem
  | cons entry rest ih =>
      obtain ⟨name, old⟩ := entry
      obtain ⟨hHead, hRest⟩ : name ∉ keys rest ∧ (keys rest).Nodup := List.nodup_cons.mp hNodup
      rw [put, List.map_cons]
      by_cases hName : name = key
      · subst hName
        have hOthers : ∀ entry ∈ rest, (entry.1, if name = entry.1 then value else entry.2) = entry := by
          intro entry hEntry
          have hOther : name ≠ entry.1 := fun hSame => hHead (hSame ▸ mem_keys hEntry)
          rw [if_neg hOther]
        rw [if_pos rfl, if_pos rfl, List.map_congr_left hOthers, List.map_id']
      · rw [if_neg hName, if_neg (Ne.symm hName), ih hRest ((List.mem_cons.mp hMem).resolve_left (Ne.symm hName))]

theorem nodup_put (hNodup : entries.keys.Nodup) (key : Text) (value : α) : (entries.put key value).keys.Nodup := by
  rw [keys_put]
  split
  · exact hNodup
  · next hNew => exact List.nodup_append_comm.mp (List.nodup_cons.mpr ⟨hNew, hNodup⟩)

theorem nodup_putAll (hNodup : entries.keys.Nodup) (more : Entries α) : (entries.putAll more).keys.Nodup := by
  induction more generalizing entries with
  | nil => exact hNodup
  | cons entry rest ih => exact ih (nodup_put hNodup entry.1 entry.2)

/-- Setting a key first is laying it over first, if it is not set again. -/
theorem overlay_put (hNodup : entries.keys.Nodup) (hAlone : key ∉ more.keys) (value : α) :
    (entries.put key value).overlay more = entries.overlay ((key, value) :: more) := by
  have hNone : more.get? key = none := get?_eq_none fun entry hEntry hSame => hAlone (hSame ▸ mem_keys hEntry)
  unfold overlay
  rw [keys_put]
  by_cases hMem : key ∈ entries.keys
  · rw [if_pos hMem, put_of_mem hNodup hMem, List.map_map, List.filter_cons_of_neg (by simpa using hMem)]
    congr 1
    refine List.map_congr_left fun entry _ => ?_
    rw [Function.comp_apply, get?]
    by_cases hName : key = entry.1
    · subst hName
      rw [hNone, if_pos rfl, if_pos rfl]
      rfl
    · rw [if_neg hName, if_neg hName]
  · rw [if_neg hMem, put_of_not_mem hMem, List.map_append, List.append_assoc,
      List.filter_cons_of_pos (by simpa using hMem)]
    congr 1
    · refine List.map_congr_left fun entry hEntry => ?_
      have hOther : key ≠ entry.1 := fun hSame => hMem (hSame ▸ mem_keys hEntry)
      rw [get?, if_neg hOther]
    · rw [List.map_singleton, hNone, List.singleton_append]
      congr 1
      refine List.filter_congr fun entry hEntry => ?_
      have hOther : entry.1 ≠ key := fun hSame => hAlone (hSame ▸ mem_keys hEntry)
      simp [hOther]

/-- Setting keys one after the other lays them over, if none is set twice. -/
theorem putAll_eq_overlay (hEntries : entries.keys.Nodup) (hMore : more.keys.Nodup) :
    entries.putAll more = entries.overlay more := by
  induction more generalizing entries with
  | nil => simp [putAll, overlay, get?]
  | cons entry rest ih =>
      obtain ⟨hAlone, hRest⟩ := List.nodup_cons.mp hMore
      rw [← overlay_put hEntries hAlone, ← ih (nodup_put hEntries _ _) hRest]
      rfl

theorem ofList_of_nodup (h : more.keys.Nodup) : ofList more = more := by
  rw [ofList, putAll_eq_overlay (show (keys ([] : Entries α)).Nodup from List.nodup_nil) h]
  exact List.filter_eq_self.mpr fun _ _ => rfl

/-- What is laid over a mapping stands in it afterwards, and else nothing but what stood there. -/
theorem mem_of_mem_overlay {entry : Text × α} (h : entry ∈ entries.overlay more) :
    entry ∈ entries ∨ entry ∈ more := by
  rcases List.mem_append.mp h with hMem | hNew
  · obtain ⟨old, hOld, rfl⟩ := List.mem_map.mp hMem
    cases hValue : more.get? old.1 with
    | none => exact .inl hOld
    | some value =>
        obtain ⟨before, after, hMore, -⟩ := get?_eq_some_iff.mp hValue
        right
        rw [Option.getD_some, hMore]
        exact List.mem_append_right before List.mem_cons_self
  · exact .inr (List.mem_filter.mp hNew).1

end Entries

end Bearer
