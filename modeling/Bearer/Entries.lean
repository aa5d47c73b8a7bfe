import Bearer.Text.CodePoint

/-! Mappings from texts that keep the order in which keys were first set. Setting a key again replaces its value in
its old place, so the keys after `put` are the old ones, with a new key at the end. -/

namespace Bearer

/-- Keys with their values, in the order of their first setting. -/
abbrev Entries (α : Type) := List (Text × α)

namespace Entries

variable {α : Type}

/-- The value of a key. -/
def get? (key : Text) : Entries α → Option α
  | [] => none
  | (k, v) :: rest => if k = key then some v else get? key rest

/-- Sets the value of a key: in its place if it is there, else at the end. -/
def put (key : Text) (value : α) : Entries α → Entries α
  | [] => [(key, value)]
  | (k, v) :: rest => if k = key then (k, value) :: rest else (k, v) :: put key value rest

/-- Removes a key. -/
def erase (key : Text) (entries : Entries α) : Entries α :=
  entries.filter fun (k, _) => k ≠ key

/-- Sets all the given keys, one after the other. -/
def putAll (entries : Entries α) (more : List (Text × α)) : Entries α :=
  more.foldl (fun entries (k, v) => entries.put k v) entries

/-- The mapping that results from setting the given keys one after the other: of a repeated key
the first place and the last value remain. -/
def ofList (pairs : List (Text × α)) : Entries α := putAll [] pairs

/-- The keys, in order. -/
def keys (entries : Entries α) : List Text := entries.map (·.1)

theorem get?_eq_none {key : Text} {entries : Entries α}
    (hOthers : ∀ entry ∈ entries, entry.1 ≠ key) : entries.get? key = none := by
  induction entries with
  | nil => rfl
  | cons entry rest ih =>
      rw [get?, if_neg (hOthers entry List.mem_cons_self)]
      exact ih fun e he => hOthers e (List.mem_cons_of_mem entry he)

/-- The value of a key is that of its first entry. -/
theorem get?_eq_some_iff {key : Text} {value : α} {entries : Entries α} :
    entries.get? key = some value ↔
      ∃ before after, entries = before ++ (key, value) :: after ∧ ∀ entry ∈ before, entry.1 ≠ key := by
  constructor
  · intro hGet
    induction entries with
    | nil => cases hGet
    | cons entry rest ih =>
      obtain ⟨k, v⟩ := entry
      by_cases hk : k = key
      · rw [get?, if_pos hk] at hGet
        cases hGet
        subst hk
        exact ⟨[], rest, rfl, fun _ hMem => nomatch hMem⟩
      · rw [get?, if_neg hk] at hGet
        obtain ⟨before, after, rfl, hOthers⟩ := ih hGet
        exact ⟨(k, v) :: before, after, rfl, List.forall_mem_cons.mpr ⟨hk, hOthers⟩⟩
  · rintro ⟨before, after, rfl, hOthers⟩
    induction before with
    | nil => exact if_pos rfl
    | cons entry before ih =>
      rw [List.cons_append, get?, if_neg (hOthers entry List.mem_cons_self)]
      exact ih fun e he => hOthers e (List.mem_cons_of_mem entry he)

theorem get?_put (key : Text) (value : α) (entries : Entries α) :
    (entries.put key value).get? key = some value := by
  induction entries with
  | nil => simp [put, get?]
  | cons entry rest ih =>
    obtain ⟨k, v⟩ := entry
    by_cases h : k = key <;> simp [put, get?, h, ih]

theorem get?_put_of_ne {key other : Text} (value : α) (entries : Entries α) (h : other ≠ key) :
    (entries.put key value).get? other = entries.get? other := by
  induction entries with
  | nil => simp [put, get?, Ne.symm h]
  | cons entry rest ih =>
    obtain ⟨k, v⟩ := entry
    by_cases hk : k = key
    · subst hk
      simp [put, get?, Ne.symm h]
    · simp [put, get?, hk, ih]

theorem get?_append (key : Text) (entries more : Entries α) :
    get? key (entries ++ more) = (entries.get? key).or (get? key more) := by
  induction entries with
  | nil => rfl
  | cons entry rest ih =>
    obtain ⟨k, v⟩ := entry
    by_cases hk : k = key <;> simp [get?, hk, ih]

theorem get?_putAll (key : Text) (entries : Entries α) (more : List (Text × α)) :
    (entries.putAll more).get? key = (get? key more.reverse).or (entries.get? key) := by
  induction more generalizing entries with
  | nil => rfl
  | cons pair rest ih =>
    obtain ⟨k, v⟩ := pair
    rw [putAll, List.foldl_cons, ← putAll, ih, List.reverse_cons, get?_append, Option.or_assoc]
    congr 1
    by_cases hk : k = key
    · subst hk
      simp [get?, get?_put]
    · simp [get?, hk, get?_put_of_ne v entries (Ne.symm hk)]

/-- Of a repeated key the last value counts. -/
theorem get?_ofList (key : Text) (pairs : List (Text × α)) :
    (ofList pairs).get? key = get? key pairs.reverse := by
  rw [ofList, get?_putAll]
  exact Option.or_none

theorem keys_put (key : Text) (value : α) (entries : Entries α) :
    (entries.put key value).keys
      = if key ∈ entries.keys then entries.keys else entries.keys ++ [key] := by
  induction entries with
  | nil => simp [put, keys]
  | cons entry rest ih =>
    obtain ⟨k, v⟩ := entry
    by_cases hk : k = key
    · subst hk
      simp [put, keys]
    · have hk' : key ≠ k := Ne.symm hk
      simp only [keys] at ih
      by_cases hm : key ∈ rest.map (·.1) <;> simp [put, keys, hk, hk', ih, hm]

end Entries

end Bearer
