/-!
Maps that keep their keys in the order in which they were first put. A key stands once; putting a
key that is already there replaces its value in place.
-/
namespace ApiClientGen

namespace Entries

variable {κ α : Type} [DecidableEq κ]

def find? (key : κ) : List (κ × α) → Option α
  | [] => none
  | entry :: rest => if entry.1 = key then some entry.2 else find? key rest

def put (key : κ) (value : α) : List (κ × α) → List (κ × α)
  | [] => [(key, value)]
  | entry :: rest =>
    if entry.1 = key then (key, value) :: rest else entry :: put key value rest

def removeIf (drop : κ → Bool) (entries : List (κ × α)) : List (κ × α) :=
  entries.filter fun entry => !drop entry.1

@[simp] theorem find?_put_self (key : κ) (value : α) (entries : List (κ × α)) :
    find? key (put key value entries) = some value := by
  induction entries with
  | nil => simp [put, find?]
  | cons entry rest ih =>
    rw [put]
    split
    · simp [find?]
    · rename_i h
      simp [find?, h, ih]

theorem find?_put_of_ne {key other : κ} (value : α) (entries : List (κ × α)) (h : other ≠ key) :
    find? other (put key value entries) = find? other entries := by
  induction entries with
  | nil => simp [put, find?, Ne.symm h]
  | cons entry rest ih =>
    rw [put]
    split
    · rename_i heq
      simp [find?, heq, Ne.symm h]
    · simp [find?, ih]

/-- A new key goes to the end, a known one keeps its place. -/
theorem keys_put (key : κ) (value : α) (entries : List (κ × α)) :
    (put key value entries).map Prod.fst =
      if key ∈ entries.map Prod.fst then entries.map Prod.fst
      else entries.map Prod.fst ++ [key] := by
  induction entries with
  | nil => simp [put]
  | cons entry rest ih =>
    rw [put]
    by_cases h : entry.1 = key
    · simp [h]
    · simp only [h, if_false, List.map_cons, ih, List.mem_cons, Ne.symm h, false_or]
      split <;> simp

theorem nodup_put (key : κ) (value : α) (entries : List (κ × α))
    (h : (entries.map Prod.fst).Nodup) : ((put key value entries).map Prod.fst).Nodup := by
  rw [keys_put]
  split
  · exact h
  · rename_i hkey
    exact List.nodup_append.mpr ⟨h, by simp, fun a ha b hb hab => by
      simp only [List.mem_singleton] at hb
      exact hkey (hb ▸ hab ▸ ha)⟩

theorem find?_isSome_iff (key : κ) (entries : List (κ × α)) :
    (find? key entries).isSome ↔ key ∈ entries.map Prod.fst := by
  induction entries with
  | nil => simp [find?]
  | cons entry rest ih =>
    rw [find?]
    by_cases h : entry.1 = key
    · simp [h]
    · simp only [h, if_false, ih, List.map_cons, List.mem_cons, Ne.symm h, false_or]

theorem mem_of_find?_eq_some {key : κ} {value : α} {entries : List (κ × α)}
    (h : find? key entries = some value) : (key, value) ∈ entries := by
  induction entries with
  | nil => cases h
  | cons entry rest ih =>
    rw [find?] at h
    split at h
    · rename_i heq
      cases h
      rw [← heq]
      exact List.mem_cons_self ..
    · exact List.mem_cons_of_mem _ (ih h)

theorem find?_eq_some_of_mem {key : κ} {value : α} {entries : List (κ × α)}
    (hnodup : (entries.map Prod.fst).Nodup) (h : (key, value) ∈ entries) :
    find? key entries = some value := by
  induction entries with
  | nil => cases h
  | cons entry rest ih =>
    rw [List.map_cons, List.nodup_cons] at hnodup
    rw [find?]
    rcases List.mem_cons.mp h with heq | hrest
    · rw [← heq, if_pos rfl]
    · have hkey : entry.1 ≠ key := by
        intro heq
        exact hnodup.1 (heq ▸ List.mem_map_of_mem hrest)
      rw [if_neg hkey, ih hnodup.2 hrest]

/-- Where no key stands twice, the order of the entries does not matter. -/
theorem find?_perm {entries others : List (κ × α)} (hnodup : (entries.map Prod.fst).Nodup)
    (h : entries.Perm others) (key : κ) : find? key entries = find? key others := by
  have hothers : (others.map Prod.fst).Nodup := (h.map Prod.fst).nodup_iff.mp hnodup
  ext value
  constructor
  · intro hfind
    exact find?_eq_some_of_mem hothers (h.mem_iff.mp (mem_of_find?_eq_some hfind))
  · intro hfind
    exact find?_eq_some_of_mem hnodup (h.mem_iff.mpr (mem_of_find?_eq_some hfind))

theorem find?_append (key : κ) (front back : List (κ × α)) :
    find? key (front ++ back) = (find? key front).or (find? key back) := by
  induction front with
  | nil => rfl
  | cons entry rest ih =>
    rw [List.cons_append, find?, find?]
    split
    · rfl
    · exact ih

@[simp] theorem put_put_self (key : κ) (value later : α) (entries : List (κ × α)) :
    put key later (put key value entries) = put key later entries := by
  induction entries with
  | nil => simp [put]
  | cons entry rest ih =>
    rw [put, put]
    split
    · simp [put]
    · rename_i h
      simp [put, h, ih]

/-- A known key keeps its place, so that another one may be put before or after it. -/
theorem put_put_of_mem {key other : κ} (value later : α) {entries : List (κ × α)}
    (hkey : key ∈ entries.map Prod.fst) (hne : other ≠ key) :
    put key later (put other value entries) = put other value (put key later entries) := by
  induction entries with
  | nil => cases hkey
  | cons entry rest ih =>
    rw [List.map_cons, List.mem_cons] at hkey
    by_cases hfirst : entry.1 = key
    · simp [put, hfirst, hne.symm]
    · have hrest := ih (hkey.resolve_left (Ne.symm hfirst))
      by_cases hother : entry.1 = other
      · simp [put, hother, hne]
      · simp [put, hfirst, hother, hrest]

theorem mem_of_mem_put {key : κ} {value : α} {entry : κ × α} {entries : List (κ × α)}
    (h : entry ∈ put key value entries) : entry = (key, value) ∨ entry ∈ entries := by
  induction entries with
  | nil => exact .inl (List.mem_singleton.mp h)
  | cons first rest ih =>
    rw [put] at h
    split at h
    · rcases List.mem_cons.mp h with heq | hrest
      · exact .inl heq
      · exact .inr (List.mem_cons_of_mem _ hrest)
    · rcases List.mem_cons.mp h with heq | hrest
      · exact .inr (heq ▸ List.mem_cons_self)
      · exact (ih hrest).imp_right (List.mem_cons_of_mem _)

theorem put_of_not_mem {key : κ} (value : α) {entries : List (κ × α)}
    (h : key ∉ entries.map Prod.fst) : put key value entries = entries ++ [(key, value)] := by
  induction entries with
  | nil => rfl
  | cons entry rest ih =>
    rw [List.map_cons, List.mem_cons, not_or] at h
    rw [put, if_neg (Ne.symm h.1), ih h.2, List.cons_append]

end Entries

/-- A map that keeps its keys in the order in which they were first put. -/
structure OrderedMap (κ α : Type) where
  entries : List (κ × α)
  nodup : (entries.map Prod.fst).Nodup

namespace OrderedMap

variable {κ α : Type}

@[ext] theorem ext {m n : OrderedMap κ α} (h : m.entries = n.entries) : m = n := by
  cases m
  cases n
  simpa using h

def empty : OrderedMap κ α := ⟨[], List.nodup_nil⟩

instance : Inhabited (OrderedMap κ α) := ⟨empty⟩

def keys (m : OrderedMap κ α) : List κ := m.entries.map Prod.fst

def values (m : OrderedMap κ α) : List α := m.entries.map Prod.snd

def mapValues {β : Type} (f : α → β) (m : OrderedMap κ α) : OrderedMap κ β :=
  ⟨m.entries.map fun entry => (entry.1, f entry.2), by simpa [Function.comp_def] using m.nodup⟩

theorem keys_mapValues {β : Type} (f : α → β) (m : OrderedMap κ α) :
    (m.mapValues f).keys = m.keys := by
  rw [keys, mapValues, List.map_map]
  rfl

theorem values_mapValues {β : Type} (f : α → β) (m : OrderedMap κ α) :
    (m.mapValues f).values = m.values.map f := by
  rw [values, mapValues, List.map_map, values, List.map_map]
  rfl

variable [DecidableEq κ]

def find? (m : OrderedMap κ α) (key : κ) : Option α := Entries.find? key m.entries

def put (m : OrderedMap κ α) (key : κ) (value : α) : OrderedMap κ α :=
  ⟨Entries.put key value m.entries, Entries.nodup_put key value m.entries m.nodup⟩

def putAll (m : OrderedMap κ α) (entries : List (κ × α)) : OrderedMap κ α :=
  entries.foldl (fun m entry => m.put entry.1 entry.2) m

/-- The map of a list of entries; the last value of a key counts. -/
def ofList (entries : List (κ × α)) : OrderedMap κ α := empty.putAll entries

def removeIf (m : OrderedMap κ α) (drop : κ → Bool) : OrderedMap κ α :=
  ⟨Entries.removeIf drop m.entries, m.nodup.sublist (List.filter_sublist.map _)⟩

@[simp] theorem find?_put_self (m : OrderedMap κ α) (key : κ) (value : α) :
    (m.put key value).find? key = some value :=
  Entries.find?_put_self key value m.entries

theorem find?_put_of_ne (m : OrderedMap κ α) {key other : κ} (value : α) (h : other ≠ key) :
    (m.put key value).find? other = m.find? other :=
  Entries.find?_put_of_ne value m.entries h

theorem keys_put (m : OrderedMap κ α) (key : κ) (value : α) :
    (m.put key value).keys = if key ∈ m.keys then m.keys else m.keys ++ [key] :=
  Entries.keys_put key value m.entries

theorem find?_isSome_iff (m : OrderedMap κ α) (key : κ) :
    (m.find? key).isSome ↔ key ∈ m.keys :=
  Entries.find?_isSome_iff key m.entries

theorem mem_values_of_find?_eq_some {m : OrderedMap κ α} {key : κ} {value : α}
    (h : m.find? key = some value) : value ∈ m.values :=
  List.mem_map_of_mem (Entries.mem_of_find?_eq_some h)

theorem mem_values_iff (m : OrderedMap κ α) (value : α) :
    value ∈ m.values ↔ ∃ key, m.find? key = some value := by
  constructor
  · intro h
    obtain ⟨entry, hentry, rfl⟩ := List.mem_map.mp h
    exact ⟨entry.1, Entries.find?_eq_some_of_mem m.nodup hentry⟩
  · rintro ⟨key, h⟩
    exact mem_values_of_find?_eq_some h

/-- What is put later counts. -/
theorem find?_putAll (m n : OrderedMap κ α) (key : κ) :
    (m.putAll n.entries).find? key = (n.find? key).or (m.find? key) := by
  obtain ⟨entries, hnodup⟩ := n
  change (entries.foldl (fun m entry => m.put entry.1 entry.2) m).find? key =
    (Entries.find? key entries).or (m.find? key)
  induction entries generalizing m with
  | nil => rfl
  | cons entry rest ih =>
    rw [List.map_cons, List.nodup_cons] at hnodup
    rw [List.foldl_cons, ih _ hnodup.2, Entries.find?]
    by_cases hkey : entry.1 = key
    · have hnone : Entries.find? key rest = none := by
        rw [← Option.not_isSome_iff_eq_none, Entries.find?_isSome_iff, ← hkey]
        exact hnodup.1
      rw [if_pos hkey, hnone, ← hkey, find?_put_self]
      rfl
    · rw [if_neg hkey, find?_put_of_ne m entry.2 (Ne.symm hkey)]

theorem mem_keys_put_self (m : OrderedMap κ α) (key : κ) (value : α) :
    key ∈ (m.put key value).keys := by
  rw [← find?_isSome_iff, find?_put_self]
  rfl

theorem put_put_self (m : OrderedMap κ α) (key : κ) (value later : α) :
    (m.put key value).put key later = m.put key later :=
  ext (Entries.put_put_self key value later m.entries)

theorem put_put_of_mem (m : OrderedMap κ α) {key other : κ} (value later : α)
    (hkey : key ∈ m.keys) (hne : other ≠ key) :
    (m.put other value).put key later = (m.put key later).put other value :=
  ext (Entries.put_put_of_mem value later hkey hne)

theorem putAll_cons (m : OrderedMap κ α) (entry : κ × α) (entries : List (κ × α)) :
    m.putAll (entry :: entries) = (m.put entry.1 entry.2).putAll entries := rfl

/-- What is put last at a known key may be put first if the key does not come in between. -/
theorem put_putAll_of_mem {m : OrderedMap κ α} {key : κ} (value : α) {entries : List (κ × α)}
    (hkey : key ∈ m.keys) (hnew : key ∉ entries.map Prod.fst) :
    (m.putAll entries).put key value = (m.put key value).putAll entries := by
  induction entries generalizing m with
  | nil => rfl
  | cons entry rest ih =>
    rw [List.map_cons, List.mem_cons, not_or] at hnew
    obtain ⟨hentry, hrest⟩ := hnew
    have hstays : key ∈ (m.put entry.1 entry.2).keys := by
      rw [keys_put]
      split
      · exact hkey
      · exact List.mem_append_left _ hkey
    rw [putAll_cons, ih hstays hrest, put_put_of_mem m entry.2 value hkey (Ne.symm hentry),
      putAll_cons]

theorem putAll_put (m n : OrderedMap κ α) (key : κ) (value : α) :
    m.putAll (n.put key value).entries = (m.putAll n.entries).put key value := by
  obtain ⟨entries, hnodup⟩ := n
  change m.putAll (Entries.put key value entries) = (m.putAll entries).put key value
  induction entries generalizing m with
  | nil => rfl
  | cons entry rest ih =>
    rw [List.map_cons, List.nodup_cons] at hnodup
    rw [Entries.put]
    split
    · rename_i hkey
      obtain ⟨first, old⟩ := entry
      obtain rfl : first = key := hkey
      rw [putAll_cons, putAll_cons,
        put_putAll_of_mem value (mem_keys_put_self m first old) hnodup.1, put_put_self]
    · rw [putAll_cons, putAll_cons, ih _ hnodup.2]

/-- Putting entries into a map is associative. -/
theorem putAll_putAll (m n : OrderedMap κ α) (entries : List (κ × α)) :
    m.putAll (n.putAll entries).entries = (m.putAll n.entries).putAll entries := by
  induction entries generalizing n with
  | nil => rfl
  | cons entry rest ih => rw [putAll_cons, ih, putAll_put, putAll_cons]

theorem mem_of_mem_putAll {m : OrderedMap κ α} {entry : κ × α} {entries : List (κ × α)}
    (h : entry ∈ (m.putAll entries).entries) : entry ∈ m.entries ∨ entry ∈ entries := by
  induction entries generalizing m with
  | nil => exact .inl h
  | cons first rest ih =>
    rw [putAll_cons] at h
    rcases ih h with hput | hrest
    · rcases Entries.mem_of_mem_put hput with rfl | hold
      · exact .inr List.mem_cons_self
      · exact .inl hold
    · exact .inr (List.mem_cons_of_mem _ hrest)

/-- New keys go to the end in their order. -/
theorem entries_putAll_of_nodup (m : OrderedMap κ α) (entries : List (κ × α))
    (h : ((m.entries ++ entries).map Prod.fst).Nodup) :
    (m.putAll entries).entries = m.entries ++ entries := by
  induction entries generalizing m with
  | nil => exact (List.append_nil _).symm
  | cons entry rest ih =>
    have hnew : entry.1 ∉ m.entries.map Prod.fst := by
      intro hmem
      rw [List.map_append, List.map_cons, List.nodup_append] at h
      exact h.2.2 _ hmem _ List.mem_cons_self rfl
    have hput : (m.put entry.1 entry.2).entries = m.entries ++ [entry] :=
      Entries.put_of_not_mem entry.2 hnew
    rw [putAll_cons, ih _ (by rwa [hput, List.append_assoc, List.singleton_append]), hput,
      List.append_assoc, List.singleton_append]

/-- The map of its own entries is the map. -/
theorem ofList_entries (m : OrderedMap κ α) : ofList m.entries = m :=
  ext (entries_putAll_of_nodup empty m.entries m.nodup)

@[simp] theorem find?_empty (key : κ) : (empty : OrderedMap κ α).find? key = none := rfl

end OrderedMap

end ApiClientGen
