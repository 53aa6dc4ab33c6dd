import AutomataCi.KeyedList
import AutomataCi.OrderedSet

/-!
# Ordered maps

A finite map from a linear order, kept as the list of its entries with
strictly increasing keys.  Two maps are equal as soon as they give the same
value to every key.
-/

structure OrderedMap (κ ν : Type*) [LinearOrder κ] where
  entries : List (κ × ν)
  sorted : (entries.map Prod.fst).Pairwise (· < ·)

namespace OrderedMap

variable {κ ν : Type*} [LinearOrder κ]

def get (map : OrderedMap κ ν) (key : κ) : Option ν :=
  (KeyedList.lookup Prod.fst key map.entries).map Prod.snd

def keys (map : OrderedMap κ ν) : OrderedSet κ :=
  ⟨map.entries.map Prod.fst, map.sorted⟩

theorem keys_nodup (map : OrderedMap κ ν) : (map.entries.map Prod.fst).Nodup :=
  map.keys.nodup

variable {map left right : OrderedMap κ ν} {key : κ}

theorem get_eq_some_iff {value : ν} : map.get key = some value ↔ (key, value) ∈ map.entries := by
  constructor
  · intro hget
    obtain ⟨⟨_, _⟩, hfind, rfl⟩ := Option.map_eq_some_iff.mp hget
    obtain ⟨hmem, rfl⟩ := KeyedList.lookup_mem hfind
    exact hmem
  · intro hmem
    have hfind : KeyedList.lookup Prod.fst key map.entries = some (key, value) :=
      (KeyedList.lookup_eq_some_iff map.keys_nodup).mpr ⟨hmem, rfl⟩
    exact Option.map_eq_some_iff.mpr ⟨(key, value), hfind, rfl⟩

theorem mem_keys : key ∈ map.keys ↔ ∃ value, map.get key = some value := by
  simp only [get_eq_some_iff, OrderedSet.mem_def, keys, List.mem_map,
    Prod.exists, exists_and_right, exists_eq_right]

theorem get_eq_none_iff : map.get key = none ↔ key ∉ map.keys := by
  rw [mem_keys, not_exists, Option.eq_none_iff_forall_ne_some]

@[ext] theorem ext (hget : ∀ key, left.get key = right.get key) : left = right := by
  have hmem (entry : κ × ν) : entry ∈ left.entries ↔ entry ∈ right.entries := by
    rw [← get_eq_some_iff, ← get_eq_some_iff, hget]
  have hperm : left.entries.Perm right.entries := (List.perm_ext_iff_of_nodup left.keys_nodup.of_map
      right.keys_nodup.of_map).mpr hmem
  have hlist : left.entries = right.entries := by
    have hleft := List.pairwise_map.mp left.sorted
    have hright := List.pairwise_map.mp right.sorted
    apply hperm.eq_of_pairwise _ hleft hright
    intro first second _ _ hlt hgt
    exact absurd hlt hgt.not_gt
  cases left
  cases right
  simpa using hlist

instance [DecidableEq ν] : DecidableEq (OrderedMap κ ν) := fun left right =>
  decidable_of_iff (left.entries = right.entries)
    ⟨fun hlist => by cases left; cases right; simpa using hlist, fun heq => by rw [heq]⟩

def tabulate (names : OrderedSet κ) (value : κ → Option ν) : OrderedMap κ ν where
  entries := names.toList.filterMap fun name =>
    (value name).map fun found => (name, found)
  sorted := by
    rw [List.pairwise_map, List.pairwise_filterMap]
    apply names.sorted.imp
    intro first second hlt firstEntry hfirst secondEntry hsecond
    obtain ⟨_, -, rfl⟩ := Option.map_eq_some_iff.mp hfirst
    obtain ⟨_, -, rfl⟩ := Option.map_eq_some_iff.mp hsecond
    exact hlt

theorem get_tabulate (names : OrderedSet κ) (value : κ → Option ν) (key : κ) :
    (tabulate names value).get key =
      if key ∈ names then value key else none := by
  ext found
  rw [get_eq_some_iff]
  simp only [tabulate, List.mem_filterMap, Option.map_eq_some_iff, Prod.mk.injEq]
  constructor
  · rintro ⟨name, hname, _, hvalue, rfl, rfl⟩
    rw [if_pos (OrderedSet.mem_def.mpr hname)]
    exact hvalue
  · intro hfound
    split at hfound
    next hname => exact ⟨key, hname, found, hfound, rfl, rfl⟩
    next => cases hfound

def empty : OrderedMap κ ν :=
  ⟨[], (OrderedSet.empty : OrderedSet κ).sorted⟩

@[simp] theorem get_empty (key : κ) : (empty : OrderedMap κ ν).get key = none :=
  rfl

def insert (map : OrderedMap κ ν) (key : κ) (value : ν) : OrderedMap κ ν :=
  tabulate (map.keys.insert key) fun name =>
    if name = key then some value else map.get name

theorem get_insert (map : OrderedMap κ ν) (key other : κ) (value : ν) :
    (map.insert key value).get other =
      if other = key then some value else map.get other := by
  rw [insert, get_tabulate]
  by_cases hother : other = key
  · rw [if_pos (OrderedSet.mem_insert.mpr (.inl hother))]
  · rw [if_neg hother]
    split
    next => rfl
    next hmem =>
      rw [OrderedSet.mem_insert, not_or] at hmem
      exact (get_eq_none_iff.mpr hmem.2).symm

def remove (map : OrderedMap κ ν) (key : κ) : OrderedMap κ ν :=
  tabulate map.keys fun name => if name = key then none else map.get name

theorem get_remove (map : OrderedMap κ ν) (key other : κ) :
    (map.remove key).get other =
      if other = key then none else map.get other := by
  rw [remove, get_tabulate]
  split
  next => rfl
  next hmem => rw [get_eq_none_iff.mpr hmem, ite_self]

def ofList (entries : List (κ × ν)) : OrderedMap κ ν :=
  tabulate (OrderedSet.ofList (entries.map Prod.fst)) fun key =>
    (KeyedList.lookup Prod.fst key entries.reverse).map Prod.snd

theorem get_ofList_eq_lookup (entries : List (κ × ν)) (key : κ) :
    (ofList entries).get key = (KeyedList.lookup Prod.fst key entries.reverse).map Prod.snd := by
  rw [ofList, get_tabulate]
  split
  next => rfl
  next hkey =>
    have hnone : KeyedList.lookup Prod.fst key entries.reverse = none := by
      rw [KeyedList.lookup_eq_none_iff]
      rintro entry hmem rfl
      exact hkey (OrderedSet.mem_ofList.mpr (List.mem_map_of_mem (List.mem_reverse.mp hmem)))
    rw [hnone]
    rfl

theorem get_ofList {entries : List (κ × ν)} (hdistinct : (entries.map Prod.fst).Nodup) {value : ν} :
    (ofList entries).get key = some value ↔ (key, value) ∈ entries := by
  have hreverse : (entries.reverse.map Prod.fst).Nodup := by
    rw [List.map_reverse, List.nodup_reverse]
    exact hdistinct
  rw [get_ofList_eq_lookup, Option.map_eq_some_iff]
  constructor
  · rintro ⟨⟨_, _⟩, hfound, rfl⟩
    obtain ⟨hmem, rfl⟩ := KeyedList.lookup_mem hfound
    exact List.mem_reverse.mp hmem
  · intro hmem
    exact ⟨(key, value), (KeyedList.lookup_eq_some_iff hreverse).mpr
      ⟨List.mem_reverse.mpr hmem, rfl⟩, rfl⟩

/-- A map which has as many entries as another, and all of them, is it. -/
theorem eq_of_length_eq (hlength : left.entries.length = right.entries.length)
    (hentries : ∀ entry ∈ right.entries, left.get entry.1 = some entry.2) : left = right := by
  have hsubset : right.entries ⊆ left.entries :=
    fun entry hentry => get_eq_some_iff.mp (hentries entry hentry)
  have hperm : right.entries.Perm left.entries := (List.subperm_of_subset right.keys_nodup.of_map
      hsubset).perm_of_length_le hlength.le
  ext key value
  rw [get_eq_some_iff, get_eq_some_iff, hperm.mem_iff]

end OrderedMap
