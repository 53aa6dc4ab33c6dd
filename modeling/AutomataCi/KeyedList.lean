import Mathlib.Tactic

/-!
# Lists sorted by a key

A vector which is kept strictly sorted by a key and searched by it.  On such
a list a binary search finds what `lookup` finds, and writing through the
index it returns is `replace`, `insert` or `remove`.
-/

namespace KeyedList

variable {α κ : Type*} (key : α → κ)

section Keys

variable [DecidableEq κ]

def lookup (wanted : κ) (entries : List α) : Option α :=
  entries.find? fun entry => key entry = wanted

def replace (value : α) (entries : List α) : List α :=
  entries.map fun entry => if key entry = key value then value else entry

def remove (unwanted : κ) (entries : List α) : List α :=
  entries.filter fun entry => key entry ≠ unwanted

variable {key} {wanted : κ} {entry value : α} {entries : List α}

theorem lookup_eq_some_iff (hdistinct : (entries.map key).Nodup) :
    lookup key wanted entries = some entry ↔ entry ∈ entries ∧ key entry = wanted := by
  constructor
  · intro hlookup
    refine ⟨List.mem_of_find?_eq_some hlookup, ?_⟩
    simpa using List.find?_some hlookup
  · rintro ⟨hmem, rfl⟩
    induction entries with
    | nil => simp at hmem
    | cons head rest ih =>
      rw [List.map_cons, List.nodup_cons] at hdistinct
      rcases List.mem_cons.mp hmem with rfl | htail
      · simp [lookup]
      · have hne : key head ≠ key entry := by
          intro hsame
          exact hdistinct.1 (hsame ▸ List.mem_map_of_mem htail)
        simpa [lookup, hne] using ih hdistinct.2 htail

theorem lookup_mem (hlookup : lookup key wanted entries = some entry) :
    entry ∈ entries ∧ key entry = wanted :=
  ⟨List.mem_of_find?_eq_some hlookup, by simpa using List.find?_some hlookup⟩

theorem lookup_eq_none_iff :
    lookup key wanted entries = none ↔ ∀ entry ∈ entries, key entry ≠ wanted := by
  simp [lookup]

theorem eq_of_mem_of_key_eq {left right : α} (hdistinct : (entries.map key).Nodup)
    (hleft : left ∈ entries) (hright : right ∈ entries) (hkey : key left = key right) :
    left = right := by
  have hfirst := (lookup_eq_some_iff hdistinct).mpr ⟨hleft, hkey⟩
  have hsecond := (lookup_eq_some_iff hdistinct).mpr ⟨hright, (rfl : key right = key right)⟩
  rw [hfirst] at hsecond
  exact Option.some_inj.mp hsecond

theorem map_key_replace (value : α) (entries : List α) :
    (replace key value entries).map key = entries.map key := by
  rw [replace, List.map_map]
  apply List.map_congr_left
  intro entry _
  simp only [Function.comp]
  split <;> simp_all

theorem mem_replace :
    entry ∈ replace key value entries ↔ entry ∈ entries ∧ key entry ≠ key value ∨
        entry = value ∧ ∃ old ∈ entries, key old = key value := by
  simp only [replace, List.mem_map]
  constructor
  · rintro ⟨old, hold, heq⟩
    by_cases hkey : key old = key value
    · rw [if_pos hkey] at heq
      exact Or.inr ⟨heq.symm, old, hold, hkey⟩
    · rw [if_neg hkey] at heq
      subst heq
      exact Or.inl ⟨hold, hkey⟩
  · rintro (⟨hmem, hkey⟩ | ⟨rfl, old, hold, hkey⟩)
    · exact ⟨entry, hmem, if_neg hkey⟩
    · exact ⟨old, hold, if_pos hkey⟩

theorem forall₂_replace {relation : α → α → Prop} (hrefl : ∀ entry, relation entry entry)
    (hvalue : ∀ entry ∈ entries, key entry = key value → relation entry value) :
    List.Forall₂ relation entries (replace key value entries) := by
  rw [replace, List.forall₂_map_right_iff, List.forall₂_same]
  intro entry hentry
  by_cases hkey : key entry = key value
  · rw [if_pos hkey]
    exact hvalue entry hentry hkey
  · rw [if_neg hkey]
    exact hrefl entry

theorem length_replace (value : α) (entries : List α) :
    (replace key value entries).length = entries.length := by
  simp [replace]

theorem replace_self (hdistinct : (entries.map key).Nodup) (hmem : value ∈ entries) :
    replace key value entries = entries := by
  rw [replace]
  conv_rhs => rw [← List.map_id entries]
  apply List.map_congr_left
  intro entry hentry
  split
  · rename_i hkey
    exact (eq_of_mem_of_key_eq hdistinct hentry hmem hkey).symm
  · rfl

theorem filter_replace_of_dropped {keep : α → Bool}
    (hold : ∀ entry ∈ entries, key entry = key value → keep entry = false)
    (hnew : keep value = false) :
    (replace key value entries).filter keep = entries.filter keep := by
  induction entries with
  | nil => rfl
  | cons entry rest ih =>
    rw [List.forall_mem_cons] at hold
    have hrest := ih hold.2
    unfold replace at hrest ⊢
    rw [List.map_cons, List.filter_cons, List.filter_cons, hrest]
    by_cases hkey : key entry = key value
    · simp [hkey, hnew, hold.1 hkey]
    · simp [hkey]

theorem length_filter_replace {keep : α → Bool}
    (hold : ∀ entry ∈ entries, key entry = key value → keep entry = true)
    (hnew : keep value = true) :
    ((replace key value entries).filter keep).length = (entries.filter keep).length := by
  induction entries with
  | nil => rfl
  | cons entry rest ih =>
    rw [List.forall_mem_cons] at hold
    have hrest := ih hold.2
    unfold replace at hrest ⊢
    rw [List.map_cons, List.filter_cons, List.filter_cons]
    by_cases hkey : key entry = key value
    · simp [hkey, hnew, hold.1 hkey, hrest]
    · by_cases hkeep : keep entry = true
      · simp [hkey, hkeep, hrest]
      · simp [hkey, hkeep, hrest]

theorem lookup_replace (hdistinct : (entries.map key).Nodup) :
    lookup key wanted (replace key value entries) =
      if wanted = key value then
        (lookup key wanted entries).map fun _ => value
      else lookup key wanted entries := by
  split
  · rename_i hkey
    subst hkey
    cases hlookup : lookup key (key value) entries with
    | none =>
      rw [lookup_eq_none_iff] at hlookup
      rw [Option.map_none, lookup_eq_none_iff]
      intro entry hentry
      rcases mem_replace.mp hentry with ⟨hmem, hne⟩ | ⟨_, old, hold, hsame⟩
      · exact hne
      · exact absurd hsame (hlookup old hold)
    | some old =>
      obtain ⟨hmem, hsame⟩ := lookup_mem hlookup
      rw [Option.map_some, lookup_eq_some_iff (by rwa [map_key_replace])]
      exact ⟨mem_replace.mpr (Or.inr ⟨rfl, old, hmem, hsame⟩), rfl⟩
  · rename_i hkey
    cases hlookup : lookup key wanted entries with
    | none =>
      rw [lookup_eq_none_iff] at hlookup ⊢
      intro entry hentry
      rcases mem_replace.mp hentry with ⟨hmem, _⟩ | ⟨rfl, _⟩
      · exact hlookup entry hmem
      · exact fun hsame => hkey hsame.symm
    | some =>
      obtain ⟨hmem, rfl⟩ := lookup_mem hlookup
      rw [lookup_eq_some_iff (by rwa [map_key_replace])]
      exact ⟨mem_replace.mpr (Or.inl ⟨hmem, hkey⟩), rfl⟩

theorem flatMap_replace {β : Type*} {project : α → List β}
    (hproject : ∀ entry ∈ entries, key entry = key value → project entry = project value) :
    (replace key value entries).flatMap project = entries.flatMap project := by
  rw [replace, List.flatMap_map]
  apply List.flatMap_congr
  intro entry hentry
  split
  · rename_i hkey
    exact (hproject entry hentry hkey).symm
  · rfl

theorem sum_map_replace_le {weight : α → Nat}
    (hlighter : ∀ entry ∈ entries, key entry = key value → weight value ≤ weight entry) :
    ((replace key value entries).map weight).sum ≤ (entries.map weight).sum := by
  rw [replace, List.map_map]
  apply List.sum_le_sum
  intro entry hentry
  rw [Function.comp_apply]
  split
  · rename_i hkey
    exact hlighter entry hentry hkey
  · exact le_rfl

theorem replace_split {front back : List α} {old : α}
    (hdistinct : ((front ++ old :: back).map key).Nodup)
    (hkey : key old = key value) :
    replace key value (front ++ old :: back) = front ++ value :: back := by
  rw [List.map_append, List.map_cons, List.nodup_append, List.nodup_cons] at hdistinct
  obtain ⟨-, ⟨hback, -⟩, hfront⟩ := hdistinct
  have hkept : ∀ entries : List α, (∀ entry ∈ entries, key entry ≠ key old) →
      entries.map (fun entry =>
        if key entry = key value then value else entry) = entries := by
    intro entries hother
    nth_rewrite 2 [← List.map_id entries]
    apply List.map_congr_left
    intro entry hentry
    rw [if_neg (hkey ▸ hother entry hentry), id_eq]
  rw [replace, List.map_append, List.map_cons, if_pos hkey, hkept front, hkept back]
  · intro entry hentry hsame
    exact hback (hsame ▸ List.mem_map_of_mem hentry)
  · intro entry hentry
    exact hfront (key entry) (List.mem_map_of_mem hentry) (key old) (by simp)

theorem flatMap_replace_perm {β : Type*} {old : α} {project : α → List β} {extra : List β}
    (hdistinct : (entries.map key).Nodup) (hmem : old ∈ entries) (hkey : key old = key value)
    (hproject : (project value).Perm (extra ++ project old)) :
    ((replace key value entries).flatMap project).Perm (extra ++ entries.flatMap project) := by
  obtain ⟨front, back, rfl⟩ := List.append_of_mem hmem
  rw [replace_split hdistinct hkey]
  simp only [List.flatMap_append, List.flatMap_cons]
  have hinner := (hproject.append_right (back.flatMap project)).append_left (front.flatMap project)
  apply hinner.trans
  rw [List.append_assoc]
  exact List.perm_append_comm_assoc _ _ _

theorem mem_remove {unwanted : κ} :
    entry ∈ remove key unwanted entries ↔ entry ∈ entries ∧ key entry ≠ unwanted := by
  simp [remove]

end Keys

section Sorted

variable [LinearOrder κ]

def insert (value : α) : List α → List α
  | [] => [value]
  | entry :: rest =>
    if key entry < key value then entry :: insert value rest
    else value :: entry :: rest

def SortedBy (entries : List α) : Prop :=
  entries.Pairwise fun left right => key left < key right

variable {key}

theorem sortedBy_map_key {entries : List α} :
    SortedBy key entries ↔ (entries.map key).Pairwise (· < ·) := by
  rw [SortedBy, List.pairwise_map]

theorem SortedBy.nodup {entries : List α} (hsorted : SortedBy key entries) :
    (entries.map key).Nodup :=
  (sortedBy_map_key.mp hsorted).imp ne_of_lt

variable {value entry : α}

theorem SortedBy.concat {entries : List α} (hsorted : SortedBy key entries)
    (hlast : ∀ entry ∈ entries, key entry < key value) :
    SortedBy key (entries ++ [value]) := by
  rw [SortedBy, List.pairwise_append]
  refine ⟨hsorted, List.pairwise_singleton _ _, ?_⟩
  intro entry hentry other hother
  rw [List.mem_singleton] at hother
  rw [hother]
  exact hlast entry hentry

theorem SortedBy.le_getLast {entries : List α} {last : α}
    (hsorted : SortedBy key entries) (hlast : entries.getLast? = some last)
    (hentry : entry ∈ entries) :
    key entry ≤ key last := by
  obtain ⟨front, rfl⟩ := List.getLast?_eq_some_iff.mp hlast
  rw [SortedBy, List.pairwise_append] at hsorted
  rw [List.mem_append, List.mem_singleton] at hentry
  rcases hentry with hfront | rfl
  · exact (hsorted.2.2 entry hfront last (by simp)).le
  · exact le_rfl

variable {left right : List α} {previous : Option κ}

theorem SortedBy.of_map_key_eq (hsorted : SortedBy key left)
    (hkeys : right.map key = left.map key) : SortedBy key right := by
  rw [sortedBy_map_key, hkeys, ← sortedBy_map_key]
  exact hsorted

theorem insert_perm (value : α) (entries : List α) :
    (insert key value entries).Perm (value :: entries) := by
  induction entries with
  | nil => exact .refl _
  | cons entry rest ih =>
    rw [insert]
    split
    · exact (ih.cons entry).trans (.swap value entry rest)
    · exact .refl _

theorem mem_insert {entries : List α} :
    entry ∈ insert key value entries ↔ entry = value ∨ entry ∈ entries := by
  rw [(insert_perm value entries).mem_iff, List.mem_cons]

theorem length_insert (value : α) (entries : List α) :
    (insert key value entries).length = entries.length + 1 :=
  (insert_perm value entries).length_eq

theorem SortedBy.insert {entries : List α} (hsorted : SortedBy key entries)
    (hfresh : ∀ entry ∈ entries, key entry ≠ key value) :
    SortedBy key (KeyedList.insert key value entries) := by
  induction entries with
  | nil => simp [KeyedList.insert, SortedBy]
  | cons entry rest ih =>
    obtain ⟨hhead, hrest⟩ := List.pairwise_cons.mp hsorted
    rw [List.forall_mem_cons] at hfresh
    rw [KeyedList.insert]
    split
    · rename_i hbelow
      refine List.pairwise_cons.mpr ⟨?_, ih hrest hfresh.2⟩
      intro other hother
      rcases mem_insert.mp hother with rfl | hmem
      · exact hbelow
      · exact hhead other hmem
    · rename_i hbelow
      have habove : key value < key entry := lt_of_le_of_ne (not_lt.mp hbelow) hfresh.1.symm
      refine List.pairwise_cons.mpr ⟨?_, hsorted⟩
      intro other hother
      rcases List.mem_cons.mp hother with rfl | hmem
      · exact habove
      · exact habove.trans (hhead other hmem)

/-! ## Loops over sorted lists

A loop which compares each key with the one before it accepts the lists
which are sorted above the key it starts from. -/

def SortedAbove (key : α → κ) (previous : Option κ) (entries : List α) : Prop :=
  SortedBy key entries ∧ ∀ entry ∈ entries, ∀ bound ∈ previous, bound < key entry

theorem sortedAbove_nil : SortedAbove key previous [] :=
  ⟨List.Pairwise.nil, by simp⟩

theorem sortedAbove_cons {rest : List α} :
    SortedAbove key previous (entry :: rest) ↔ (∀ bound ∈ previous, bound < key entry) ∧
        SortedAbove key (some (key entry)) rest := by
  constructor
  · rintro ⟨hsorted, habove⟩
    obtain ⟨hhead, hrest⟩ := List.pairwise_cons.mp hsorted
    refine ⟨habove entry (by simp), hrest, ?_⟩
    intro other hother bound hbound
    cases hbound
    exact hhead other hother
  · rintro ⟨hentry, hrest, habove⟩
    have hhead : ∀ other ∈ rest, key entry < key other :=
      fun other hother => habove other hother _ rfl
    refine ⟨List.pairwise_cons.mpr ⟨hhead, hrest⟩, ?_⟩
    intro other hother bound hbound
    rcases List.mem_cons.mp hother with rfl | hmem
    · exact hentry bound hbound
    · exact (hentry bound hbound).trans (hhead other hmem)

theorem sortedAbove_none {entries : List α} :
    SortedAbove key none entries ↔ SortedBy key entries := by
  simp [SortedAbove]

theorem SortedBy.length_le {position : α → Nat} {entries : List α}
    {bound : Nat} (hsorted : SortedBy position entries)
    (hpositive : ∀ entry ∈ entries, 0 < position entry)
    (hbound : ∀ entry ∈ entries, position entry ≤ bound) :
    entries.length ≤ bound := by
  have hkeys : (entries.map position).toFinset ⊆ Finset.Icc 1 bound := by
    intro found hfound
    rw [List.mem_toFinset, List.mem_map] at hfound
    obtain ⟨entry, hentry, rfl⟩ := hfound
    rw [Finset.mem_Icc]
    exact ⟨hpositive entry hentry, hbound entry hentry⟩
  have hcard := Finset.card_le_card hkeys
  rw [List.toFinset_card_of_nodup hsorted.nodup, List.length_map, Nat.card_Icc] at hcard
  omega

variable (key) in
def sortBy (entries : List α) : List α :=
  entries.insertionSort fun left right => key left ≤ key right

theorem perm_sortBy (entries : List α) : (sortBy key entries).Perm entries :=
  List.perm_insertionSort _ entries

theorem mem_sortBy {entries : List α} : entry ∈ sortBy key entries ↔ entry ∈ entries :=
  (perm_sortBy entries).mem_iff

theorem sortBy_ordered (entries : List α) :
    (sortBy key entries).Pairwise fun left right => key left ≤ key right := by
  have htotal : Std.Total fun left right : α => key left ≤ key right :=
    ⟨fun left right => le_total (key left) (key right)⟩
  have htrans : IsTrans α fun left right => key left ≤ key right :=
    ⟨fun _ _ _ hfirst hsecond => hfirst.trans hsecond⟩
  exact List.pairwise_insertionSort _ entries

/-- With distinct keys the sorted list does not depend on the given order. -/
theorem sortBy_eq_of_perm (hdistinct : (left.map key).Nodup) (hperm : left.Perm right) :
    sortBy key left = sortBy key right := by
  have hsame : (sortBy key left).Perm (sortBy key right) :=
    (perm_sortBy left).trans (hperm.trans (perm_sortBy right).symm)
  apply hsame.eq_of_pairwise _ (sortBy_ordered left) (sortBy_ordered right)
  intro first second hfirst hsecond hle hge
  have hfirstMem : first ∈ left := mem_sortBy.mp hfirst
  have hsecondMem : second ∈ left := hperm.mem_iff.mpr (mem_sortBy.mp hsecond)
  exact List.inj_on_of_nodup_map hdistinct hfirstMem hsecondMem (le_antisymm hle hge)

theorem map_sortBy {β : Type*} {value : β → α} (entries : List β) :
    (sortBy (fun entry => key (value entry)) entries).map value = sortBy key (entries.map value) :=
  List.map_insertionSort _ _ value entries fun _ _ _ _ => Iff.rfl

theorem findSome?_ordered {β : Type*} {entries : List α} {search : α → Option β} {found : β}
    (hordered : entries.Pairwise fun left right => key left ≤ key right)
    (hfound : entries.findSome? search = some found) :
    ∃ entry ∈ entries, search entry = some found ∧
      ∀ other ∈ entries, search other ≠ none → key entry ≤ key other := by
  obtain ⟨before, entry, after, rfl, hsearch, hbefore⟩ := List.findSome?_eq_some_iff.mp hfound
  refine ⟨entry, by simp, hsearch, ?_⟩
  intro other hother hmatch
  rw [List.pairwise_append, List.pairwise_cons] at hordered
  rcases List.mem_append.mp hother with hearlier | hlater
  · exact absurd (hbefore other hearlier) hmatch
  · rcases List.mem_cons.mp hlater with rfl | hafter
    · exact le_rfl
    · exact hordered.2.1.1 other hafter

end Sorted

section Fresh

/-- A loop which refuses a key it has seen accepts the lists of fresh
keys. -/
def Fresh (seen entries : List κ) : Prop :=
  entries.Nodup ∧ ∀ entry ∈ entries, entry ∉ seen

theorem fresh_nil {seen : List κ} : Fresh seen [] :=
  ⟨List.nodup_nil, by simp⟩

theorem fresh_append {seen first second : List κ} :
    Fresh seen (first ++ second) ↔ Fresh seen first ∧ Fresh (first ++ seen) second := by
  simp only [Fresh, List.nodup_append, List.mem_append, or_imp, forall_and, not_or]
  constructor
  · rintro ⟨⟨hfirst, hsecond, hapart⟩, hseenFirst, hseenSecond⟩
    exact ⟨⟨hfirst, hseenFirst⟩, hsecond,
      fun entry hentry hmem => hapart entry hmem entry hentry rfl,
      hseenSecond⟩
  · rintro ⟨⟨hfirst, hseenFirst⟩, hsecond, hapart, hseenSecond⟩
    refine ⟨⟨hfirst, hsecond, ?_⟩, hseenFirst, hseenSecond⟩
    rintro left hleft right hright rfl
    exact hapart left hright hleft

theorem fresh_cons {seen rest : List κ} {entry : κ} :
    Fresh seen (entry :: rest) ↔ entry ∉ seen ∧ Fresh (entry :: seen) rest := by
  rw [← List.singleton_append, fresh_append]
  simp [Fresh]

theorem fresh_nil_seen {entries : List κ} : Fresh [] entries ↔ entries.Nodup := by
  simp [Fresh]

end Fresh

end KeyedList
