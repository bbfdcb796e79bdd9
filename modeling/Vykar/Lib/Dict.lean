import Mathlib

/-!
Finite maps with a non-dependent value type, on top of `AList`.

The order of the association list is the iteration order of the map; nothing
but `toList` and `total` can observe it.  Each operation is described by what a
later lookup returns.
-/

universe u v

abbrev Dict (Key : Type u) (Value : Type v) : Type (max u v) := AList fun _ : Key => Value

namespace Dict

variable {Key : Type u} {Value : Type v} [DecidableEq Key] {dict : Dict Key Value} {key : Key}
  {value : Value} {entries : List (Key × Value)}

def get? (dict : Dict Key Value) (key : Key) : Option Value := AList.lookup key dict

def set (dict : Dict Key Value) (key : Key) (value : Value) : Dict Key Value :=
  AList.insert key value dict

def remove (dict : Dict Key Value) (key : Key) : Dict Key Value := AList.erase key dict

def modify (dict : Dict Key Value) (key : Key) (change : Value → Value) : Dict Key Value :=
  match dict.get? key with
  | some value => dict.set key (change value)
  | none => dict

def toList (dict : Dict Key Value) : List (Key × Value) :=
  dict.entries.map fun entry => (entry.1, entry.2)

def keysList (dict : Dict Key Value) : List Key := AList.keys dict

def retain (dict : Dict Key Value) (keep : Key → Value → Option Value) : Dict Key Value where
  entries := dict.entries.filterMap fun entry => (keep entry.1 entry.2).map (Sigma.mk entry.1)
  nodupKeys := by
    have distinct := List.nodupKeys_iff_pairwise.mp dict.nodupKeys
    refine List.nodupKeys_iff_pairwise.mpr (List.pairwise_filterMap.mpr ?_)
    refine distinct.imp fun differs => ?_
    intro first firstKept second secondKept
    obtain ⟨_, -, rfl⟩ := Option.map_eq_some_iff.mp firstKept
    obtain ⟨_, -, rfl⟩ := Option.map_eq_some_iff.mp secondKept
    exact differs

@[simp]
theorem get?_empty (key : Key) : get? (∅ : Dict Key Value) key = none := rfl

theorem get?_set (dict : Dict Key Value) (key other : Key) (value : Value) :
    (dict.set key value).get? other = if other = key then some value else dict.get? other := by
  unfold set get?
  split
  · rename_i same
    subst same
    exact AList.lookup_insert dict
  · rename_i differs
    exact AList.lookup_insert_ne differs

@[simp]
theorem get?_set_self (dict : Dict Key Value) (key : Key) (value : Value) :
    (dict.set key value).get? key = some value := by
  simp [get?_set]

theorem get?_remove (dict : Dict Key Value) (key other : Key) :
    (dict.remove key).get? other = if other = key then none else dict.get? other := by
  unfold remove get?
  split
  · rename_i same
    subst same
    exact AList.lookup_erase other dict
  · rename_i differs
    exact AList.lookup_erase_ne differs

theorem get?_modify (dict : Dict Key Value) (key other : Key) (change : Value → Value) :
    (dict.modify key change).get? other =
      if other = key then (dict.get? key).map change else dict.get? other := by
  cases found : dict.get? key with
  | none =>
    have unchanged : dict.modify key change = dict := by simp only [modify, found]
    rw [unchanged]
    split
    · rename_i same
      rw [same]
      exact found
    · rfl
  | some value =>
    have replaced : dict.modify key change = dict.set key (change value) := by
      simp only [modify, found]
    rw [replaced]
    exact get?_set dict key other (change value)

theorem get?_eq_some_iff :
    dict.get? key = some value ↔ (key, value) ∈ dict.toList := by
  have lookup : dict.get? key = some value ↔ Sigma.mk key value ∈ dict.entries :=
    AList.mem_lookup_iff
  rw [lookup, toList]
  constructor
  · intro membership
    exact List.mem_map.mpr ⟨⟨key, value⟩, membership, rfl⟩
  · intro membership
    obtain ⟨⟨entryKey, entryValue⟩, listed, same⟩ := List.mem_map.mp membership
    cases same
    exact listed

theorem get?_retain (dict : Dict Key Value) (keep : Key → Value → Option Value) (key : Key) :
    (dict.retain keep).get? key = (dict.get? key).bind (keep key) := by
  have lookup (other : Dict Key Value) (value : Value) :
      other.get? key = some value ↔ Sigma.mk key value ∈ other.entries := AList.mem_lookup_iff
  apply Option.ext
  intro value
  rw [lookup, Option.bind_eq_some_iff]
  simp only [retain, List.mem_filterMap, Option.map_eq_some_iff, Sigma.mk.injEq]
  constructor
  · rintro ⟨⟨entryKey, entryValue⟩, listed, kept, keptEq, rfl, same⟩
    cases same
    exact ⟨entryValue, (lookup dict entryValue).mpr listed, keptEq⟩
  · rintro ⟨stored, found, kept⟩
    exact ⟨⟨key, stored⟩, (lookup dict stored).mp found, value, kept, rfl, HEq.rfl⟩

def total (dict : Dict Key Value) (measure : Key → Value → Nat) : Nat :=
  (dict.entries.map fun entry => measure entry.1 entry.2).sum

omit [DecidableEq Key] in
@[simp]
theorem total_empty (measure : Key → Value → Nat) :
    total (∅ : Dict Key Value) measure = 0 := rfl

theorem total_set_of_absent (absent : dict.get? key = none) (value : Value)
    (measure : Key → Value → Nat) :
    (dict.set key value).total measure = measure key value + dict.total measure := by
  have fresh : key ∉ dict := AList.lookup_eq_none.mp absent
  rw [total, set, AList.entries_insert_of_notMem fresh]
  rfl

theorem entries_perm_remove (present : dict.get? key = some value) :
    dict.entries.Perm (⟨key, value⟩ :: (dict.remove key).entries) := by
  have listed : Sigma.mk key value ∈ dict.entries := AList.mem_lookup_iff.mp present
  obtain ⟨other, front, back, -, entries, erased⟩ :=
    List.exists_of_kerase (List.mem_keys_of_mem listed)
  have sameValue : other = value := by
    refine List.NodupKeys.eq_of_mk_mem dict.nodupKeys ?_ listed
    rw [entries]
    simp
  subst sameValue
  have removed : (dict.remove key).entries = front ++ back := erased
  rw [removed, entries]
  exact List.perm_middle

theorem toList_set (dict : Dict Key Value) (key : Key) (value : Value) :
    (dict.set key value).toList = (key, value) :: (dict.remove key).toList := rfl

theorem toList_perm_remove (present : dict.get? key = some value) :
    dict.toList.Perm ((key, value) :: (dict.remove key).toList) :=
  (entries_perm_remove present).map fun entry : (_ : Key) × Value => (entry.1, entry.2)

theorem remove_of_absent (absent : dict.get? key = none) :
    dict.remove key = dict := by
  apply AList.ext
  exact List.kerase_of_notMem_keys (AList.lookup_eq_none.mp absent)

theorem total_remove (present : dict.get? key = some value) (measure : Key → Value → Nat) :
    dict.total measure = measure key value + (dict.remove key).total measure := by
  have sums := ((entries_perm_remove present).map fun entry => measure entry.1 entry.2).sum_eq
  rwa [List.map_cons, List.sum_cons] at sums

theorem total_eq_sum {keys : Finset Key} (covers : ∀ key ∈ dict.keysList, key ∈ keys)
    (measure : Key → Value → Nat) :
    dict.total measure = ∑ key ∈ keys, (dict.get? key).elim 0 (measure key) := by
  have entries : dict.entries.map (fun entry => measure entry.1 entry.2) =
      dict.keysList.map fun key => (dict.get? key).elim 0 (measure key) := by
    rw [keysList, AList.keys, List.keys, List.map_map]
    refine List.map_congr_left fun entry listed => ?_
    have found : dict.get? entry.1 = some entry.2 := AList.mem_lookup_iff.mpr listed
    simp only [Function.comp_apply, found, Option.elim_some]
  have distinct : dict.keysList.Nodup := dict.keys_nodup
  rw [total, entries, ← List.sum_toFinset _ distinct]
  refine Finset.sum_subset (fun key listed => covers key (List.mem_toFinset.mp listed)) ?_
  intro key _ absent
  have missing : dict.get? key = none :=
    AList.lookup_eq_none.mpr fun listed => absent (List.mem_toFinset.mpr listed)
  rw [missing, Option.elim_none]

theorem total_pick (dict : Dict Key Nat) (key : Key) :
    dict.total (fun other value => if other = key then value else 0) =
      (dict.get? key).getD 0 := by
  have others {rest : Dict Key Nat} (absent : rest.get? key = none) :
      rest.total (fun other value => if other = key then value else 0) = 0 := by
    have fresh : key ∉ rest := AList.lookup_eq_none.mp absent
    refine List.sum_eq_zero fun value membership => ?_
    obtain ⟨entry, listed, rfl⟩ := List.mem_map.mp membership
    refine if_neg ?_
    rintro rfl
    exact fresh (List.mem_keys_of_mem listed)
  cases found : dict.get? key with
  | none => exact others found
  | some value =>
    rw [total_remove found, others (by simp [get?_remove])]
    simp

theorem get?_foldl_drop {State Action : Type*} {step : State → Action → State}
    (field : State → Dict Key Value) (drops : Action → Key → Value → Prop)
    (stepDrops : ∀ state action key value, (field (step state action)).get? key = some value ↔
      (field state).get? key = some value ∧ ¬ drops action key value)
    (actions : List Action) (state : State) (key : Key) (value : Value) :
    (field (actions.foldl step state)).get? key = some value ↔
      (field state).get? key = some value ∧ ∀ action ∈ actions, ¬ drops action key value := by
  induction actions generalizing state with
  | nil => simp
  | cons action actions ih =>
    rw [List.foldl_cons, ih, stepDrops, List.forall_mem_cons, and_assoc]

theorem get?_foldl_remove {keys : List Key} :
    (keys.foldl remove dict).get? key = some value ↔ dict.get? key = some value ∧ key ∉ keys := by
  rw [get?_foldl_drop (fun dict => dict) (fun removed other _ => removed = other)]
  · rw [List.forall_mem_ne']
  · intro dict removed other value
    rw [get?_remove]
    split
    · rename_i same
      simp [same]
    · rename_i differs
      simp [Ne.symm differs]

theorem mem_keysList :
    key ∈ dict.keysList ↔ (dict.get? key).isSome := AList.lookup_isSome.symm

/-- Build a map from a list of entries; later entries win. -/
def ofList (entries : List (Key × Value)) : Dict Key Value :=
  entries.foldl (fun dict entry => dict.set entry.1 entry.2) ∅

section Frame

variable {Action : Type*} {step : Dict Key Value → Action → Dict Key Value} {keyOf : Action → Key}
  (frame : ∀ dict action key, key ≠ keyOf action → (step dict action).get? key = dict.get? key)
  {actions : List Action}

include frame

/-- A fold whose steps change one key each leaves every other key alone. -/
theorem get?_foldl_of_not_mem (dict : Dict Key Value) (absent : key ∉ actions.map keyOf) :
    (actions.foldl step dict).get? key = dict.get? key := by
  induction actions generalizing dict with
  | nil => rfl
  | cons head tail ih =>
    rw [List.map_cons, List.mem_cons, not_or] at absent
    rw [List.foldl_cons, ih _ absent.2, frame _ _ _ absent.1]

theorem get?_foldl_of_mem (dict : Dict Key Value) (distinct : (actions.map keyOf).Nodup)
    {action : Action} (listed : action ∈ actions) :
    ∃ before, before.get? (keyOf action) = dict.get? (keyOf action) ∧
      (actions.foldl step dict).get? (keyOf action) = (step before action).get? (keyOf action) := by
  induction actions generalizing dict with
  | nil => cases listed
  | cons head tail ih =>
    rw [List.map_cons, List.nodup_cons] at distinct
    rw [List.foldl_cons]
    rcases List.mem_cons.mp listed with rfl | later
    · exact ⟨dict, rfl, get?_foldl_of_not_mem frame _ distinct.1⟩
    · have different : keyOf action ≠ keyOf head := by
        intro same
        exact distinct.1 (same ▸ List.mem_map_of_mem later)
      obtain ⟨before, same, reached⟩ := ih (step dict head) distinct.2 later
      exact ⟨before, same.trans (frame _ _ _ different), reached⟩

end Frame

theorem get?_set_of_ne {other : Key} (different : other ≠ key) :
    (dict.set key value).get? other = dict.get? other := by
  rw [get?_set, if_neg different]

theorem get?_ofList_of_mem (distinct : (entries.map Prod.fst).Nodup)
    (listed : (key, value) ∈ entries) : (ofList entries).get? key = some value := by
  obtain ⟨before, -, reached⟩ := get?_foldl_of_mem (fun _ _ _ => get?_set_of_ne) ∅ distinct listed
  exact reached.trans (get?_set_self _ _ _)

theorem get?_ofList_of_not_mem (absent : key ∉ entries.map Prod.fst) :
    (ofList entries).get? key = none :=
  get?_foldl_of_not_mem (fun _ _ _ => get?_set_of_ne) ∅ absent

omit [DecidableEq Key] in
theorem toList_keys (dict : Dict Key Value) : dict.toList.map Prod.fst = dict.keysList := by
  simp only [toList, keysList, AList.keys, List.keys, List.map_map]
  rfl

omit [DecidableEq Key] in
theorem toList_injective : Function.Injective (toList : Dict Key Value → List (Key × Value)) := by
  intro first second same
  apply AList.ext
  refine List.map_injective_iff.mpr ?_ same
  rintro ⟨key, value⟩ ⟨otherKey, otherValue⟩ equal
  cases equal
  rfl

-- The instance for association lists does not reduce.
instance [DecidableEq Value] : DecidableEq (Dict Key Value) := fun _ _ =>
  decidable_of_iff _ toList_injective.eq_iff

omit [DecidableEq Key] in
theorem keysList_nodup (dict : Dict Key Value) : dict.keysList.Nodup := dict.nodupKeys

theorem toList_ofList (distinct : (entries.map Prod.fst).Nodup) :
    (ofList entries).toList.Perm entries := by
  refine (List.perm_ext_iff_of_nodup ?_ (List.Nodup.of_map _ distinct)).mpr fun entry => ?_
  · exact List.Nodup.of_map Prod.fst ((toList_keys _).symm ▸ keysList_nodup _)
  · rw [← get?_eq_some_iff]
    constructor
    · intro found
      by_contra unlisted
      by_cases keyed : entry.1 ∈ entries.map Prod.fst
      · obtain ⟨other, listed, same⟩ := List.mem_map.mp keyed
        have otherFound : (ofList entries).get? entry.1 = some other.2 :=
          get?_ofList_of_mem distinct (same ▸ listed)
        obtain rfl : other = entry := Prod.ext same (Option.some.inj (otherFound.symm.trans found))
        exact unlisted listed
      · rw [get?_ofList_of_not_mem keyed] at found
        cases found
    · exact get?_ofList_of_mem distinct

end Dict
