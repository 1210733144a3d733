import Mathlib.Data.List.Nodup
import Mathlib.Data.List.Perm.Basic
import Mathlib.Tactic.SplitIfs
import Reminders.Assoc

/-!
# Tables as functions and as lists

What is found in a table after it was changed, and how a change shows in the list of its entries.
-/

namespace Reminders

namespace Assoc

variable {κ β γ : Type} {t : Assoc κ β} {k j : κ} {v : β}

/-! ## Keys -/

/-- The keys in their order. -/
def keys (t : Assoc κ β) : List κ := t.map Prod.fst

theorem mem_keys_iff : k ∈ keys t ↔ ∃ v, (k, v) ∈ t := by
  simp [keys]

/-- The table with every value changed. -/
def mapValues (t : Assoc κ β) (f : β → γ) : Assoc κ γ := t.map fun (k, v) => (k, f v)

theorem keys_mapValues (t : Assoc κ β) (f : β → γ) : (t.mapValues f).keys = t.keys := by
  simp [keys, mapValues, Function.comp_def]

theorem mapValues_eq_self {f : β → β} (h : ∀ e ∈ t, f e.2 = e.2) : t.mapValues f = t := by
  refine (List.map_congr_left ?_).trans (List.map_id t)
  intro e he
  exact congrArg (Prod.mk e.1) (h e he)

theorem keys_filter (t : Assoc κ β) (p : κ → Bool) :
    keys (t.filter fun e => p e.1) = t.keys.filter p := by
  rw [keys, keys, List.filter_map]
  rfl

variable [DecidableEq κ]

/-! ## Finding entries -/

@[simp] theorem get?_nil : get? ([] : Assoc κ β) k = none := rfl

theorem get?_cons (e : κ × β) (t : Assoc κ β) (k : κ) :
    get? (e :: t) k = if e.1 = k then some e.2 else get? t k := by
  by_cases h : e.1 = k
  · simp [get?, h]
  · simp [get?, h]

theorem get?_append (t s : Assoc κ β) (k : κ) : get? (t ++ s) k = (get? t k).or (get? s k) := by
  induction t with
  | nil => rfl
  | cons e t ih =>
      rw [List.cons_append, get?_cons, get?_cons, ih]
      split_ifs <;> rfl

theorem contains_iff : t.contains k = true ↔ k ∈ t.keys := by
  simp [contains, keys]

theorem contains_eq_isSome (t : Assoc κ β) (k : κ) : t.contains k = (t.get? k).isSome := by
  induction t with
  | nil => rfl
  | cons e t ih =>
      rw [get?_cons]
      by_cases h : e.1 = k
      · simp [contains, h]
      · rw [if_neg h, ← ih]
        simp [contains, h]

theorem get?_eq_none_iff : t.get? k = none ↔ k ∉ t.keys := by
  rw [← contains_iff, contains_eq_isSome]
  simp

theorem mem_of_get? (h : t.get? k = some v) : (k, v) ∈ t := by
  induction t with
  | nil => cases h
  | cons e t ih =>
      rw [get?_cons] at h
      split_ifs at h with he
      · obtain rfl := he
        obtain rfl := Option.some.inj h
        exact List.mem_cons_self
      · exact List.mem_cons_of_mem e (ih h)

theorem mem_keys_of_get? (h : t.get? k = some v) : k ∈ t.keys :=
  mem_keys_iff.mpr ⟨v, mem_of_get? h⟩

/-- Where no key occurs twice, every entry is found. -/
theorem get?_of_mem (hkeys : t.keys.Nodup) (h : (k, v) ∈ t) : t.get? k = some v := by
  induction t with
  | nil => cases h
  | cons e t ih =>
      obtain ⟨he, hkeys⟩ := List.nodup_cons.mp hkeys
      rw [get?_cons]
      rcases List.mem_cons.mp h with rfl | h
      · rw [if_pos rfl]
      · have hne : e.1 ≠ k := by
          rintro rfl
          exact he (mem_keys_iff.mpr ⟨v, h⟩)
        rw [if_neg hne, ih hkeys h]

/-- A key that is new at the end is found there. -/
theorem get?_append_new (h : k ∉ t.keys) (v : β) : get? (t ++ [(k, v)]) k = some v := by
  rw [get?_append, get?_eq_none_iff.mpr h, get?_cons, if_pos rfl]
  rfl

/-! ## Changing one value -/

theorem keys_alter (t : Assoc κ β) (k : κ) (f : β → β) : (t.alter k f).keys = t.keys := by
  rw [keys, alter, List.map_map]
  apply List.map_congr_left
  intro e _
  simp only [Function.comp]
  split_ifs <;> rfl

theorem get?_alter (t : Assoc κ β) (k : κ) (f : β → β) (j : κ) :
    (t.alter k f).get? j = if j = k then (t.get? j).map f else t.get? j := by
  induction t with
  | nil => simp [alter]
  | cons e t ih =>
      rw [alter] at ih ⊢
      rw [List.map_cons, get?_cons, get?_cons, ih]
      by_cases hk : e.1 = k
      · by_cases hj : e.1 = j
        · simp [← hk, ← hj]
        · simp [hk, hk ▸ hj]
      · by_cases hj : e.1 = j
        · have hjk : j ≠ k := fun h => hk (hj.trans h)
          simp [hj, hjk]
        · simp [hk, hj]

theorem set_of_mem (h : k ∈ t.keys) (v : β) : t.set k v = t.alter k fun _ => v := by
  rw [set, if_pos (contains_iff.mpr h)]

theorem keys_set_of_mem (h : k ∈ t.keys) (v : β) : (t.set k v).keys = t.keys := by
  rw [set_of_mem h, keys_alter]

theorem get?_set (t : Assoc κ β) (k : κ) (v : β) (j : κ) :
    (t.set k v).get? j = if j = k then some v else t.get? j := by
  by_cases h : k ∈ t.keys
  · rw [set_of_mem h, get?_alter]
    split_ifs with hj
    · obtain ⟨w, hw⟩ := Option.isSome_iff_exists.mp
        ((contains_eq_isSome t k).symm.trans (contains_iff.mpr h))
      rw [hj, hw]
      rfl
    · rfl
  · have hnone := get?_eq_none_iff.mpr h
    rw [set, if_neg (mt contains_iff.mp h), get?_append]
    by_cases hj : j = k
    · simp [hj, hnone, get?_cons]
    · simp [get?_cons, hj, Ne.symm hj]

theorem keys_ensure (t : Assoc κ β) (k : κ) (v : β) :
    (t.ensure k v).keys = if k ∈ t.keys then t.keys else t.keys ++ [k] := by
  rw [ensure]
  by_cases h : k ∈ t.keys
  · rw [if_pos (contains_iff.mpr h), if_pos h]
  · rw [if_neg (mt contains_iff.mp h), if_neg h, keys, List.map_append]
    rfl

theorem nodup_keys_ensure (h : t.keys.Nodup) (k : κ) (v : β) : (t.ensure k v).keys.Nodup := by
  rw [keys_ensure]
  split_ifs with hk
  · exact h
  · rw [List.nodup_append]
    refine ⟨h, List.nodup_singleton k, ?_⟩
    rintro a ha b hb rfl
    exact hk (List.mem_singleton.mp hb ▸ ha)

theorem get?_ensure (t : Assoc κ β) (k : κ) (v : β) (j : κ) :
    (t.ensure k v).get? j = if j = k then some ((t.get? k).getD v) else t.get? j := by
  rw [ensure, contains_eq_isSome]
  cases hk : t.get? k with
  | some w =>
      rw [Option.isSome_some, if_pos rfl]
      split_ifs with hj
      · rw [hj, hk]
        rfl
      · rfl
  | none =>
      rw [Option.isSome_none, if_neg Bool.false_ne_true, get?_append]
      by_cases hj : j = k
      · simp [hj, hk, get?_cons]
      · simp [get?_cons, hj, Ne.symm hj]

/-! ## Removing entries -/

theorem get?_filter (t : Assoc κ β) (p : κ → Bool) (k : κ) :
    get? (t.filter fun e => p e.1) k = if p k then t.get? k else none := by
  induction t with
  | nil => simp
  | cons e t ih =>
      rw [List.filter_cons]
      by_cases hp : p e.1 = true
      · rw [if_pos hp, get?_cons, get?_cons, ih]
        split_ifs with hk hpk
        · rfl
        · exact absurd (hk ▸ hp) hpk
        · rfl
        · rfl
      · rw [if_neg hp, ih, get?_cons]
        split_ifs with hpk hk
        · exact absurd (hk.symm ▸ hpk) hp
        · rfl
        · rfl

theorem get?_erase (t : Assoc κ β) (k j : κ) :
    (t.erase k).get? j = if j = k then none else t.get? j := by
  have hfilter := get?_filter t (fun i => decide (i ≠ k)) j
  rw [erase, hfilter]
  by_cases h : j = k
  · simp [h]
  · simp [h]

theorem keys_erase (t : Assoc κ β) (k : κ) :
    (t.erase k).keys = t.keys.filter fun j => decide (j ≠ k) :=
  keys_filter t fun j => decide (j ≠ k)

/-! ## Changing every value -/

theorem get?_mapValues (t : Assoc κ β) (f : β → γ) (k : κ) :
    (t.mapValues f).get? k = (t.get? k).map f := by
  induction t with
  | nil => rfl
  | cons e t ih =>
      rw [mapValues] at ih ⊢
      rw [List.map_cons, get?_cons, get?_cons, ih]
      split_ifs <;> rfl

theorem contains_mapValues (t : Assoc κ β) (f : β → γ) (k : κ) :
    (t.mapValues f).contains k = t.contains k := by
  rw [contains_eq_isSome, contains_eq_isSome, get?_mapValues, Option.isSome_map]

/-- A value that is changed before and after all others alike. -/
theorem alter_mapValues {f : β → γ} {g : β → β} {g' : γ → γ} (hg : ∀ v, g' (f v) = f (g v))
    (t : Assoc κ β) (k : κ) : (t.mapValues f).alter k g' = (t.alter k g).mapValues f := by
  rw [mapValues, mapValues, alter, alter, List.map_map, List.map_map]
  apply List.map_congr_left
  intro e _
  simp only [Function.comp]
  split_ifs
  · rw [hg]
  · rfl

theorem set_mapValues (t : Assoc κ β) (f : β → γ) (k : κ) (v : β) :
    (t.mapValues f).set k (f v) = (t.set k v).mapValues f := by
  rw [set, set, contains_mapValues]
  split_ifs
  · have halter : (t.mapValues f).alter k (fun _ => f v) = (t.alter k fun _ => v).mapValues f :=
      alter_mapValues (f := f) (fun _ => rfl) t k
    exact halter
  · simp [mapValues]

theorem ensure_mapValues (t : Assoc κ β) (f : β → γ) (k : κ) (v : β) :
    (t.mapValues f).ensure k (f v) = (t.ensure k v).mapValues f := by
  rw [ensure, ensure, contains_mapValues]
  split_ifs
  · rfl
  · simp [mapValues]

theorem erase_mapValues (t : Assoc κ β) (f : β → γ) (k : κ) :
    (t.mapValues f).erase k = (t.erase k).mapValues f := by
  rw [erase, erase, mapValues, mapValues, List.filter_map]
  rfl

/-! ## What all entries hold together -/

theorem alter_of_not_mem (h : k ∉ t.keys) (f : β → β) : t.alter k f = t := by
  rw [alter]
  calc t.map (fun e => if e.1 = k then (e.1, f e.2) else e) = t.map id := by
        apply List.map_congr_left
        intro e he
        have hne : e.1 ≠ k := fun heq => h (heq ▸ List.mem_map_of_mem he)
        rw [if_neg hne, id]
    _ = t := List.map_id t

/-- Where no key occurs twice, a value is changed by giving its key the new one. -/
theorem alter_eq_set (hkeys : t.keys.Nodup) (hget : t.get? k = some v) (f : β → β) :
    t.alter k f = t.set k (f v) := by
  rw [set_of_mem (mem_keys_of_get? hget)]
  apply List.map_congr_left
  rintro ⟨j, w⟩ he
  by_cases hj : j = k
  · obtain rfl := hj
    obtain rfl : v = w := Option.some.inj (hget.symm.trans (get?_of_mem hkeys he))
    simp
  · simp [hj]

/-- A change of one value shows once among what all entries hold. -/
theorem flatMap_alter_perm (hkeys : t.keys.Nodup) (hget : t.get? k = some v) {f : β → β}
    {g : κ × β → List γ} {more : List γ} (hg : (g (k, f v)).Perm (g (k, v) ++ more)) :
    ((t.alter k f).flatMap g).Perm (t.flatMap g ++ more) := by
  induction t with
  | nil => cases hget
  | cons e t ih =>
      obtain ⟨he, hkeys⟩ := List.nodup_cons.mp hkeys
      rw [get?_cons] at hget
      by_cases hk : e.1 = k
      · rw [if_pos hk] at hget
        obtain rfl : e = (k, v) := Prod.ext hk (Option.some.inj hget)
        have hrest := alter_of_not_mem he f
        rw [alter] at hrest ⊢
        rw [List.map_cons, if_pos rfl, hrest, List.flatMap_cons, List.flatMap_cons]
        calc (g (k, f v) ++ t.flatMap g).Perm ((g (k, v) ++ more) ++ t.flatMap g) :=
              hg.append_right _
          _ = g (k, v) ++ (more ++ t.flatMap g) := List.append_assoc ..
          List.Perm _ (g (k, v) ++ (t.flatMap g ++ more)) :=
              List.perm_append_comm.append_left _
          _ = g (k, v) ++ t.flatMap g ++ more := (List.append_assoc ..).symm
      · rw [if_neg hk] at hget
        have hrest := ih hkeys hget
        rw [alter] at hrest ⊢
        rw [List.map_cons, if_neg hk, List.flatMap_cons, List.flatMap_cons, List.append_assoc]
        exact hrest.append_left _

theorem flatMap_set_perm (hkeys : t.keys.Nodup) (hget : t.get? k = some v) {w : β}
    {g : κ × β → List γ} {more : List γ} (hg : (g (k, w)).Perm (g (k, v) ++ more)) :
    ((t.set k w).flatMap g).Perm (t.flatMap g ++ more) := by
  rw [set_of_mem (mem_keys_of_get? hget)]
  exact flatMap_alter_perm hkeys hget hg

end Assoc

end Reminders
