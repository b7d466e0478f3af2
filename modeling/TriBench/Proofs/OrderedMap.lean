import TriBench.OrderedMap

/-!
# Look-ups in ordered maps

A change at one key is found at this key and leaves every other look-up alone; the entries of a map
are what its look-ups find.
-/

namespace TriBench.OrderedMap

section
variable {κ ν : Type} [Ord κ]

@[simp] theorem get?_empty (k : κ) : (empty : OrderedMap κ ν).get? k = none := rfl

theorem keys_ascending (m : OrderedMap κ ν) : m.keys.Pairwise fun a b => compare a b = .lt :=
  List.pairwise_map.2 m.ascending

theorem alterEntries_ne_nil (k : κ) (f : Option ν → ν) (l : List (κ × ν)) : alterEntries k f l ≠ [] := by
  cases l with
  | nil => simp [alterEntries]
  | cons x r => unfold alterEntries; split <;> simp

theorem lookup_eq_none {k : κ} {l : List (κ × ν)} (h : ∀ e ∈ l, compare k e.1 ≠ .eq) :
    lookup k l = none := by
  induction l with
  | nil => rfl
  | cons x r ih =>
    have hx := h x (List.mem_cons_self ..)
    simp only [lookup, hx, if_false]
    exact ih fun e he => h e (List.mem_cons_of_mem _ he)

variable [Std.LawfulEqOrd κ]

theorem mem_of_lookup {k : κ} {v : ν} {l : List (κ × ν)} (h : lookup k l = some v) : (k, v) ∈ l := by
  induction l with
  | nil => cases h
  | cons x r ih =>
    obtain ⟨k', v'⟩ := x
    simp only [lookup] at h
    split at h
    · rename_i heq
      have := Std.LawfulEqCmp.eq_of_compare heq
      subst this
      simp only [Option.some.injEq] at h
      subst h
      exact List.mem_cons_self ..
    · exact List.mem_cons_of_mem _ (ih h)

theorem lookup_alterEntries_of_ne {k k' : κ} (hk : k' ≠ k) (f : Option ν → ν) (l : List (κ × ν)) :
    lookup k' (alterEntries k f l) = lookup k' l := by
  have hne : compare k' k ≠ .eq := fun h => hk (Std.LawfulEqCmp.eq_of_compare h)
  induction l with
  | nil => simp [alterEntries, lookup, hne]
  | cons x r ih =>
    obtain ⟨k'', v⟩ := x
    unfold alterEntries
    split
    · simp [lookup, hne]
    · rename_i heq
      have := Std.LawfulEqCmp.eq_of_compare heq
      subst this
      simp [lookup, hne]
    · simp [lookup, ih]

end

section
variable {κ ν : Type} [Ord κ] [Std.TransOrd κ]

theorem compare_ne_eq_of_lt {a b : κ} (h : compare a b = .lt) : compare b a ≠ .eq := by
  rw [Std.OrientedCmp.gt_of_lt h]; simp

theorem lookup_alterEntries_self {k : κ} (f : Option ν → ν) {l : List (κ × ν)}
    (h : l.Pairwise fun a b => compare a.1 b.1 = .lt) :
    lookup k (alterEntries k f l) = some (f (lookup k l)) := by
  induction l with
  | nil => simp [alterEntries, lookup]
  | cons x r ih =>
    obtain ⟨k', v⟩ := x
    obtain ⟨hx, hr⟩ := List.pairwise_cons.1 h
    unfold alterEntries
    split
    · rename_i hlt
      -- the key comes before all entries, so it was not there
      have hnone : lookup k ((k', v) :: r) = none := by
        refine lookup_eq_none fun e he => ?_
        rcases List.mem_cons.1 he with rfl | he
        · simp [hlt]
        · simp [Std.TransCmp.lt_trans hlt (hx e he)]
      rw [hnone]; simp [lookup]
    · rename_i heq; simp [lookup, heq]
    · rename_i hgt; simp [lookup, hgt, ih hr]

theorem get?_alter_self (m : OrderedMap κ ν) (k : κ) (f : Option ν → ν) :
    (m.alter k f).get? k = some (f (m.get? k)) :=
  lookup_alterEntries_self f m.ascending

theorem lookup_of_mem {k : κ} {v : ν} {l : List (κ × ν)}
    (h : l.Pairwise fun a b => compare a.1 b.1 = .lt) (hm : (k, v) ∈ l) : lookup k l = some v := by
  induction l with
  | nil => cases hm
  | cons x r ih =>
    obtain ⟨hx, hr⟩ := List.pairwise_cons.1 h
    rcases List.mem_cons.1 hm with rfl | hm
    · simp [lookup]
    · have hne := compare_ne_eq_of_lt (hx _ hm)
      simp only [lookup, hne, if_false]
      exact ih hr hm

/-! ### Maps of lists -/

theorem alterEntries_of_last {k : κ} (f : Option ν → ν) {l : List (κ × ν)}
    (h : ∀ e ∈ l, compare e.1 k = .lt) :
    alterEntries k f l = l ++ [(k, f none)] := by
  induction l with
  | nil => rfl
  | cons x r ih =>
    have hgt : compare k x.1 = .gt := Std.OrientedCmp.gt_of_lt (h x (List.mem_cons_self ..))
    simp only [alterEntries, hgt]
    rw [ih fun e he => h e (List.mem_cons_of_mem x he)]
    rfl

theorem entries_foldl_insert {l : List (κ × ν)} {m : OrderedMap κ ν}
    (h : (m.entries ++ l).Pairwise fun a b => compare a.1 b.1 = .lt) :
    (l.foldl (fun m e => m.insert e.1 e.2) m).entries = m.entries ++ l := by
  induction l generalizing m with
  | nil => simp
  | cons e r ih =>
    have hlast : ∀ x ∈ m.entries, compare x.1 e.1 = .lt :=
      fun x hx => (List.pairwise_append.1 h).2.2 x hx e (List.mem_cons_self ..)
    have hm : (m.insert e.1 e.2).entries = m.entries ++ [e] := alterEntries_of_last _ hlast
    rw [List.foldl_cons, ih (by simpa [hm] using h), hm]
    simp

theorem ofList_entries (m : OrderedMap κ ν) : ofList m.entries = m := by
  obtain ⟨l, hl⟩ := m
  have h : (ofList l).entries = l := entries_foldl_insert (m := empty) hl
  cases hm : ofList l with
  | mk l' hl' =>
    rw [hm] at h
    subst h
    rfl

variable [Std.LawfulEqOrd κ]

theorem get?_alter_of_ne (m : OrderedMap κ ν) {k k' : κ} (hk : k' ≠ k) (f : Option ν → ν) :
    (m.alter k f).get? k' = m.get? k' :=
  lookup_alterEntries_of_ne hk f m.entries

theorem mem_entries_iff (m : OrderedMap κ ν) (k : κ) (v : ν) : (k, v) ∈ m.entries ↔ m.get? k = some v :=
  ⟨lookup_of_mem m.ascending, mem_of_lookup⟩

end

end TriBench.OrderedMap
