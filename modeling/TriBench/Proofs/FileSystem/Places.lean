import TriBench.FileSystem.Operations
import TriBench.Proofs.OrderedMap

/-!
# Places in a file system

Whether a file can be written comes from the place that its path leads to, and what a path has found
it finds again after directories have been created. Main statements: `exists_writeFile_iff` and
`stat?_makeDirectories`.
-/

namespace TriBench.FileSystem

/-- A file can be written under the path: there is one, or there is a directory that lacks its name. -/
def CanHold (fs : FileSystem) (p : Path) : Prop :=
  (∃ loc content executable, fs.locate true p = .ok (.found loc (.file content executable))) ∨
    ∃ directory name, fs.locate true p = .ok (.vacant directory name false)

theorem exists_writeFile_iff {fs : FileSystem} {p : Path} (content : Bytes) :
    (∃ fs', fs.writeFile p content = .ok fs') ↔ fs.CanHold p := by
  unfold writeFile CanHold
  rcases fs.locate true p with e | ⟨loc, node⟩ | ⟨directory, name, slash⟩
  · simp
  · cases node <;> simp
  · cases slash <;> simp

/-! ## New nodes -/

section
variable {fs : FileSystem} {follow : Bool}

theorem node?_of_walk_vacant {links : Nat} {cur : Location} {pieces : List Text} {parent : Location}
    {name : Text} {slash : Bool} (h : fs.walk follow links cur pieces = .ok (.vacant parent name slash)) :
    fs.node? (parent ++ [name]) = none := by
  fun_induction walk fs follow links cur pieces with
  | case2 links cur p rest hidle ih => exact ih h
  | case3 links cur rest hidle ih => exact ih h
  | case5 links cur p rest hidle hup hlong hnode hrest =>
    cases h
    exact hnode
  | case7 links cur p rest hidle hup hlong hnode ih => exact ih h
  | case12 cur p rest hidle hup hlong target hnode hlink links ih => exact ih h
  | _ => cases h

theorem node?_putNode_of_ne {loc loc' : Location} (h : loc' ≠ loc) (n : Node) :
    (fs.putNode loc n).node? loc' = fs.node? loc' := by
  unfold node? putNode OrderedMap.insert
  rw [OrderedMap.get?_alter_of_ne _ h]

theorem node?_putNode_of_some {loc loc' : Location} {n n' : Node} (hloc : fs.node? loc = none)
    (h : fs.node? loc' = some n') :
    (fs.putNode loc n).node? loc' = some n' := by
  rw [node?_putNode_of_ne _ n, h]
  rintro rfl
  rw [hloc] at h
  cases h

/-- A node that is put where there was none stands in the way of no look-up that has found something. -/
theorem walk_putNode {loc : Location} {n : Node} (hloc : fs.node? loc = none) {links : Nat} {cur : Location}
    {pieces : List Text} {l : Location} {node : Node}
    (h : fs.walk follow links cur pieces = .ok (.found l node)) :
    (fs.putNode loc n).walk follow links cur pieces = .ok (.found l node) := by
  -- whatever node such a look-up meets was there before, so it meets it again
  fun_induction walk fs follow links cur pieces with
  | case1 =>
    cases h
    rw [walk]
  | case2 links cur p rest hidle ih => rw [walk, if_pos hidle, ih h]
  | case3 links cur rest hidle ih => rw [walk, if_neg hidle, if_pos rfl, ih h]
  | case7 links cur p rest hidle hup hlong hnode ih =>
    rw [walk, if_neg hidle, if_neg hup, if_neg hlong, node?_putNode_of_some hloc hnode]
    exact ih h
  | case8 links cur p hidle hup hlong content executable hnode =>
    rw [walk, if_neg hidle, if_neg hup, if_neg hlong, node?_putNode_of_some hloc hnode]
    exact h
  | case10 links cur p rest hidle hup hlong target hnode hlink =>
    rw [walk, if_neg hidle, if_neg hup, if_neg hlong, node?_putNode_of_some hloc hnode]
    dsimp only
    rw [if_pos hlink]
    exact h
  | case12 cur p rest hidle hup hlong target hnode hlink links ih =>
    rw [walk, if_neg hidle, if_neg hup, if_neg hlong, node?_putNode_of_some hloc hnode]
    dsimp only
    rw [if_neg hlink]
    exact ih h
  | _ => cases h

theorem locate_eq_walk {p : Path} {place : Place} (h : fs.locate follow p = .ok place) :
    fs.walk follow maxLinks (if p.isAbsolute then [] else fs.working) (Text.splitOn '/' p.text) = .ok place ∧
      ∀ fs' : FileSystem, fs'.working = fs.working → fs'.locate follow p =
        fs'.walk follow maxLinks (if p.isAbsolute then [] else fs.working) (Text.splitOn '/' p.text) := by
  unfold locate at h ⊢
  split at h
  · cases h
  · split at h
    · cases h
    · split at h
      · cases h
      · rename_i hempty hnul hlong
        refine ⟨h, fun fs' hworking => ?_⟩
        rw [if_neg hempty, if_neg hnul, if_neg hlong, hworking]

theorem locate_putNode {loc : Location} {n : Node} (hloc : fs.node? loc = none) {p : Path} {l : Location}
    {node : Node} (h : fs.locate follow p = .ok (.found l node)) :
    (fs.putNode loc n).locate follow p = .ok (.found l node) := by
  obtain ⟨hwalk, hlocate⟩ := locate_eq_walk h
  have hworking : (fs.putNode loc n).working = fs.working := rfl
  rw [hlocate _ hworking]
  exact walk_putNode hloc hwalk

variable {p : Path} {l : Location} {node : Node}

theorem locate_makeDirectory {d : Path} {fs' : FileSystem} (hd : fs.makeDirectory d = .ok fs')
    (h : fs.locate follow p = .ok (.found l node)) : fs'.locate follow p = .ok (.found l node) := by
  unfold makeDirectory at hd
  split at hd
  · rename_i hvacant
    cases hd
    exact locate_putNode (node?_of_walk_vacant (locate_eq_walk hvacant).1) h
  · cases hd
  · cases hd

theorem locate_makeFirst (ds : List Path) (h : fs.locate follow p = .ok (.found l node)) :
    (fs.makeFirst ds).2.locate follow p = .ok (.found l node) := by
  fun_induction makeFirst fs ds with
  | case1 | case2 | case7 => exact h
  | case3 d above hne fs' hd => exact locate_makeDirectory hd h
  | case4 d above hne hd e fs' habove ih | case6 d above hne hd fs' habove e hd' ih =>
    rw [habove] at ih
    exact ih
  | case5 d above hne hmissing fs' habove fs'' hd ih =>
    rw [habove] at ih
    exact locate_makeDirectory hd ih

end

/-! ## Nodes that stay -/

section
variable {fs : FileSystem} {p : Path}

theorem stat?_eq_some_iff {l : Location} {node : Node} :
    fs.stat? p = some (l, node) ↔ fs.locate true p = .ok (.found l node) := by
  unfold stat?
  rcases fs.locate true p with e | ⟨l', node'⟩ | ⟨parent, name, slash⟩ <;> simp

/-- What a path leads to it leads to after directories have been created. -/
theorem stat?_makeDirectories (d : Path) (h : fs.has p = true) :
    (fs.makeDirectories d).2.stat? p = fs.stat? p := by
  obtain ⟨⟨l, node⟩, hstat⟩ := Option.isSome_iff_exists.1 h
  rw [hstat, stat?_eq_some_iff]
  exact locate_makeFirst d.ancestors (stat?_eq_some_iff.1 hstat)

theorem canHold_iff_isFile (h : fs.has p = true) : fs.CanHold p ↔ fs.isFile p = true := by
  obtain ⟨⟨l, node⟩, hstat⟩ := Option.isSome_iff_exists.1 h
  unfold CanHold isFile
  rw [hstat, stat?_eq_some_iff.1 hstat]
  cases node <;> simp

end

end TriBench.FileSystem
