import TriBench.Proofs.FileSystem.Places
import TriBench.Proofs.Path.Absolute

/-!
# Entries of directories

A look-up that goes on behind a path has come through a directory, and the name that follows is an
entry of it. Main statements: `stat?_of_has_join`, and `stat?_of_components`, which directory it is
can be told by the components.
-/

namespace TriBench

theorem Text.byteLength_le_of_sublist {s t : Text} (h : s.Sublist t) : byteLength s ≤ byteLength t := by
  induction h with
  | slnil => exact Nat.le_refl _
  | @cons s t c _ ih =>
    show byteLength s ≤ c.utf8Size + byteLength t
    omega
  | @cons_cons s t c _ ih =>
    show c.utf8Size + byteLength s ≤ c.utf8Size + byteLength t
    omega

theorem Path.ofPiece_inj {x y : Text} (h : Component.ofPiece x = .ofPiece y) : x = y := by
  unfold Component.ofPiece at h
  split at h <;> split at h <;> simp_all

namespace FileSystem

section
variable {fs : FileSystem} {loc : Location}

/-- Where a look-up goes on behind some pieces, they lead to a directory. -/
theorem walk_append {links : Nat} {cur : Location} {ps more : List Text} {node : Node} (hmore : more ≠ [])
    (h : fs.walk true links cur (ps ++ more) = .ok (.found loc node)) :
    ∃ links' mid, fs.walk true links cur ps = .ok (.found mid .directory) ∧
      fs.walk true links' mid more = .ok (.found loc node) := by
  -- the look-up of all pieces takes each step that the one of the first pieces takes
  fun_induction walk fs true links cur ps with
  | case1 links cur => exact ⟨links, cur, rfl, h⟩
  | case2 links cur p rest hidle ih =>
    rw [List.cons_append, walk, if_pos hidle] at h
    exact ih h
  | case3 links cur rest hidle ih =>
    rw [List.cons_append, walk, if_neg hidle, if_pos rfl] at h
    exact ih h
  | case4 links cur p rest hidle hup hlong =>
    rw [List.cons_append, walk, if_neg hidle, if_neg hup, if_pos hlong] at h
    cases h
  | case5 links cur p rest hidle hup hlong hnode | case6 links cur p rest hidle hup hlong hnode =>
    rw [List.cons_append, walk, if_neg hidle, if_neg hup, if_neg hlong, hnode] at h
    dsimp only at h
    split at h <;> cases h
  | case7 links cur p rest hidle hup hlong hnode ih =>
    rw [List.cons_append, walk, if_neg hidle, if_neg hup, if_neg hlong, hnode] at h
    exact ih h
  | case8 links cur p hidle hup hlong _ _ hnode | case9 links cur p rest hidle hup hlong _ _ hnode =>
    rw [List.cons_append, walk, if_neg hidle, if_neg hup, if_neg hlong, hnode] at h
    dsimp only at h
    rw [if_neg (by simp [hmore])] at h
    cases h
  | case10 links cur p rest hidle hup hlong target hnode hlink => cases hlink.2
  | case11 cur p rest hidle hup hlong target hnode hlink =>
    rw [List.cons_append, walk, if_neg hidle, if_neg hup, if_neg hlong, hnode] at h
    dsimp only at h
    rw [if_neg (by simp)] at h
    cases h
  | case12 cur p rest hidle hup hlong target hnode hlink links ih =>
    rw [List.cons_append, walk, if_neg hidle, if_neg hup, if_neg hlong, hnode] at h
    dsimp only at h
    rw [if_neg (by simp), ← List.append_assoc] at h
    exact ih h

theorem walk_idle_append {links : Nat} {cur : Location} {idle ps : List Text}
    (hidle : ∀ x ∈ idle, Path.isIdle x = true) :
    fs.walk true links cur (idle ++ ps) = fs.walk true links cur ps := by
  induction idle with
  | nil => rfl
  | cons x idle ih =>
    rw [List.cons_append, walk, if_pos (hidle x (List.mem_cons_self ..))]
    exact ih fun y hy => hidle y (List.mem_cons_of_mem x hy)

/-- Pieces that lead nowhere else make no difference on the way to a directory. -/
theorem walk_directory_congr {links : Nat} {cur : Location} {ps ps' : List Text}
    (hsame : (ps'.filter fun piece => !Path.isIdle piece) = ps.filter fun piece => !Path.isIdle piece)
    (h : fs.walk true links cur ps = .ok (.found loc .directory)) :
    fs.walk true links cur ps' = .ok (.found loc .directory) := by
  -- the first piece that leads on is the same, behind other idle ones
  have hsplit : ∀ {p : Text} {rest ps' : List Text}, ¬ Path.isIdle p = true →
      (ps'.filter fun piece => !Path.isIdle piece) = (p :: rest).filter (fun piece => !Path.isIdle piece) →
      ∃ rest', (rest'.filter fun piece => !Path.isIdle piece) =
        rest.filter (fun piece => !Path.isIdle piece) ∧
        ∀ links cur, fs.walk true links cur ps' = fs.walk true links cur (p :: rest') := by
    intro p rest ps' hp hps
    rw [List.filter_cons_of_pos (by simpa using hp)] at hps
    obtain ⟨idle, rest', rfl, hidle, -, hrest⟩ := List.filter_eq_cons_iff.1 hps
    exact ⟨rest', hrest, fun links cur => walk_idle_append fun x hx => by simpa using hidle x hx⟩
  fun_induction walk fs true links cur ps generalizing ps' with
  | case1 links cur =>
    have hidle := List.filter_eq_nil_iff.1 hsame
    rw [← List.append_nil ps', walk_idle_append fun x hx => by simpa using hidle x hx, walk]
    exact h
  | case2 links cur p rest hp ih => exact ih (by rw [hsame, List.filter_cons_of_neg (by simpa using hp)]) h
  | case3 links cur rest hp ih =>
    obtain ⟨rest', hrest, hwalk⟩ := hsplit hp hsame
    rw [hwalk, walk, if_neg hp, if_pos rfl]
    exact ih hrest h
  | case7 links cur p rest hp hup hlong hnode ih =>
    obtain ⟨rest', hrest, hwalk⟩ := hsplit hp hsame
    rw [hwalk, walk, if_neg hp, if_neg hup, if_neg hlong, hnode]
    exact ih hrest h
  | case10 links cur p rest hp hup hlong target hnode hlink => cases hlink.2
  | case12 cur p rest hp hup hlong target hnode hlink links ih =>
    obtain ⟨rest', hrest, hwalk⟩ := hsplit hp hsame
    rw [hwalk, walk, if_neg hp, if_neg hup, if_neg hlong, hnode]
    dsimp only
    rw [if_neg (by simp)]
    exact ih (by rw [List.filter_append, List.filter_append, hrest]) h
  | _ => cases h

theorem mem_keys_iff (fs : FileSystem) {l : Location} (hl : l ≠ []) :
    l ∈ fs.nodes.keys ↔ ∃ node, fs.node? l = some node := by
  unfold node? OrderedMap.keys
  rw [if_neg hl]
  constructor
  · intro h
    obtain ⟨⟨l', node⟩, he, rfl⟩ := List.mem_map.1 h
    exact ⟨node, (OrderedMap.mem_entries_iff _ _ _).1 he⟩
  · rintro ⟨node, h⟩
    exact List.mem_map.2 ⟨_, (OrderedMap.mem_entries_iff _ _ _).2 h, rfl⟩

theorem mem_keys_of_walk {links : Nat} {mid : Location} {n : Text} (hn : Path.IsName n) {node : Node}
    (h : fs.walk true links mid [n] = .ok (.found loc node)) : mid ++ [n] ∈ fs.nodes.keys := by
  rw [mem_keys_iff fs (by simp)]
  rw [walk, if_neg (by simp [hn.isIdle_eq]), if_neg hn.ne_up] at h
  split at h
  · cases h
  · split at h
    · split at h <;> cases h
    all_goals exact ⟨_, ‹_›⟩

theorem mem_namesIn_iff {p : Path} (h : fs.stat? p = some (loc, .directory)) {n : Text} :
    n ∈ fs.namesIn p ↔ loc ++ [n] ∈ fs.nodes.keys := by
  unfold namesIn
  rw [h]
  dsimp only
  rw [List.mem_filterMap]
  constructor
  · rintro ⟨k, hk, hlast⟩
    split at hlast
    · rename_i hloc
      obtain ⟨l, rfl⟩ := List.getLast?_eq_some_iff.1 hlast
      rw [List.dropLast_concat] at hloc
      rwa [← hloc]
    · cases hlast
  · intro hk
    exact ⟨_, hk, by simp⟩

/-- A text that can be looked up can be with characters left out. -/
theorem locate_of_sublist {p q : Path} (hp : p.text ≠ []) (hpq : p.text.Sublist q.text) {place : Place}
    (h : fs.locate true q = .ok place) :
    fs.locate true p =
      fs.walk true maxLinks (if p.isAbsolute then [] else fs.working) (Text.splitOn '/' p.text) := by
  have hbytes := Text.byteLength_le_of_sublist hpq
  unfold locate at h ⊢
  split at h
  · cases h
  · split at h
    · cases h
    · rename_i hnul
      split at h
      · cases h
      · rw [if_neg hp, if_neg fun hmem => hnul (hpq.subset hmem), if_neg (by omega)]

theorem stat?_of_components {p q : Path} (hp : p.isAbsolute = true) (hq : q.isAbsolute = true)
    (hcomponents : q.components = p.components) (hqp : q.text.Sublist p.text)
    (h : fs.stat? p = some (loc, .directory)) :
    fs.stat? q = some (loc, .directory) := by
  have hlocate := stat?_eq_some_iff.1 h
  have hwalk := (locate_eq_walk hlocate).1
  rw [Path.components_eq, Path.components_eq, Path.startComponents_of_absolute hp,
    Path.startComponents_of_absolute hq, List.append_cancel_left_eq] at hcomponents
  have hsame := (List.map_inj_right fun _ _ => Path.ofPiece_inj).1 hcomponents
  rw [stat?_eq_some_iff, locate_of_sublist (Path.ne_nil_of_isAbsolute hq) hqp hlocate, hq]
  rw [hp] at hwalk
  refine walk_directory_congr ?_ hwalk
  rw [Path.splitOn_text, Path.splitOn_text, Path.front_of_isAbsolute hp, Path.front_of_isAbsolute hq]
  exact hsame

/-- **Entries.** What is found in a path is a directory, and the name behind it is that of a node there. -/
theorem stat?_of_has_join {p : Path} (hp : p.isAbsolute = true) {s : Text} (hs : '/' ∉ s)
    (h : fs.has (p.join ⟨s⟩) = true) :
    ∃ loc, fs.stat? p = some (loc, .directory) ∧ (Path.IsName s → s ∈ fs.namesIn p) := by
  obtain ⟨⟨l, node⟩, hstat⟩ := Option.isSome_iff_exists.1 h
  have hlocate := stat?_eq_some_iff.1 hstat
  have hne := Path.ne_nil_of_isAbsolute hp
  obtain ⟨pieces, hext⟩ := Path.join_extends hne hs
  have htext : p.text.Sublist (p.join ⟨s⟩).text := by
    rw [Path.join_eq p hs, Path.below]
    apply List.IsPrefix.sublist
    split
    · exact ⟨s, rfl⟩
    · exact ⟨'/' :: s, by simp⟩
  have hwalk := (locate_eq_walk hlocate).1
  rw [hext.absolute, Path.splitOn_text, hext.front, hext.tail, ← List.cons_append] at hwalk
  obtain ⟨links, mid, hmid, hname⟩ := walk_append (by simp) hwalk
  have hdirectory : fs.stat? p = some (mid, .directory) := by
    rw [stat?_eq_some_iff, locate_of_sublist hne htext hlocate, Path.splitOn_text]
    refine walk_directory_congr ?_ hmid
    rw [List.filter_cons, List.filter_cons, hext.filter_tail]
  exact ⟨mid, hdirectory, fun hs => (mem_namesIn_iff hdirectory).2 (mem_keys_of_walk hs hname)⟩

end

end FileSystem

end TriBench
