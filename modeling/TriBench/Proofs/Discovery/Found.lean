import TriBench.FileSystem.Operations
import TriBench.Proofs.Discovery.Patterns
import TriBench.Proofs.FileSystem.Places

/-!
# What a discovery finds

Every path of a discovery goes on from the benchmark directory by the folders of a prefix and then
by one name, which starts as the rest of the prefix says. Main statements: `discover_eq_ok`, no
discovery is refused, and `found_of_mem`.
-/

namespace TriBench

namespace Path.Component

theorem key_injective {a b : Component} (h : a.key = b.key) : a = b := by
  cases a <;> cases b <;>
    simp only [key, List.cons.injEq, reduceCtorEq, Nat.reduceEqDiff, false_and, true_and] at h ⊢
  case name.name s t => rw [(List.map_inj_right fun _ _ => Char.toNat_inj.1).1 h]

instance : Std.LawfulEqOrd Component where
  eq_of_compare h := key_injective (Std.LawfulEqCmp.eq_of_compare h)

end Path.Component

namespace OrderedMap

section
variable {κ ν : Type} [Ord κ] [Std.TransOrd κ] {key : ν → κ} {vs : List ν}

/-- The values by their keys. Of those with one key the first counts. -/
def index (key : ν → κ) (vs : List ν) : OrderedMap κ ν :=
  vs.foldl (fun m v => m.alter (key v) (·.getD v)) empty

variable [Std.LawfulEqOrd κ] [DecidableEq κ]

theorem get?_foldl_alter (m : OrderedMap κ ν) (k : κ) :
    (vs.foldl (fun m v => m.alter (key v) (·.getD v)) m).get? k =
      (m.get? k).or (vs.find? fun v => key v = k) := by
  induction vs generalizing m with
  | nil => simp
  | cons v vs ih =>
    rw [List.foldl_cons, ih]
    by_cases hk : key v = k
    · subst hk
      rw [get?_alter_self]
      cases m.get? (key v) <;> simp
    · rw [get?_alter_of_ne m (Ne.symm hk), List.find?_cons_of_neg (by simpa using hk)]

theorem mem_entries_index_iff {k : κ} {v : ν} :
    (k, v) ∈ (index key vs).entries ↔ vs.find? (fun v => key v = k) = some v := by
  rw [mem_entries_iff, index, get?_foldl_alter, get?_empty, Option.none_or]

theorem mem_of_mem_values_index {v : ν} (h : v ∈ (index key vs).values) : v ∈ vs := by
  obtain ⟨⟨k, w⟩, he, rfl⟩ := List.mem_map.1 h
  exact List.mem_of_find?_eq_some (mem_entries_index_iff.1 he)

theorem keys_index (key : ν → κ) (vs : List ν) : (index key vs).keys = (index key vs).values.map key := by
  rw [keys, values, List.map_map]
  refine List.map_congr_left fun e he => ?_
  have hkey := List.find?_some (mem_entries_index_iff.1 he)
  exact (of_decide_eq_true hkey).symm

theorem mem_values_index_iff (hinj : ∀ v ∈ vs, ∀ w ∈ vs, key v = key w → v = w) {v : ν} :
    v ∈ (index key vs).values ↔ v ∈ vs := by
  refine ⟨mem_of_mem_values_index, fun h => ?_⟩
  obtain ⟨w, hw⟩ :=
    Option.isSome_iff_exists.1 ((List.find?_isSome (p := fun w => key w = key v)).2 ⟨v, h, by simp⟩)
  have hkey : key w = key v := by simpa using List.find?_some hw
  rw [← hinj w (List.mem_of_find?_eq_some hw) v h hkey]
  exact List.mem_map.2 ⟨_, mem_entries_index_iff.2 hw, rfl⟩

end

end OrderedMap

namespace FileSystem
variable {fs : FileSystem}

def ofNodes (working : Location) (nodes : List (Location × Node)) : FileSystem :=
  nodes.foldl (fun fs e => fs.putNode e.1 e.2) ⟨working, .empty⟩

def WellNamed (fs : FileSystem) : Prop := ∀ loc ∈ fs.nodes.keys, ∀ n ∈ loc, Path.IsName n

instance (fs : FileSystem) : Decidable fs.WellNamed :=
  inferInstanceAs (Decidable (∀ loc ∈ fs.nodes.keys, ∀ n ∈ loc, Path.IsName n))

theorem isName_of_mem_namesIn (h : fs.WellNamed) {p : Path} {n : Text} (hn : n ∈ fs.namesIn p) :
    Path.IsName n := by
  unfold namesIn at hn
  split at hn
  · obtain ⟨loc, hloc, hlast⟩ := List.mem_filterMap.1 hn
    split at hlast
    · exact h loc hloc n (List.mem_of_getLast? hlast)
    · cases hlast
  · cases hn

/-- Pieces at whose end no name stands lead to a directory. -/
theorem walk_directory {follow : Bool} {links : Nat} {cur : Location} {pieces : List Text}
    (hlast : ∀ last, pieces.getLast? = some last → Path.isIdle last = true ∨ last = ['.', '.'])
    {loc : Location} {node : Node} (h : fs.walk follow links cur pieces = .ok (.found loc node)) :
    node = .directory := by
  have hrest : ∀ {p : Text} {rest : List Text},
      (∀ last, (p :: rest).getLast? = some last → Path.isIdle last = true ∨ last = ['.', '.']) →
      ∀ last, rest.getLast? = some last → Path.isIdle last = true ∨ last = ['.', '.'] := by
    intro p rest hp last hl
    exact hp last (by rw [List.getLast?_cons, hl]; rfl)
  fun_induction walk fs follow links cur pieces with
  | case1 => cases h; rfl
  | case2 links cur p rest hidle ih => exact ih (hrest hlast) h
  | case3 links cur rest hidle ih => exact ih (hrest hlast) h
  | case7 links cur p rest hidle hup hlong hnode ih => exact ih (hrest hlast) h
  | case8 links cur p hidle hup hlong content executable hnode =>
    rcases hlast p rfl with hp | hp
    · exact absurd hp hidle
    · exact absurd hp hup
  | case10 links cur p rest hidle hup hlong target hnode hlink =>
    rw [hlink.1] at hlast
    rcases hlast p rfl with hp | hp
    · exact absurd hp hidle
    · exact absurd hp hup
  | case12 cur p rest hidle hup hlong target hnode hlink links ih =>
    -- a link that is the last piece would be a name
    have hne : rest ≠ [] := by
      rintro rfl
      rcases hlast p rfl with hp | hp
      · exact hidle hp
      · exact hup hp
    refine ih (fun last hl => hrest hlast last ?_) h
    rw [List.getLast?_append, Option.or_of_isSome (by simpa using hne)] at hl
    exact hl
  | _ => cases h

theorem walk_of_isFile {p : Path} (h : fs.isFile p = true) : ∃ start loc content executable,
    fs.walk true maxLinks start (Text.splitOn '/' p.text) = .ok (.found loc (.file content executable)) := by
  unfold isFile at h
  split at h
  · rename_i loc content executable hstat
    exact ⟨_, loc, content, executable, (locate_eq_walk (stat?_eq_some_iff.1 hstat)).1⟩
  · cases h

/-- A path that ends in dots leads to no file. -/
theorem isFile_join_dots {q : Path} (hq : q.text ≠ []) {n : Text} (hn : n = ['.'] ∨ n = ['.', '.']) :
    fs.isFile (q.join ⟨n⟩) = false := by
  have hslash : '/' ∉ n := by rcases hn with rfl | rfl <;> decide
  obtain ⟨pieces, hext⟩ := Path.join_extends hq hslash
  have hlast : (Text.splitOn '/' (q.join ⟨n⟩).text).getLast? = some n := by
    rw [Path.splitOn_text, hext.tail, ← List.cons_append, List.getLast?_concat]
  rw [Bool.eq_false_iff]
  intro h
  obtain ⟨start, loc, content, executable, hwalk⟩ := walk_of_isFile h
  have hdirectory : Node.file content executable = .directory := by
    refine walk_directory (fun last hl => ?_) hwalk
    rw [hlast] at hl
    cases hl
    exact hn.imp_left fun hn => by rw [hn]; rfl
  cases hdirectory

end FileSystem

namespace Discovery

def starts (prefixes : List Text) : List Text := if prefixes = [] then [[]] else prefixes

theorem noSlash_of_mem_starts {prefixes : List Text} (h : ∀ s ∈ prefixes, '/' ∉ s) {start : Text}
    (hs : start ∈ starts prefixes) :
    '/' ∉ start := by
  unfold starts at hs
  split at hs
  · rw [List.mem_singleton.1 hs]
    exact List.not_mem_nil
  · exact h start hs

variable {fs : FileSystem} {c : Config}

variable (fs c) in
theorem mapM_expand (ss : List Text) :
    ∃ found, ss.mapM (fun start => Glob.expand fs (pattern c start)) = .ok found ∧
    ∀ p, p ∈ found.flatten ↔ ∃ start ∈ ss, ∃ ps, Glob.expand fs (pattern c start) = .ok ps ∧ p ∈ ps := by
  induction ss with
  | nil => exact ⟨[], rfl, by simp⟩
  | cons start ss ih =>
    obtain ⟨found, hfound, hmem⟩ := ih
    obtain ⟨origin, base, -, hexpand⟩ := expand_pattern c start fs
    refine ⟨_, by rw [List.mapM_cons, hexpand, hfound]; rfl, fun p => ?_⟩
    rw [List.flatten_cons, List.mem_append, hmem]
    simp [hexpand]

/-- No prefix is refused. What the patterns have found is kept if it exists and is a benchmark by its name. -/
theorem exists_kept (fs : FileSystem) (c : Config) (prefixes : List Text) : ∃ kept,
    discover fs c prefixes = .ok (OrderedMap.index Path.components kept).values ∧ ∀ p, p ∈ kept ↔
      fs.isFile p = true ∧ isRecognized c p = true ∧
        ∃ start ∈ starts prefixes, ∃ ps, Glob.expand fs (pattern c start) = .ok ps ∧ p ∈ ps := by
  obtain ⟨found, hfound, hmem⟩ := mapM_expand fs c (starts prefixes)
  have hdiscover : discover fs c prefixes = (fun found : List (List Path) =>
      (OrderedMap.index Path.components (found.flatten.filter fun p =>
        fs.isFile p && isRecognized c p)).values) <$>
        (starts prefixes).mapM fun start => Glob.expand fs (pattern c start) := by
    rw [discover, map_eq_pure_bind]
    rfl
  refine ⟨_, by rw [hdiscover, hfound]; rfl, fun p => ?_⟩
  rw [List.mem_filter, hmem, Bool.and_eq_true, and_comm, and_assoc]

theorem discover_eq_ok (fs : FileSystem) (c : Config) (prefixes : List Text) :
    ∃ paths, discover fs c prefixes = .ok paths ∧
    ∀ p ∈ paths, fs.isFile p = true ∧ isRecognized c p = true ∧
      ∃ start ∈ starts prefixes, ∃ ps, Glob.expand fs (pattern c start) = .ok ps ∧ p ∈ ps := by
  obtain ⟨kept, hdiscover, hkept⟩ := exists_kept fs c prefixes
  exact ⟨_, hdiscover, fun p hp => (hkept p).1 (OrderedMap.mem_of_mem_values_index hp)⟩

theorem isAbsolute_of_mem (hc : c.benchmarkDirectory.isAbsolute = true) {prefixes : List Text}
    {paths : List Path} (h : discover fs c prefixes = .ok paths) {p : Path} (hp : p ∈ paths) :
    p.isAbsolute = true := by
  obtain ⟨paths', h', hall⟩ := discover_eq_ok fs c prefixes
  rw [h] at h'
  cases h'
  obtain ⟨-, -, start, -, ps, hps, hmem⟩ := hall p hp
  obtain ⟨origin, base, habsolute, hexpand⟩ := expand_pattern c start fs
  obtain ⟨rfl, -⟩ := habsolute hc
  rw [hexpand] at hps
  cases hps
  exact Glob.isAbsolute_of_mem_expandFrom rfl hmem

structure Found (c : Config) (start : Text) (p q : Path) (n : Text) : Prop where
  path : p = q.join ⟨n⟩
  isName : Path.IsName n
  isAbsolute : q.isAbsolute = true
  components : q.components = c.benchmarkDirectory.components ++ Path.named (folders start)
  begins : beginning start <+: n

section
variable {c : Config} {start : Text} {p q : Path} {n : Text} (h : Found c start p q n)
include h

theorem Found.fileName?_eq : p.fileName? = some n := by
  rw [h.path, Path.fileName?_join q h.isName]

/-- What has been found lies in the benchmark directory. -/
theorem Found.exists_stripPrefix? (hc : c.benchmarkDirectory.isAbsolute = true) :
    ∃ u : Path, p.stripPrefix? c.benchmarkDirectory = some (u.join ⟨n⟩) ∧
      u.components = Path.named (folders start) := by
  rw [h.path]
  exact Path.exists_stripPrefix? h.isName (Path.ne_nil_of_isAbsolute h.isAbsolute)
    (Path.ne_nil_of_isAbsolute hc) h.components

end

theorem components_foldl_join {p : Path} (hp : p.isAbsolute = true) {pieces : List Text}
    (hslash : ∀ s ∈ pieces, '/' ∉ s) :
    (pieces.foldl (fun p s => p.join ⟨s⟩) p).isAbsolute = true ∧
      (pieces.foldl (fun p s => p.join ⟨s⟩) p).components = p.components ++ Path.named pieces := by
  induction pieces generalizing p with
  | nil => exact ⟨hp, by simp⟩
  | cons s pieces ih =>
    have hs := hslash s (List.mem_cons_self ..)
    obtain ⟨habs, hcomponents⟩ :=
      ih (Path.isAbsolute_join hp ⟨s⟩) fun t ht => hslash t (List.mem_cons_of_mem s ht)
    have hjoin :=
      Path.components_join_relative (Path.ne_nil_of_isAbsolute hp) (Path.isAbsolute_of_no_slash hs)
    rw [Text.splitOn_of_not_mem hs] at hjoin
    exact ⟨habs, by rw [List.foldl_cons, hcomponents, hjoin, List.append_assoc, ← Path.named_cons]⟩

theorem noSlash_of_mem_folders {start s : Text} (h : s ∈ folders start) : '/' ∉ s :=
  Text.not_mem_of_mem_splitOn (List.dropLast_subset _ h)

theorem found_of_mem (hfs : fs.WellNamed) (hc : c.benchmarkDirectory.isAbsolute = true) {prefixes : List Text}
    {paths : List Path} (h : discover fs c prefixes = .ok paths) {p : Path} (hp : p ∈ paths) :
    isRecognized c p = true ∧ ∃ start ∈ starts prefixes, ∃ q n, Found c start p q n := by
  obtain ⟨paths', h', hall⟩ := discover_eq_ok fs c prefixes
  rw [h] at h'
  cases h'
  obtain ⟨hfile, hrecognized, start, hstart, ps, hps, hmem⟩ := hall p hp
  refine ⟨hrecognized, start, hstart, ?_⟩
  obtain ⟨origin, base, habsolute, hexpand⟩ := expand_pattern c start fs
  obtain ⟨rfl, rfl⟩ := habsolute hc
  rw [hexpand] at hps
  cases hps
  have hslash : ∀ s ∈ c.benchmarkDirectory.tail ++ folders start, '/' ∉ s := by
    intro s hs
    rcases List.mem_append.1 hs with hs | hs
    · exact Path.noSlash_of_mem_tail hs
    · exact noSlash_of_mem_folders hs
  obtain ⟨habs, hcomponents⟩ := components_foldl_join (p := "/") rfl hslash
  obtain ⟨n, hbegins, hpath, hn⟩ := Glob.expandFrom_run habs (Glob.expandFrom_exacts rfl hmem)
  refine ⟨_, n, hpath, ?_, habs, ?_, hbegins⟩
  · rcases hn with hn | hn
    · exact FileSystem.isName_of_mem_namesIn hfs hn
    · simp only [List.mem_cons, List.not_mem_nil, or_false] at hn
      rw [hpath, FileSystem.isFile_join_dots (Path.ne_nil_of_isAbsolute habs) hn] at hfile
      cases hfile
  · have hroot : Path.components "/" = [.root] := rfl
    rw [hcomponents, hroot, Path.named_append, Path.components_eq c.benchmarkDirectory,
      Path.startComponents_of_absolute hc, List.append_assoc]

end Discovery

end TriBench
