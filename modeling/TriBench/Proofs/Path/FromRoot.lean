import TriBench.Proofs.Config.Resolved
import TriBench.Proofs.FileSystem.Entries
import TriBench.Proofs.Path.Absolute

/-!
# Paths from the root

What a path says from a directory, its absolute form says from the root: the same names and upward
steps, without single dots, and with the slash at the end. Main statements: `fromRoot_of_absolute?`,
and `isSettled_of_absolute?`, an absolute form is its own.
-/

namespace TriBench

namespace Path

variable {directory p q : Path} {x : Text}

theorem eq_of_text_eq (h : p.text = q.text) : p = q := by
  cases p
  cases q
  cases h
  rfl

def pieces (p : Path) : List Text := Text.splitOn '/' p.text

def steps (p : Path) : List Text := p.pieces.filter fun piece => !isIdle piece

def EndsInSlash (p : Path) : Prop := p.text.getLast? = some '/'

instance (p : Path) : Decidable p.EndsInSlash := inferInstanceAs (Decidable (_ = _))

structure IsStep (x : Text) : Prop where
  noSlash : '/' ∉ x
  notIdle : isIdle x = false

theorem isStep_steps (p : Path) : ∀ x ∈ p.steps, IsStep x := by
  intro x h
  obtain ⟨hx, hidle⟩ := List.mem_filter.1 h
  exact ⟨Text.not_mem_of_mem_splitOn hx, by simpa using hidle⟩

theorem IsStep.ne_nil (h : IsStep x) : x ≠ [] := by
  rintro rfl
  exact absurd h.notIdle (by decide)

theorem IsStep.ne_dot (h : IsStep x) : x ≠ ['.'] := by
  rintro rfl
  exact absurd h.notIdle (by decide)

theorem pieces_of_isStep (h : IsStep x) : pieces ⟨x⟩ = [x] := Text.splitOn_of_not_mem h.noSlash

theorem steps_of_isStep (h : IsStep x) : steps ⟨x⟩ = [x] := by
  simp [steps, pieces_of_isStep h, h.notIdle]

theorem pieces_append_slash (u t : Text) : pieces ⟨u ++ '/' :: t⟩ = pieces ⟨u⟩ ++ pieces ⟨t⟩ :=
  Text.splitOn_append ..

theorem steps_append_slash (u t : Text) : steps ⟨u ++ '/' :: t⟩ = steps ⟨u⟩ ++ steps ⟨t⟩ := by
  rw [steps, pieces_append_slash, List.filter_append]
  rfl

/-! ## What joining adds -/

section
variable (hp : p.text ≠ [])
include hp

theorem steps_below_append (t : Text) : steps ⟨p.below ++ t⟩ = p.steps ++ steps ⟨t⟩ := by
  obtain ⟨u, hu, hp'⟩ := below_eq hp
  have hsteps : p.steps = steps ⟨u⟩ := by
    obtain ⟨s⟩ := p
    rcases hp' with rfl | rfl
    · exact (steps_append_slash u []).trans (List.append_nil _)
    · rfl
  rw [hu, List.append_assoc, List.singleton_append, steps_append_slash, hsteps]

theorem mem_pieces_below_append {y t : Text} (h : y ∈ pieces ⟨p.below ++ t⟩) :
    y ∈ p.pieces ∨ y ∈ pieces ⟨t⟩ := by
  obtain ⟨u, hu, hp'⟩ := below_eq hp
  rw [hu, List.append_assoc, List.singleton_append, pieces_append_slash, List.mem_append] at h
  apply h.imp_left
  intro h
  obtain ⟨s⟩ := p
  rcases hp' with rfl | rfl
  · rw [pieces_append_slash]
    exact List.mem_append_left _ h
  · exact h

theorem endsInSlash_below : EndsInSlash ⟨p.below⟩ := by
  obtain ⟨u, hu, -⟩ := below_eq hp
  rw [EndsInSlash, hu, List.getLast?_concat]

end

/-- The path with a slash at its end. -/
theorem join_nil (p : Path) : p.join "" = ⟨p.below⟩ := by
  have h := join_eq p (n := []) List.not_mem_nil
  rw [List.append_nil] at h
  exact h

theorem join_nil_of_endsInSlash (h : p.EndsInSlash) : p.join "" = p := by
  rw [join_nil, below, if_pos (.inr h)]

theorem below_of_not_endsInSlash (hp : p.text ≠ []) (h : ¬ p.EndsInSlash) : p.below = p.text ++ ['/'] := by
  rw [below, if_neg]
  rintro (hnil | hends)
  · exact hp hnil
  · exact h hends

theorem below_join_nil (hp : p.text ≠ []) : (p.join "").below = p.below := by
  rw [join_nil, below, if_pos (.inr (endsInSlash_below hp))]

theorem join_join_nil (hp : p.text ≠ []) (hx : IsStep x) : (p.join "").join ⟨x⟩ = p.join ⟨x⟩ := by
  rw [join_eq _ hx.noSlash, join_eq _ hx.noSlash, below_join_nil hp]

theorem not_endsInSlash_join (p : Path) (hx : IsStep x) : ¬ (p.join ⟨x⟩).EndsInSlash := by
  obtain ⟨c, r, hc⟩ := List.exists_cons_of_ne_nil hx.ne_nil
  rw [EndsInSlash, join_eq p hx.noSlash, List.getLast?_append, Option.or_of_isSome (by simp [hc])]
  intro h
  exact hx.noSlash (List.mem_of_getLast? h)

theorem steps_join (hp : p.text ≠ []) (hx : IsStep x) : (p.join ⟨x⟩).steps = p.steps ++ [x] := by
  rw [join_eq p hx.noSlash, steps_below_append hp, steps_of_isStep hx]

theorem steps_join_nil (hp : p.text ≠ []) : (p.join "").steps = p.steps := by
  have h := steps_below_append hp []
  rw [List.append_nil] at h
  rw [join_nil, h]
  exact List.append_nil _

/-! ## Several steps -/

def follow (start : Path) (xs : List Text) : Path := xs.foldl (fun p x => p.join ⟨x⟩) start

theorem follow_append (start : Path) (xs ys : List Text) :
    start.follow (xs ++ ys) = (start.follow xs).follow ys :=
  List.foldl_append

theorem ofComponents_ofPiece (start : Path) (xs : List Text) :
    ofComponents start (xs.map .ofPiece) = start.follow xs := by
  have htext : ∀ x, (Component.ofPiece x).text = x := by
    intro x
    unfold Component.ofPiece
    split
    · rename_i hup
      rw [hup]
      rfl
    · rfl
  unfold ofComponents follow
  simp [List.foldl_map, htext]

section
variable {start : Path} (hstart : start.isAbsolute = true) {xs : List Text} (hxs : ∀ x ∈ xs, IsStep x)

include hstart in
theorem isAbsolute_follow : (start.follow xs).isAbsolute = true := by
  induction xs generalizing start with
  | nil => exact hstart
  | cons x xs ih => exact ih (isAbsolute_join hstart _)

include hstart hxs

theorem steps_follow : (start.follow xs).steps = start.steps ++ xs := by
  induction xs generalizing start with
  | nil => simp [follow]
  | cons x xs ih =>
    rw [List.forall_mem_cons] at hxs
    have hrest := ih (isAbsolute_join hstart ⟨x⟩) hxs.2
    rw [steps_join (ne_nil_of_isAbsolute hstart) hxs.1, List.append_assoc] at hrest
    exact hrest

theorem noDot_follow (hdot : ['.'] ∉ start.pieces) : ['.'] ∉ (start.follow xs).pieces := by
  induction xs generalizing start with
  | nil => exact hdot
  | cons x xs ih =>
    rw [List.forall_mem_cons] at hxs
    apply ih (isAbsolute_join hstart ⟨x⟩) hxs.2
    intro h
    rw [join_eq start hxs.1.noSlash] at h
    rcases mem_pieces_below_append (ne_nil_of_isAbsolute hstart) h with h | h
    · exact hdot h
    · rw [pieces_of_isStep hxs.1, List.mem_singleton] at h
      exact hxs.1.ne_dot h.symm

theorem text_follow (hne : xs ≠ []) : (start.follow xs).text = start.below ++ Text.joinWith ['/'] xs := by
  induction xs generalizing start with
  | nil => exact absurd rfl hne
  | cons x xs ih =>
    rw [List.forall_mem_cons] at hxs
    have hjoin := join_eq start hxs.1.noSlash
    cases xs with
    | nil =>
      show (start.join ⟨x⟩).text = _
      simp [hjoin, Text.joinWith]
    | cons y ys =>
      have habs := isAbsolute_join hstart ⟨x⟩
      calc ((start.join ⟨x⟩).follow (y :: ys)).text =
        (start.join ⟨x⟩).below ++ Text.joinWith ['/'] (y :: ys) :=
            ih habs hxs.2 (List.cons_ne_nil y ys)
        _ = start.below ++ Text.joinWith ['/'] (x :: y :: ys) := by
            rw [below_of_not_endsInSlash (ne_nil_of_isAbsolute habs) (not_endsInSlash_join start hxs.1),
              hjoin, Text.joinWith_cons_cons]
            simp

end

theorem not_endsInSlash_follow (start : Path) {xs : List Text} (hxs : ∀ x ∈ xs, IsStep x) (hne : xs ≠ []) :
    ¬ (start.follow xs).EndsInSlash := by
  obtain ⟨l, x, rfl⟩ := (List.eq_nil_or_concat xs).resolve_left hne
  rw [List.concat_eq_append] at hxs ⊢
  rw [follow_append]
  exact not_endsInSlash_join _ (hxs x (by simp))

/-! ## The absolute form -/

def StartsWithTwo (p : Path) : Prop := ['/', '/'] <+: p.text ∧ ¬ ['/', '/', '/'] <+: p.text

instance (p : Path) : Decidable p.StartsWithTwo := inferInstanceAs (Decidable (_ ∧ _))

def origin (directory p : Path) : Path :=
  if p.isAbsolute then if p.StartsWithTwo then "//" else "/" else directory

theorem steps_of_isAbsolute (h : p.isAbsolute = true) : p.steps.map .ofPiece = named p.tail := by
  rw [steps, pieces, splitOn_text, front_of_isAbsolute h]
  rfl

theorem components_of_isAbsolute (h : p.isAbsolute = true) :
    p.components = .root :: p.steps.map .ofPiece := by
  rw [components_eq, startComponents_of_absolute h, steps_of_isAbsolute h]
  rfl

theorem filter_components (h : p.isAbsolute = false) :
    p.components.filter (· ≠ .here) = p.steps.map .ofPiece := by
  have hnamed : ∀ l, (named l).filter (· ≠ .here) = named l := by
    intro l
    rw [List.filter_eq_self]
    intro c hc
    simp only [decide_eq_true_eq]
    rintro rfl
    exact here_not_mem_named l hc
  by_cases hhere : p.front = ['.']
  · have hstart : p.startComponents = [.here] := by
      rw [startComponents, h, hhere]
      rfl
    have hsteps : p.steps.map .ofPiece = named p.tail := by
      rw [steps, pieces, splitOn_text, hhere]
      rfl
    rw [components_eq, hstart, hsteps, List.filter_append, hnamed]
    rfl
  · rw [components_of_relative h hhere, hnamed]
    rfl

theorem absolute?_eq (directory : Path) (hp : p.text ≠ []) : absolute? directory p =
    some (if p.EndsInSlash then ((origin directory p).follow p.steps).join ""
      else (origin directory p).follow p.steps) := by
  unfold absolute?
  rw [if_neg hp]
  by_cases h : p.isAbsolute = true
  · rw [if_pos h, components_of_isAbsolute h]
    by_cases htwo : p.StartsWithTwo
    · have horigin : origin directory p = "//" := by rw [origin, if_pos h, if_pos htwo]
      rw [if_pos (by simpa [StartsWithTwo] using htwo), horigin, ← ofComponents_ofPiece]
      rfl
    · have horigin : origin directory p = "/" := by rw [origin, if_pos h, if_neg htwo]
      rw [if_neg (by simpa [StartsWithTwo] using htwo), horigin, ← ofComponents_ofPiece]
      rfl
  · have horigin : origin directory p = directory := by rw [origin, if_neg h]
    rw [if_neg h, filter_components (by simpa using h), horigin, ← ofComponents_ofPiece]
    rfl

theorem exists_absolute?_iff (directory : Path) : (∃ q, absolute? directory p = some q) ↔ p.text ≠ [] := by
  by_cases hp : p.text = []
  · simp [absolute?, hp]
  · simp [absolute?_eq directory hp, hp]

theorem eq_of_absolute? (h : absolute? directory p = some q) :
    q = if p.EndsInSlash then ((origin directory p).follow p.steps).join ""
      else (origin directory p).follow p.steps := by
  have hp := (exists_absolute?_iff directory).1 ⟨q, h⟩
  rw [absolute?_eq directory hp, Option.some.injEq] at h
  exact h.symm

/-- From the root, the second path leads where the first one leads from the directory: by the same
steps, so to the same directory in every file system. -/
structure FromRoot (directory p q : Path) : Prop where
  absolute : q.isAbsolute = true
  noDot : ['.'] ∉ q.pieces
  steps : q.steps = (if p.isAbsolute then [] else directory.steps) ++ p.steps
  slash : p.EndsInSlash → q.EndsInSlash
  noSlash : q.EndsInSlash → p.EndsInSlash ∨ p.steps = []
  leads : ∀ (fs : FileSystem) (links : Nat) (loc : Location),
    fs.walk true links [] q.pieces = .ok (.found loc .directory) ↔
    fs.walk true links [] ((if p.isAbsolute then [] else directory.pieces) ++ p.pieces) =
      .ok (.found loc .directory)

theorem isAbsolute_origin (h : directory.isAbsolute = true ∨ p.isAbsolute = true) :
    (origin directory p).isAbsolute = true := by
  unfold origin
  split
  · split <;> rfl
  · rename_i hp
    exact h.resolve_right hp

theorem noDot_origin (h : ['.'] ∉ directory.pieces) (p : Path) : ['.'] ∉ (origin directory p).pieces := by
  unfold origin
  split
  · split <;> decide
  · exact h

theorem steps_origin (directory p : Path) :
    (origin directory p).steps = if p.isAbsolute then [] else directory.steps := by
  unfold origin
  split
  · split <;> rfl
  · rfl

section
variable (hd : directory.isAbsolute = true) (h : absolute? directory p = some q)
include hd h

theorem steps_of_absolute? : q.steps = (if p.isAbsolute then [] else directory.steps) ++ p.steps := by
  have horigin := isAbsolute_origin (p := p) (.inl hd)
  have hsteps := steps_follow horigin p.isStep_steps
  rw [steps_origin] at hsteps
  rw [eq_of_absolute? h]
  split
  · rw [steps_join_nil (ne_nil_of_isAbsolute (isAbsolute_follow horigin)), hsteps]
  · exact hsteps

theorem noDot_of_absolute? (hdot : ['.'] ∉ directory.pieces) : ['.'] ∉ q.pieces := by
  have horigin := isAbsolute_origin (p := p) (.inl hd)
  have hpieces := noDot_follow horigin p.isStep_steps (noDot_origin hdot p)
  rw [eq_of_absolute? h]
  split
  · rw [join_nil]
    intro hmem
    rw [← List.append_nil (below _)] at hmem
    rcases mem_pieces_below_append (ne_nil_of_isAbsolute (isAbsolute_follow horigin)) hmem with hmem | hmem
    · exact hpieces hmem
    · exact absurd hmem (by decide)
  · exact hpieces

theorem endsInSlash_of_absolute? :
    (p.EndsInSlash → q.EndsInSlash) ∧ (q.EndsInSlash → p.EndsInSlash ∨ p.steps = []) := by
  have horigin := isAbsolute_origin (p := p) (.inl hd)
  rw [eq_of_absolute? h]
  by_cases hends : p.EndsInSlash
  · rw [if_pos hends, join_nil]
    exact ⟨fun _ => endsInSlash_below (ne_nil_of_isAbsolute (isAbsolute_follow horigin)), fun _ => .inl hends⟩
  · rw [if_neg hends]
    refine ⟨fun hends' => absurd hends' hends, fun hends' => .inr ?_⟩
    by_contra hsteps
    exact not_endsInSlash_follow _ p.isStep_steps hsteps hends'

/-- **The absolute form.** -/
theorem fromRoot_of_absolute? (hdot : ['.'] ∉ directory.pieces) : FromRoot directory p q where
  absolute := isAbsolute_of_absolute? hd h
  noDot := noDot_of_absolute? hd h hdot
  steps := steps_of_absolute? hd h
  slash := (endsInSlash_of_absolute? hd h).1
  noSlash := (endsInSlash_of_absolute? hd h).2
  leads := by
    intro fs links loc
    have hsame : (q.pieces.filter fun piece => !isIdle piece) =
        ((if p.isAbsolute then [] else directory.pieces) ++ p.pieces).filter fun piece => !isIdle piece := by
      rw [List.filter_append]
      refine Eq.trans (steps_of_absolute? hd h) ?_
      split <;> rfl
    exact ⟨FileSystem.walk_directory_congr hsame.symm, FileSystem.walk_directory_congr hsame⟩

end

/-! ## Absolute forms of absolute forms -/

def IsSettled (p : Path) : Prop := ∀ directory, absolute? directory p = some p

theorem startsWithTwo_below_append (hp : p.isAbsolute = true) {t : Text} (ht : '/' ∉ t) :
    StartsWithTwo ⟨p.below ++ t⟩ ↔ p.StartsWithTwo := by
  obtain ⟨r, hr⟩ := text_of_isAbsolute hp
  have hhead : ¬ ['/'] <+: t := fun h => ht (h.subset (List.mem_singleton_self _))
  obtain ⟨s⟩ := p
  dsimp only at hr
  subst hr
  -- the third character tells, which is one of the path unless the path is too short to have one
  match r with
  | [] => simp [StartsWithTwo, below, hhead]
  | ['/'] => simp [StartsWithTwo, below, hhead]
  | c :: d :: r =>
    unfold StartsWithTwo below
    split <;> simp
  | [c] =>
    by_cases hc : c = '/'
    · subst hc
      simp [StartsWithTwo, below, hhead]
    · simp [StartsWithTwo, below, hc, Ne.symm hc]

theorem origin_below_append (hp : p.isAbsolute = true) {t : Text} (ht : '/' ∉ t) (directory : Path) :
    origin directory ⟨p.below ++ t⟩ = origin directory p := by
  have habs : isAbsolute ⟨p.below ++ t⟩ = true := by
    have h := isAbsolute_join hp ⟨t⟩
    rwa [join_eq p ht] at h
  unfold origin
  simp only [habs, hp, startsWithTwo_below_append hp ht]

theorem isSettled_root : IsSettled "/" := by
  intro directory
  rw [absolute?_eq directory (by decide)]
  rfl

theorem isSettled_doubled : IsSettled "//" := by
  intro directory
  rw [absolute?_eq directory (by decide)]
  rfl

theorem IsSettled.join (h : IsSettled p) (hp : p.isAbsolute = true) (hx : IsStep x) :
    IsSettled (p.join ⟨x⟩) := by
  intro directory
  have hne := ne_nil_of_isAbsolute hp
  have habs := isAbsolute_join hp ⟨x⟩
  have hstart : (origin directory (p.join ⟨x⟩)) = origin directory p := by
    rw [join_eq p hx.noSlash, origin_below_append hp hx.noSlash]
  have hp' := h directory
  rw [absolute?_eq directory hne, Option.some.injEq] at hp'
  rw [absolute?_eq directory (ne_nil_of_isAbsolute habs), if_neg (not_endsInSlash_join p hx),
    hstart, steps_join hne hx, follow_append]
  show some (((origin directory p).follow p.steps).join ⟨x⟩) = some (p.join ⟨x⟩)
  by_cases hends : p.EndsInSlash
  · have hfollow : ((origin directory p).follow p.steps).text ≠ [] :=
      ne_nil_of_isAbsolute (isAbsolute_follow (isAbsolute_origin (.inr hp)))
    rw [if_pos hends] at hp'
    rw [← join_join_nil hfollow hx, hp']
  · rw [if_neg hends] at hp'
    rw [hp']

theorem IsSettled.join_nil (h : IsSettled p) (hp : p.isAbsolute = true) : IsSettled (p.join "") := by
  by_cases hends : p.EndsInSlash
  · rw [join_nil_of_endsInSlash hends]
    exact h
  · intro directory
    have hne := ne_nil_of_isAbsolute hp
    have habs := isAbsolute_join hp ""
    have hp' := h directory
    have hstart : origin directory (p.join "") = origin directory p := by
      have hslash := origin_below_append hp (t := []) List.not_mem_nil directory
      rw [List.append_nil] at hslash
      rw [Path.join_nil, hslash]
    rw [absolute?_eq directory hne, if_neg hends, Option.some.injEq] at hp'
    have hends' : (p.join "").EndsInSlash := by
      rw [Path.join_nil]
      exact endsInSlash_below hne
    rw [absolute?_eq directory (ne_nil_of_isAbsolute habs), if_pos hends', hstart, steps_join_nil hne, hp']

theorem IsSettled.follow {xs : List Text} (hxs : ∀ x ∈ xs, IsStep x) (h : IsSettled p)
    (hp : p.isAbsolute = true) :
    IsSettled (p.follow xs) := by
  induction xs generalizing p with
  | nil => exact h
  | cons x xs ih =>
    rw [List.forall_mem_cons] at hxs
    exact ih hxs.2 (h.join hp hxs.1) (isAbsolute_join hp ⟨x⟩)

/-- Paths from a directory without repeated slashes have none. -/
theorem isSettled_of_absolute? (hd : directory.isAbsolute = true) (hsettled : directory.IsSettled)
    (h : absolute? directory p = some q) : q.IsSettled := by
  have horigin : (origin directory p).IsSettled := by
    unfold origin
    split
    · split
      · exact isSettled_doubled
      · exact isSettled_root
    · exact hsettled
  have habs := isAbsolute_origin (p := p) (.inl hd)
  have hfollow := horigin.follow p.isStep_steps habs
  rw [eq_of_absolute? h]
  split
  · exact hfollow.join_nil (isAbsolute_follow habs)
  · exact hfollow

/-! ## Repeated slashes -/

/-- The paths differ in repeated slashes at most, which no comparison of paths sees. -/
structure Alike (p q : Path) : Prop where
  components : p.components = q.components
  slash : p.EndsInSlash ↔ q.EndsInSlash

theorem endsInSlash_of_steps (hp : p.isAbsolute = true) (hdot : ['.'] ∉ p.pieces) (h : p.steps = []) :
    p.EndsInSlash := by
  obtain ⟨l, c, hl⟩ := (List.eq_nil_or_concat p.text).resolve_left (ne_nil_of_isAbsolute hp)
  rw [List.concat_eq_append] at hl
  rw [EndsInSlash, hl, List.getLast?_concat, Option.some.injEq]
  by_contra hc
  have hmem : c ∈ Text.joinWith ['/'] p.pieces := by
    rw [pieces, Text.joinWith_splitOn, hl]
    simp
  rcases Text.mem_joinWith hmem with hslash | ⟨x, hx, hcx⟩
  · exact hc (List.mem_singleton.1 hslash)
  · have hidle : isIdle x = true := by simpa using List.filter_eq_nil_iff.1 h x hx
    have hx' : x = [] ∨ x = ['.'] := by simpa [isIdle] using hidle
    rcases hx' with rfl | rfl
    · cases hcx
    · exact hdot hx

theorem exists_alike (hp : p.isAbsolute = true) (hdot : ['.'] ∉ p.pieces) (directory : Path) :
    ∃ q, absolute? directory p = some q ∧ q.Alike p := by
  have hroot : absolute? directory p = absolute? "/" p := by simp [absolute?, hp]
  rw [hroot]
  obtain ⟨q, hq⟩ := (exists_absolute?_iff "/").2 (ne_nil_of_isAbsolute hp)
  have hd : ("/" : Path).isAbsolute = true := rfl
  have hfrom := fromRoot_of_absolute? hd hq (by decide)
  have hsteps := hfrom.steps
  rw [if_pos hp, List.nil_append] at hsteps
  refine ⟨q, hq, ?_, fun hends => ?_, hfrom.slash⟩
  · rw [components_of_isAbsolute hfrom.absolute, components_of_isAbsolute hp, hsteps]
  · rcases hfrom.noSlash hends with hends | hnone
    · exact hends
    · exact endsInSlash_of_steps hp hdot hnone

theorem slash_joinWith {xs : List Text} (hne : xs ≠ []) :
    '/' :: Text.joinWith ['/'] xs = xs.flatMap ('/' :: ·) := by
  induction xs with
  | nil => exact absurd rfl hne
  | cons x xs ih =>
    cases xs with
    | nil => simp [Text.joinWith]
    | cons y ys =>
      rw [Text.joinWith_cons_cons, List.flatMap_cons, ← ih (List.cons_ne_nil y ys)]
      simp

theorem isSettled_of_noDouble (hp : p.isAbsolute = true) (hdot : ['.'] ∉ p.pieces)
    (hdouble : ¬ ['/', '/'] <:+: p.text) :
    p.IsSettled := by
  obtain ⟨l, e, htail⟩ := (List.eq_nil_or_concat p.tail).resolve_left (tail_ne_nil hp)
  rw [List.concat_eq_append] at htail
  have htext : p.text = (l ++ [e]).flatMap ('/' :: ·) := by
    rw [text_eq_tail hp, slash_joinWith (tail_ne_nil hp), htail]
  have hmem : ∀ x ∈ l ++ [e], '/' ∉ x ∧ x ≠ ['.'] := by
    intro x hx
    rw [← htail] at hx
    refine ⟨noSlash_of_mem_tail hx, ?_⟩
    rintro rfl
    apply hdot
    rw [pieces, splitOn_text]
    exact List.mem_cons_of_mem _ hx
  have hl : ∀ x ∈ l, IsStep x := by
    intro x hx
    have hx' := hmem x (List.mem_append_left _ hx)
    have hne : x ≠ [] := by
      -- between two slashes there is something
      rintro rfl
      obtain ⟨a, b, rfl⟩ := List.append_of_mem hx
      apply hdouble
      obtain ⟨y, r, hr⟩ := List.exists_cons_of_ne_nil (List.concat_ne_nil e b)
      refine ⟨a.flatMap ('/' :: ·), y ++ r.flatMap ('/' :: ·), ?_⟩
      rw [htext, List.append_assoc a, List.cons_append, hr]
      simp
    exact ⟨hx'.1, by simp [isIdle, hne, hx'.2]⟩
  have hfollow : ∀ xs, (∀ x ∈ xs, IsStep x) → xs ≠ [] → (follow "/" xs).text = xs.flatMap ('/' :: ·) :=
    fun xs hxs hne =>
    (text_follow rfl hxs hne).trans (slash_joinWith hne)
  by_cases he : e = []
  · have hpath : p = (follow "/" l).join "" := by
      apply eq_of_text_eq
      rw [htext, he]
      by_cases hnil : l = []
      · subst hnil
        rfl
      · rw [join_nil, below_of_not_endsInSlash _ (not_endsInSlash_follow "/" hl hnil), hfollow l hl hnil]
        · simp
        · exact ne_nil_of_isAbsolute (isAbsolute_follow rfl)
    rw [hpath]
    exact (isSettled_root.follow hl rfl).join_nil (isAbsolute_follow rfl)
  · have hxs : ∀ x ∈ l ++ [e], IsStep x := by
      have he' := hmem e (by simp)
      have hstep : IsStep e := ⟨he'.1, by simp [isIdle, he, he'.2]⟩
      simpa [or_imp, forall_and] using ⟨hl, hstep⟩
    have hpath : p = follow "/" (l ++ [e]) := by
      apply eq_of_text_eq
      rw [htext, hfollow _ hxs (by simp)]
    rw [hpath]
    exact isSettled_root.follow hxs rfl

end Path

end TriBench
