import TriBench.Path.Basic
import TriBench.Proofs.Text.Pieces

/-!
# Names in a directory

A directory that is joined with a name has the components of the directory and then the name, and from the
directory only the name is seen. Main statements: `components_join`, `stripPrefix?_join` and
`replaceExtension_join`, where the extension of a name that has one gives way to the new one.
-/

namespace TriBench

namespace Path

/-! ## Names -/

/-- A text that stands for itself as a component. -/
structure IsName (n : Text) : Prop where
  ne_nil : n ≠ []
  noSlash : '/' ∉ n
  ne_here : n ≠ ['.']
  ne_up : n ≠ ['.', '.']

instance (n : Text) : Decidable (IsName n) :=
  decidable_of_iff (n ≠ [] ∧ '/' ∉ n ∧ n ≠ ['.'] ∧ n ≠ ['.', '.'])
    ⟨fun h => ⟨h.1, h.2.1, h.2.2.1, h.2.2.2⟩, fun h => ⟨h.ne_nil, h.noSlash, h.ne_here, h.ne_up⟩⟩

theorem IsName.isIdle_eq {n : Text} (h : IsName n) : isIdle n = false := by
  simp [isIdle, h.ne_nil, h.ne_here]

theorem IsName.ofPiece_eq {n : Text} (h : IsName n) : Component.ofPiece n = .name n := if_neg h.ne_up

def stem (n : Text) : Text := (splitName n).1

theorem splitName_dotted {s e : Text} (hs : s ≠ []) (he : '.' ∉ e) :
    splitName (s ++ '.' :: e) = (s, some e) := by
  have hne : ∀ c ∈ e.reverse, decide (c ≠ '.') = true := by
    intro c hc
    rw [decide_eq_true_eq]
    rintro rfl
    exact he (List.mem_reverse.1 hc)
  have hreverse : (s ++ '.' :: e).reverse = e.reverse ++ '.' :: s.reverse := by simp
  have hdrop : (s ++ '.' :: e).reverse.dropWhile (· ≠ '.') = '.' :: s.reverse := by
    rw [hreverse, List.dropWhile_append_of_pos hne]
    simp
  have htake : (s ++ '.' :: e).reverse.takeWhile (· ≠ '.') = e.reverse := by
    rw [hreverse, List.takeWhile_append_of_pos hne]
    simp
  unfold splitName
  rw [hdrop, htake, List.reverse_reverse]
  cases hb : s.reverse with
  | nil => exact absurd (List.reverse_eq_nil_iff.1 hb) hs
  | cons b before =>
    dsimp only
    rw [← hb, List.reverse_reverse]

theorem splitName_of_not_mem {n : Text} (h : '.' ∉ n.tail) : splitName n = (n, none) := by
  cases n with
  | nil => rfl
  | cons c r =>
    have hne : ∀ c ∈ r.reverse, decide (c ≠ '.') = true := by
      intro c hc
      rw [decide_eq_true_eq]
      rintro rfl
      exact h (List.mem_reverse.1 hc)
    unfold splitName
    rw [List.reverse_cons, List.dropWhile_append_of_pos hne]
    by_cases hc : c = '.' <;> simp [hc]

/-- A name has an extension iff there is a dot after its first character. -/
theorem splitName_cases (n : Text) :
    '.' ∉ n.tail ∧ splitName n = (n, none) ∨
      ∃ s e, n = s ++ '.' :: e ∧ s ≠ [] ∧ '.' ∉ e ∧ splitName n = (s, some e) := by
  by_cases h : '.' ∈ n.tail
  · right
    cases n with
    | nil => cases h
    | cons c r =>
      obtain ⟨e, u, hr, he⟩ := List.eq_append_cons_of_mem (List.mem_reverse.2 h)
      have hsplit : c :: r = (c :: u.reverse) ++ '.' :: e.reverse := by
        have := congrArg List.reverse hr
        simp at this
        simp [this]
      have he' : '.' ∉ e.reverse := fun hmem => he (List.mem_reverse.1 hmem)
      refine ⟨c :: u.reverse, e.reverse, hsplit, List.cons_ne_nil _ _, he', ?_⟩
      rw [hsplit]
      exact splitName_dotted (List.cons_ne_nil _ _) he'
  · exact .inl ⟨h, splitName_of_not_mem h⟩

theorem stem_eq_self_iff {n : Text} : stem n = n ↔ '.' ∉ n.tail := by
  constructor
  · intro h
    rcases splitName_cases n with ⟨hdot, -⟩ | ⟨s, e, hn, -, -, hsplit⟩
    · exact hdot
    · rw [stem, hsplit] at h
      rw [← h] at hn
      simp at hn
  · intro h
    rw [stem, splitName_of_not_mem h]

theorem stem_ne_nil {n : Text} (h : n ≠ []) : stem n ≠ [] := by
  rcases splitName_cases n with ⟨-, hsplit⟩ | ⟨s, e, -, hs, -, hsplit⟩ <;> rw [stem, hsplit]
  · exact h
  · exact hs

theorem stem_isPrefix (n : Text) : stem n <+: n := by
  rcases splitName_cases n with ⟨hdot, -⟩ | ⟨s, e, hn, -, -, hsplit⟩
  · exact ⟨[], by rw [List.append_nil, stem_eq_self_iff.2 hdot]⟩
  · exact ⟨'.' :: e, by rw [stem, hsplit, hn]⟩

def dotted (s e : Text) : Text := s ++ '.' :: e

structure IsExtension (e : Text) : Prop where
  ne_nil : e ≠ []
  noSlash : '/' ∉ e

theorem isName_dotted {s e : Text} (hs : s ≠ []) (hs' : '/' ∉ s) (he : IsExtension e) :
    IsName (dotted s e) := by
  obtain ⟨hne, he'⟩ := he
  obtain ⟨c, r, rfl⟩ := List.exists_cons_of_ne_nil hs
  obtain ⟨d, u, rfl⟩ := List.exists_cons_of_ne_nil hne
  refine ⟨List.cons_ne_nil _ _, ?_, ?_, ?_⟩
  · simp only [dotted, List.mem_append, List.mem_cons, not_or] at hs' he' ⊢
    exact ⟨hs', by decide, he'⟩
  · intro h
    have := congrArg List.length h
    simp [dotted] at this
  · intro h
    have := congrArg List.length h
    simp [dotted] at this
    omega

/-- A name of a file that takes any extension. If the stem were a single dot, there would be no name
left without the extension. -/
structure TakesExtension (n : Text) : Prop where
  ne_nil : n ≠ []
  noSlash : '/' ∉ n
  stem_ne : stem n ≠ ['.']

theorem takesExtension_of_undotted {n : Text} (hne : n ≠ []) (hslash : '/' ∉ n) (hdot : '.' ∉ n) :
    TakesExtension n := by
  refine ⟨hne, hslash, fun hstem => hdot ?_⟩
  apply (stem_isPrefix n).subset
  rw [hstem]
  exact List.mem_singleton_self _

theorem TakesExtension.isName {n : Text} (h : TakesExtension n) : IsName n where
  ne_nil := h.ne_nil
  noSlash := h.noSlash
  ne_here hn := h.stem_ne (by rw [hn]; decide)
  ne_up hn := h.stem_ne (by rw [hn]; decide)

theorem TakesExtension.isName_dotted {n e : Text} (h : TakesExtension n) (he : IsExtension e) :
    IsName (dotted (stem n) e) :=
  Path.isName_dotted (stem_ne_nil h.ne_nil) (fun hmem => h.noSlash ((stem_isPrefix n).subset hmem)) he

theorem stem_dotted {s e : Text} (hs : s ≠ []) (he : '.' ∉ e) : stem (dotted s e) = s := by
  rw [stem, dotted, splitName_dotted hs he]

theorem TakesExtension.dotted {n e : Text} (h : TakesExtension n) (he : IsExtension e) (hdot : '.' ∉ e) :
    TakesExtension (dotted (stem n) e) where
  ne_nil := (h.isName_dotted he).ne_nil
  noSlash := (h.isName_dotted he).noSlash
  stem_ne := by rw [stem_dotted (stem_ne_nil h.ne_nil) hdot]; exact h.stem_ne

/-! ## The pieces of a path -/

/-- What `join` puts before a name. -/
def below (p : Path) : Text :=
  if p.text = [] ∨ p.text.getLast? = some '/' then p.text else p.text ++ ['/']

theorem join_of_relative (p : Path) {q : Path} (h : q.isAbsolute = false) :
    p.join q = ⟨p.below ++ q.text⟩ := by
  unfold join below
  rw [h, if_neg Bool.false_ne_true]
  split
  · rfl
  · simp

theorem isAbsolute_of_no_slash {n : Text} (h : '/' ∉ n) : isAbsolute ⟨n⟩ = false := by
  rw [isAbsolute, decide_eq_false_iff_not]
  intro hhead
  exact h (List.mem_of_mem_head? hhead)

theorem join_eq (p : Path) {n : Text} (h : '/' ∉ n) : p.join ⟨n⟩ = ⟨p.below ++ n⟩ :=
  join_of_relative p (isAbsolute_of_no_slash h)

theorem splitOn_text (p : Path) : Text.splitOn '/' p.text = p.front :: p.tail :=
  Text.splitOn_eq_cons '/' p.text

structure Extends (q p : Path) (n : Text) (pieces : List Text) : Prop where
  front : q.front = p.front
  absolute : q.isAbsolute = p.isAbsolute
  tail : q.tail = pieces ++ [n]
  idle : ∃ idle, p.tail = pieces ++ idle ∧ ∀ x ∈ idle, isIdle x = true

theorem below_eq {p : Path} (hp : p.text ≠ []) :
    ∃ u, p.below = u ++ ['/'] ∧ (p.text = u ++ ['/'] ∨ p.text = u) := by
  unfold below
  by_cases hl : p.text.getLast? = some '/'
  · obtain ⟨u, hu⟩ := List.getLast?_eq_some_iff.1 hl
    rw [if_pos (.inr hl)]
    exact ⟨u, hu, .inl hu⟩
  · rw [if_neg (by simp [hp, hl])]
    exact ⟨p.text, rfl, .inr rfl⟩

theorem pieces_append (u t : Text) :
    front ⟨u ++ '/' :: t⟩ = front ⟨u⟩ ∧ tail ⟨u ++ '/' :: t⟩ = tail ⟨u⟩ ++ Text.splitOn '/' t := by
  have hcons := splitOn_text ⟨u ++ '/' :: t⟩
  rw [Text.splitOn_append, splitOn_text ⟨u⟩] at hcons
  obtain ⟨hfront, htail⟩ := List.cons.inj hcons
  exact ⟨hfront.symm, htail.symm⟩

theorem join_extends {p : Path} (hp : p.text ≠ []) {n : Text} (h : '/' ∉ n) :
    ∃ pieces, Extends (p.join ⟨n⟩) p n pieces := by
  obtain ⟨u, hu, hp'⟩ := below_eq hp
  obtain ⟨hfront, htail⟩ := pieces_append u n
  rw [Text.splitOn_of_not_mem h] at htail
  rw [join_eq p h, hu, List.append_assoc, List.singleton_append]
  obtain ⟨t⟩ := p
  refine ⟨tail ⟨u⟩, ?_⟩
  -- a slash at the end of the directory is an empty piece of its own, but not one of the joined path
  rcases hp' with rfl | rfl
  · obtain ⟨hfront', htail'⟩ := pieces_append u []
    refine ⟨hfront.trans hfront'.symm, ?_, htail, [[]], htail', by simp [isIdle]⟩
    cases u <;> rfl
  · refine ⟨hfront, ?_, htail, [], by simp, by simp⟩
    cases t with
    | nil => exact absurd rfl hp
    | cons c r => rfl

/-! ## Components -/

theorem startComponents_of_extends {p q : Path} {n : Text} {pieces : List Text} (h : Extends q p n pieces) :
    q.startComponents = p.startComponents := by
  rw [startComponents, startComponents, h.front, h.absolute]

/-- The named pieces of the directory. -/
theorem Extends.filter_tail {p q : Path} {n : Text} {pieces : List Text} (h : Extends q p n pieces) :
    p.tail.filter (fun piece => !isIdle piece) = pieces.filter fun piece => !isIdle piece := by
  obtain ⟨idle, htail, hidle⟩ := h.idle
  have hdrop : idle.filter (fun piece => !isIdle piece) = [] := by
    rw [List.filter_eq_nil_iff]
    intro x hx
    simp [hidle x hx]
  rw [htail, List.filter_append, hdrop, List.append_nil]

theorem noSlash_front (p : Path) : '/' ∉ p.front := by
  have hmem : p.front ∈ Text.splitOn '/' p.text := by
    rw [splitOn_text]
    exact List.mem_cons_self ..
  exact Text.not_mem_of_mem_splitOn hmem

theorem noSlash_of_mem_tail {p : Path} {x : Text} (h : x ∈ p.tail) : '/' ∉ x :=
  Text.not_mem_of_mem_splitOn (List.mem_of_mem_tail h)

theorem eq_of_ofPiece_eq {piece n : Text} (h : Component.ofPiece piece = .name n) : piece = n := by
  unfold Component.ofPiece at h
  split at h <;> cases h
  rfl

theorem noSlash_of_mem_components {p : Path} {n : Text} (h : .name n ∈ p.components) : n ≠ [] ∧ '/' ∉ n := by
  rcases List.mem_append.1 h with h | h
  · unfold startComponents at h
    split at h
    · cases List.mem_singleton.1 h
    · split at h
      · cases h
      · rename_i hne
        split at h
        · cases List.mem_singleton.1 h
        · rw [← eq_of_ofPiece_eq (List.mem_singleton.1 h).symm]
          exact ⟨hne, noSlash_front p⟩
  · obtain ⟨piece, hmem, hp⟩ := List.mem_map.1 h
    obtain ⟨hmem, hidle⟩ := List.mem_filter.1 hmem
    rw [← eq_of_ofPiece_eq hp]
    refine ⟨?_, noSlash_of_mem_tail hmem⟩
    rintro rfl
    simp [isIdle] at hidle

theorem mem_components_of_fileName? {p : Path} {n : Text} (h : p.fileName? = some n) :
    .name n ∈ p.components := by
  unfold fileName? at h
  split at h
  · rename_i m hlast
    cases h
    exact List.mem_of_getLast? hlast
  · cases h

theorem noSlash_of_fileStem? {p : Path} {s : Text} (h : p.fileStem? = some s) : '/' ∉ s := by
  obtain ⟨n, hn, rfl⟩ := Option.map_eq_some_iff.1 h
  intro hslash
  exact (noSlash_of_mem_components (mem_components_of_fileName? hn)).2 ((stem_isPrefix _).subset hslash)

theorem components_of_text_eq_nil {p : Path} (h : p.text = []) : p.components = [] := by
  obtain ⟨t⟩ := p
  subst h
  rfl

theorem front_of_no_slash {n : Text} (h : '/' ∉ n) : front ⟨n⟩ = n := by
  have := splitOn_text ⟨n⟩
  rw [Text.splitOn_of_not_mem h] at this
  exact (List.cons.inj this).1.symm

theorem tail_of_no_slash {n : Text} (h : '/' ∉ n) : tail ⟨n⟩ = [] := by
  rw [tail, Text.splitOn_of_not_mem h]
  rfl

theorem components_name {n : Text} (h : IsName n) : components ⟨n⟩ = [.name n] := by
  have hstart : startComponents ⟨n⟩ = [.name n] := by
    simp only [startComponents, isAbsolute_of_no_slash h.noSlash,
      front_of_no_slash h.noSlash, h.ne_nil, h.ne_here, h.ofPiece_eq, Bool.false_eq_true, if_false]
  rw [components, hstart, tail_of_no_slash h.noSlash]
  rfl

theorem join_of_text_eq_nil {p : Path} (hp : p.text = []) {n : Text} (h : '/' ∉ n) : p.join ⟨n⟩ = ⟨n⟩ := by
  rw [join_eq p h, below, if_pos (.inl hp), hp]
  rfl

theorem components_join (p : Path) {n : Text} (h : IsName n) :
    (p.join ⟨n⟩).components = p.components ++ [.name n] := by
  by_cases hp : p.text = []
  · rw [join_of_text_eq_nil hp h.noSlash, components_name h, components_of_text_eq_nil hp]
    rfl
  · obtain ⟨pieces, hq⟩ := join_extends hp h.noSlash
    have hkeep : [n].filter (fun piece => !isIdle piece) = [n] := by
      simp [h.isIdle_eq]
    rw [components, components, startComponents_of_extends hq, hq.tail, hq.filter_tail,
      List.filter_append, hkeep, List.map_append, ← List.append_assoc, List.map_singleton, h.ofPiece_eq]

theorem fileName?_join (p : Path) {n : Text} (h : IsName n) : (p.join ⟨n⟩).fileName? = some n := by
  rw [fileName?, components_join p h, List.getLast?_concat]

theorem dropIdleEnd_concat (pieces : List Text) {n : Text} (h : isIdle n = false) :
    dropIdleEnd (pieces ++ [n]) = pieces ++ [n] := by
  simp [dropIdleEnd, h]

theorem trimmed_join (p : Path) {n : Text} (h : IsName n) : (p.join ⟨n⟩).trimmed = p.join ⟨n⟩ := by
  have hwhole : ∀ q : Path, (⟨Text.joinWith ['/'] (q.front :: q.tail)⟩ : Path) = q := by
    intro q
    rw [← splitOn_text, Text.joinWith_splitOn]
  by_cases hp : p.text = []
  · have hd : dropIdleEnd [] = [] := rfl
    rw [join_of_text_eq_nil hp h.noSlash, trimmed, tail_of_no_slash h.noSlash, hd, withTail,
      isAbsolute_of_no_slash h.noSlash, if_neg (by simp), ← tail_of_no_slash h.noSlash]
    exact hwhole ⟨n⟩
  · obtain ⟨pieces, hq⟩ := join_extends hp h.noSlash
    rw [trimmed, hq.tail, dropIdleEnd_concat pieces h.isIdle_eq, withTail, if_neg (by simp), ← hq.tail]
    exact hwhole _

/-! ## Extensions -/

def suffixed (s e : Text) : Text := s ++ if e = [] then [] else '.' :: e

theorem suffixed_of_ne_nil {s e : Text} (h : e ≠ []) : suffixed s e = dotted s e := by
  rw [suffixed, if_neg h, dotted]

theorem suffixed_nil (s : Text) : suffixed s [] = s := by
  rw [suffixed, if_pos rfl, List.append_nil]

theorem noSlash_suffixed {s e : Text} (hs : '/' ∉ s) (he : '/' ∉ e) : '/' ∉ suffixed s e := by
  unfold suffixed
  split <;> simp [hs, he]

theorem IsName.suffixed {n e : Text} (h : IsName n) (he : '/' ∉ e) : IsName (suffixed n e) := by
  by_cases hne : e = []
  · rw [hne, suffixed_nil]
    exact h
  · rw [suffixed_of_ne_nil hne]
    exact isName_dotted h.ne_nil h.noSlash ⟨hne, he⟩

theorem setExtension_join (p : Path) {n : Text} (h : IsName n) (e : Text) :
    (p.join ⟨n⟩).setExtension e = ⟨p.below ++ suffixed (stem n) e⟩ := by
  have htake : (p.below ++ n).take ((p.below ++ n).length - (n.length - (stem n).length)) =
      p.below ++ stem n := by
    obtain ⟨rest, hn⟩ := stem_isPrefix n
    have hlength : (p.below ++ n).length - (n.length - (stem n).length) = (p.below ++ stem n).length := by
      have := congrArg List.length hn
      simp only [List.length_append] at this ⊢
      omega
    have hsplit : p.below ++ n = (p.below ++ stem n) ++ rest := by rw [List.append_assoc, hn]
    rw [hlength, hsplit, List.take_left]
  unfold setExtension
  rw [fileName?_join p h]
  dsimp only
  rw [trimmed_join p h, join_eq p h.noSlash]
  change (⟨(p.below ++ n).take ((p.below ++ n).length - (n.length - (stem n).length)) ++ _⟩ : Path) = _
  rw [htake, suffixed, List.append_assoc]

theorem extension?_join (p : Path) {n : Text} (h : IsName n) : (p.join ⟨n⟩).extension? = (splitName n).2 := by
  rw [extension?, fileName?_join p h]
  rfl

theorem TakesExtension.noSlash_suffixed {n e : Text} (h : TakesExtension n) (he : '/' ∉ e) :
    '/' ∉ suffixed (stem n) e :=
  Path.noSlash_suffixed (fun hmem => h.noSlash ((stem_isPrefix n).subset hmem)) he

/-- A new extension takes the place of the old one. -/
theorem replaceExtension_join (p : Path) {n e : Text} (h : TakesExtension n) (he : '/' ∉ e) :
    (p.join ⟨n⟩).replaceExtension e = p.join ⟨suffixed (stem n) e⟩ := by
  have hslash := h.noSlash_suffixed he
  unfold replaceExtension
  rw [extension?_join p h.isName]
  rcases splitName_cases n with ⟨-, hsplit⟩ | ⟨s, old, hdot, hne, hold, hsplit⟩ <;> rw [hsplit]
  · dsimp only
    rw [setExtension_join p h.isName, join_eq p hslash]
  · -- what is left of the name ends in its dot, so its stem is that of the whole name
    have hstem : stem n = s := by rw [stem, hsplit]
    rw [hstem] at hslash ⊢
    have hslash' : '/' ∉ s ++ ['.'] := by
      intro hmem
      apply h.noSlash
      rw [hdot]
      exact List.mem_append_left _ (by simpa using hmem)
    have hstem' : stem (s ++ ['.']) = s := stem_dotted hne List.not_mem_nil
    have hcutName : IsName (s ++ ['.']) :=
      TakesExtension.isName ⟨by simp, hslash', by rw [hstem', ← hstem]; exact h.stem_ne⟩
    have hcut : (⟨(p.join ⟨n⟩).text.take ((p.join ⟨n⟩).text.length - old.length)⟩ : Path) =
        p.join ⟨s ++ ['.']⟩ := by
      have hwhole : p.below ++ n = (p.below ++ (s ++ ['.'])) ++ old := by simp [hdot]
      rw [join_eq p h.noSlash, join_eq p hslash', hwhole, List.length_append,
        Nat.add_sub_cancel, List.take_left]
    dsimp only
    rw [hcut, setExtension_join p hcutName, hstem', join_eq p hslash]

theorem replaceExtension_name {n e : Text} (h : TakesExtension n) (he : IsExtension e) :
    replaceExtension ⟨n⟩ e = ⟨dotted (stem n) e⟩ := by
  have hjoin := replaceExtension_join ⟨[]⟩ h he.noSlash
  rwa [suffixed_of_ne_nil he.ne_nil, join_of_text_eq_nil rfl h.noSlash,
    join_of_text_eq_nil rfl (h.isName_dotted he).noSlash] at hjoin

/-! ## The path from a directory -/

theorem stripPieces_cons_idle {x : Text} (hx : isIdle x = true) (c : Component) (cs : List Component)
    (pieces : List Text) :
    stripPieces (c :: cs) (x :: pieces) = stripPieces (c :: cs) pieces := by
  rw [stripPieces, stripPieces, List.dropWhile_cons_of_pos hx]

/-- What is left of pieces of which the named ones are taken away begins with idle ones. -/
theorem stripPieces_named (pieces more : List Text) :
    ∃ idle, stripPieces ((pieces.filter fun piece => !isIdle piece).map Component.ofPiece) (pieces ++ more) =
      some (idle ++ more) ∧ ∀ x ∈ idle, isIdle x = true := by
  induction pieces with
  | nil => exact ⟨[], rfl, by simp⟩
  | cons x pieces ih =>
    by_cases hx : isIdle x = true
    · rw [List.filter_cons_of_neg (by simp [hx])]
      cases hcs : (pieces.filter fun piece => !isIdle piece).map Component.ofPiece with
      | nil =>
        refine ⟨x :: pieces, rfl, fun y hy => ?_⟩
        rcases List.mem_cons.1 hy with rfl | hy
        · exact hx
        · have := List.filter_eq_nil_iff.1 (List.map_eq_nil_iff.1 hcs) y hy
          simpa using this
      | cons c cs =>
        rw [List.cons_append, stripPieces_cons_idle hx, ← hcs]
        exact ih
    · rw [List.filter_cons_of_pos (by simp [hx]), List.map_cons, List.cons_append, stripPieces,
        List.dropWhile_cons_of_neg hx]
      dsimp only
      rw [if_pos rfl]
      exact ih

theorem exists_startComponents {p : Path} (hp : p.text ≠ []) : ∃ c, p.startComponents = [c] := by
  unfold startComponents
  by_cases ha : p.isAbsolute = true
  · exact ⟨.root, if_pos ha⟩
  · have hfront : p.front ≠ [] := by
      obtain ⟨_ | ⟨c, r⟩⟩ := p
      · exact absurd rfl hp
      · have hc : c ≠ '/' := by simpa [isAbsolute] using ha
        simp [front, hc]
    rw [if_neg ha, if_neg hfront]
    split
    · exact ⟨.here, rfl⟩
    · exact ⟨_, rfl⟩

theorem stripPrefix?_join (p : Path) {n : Text} (h : IsName n) : (p.join ⟨n⟩).stripPrefix? p = some ⟨n⟩ := by
  by_cases hp : p.text = []
  · rw [stripPrefix?, components_of_text_eq_nil hp]
    dsimp only
    rw [trimmed_join p h, join_of_text_eq_nil hp h.noSlash]
  · obtain ⟨c, hstart⟩ := exists_startComponents hp
    obtain ⟨pieces, hq⟩ := join_extends hp h.noSlash
    have hcomponents : p.components =
        c :: (pieces.filter fun piece => !isIdle piece).map Component.ofPiece := by
      rw [components, hstart, hq.filter_tail]
      rfl
    obtain ⟨left, hleft, hleftIdle⟩ := stripPieces_named pieces [n]
    have hn : (left ++ [n]).dropWhile isIdle = [n] := by
      rw [List.dropWhile_append_of_pos hleftIdle]
      simp [h.isIdle_eq]
    rw [stripPrefix?, hcomponents]
    dsimp only
    rw [startComponents_of_extends hq, if_pos hstart, hq.tail, hleft, Option.map_some, hn]
    simp [dropIdleEnd, h.isIdle_eq, Text.joinWith]

end Path

end TriBench
