import TriBench.Proofs.Path.Names

/-!
# Paths by their pieces

A relative path adds the components of its pieces to what it is joined to, and seen from a directory that a
path starts with, the rest of its components is left. Main statements: `components_join_relative`,
`exists_stripPrefix?` and `replaceExtension_dotted`, which names the two files that have no stem left.
-/

namespace TriBench

namespace Path

/-! ## Components of pieces -/

def named (pieces : List Text) : List Component := (pieces.filter fun piece => !isIdle piece).map .ofPiece

theorem components_eq (p : Path) : p.components = p.startComponents ++ named p.tail := rfl

@[simp] theorem named_nil : named [] = [] := rfl

@[simp] theorem named_append (a b : List Text) : named (a ++ b) = named a ++ named b := by
  simp [named]

theorem named_of_idle {pieces : List Text} (h : ∀ x ∈ pieces, isIdle x = true) : named pieces = [] := by
  rw [named, List.map_eq_nil_iff, List.filter_eq_nil_iff]
  intro x hx
  simp [h x hx]

theorem named_singleton {x : Text} (h : isIdle x = false) : named [x] = [.ofPiece x] := by
  simp [named, h]

theorem named_cons (x : Text) (pieces : List Text) : named (x :: pieces) = named [x] ++ named pieces :=
  named_append [x] pieces

theorem named_dropWhile (pieces : List Text) : named (pieces.dropWhile isIdle) = named pieces := by
  induction pieces with
  | nil => rfl
  | cons x pieces ih =>
    by_cases hx : isIdle x = true
    · have hidle : named [x] = [] := named_of_idle (by simp [hx])
      rw [List.dropWhile_cons_of_pos hx, ih, named_cons x, hidle, List.nil_append]
    · rw [List.dropWhile_cons_of_neg hx]

/-- Pieces lead to names and upwards. -/
theorem mem_named {c : Component} {pieces : List Text} (h : c ∈ named pieces) :
    c = .up ∨ ∃ n, c = .name n := by
  obtain ⟨x, -, rfl⟩ := List.mem_map.1 h
  unfold Component.ofPiece
  split
  · exact .inl rfl
  · exact .inr ⟨x, rfl⟩

theorem here_not_mem_named (pieces : List Text) : .here ∉ named pieces := by
  intro h
  rcases mem_named h with h | ⟨n, h⟩ <;> cases h

theorem root_not_mem_named (pieces : List Text) : .root ∉ named pieces := by
  intro h
  rcases mem_named h with h | ⟨n, h⟩ <;> cases h

/-! ## Relative paths -/

theorem startComponents_of_absolute {p : Path} (h : p.isAbsolute = true) :
    p.startComponents = [.root] := if_pos h

theorem components_of_relative {q : Path} (hq : q.isAbsolute = false) (hhere : q.front ≠ ['.']) :
    q.components = named (Text.splitOn '/' q.text) := by
  rw [components_eq, splitOn_text, named_cons]
  congr 1
  unfold startComponents
  rw [hq, if_neg Bool.false_ne_true]
  by_cases hfront : q.front = []
  · rw [if_pos hfront, hfront]
    rfl
  · rw [if_neg hfront, if_neg hhere, named_singleton]
    simp [isIdle, hfront, hhere]

theorem isAbsolute_join {p : Path} (h : p.isAbsolute = true) (q : Path) : (p.join q).isAbsolute = true := by
  have hhead : p.text.head? = some '/' := by simpa [isAbsolute] using h
  unfold join
  split
  · assumption
  · split <;> simp [isAbsolute, List.head?_append, hhead]

theorem ne_nil_of_isAbsolute {p : Path} (h : p.isAbsolute = true) : p.text ≠ [] := by
  intro hp
  simp [isAbsolute, hp] at h

/-- A relative path goes on from the path that it is joined to by its pieces. -/
theorem components_join_relative {p q : Path} (hp : p.text ≠ []) (hq : q.isAbsolute = false) :
    (p.join q).components = p.components ++ named (Text.splitOn '/' q.text) := by
  obtain ⟨u, hu, hp'⟩ := below_eq hp
  obtain ⟨hfront, htail⟩ := pieces_append u q.text
  rw [join_of_relative p hq, hu, List.append_assoc, List.singleton_append]
  obtain ⟨t⟩ := p
  rcases hp' with rfl | rfl
  · obtain ⟨hfront', htail'⟩ := pieces_append u []
    have habs : isAbsolute ⟨u ++ '/' :: q.text⟩ = isAbsolute ⟨u ++ ['/']⟩ := by cases u <;> rfl
    have hidle : named (Text.splitOn '/' []) = [] := rfl
    simp only [components_eq, startComponents, habs, hfront, hfront', htail, htail', named_append,
      hidle, List.append_nil, List.append_assoc]
  · have habs : isAbsolute ⟨t ++ '/' :: q.text⟩ = isAbsolute ⟨t⟩ := by
      cases t with
      | nil => exact absurd rfl hp
      | cons c r => rfl
    simp only [components_eq, startComponents, habs, hfront, htail, named_append, List.append_assoc]

/-- What a directory is joined with shows as its last component. -/
theorem components_join_piece (u : Path) {x : Text} (hx : '/' ∉ x) (hidle : isIdle x = false) :
    (u.join ⟨x⟩).components = u.components ++ [.ofPiece x] := by
  have hrel := isAbsolute_of_no_slash hx
  by_cases hu : u.text = []
  · have hhere : front ⟨x⟩ ≠ ['.'] := by
      rw [front_of_no_slash hx]
      rintro rfl
      simp [isIdle] at hidle
    rw [join_of_text_eq_nil hu hx, components_of_text_eq_nil hu, components_of_relative hrel hhere,
      Text.splitOn_of_not_mem hx, named_singleton hidle]
    rfl
  · rw [components_join_relative hu hrel, Text.splitOn_of_not_mem hx, named_singleton hidle]

theorem isAbsolute_eq_false {p : Path} (h : .root ∉ p.components) : p.isAbsolute = false := by
  rw [Bool.eq_false_iff]
  intro habs
  apply h
  rw [components_eq, startComponents_of_absolute habs]
  exact List.mem_cons_self ..

theorem front_ne_here {p : Path} (h : .here ∉ p.components) : p.front ≠ ['.'] := by
  intro hfront
  have habs : p.isAbsolute = false := by
    rw [Bool.eq_false_iff]
    intro habs
    obtain ⟨_ | ⟨c, r⟩⟩ := p
    · cases hfront
    · have hc : c = '/' := by simpa [isAbsolute] using habs
      subst hc
      cases hfront
  apply h
  rw [components_eq, startComponents, habs, hfront]
  exact List.mem_cons_self ..

/-- A path of names and upward steps adds its components. -/
theorem components_join_of_pieces {p q : Path} (hp : p.text ≠ []) {pieces : List Text}
    (hq : q.components = named pieces) : (p.join q).components = p.components ++ q.components := by
  have hrel : q.isAbsolute = false := isAbsolute_eq_false (by rw [hq]; exact root_not_mem_named pieces)
  have hhere : q.front ≠ ['.'] := front_ne_here (by rw [hq]; exact here_not_mem_named pieces)
  rw [components_join_relative hp hrel, components_of_relative hrel hhere]

/-! ## The rest of a path -/

theorem stripPieces_eq_some {cs rest : List Component} {pieces : List Text} (h : named pieces = cs ++ rest) :
    ∃ left, stripPieces cs pieces = some left ∧ named left = rest ∧ left <:+ pieces := by
  induction cs generalizing pieces with
  | nil => exact ⟨pieces, rfl, h, List.suffix_refl pieces⟩
  | cons c cs ih =>
    have hsuffix : pieces.dropWhile isIdle <:+ pieces := List.dropWhile_suffix isIdle
    rw [← named_dropWhile] at h
    cases hdrop : pieces.dropWhile isIdle with
    | nil => rw [hdrop] at h; cases h
    | cons x later =>
      have hx : isIdle x = false := by
        have := List.head_dropWhile_not isIdle (l := pieces) (by simp [hdrop])
        simpa [hdrop] using this
      rw [hdrop, named_cons, named_singleton hx] at h
      obtain ⟨hc, hlater⟩ := List.cons.inj h
      obtain ⟨left, hleft, hnamed, hmore⟩ := ih hlater
      refine ⟨left, ?_, hnamed, hmore.trans ((List.suffix_cons x later).trans (hdrop ▸ hsuffix))⟩
      rw [stripPieces, hdrop]
      dsimp only
      rw [if_pos hc, hleft]

theorem components_of_pieces {pieces : List Text} (hslash : ∀ x ∈ pieces, '/' ∉ x) (hne : pieces ≠ [])
    (hhead : ∀ x ∈ pieces.head?, isIdle x = false) :
    components ⟨Text.joinWith ['/'] pieces⟩ = named pieces := by
  have hsplit := Text.splitOn_joinWith hne hslash
  have hfront := splitOn_text ⟨Text.joinWith ['/'] pieces⟩
  rw [hsplit] at hfront
  have hidle := hhead _ (Option.mem_def.2 (congrArg List.head? hfront))
  have habs : isAbsolute ⟨Text.joinWith ['/'] pieces⟩ = false := by
    rw [Bool.eq_false_iff]
    intro habs
    have hstart : front ⟨Text.joinWith ['/'] pieces⟩ = [] := by
      cases ht : Text.joinWith ['/'] pieces with
      | nil => rfl
      | cons c r =>
        have hc : c = '/' := by simpa [isAbsolute, ht] using habs
        subst hc
        rfl
    rw [hstart] at hidle
    cases hidle
  rw [components_of_relative habs, hsplit]
  intro hhere
  rw [hhere] at hidle
  cases hidle

/-- Pieces before a name are a directory that is joined with the name. -/
theorem exists_join_of_pieces {l : List Text} {n : Text} (hn : IsName n) (hslash : ∀ x ∈ l, '/' ∉ x) :
    ∃ u : Path, (⟨Text.joinWith ['/'] (l.dropWhile isIdle ++ [n])⟩ : Path) = u.join ⟨n⟩ ∧
      u.components = named l := by
  by_cases hnil : l.dropWhile isIdle = []
  · refine ⟨⟨[]⟩, ?_, ?_⟩
    · rw [join_of_text_eq_nil rfl hn.noSlash, hnil, List.nil_append, Text.joinWith,
        List.intercalate_singleton]
    · rw [← named_dropWhile, hnil]
      rfl
  · -- a slash at the end of the directory keeps the name apart, whatever piece comes last
    refine ⟨⟨Text.joinWith ['/'] (l.dropWhile isIdle ++ [[]])⟩, ?_, ?_⟩
    · rw [join_eq _ hn.noSlash, Text.joinWith_concat hnil, Text.joinWith_concat hnil, below]
      simp
    · rw [components_of_pieces, named_append, named_dropWhile]
      · exact List.append_nil _
      · intro x hx
        rcases List.mem_append.1 hx with hx | hx
        · exact hslash x ((List.dropWhile_suffix isIdle).subset hx)
        · rw [List.mem_singleton.1 hx]
          exact List.not_mem_nil
      · simp
      · intro x hx
        rw [List.head?_append, List.head?_eq_some_head hnil] at hx
        cases hx
        exact List.head_dropWhile_not isIdle hnil

/-- A file in a directory that begins with another one, as it is seen from there. -/
theorem exists_stripPrefix? {q base : Path} {n : Text} {folders : List Component} (hn : IsName n)
    (hq : q.text ≠ []) (hbase : base.text ≠ []) (h : q.components = base.components ++ folders) :
    ∃ u : Path, (q.join ⟨n⟩).stripPrefix? base = some (u.join ⟨n⟩) ∧ u.components = folders := by
  obtain ⟨c, hc⟩ := exists_startComponents hbase
  obtain ⟨c', hc'⟩ := exists_startComponents hq
  obtain ⟨pieces, hext⟩ := join_extends hq hn.noSlash
  have hname : named [n] = [.name n] := by rw [named_singleton hn.isIdle_eq, hn.ofPiece_eq]
  rw [components_eq, components_eq base, hc, hc', List.append_assoc, List.singleton_append,
    List.singleton_append] at h
  obtain ⟨rfl, htail⟩ := List.cons.inj h
  have hpieces : named (pieces ++ [n]) = named base.tail ++ (folders ++ [.name n]) := by
    have hsame : named q.tail = named pieces := congrArg (List.map Component.ofPiece) hext.filter_tail
    rw [named_append, ← hsame, htail, hname, List.append_assoc]
  obtain ⟨left, hleft, hnamed, hsuffix⟩ := stripPieces_eq_some hpieces
  have hne : left ≠ [] := by
    rintro rfl
    exact absurd hnamed (by simp)
  obtain ⟨l, rfl, hl⟩ := (List.suffix_concat_iff.1 hsuffix).resolve_left hne
  have hfolders : named l = folders := by
    rw [named_append, hname] at hnamed
    exact List.append_cancel_right hnamed
  have hdrop : (l ++ [n]).dropWhile isIdle = l.dropWhile isIdle ++ [n] := by
    rw [List.dropWhile_append]
    split
    · rename_i hempty
      rw [List.isEmpty_iff.1 hempty]
      simp [hn.isIdle_eq]
    · rfl
  have hstrip : (q.join ⟨n⟩).stripPrefix? base = some ⟨Text.joinWith ['/'] (l.dropWhile isIdle ++ [n])⟩ := by
    have hcomponents : base.components = c' :: named base.tail := by rw [components_eq, hc]; rfl
    rw [stripPrefix?, hcomponents]
    dsimp only
    rw [startComponents_of_extends hext, if_pos hc', hext.tail, hleft, Option.map_some, hdrop,
      dropIdleEnd_concat _ hn.isIdle_eq]
  have hslash : ∀ x ∈ l, '/' ∉ x := by
    intro x hx
    have hmem : x ∈ (q.join ⟨n⟩).tail := by
      rw [hext.tail]
      exact List.mem_append_left _ (hl.subset hx)
    exact noSlash_of_mem_tail hmem
  obtain ⟨u, hu, hcomponents⟩ := exists_join_of_pieces hn hslash
  refine ⟨u, ?_, hcomponents.trans hfolders⟩
  rw [hstrip, hu]

/-! ## Files without a stem -/

/-- What a file name with an extension becomes with a new one. A stem of a single dot cannot stand alone, so
that two dots are left. -/
def renamed (s e : Text) : Text := if s = ['.'] then ['.', '.'] else suffixed s e

section
variable {s e : Text}

theorem noSlash_renamed (hs : '/' ∉ s) (he : '/' ∉ e) : '/' ∉ renamed s e := by
  unfold renamed
  split
  · decide
  · exact noSlash_suffixed hs he

theorem isIdle_renamed (hs : s ≠ []) : isIdle (renamed s e) = false := by
  obtain ⟨c, r, rfl⟩ := List.exists_cons_of_ne_nil hs
  unfold renamed
  split
  · rfl
  · rename_i hdot
    by_cases he : e = []
    · subst he
      rw [suffixed_nil]
      simpa [isIdle] using hdot
    · rw [suffixed_of_ne_nil he]
      simp [isIdle, dotted]

theorem renamed_eq_up_iff (hs : s ≠ []) : renamed s e = ['.', '.'] ↔ s = ['.'] ∨ s = ['.', '.'] ∧ e = [] := by
  unfold renamed
  split
  · rename_i hdot
    simp [hdot]
  · rename_i hdot
    by_cases he : e = []
    · simp [he, suffixed_nil, hdot]
    · have hlong : suffixed s e ≠ ['.', '.'] := by
        intro h
        have hs' := List.length_pos_iff.2 hs
        have he' := List.length_pos_iff.2 he
        have hlen := congrArg List.length h
        rw [suffixed_of_ne_nil he, dotted] at hlen
        simp at hlen
        omega
      simp [hlong, hdot, he]

end

theorem replaceExtension_dotted (u : Path) {s old e : Text} (hs : s ≠ []) (hname : IsName (dotted s old))
    (hold : '.' ∉ old) (he : '/' ∉ e) :
    (u.join ⟨dotted s old⟩).replaceExtension e = u.join ⟨renamed s e⟩ := by
  have hstem : stem (dotted s old) = s := stem_dotted hs hold
  by_cases hdot : s = ['.']
  · subst hdot
    have hup : (u.join ⟨dotted ['.'] old⟩).text = (u.join ⟨['.', '.']⟩).text ++ old := by
      rw [join_eq u hname.noSlash, join_eq u (by decide), dotted]
      simp
    have hcut : (⟨(u.join ⟨dotted ['.'] old⟩).text.take
        ((u.join ⟨dotted ['.'] old⟩).text.length - old.length)⟩ : Path) =
        u.join ⟨['.', '.']⟩ := by
      rw [hup, List.length_append, Nat.add_sub_cancel, List.take_left]
    have hfile : (u.join ⟨['.', '.']⟩).fileName? = none := by
      rw [fileName?, components_join_piece u (by decide) rfl, List.getLast?_concat]
      rfl
    have hext : (u.join ⟨dotted ['.'] old⟩).extension? = some old := by
      rw [extension?_join u hname, dotted, splitName_dotted hs hold]
    rw [replaceExtension, hext]
    dsimp only
    rw [hcut, setExtension, hfile, renamed, if_pos rfl]
  · have htakes : TakesExtension (dotted s old) := ⟨hname.ne_nil, hname.noSlash, by rw [hstem]; exact hdot⟩
    rw [replaceExtension_join u htakes he, hstem, renamed, if_neg hdot]

end Path

end TriBench
