import Mathlib.Data.List.TakeWhile
import TriBench.Proofs.Path.Pieces

/-!
# Absolute paths

A path stays absolute or relative when its extension is replaced, and what follows an absolute
directory in a path is relative.
-/

namespace TriBench

namespace Path

variable {p base rel : Path} {n e t : Text}

theorem text_of_isAbsolute (h : p.isAbsolute = true) : ∃ t, p.text = '/' :: t := by
  obtain ⟨_ | ⟨c, r⟩⟩ := p
  · cases h
  · have hc : c = '/' := by simpa [isAbsolute] using h
    exact ⟨r, by rw [hc]⟩

theorem front_of_isAbsolute (h : p.isAbsolute = true) : p.front = [] := by
  obtain ⟨t, ht⟩ := text_of_isAbsolute h
  simp [front, ht]

theorem tail_ne_nil (h : p.isAbsolute = true) : p.tail ≠ [] := by
  obtain ⟨t, ht⟩ := text_of_isAbsolute h
  have htail : p.tail = Text.splitOn '/' t := by rw [tail, ht]; rfl
  rw [htail]
  exact Text.splitOn_ne_nil '/' t

theorem text_eq_tail (h : p.isAbsolute = true) : p.text = '/' :: Text.joinWith ['/'] p.tail := by
  obtain ⟨t, ht⟩ := text_of_isAbsolute h
  have htail : p.tail = Text.splitOn '/' t := by rw [tail, ht]; rfl
  rw [htail, Text.joinWith_splitOn, ht]

/-! ## Extensions -/

theorem isAbsolute_take {k : Nat} (hk : k ≠ 0) : isAbsolute ⟨t.take k⟩ = isAbsolute ⟨t⟩ := by
  simp [isAbsolute, List.head?_take, hk]

theorem not_isAbsolute_take {k : Nat} (h : isAbsolute ⟨t⟩ = false) : isAbsolute ⟨t.take k⟩ = false := by
  by_cases hk : k = 0
  · subst hk
    rfl
  · rw [isAbsolute_take hk, h]

theorem not_isAbsolute_suffixed (h : isAbsolute ⟨t⟩ = false) : isAbsolute ⟨suffixed t e⟩ = false := by
  unfold suffixed
  cases t with
  | nil => split <;> simp [isAbsolute]
  | cons c r => exact h

theorem isAbsolute_suffixed (h : isAbsolute ⟨t⟩ = true) : isAbsolute ⟨suffixed t e⟩ = true := by
  obtain ⟨r, hr⟩ := text_of_isAbsolute h
  dsimp only at hr
  rw [hr]
  rfl

theorem trimmed_of_isAbsolute (h : p.isAbsolute = true) :
    p.trimmed.text = '/' :: Text.joinWith ['/'] (dropIdleEnd p.tail) := by
  unfold trimmed withTail
  rw [h, front_of_isAbsolute h]
  cases dropIdleEnd p.tail with
  | nil => rfl
  | cons x xs => simp [Text.joinWith, List.intercalate_cons_cons]

theorem not_isAbsolute_pieces {x : Text} {xs : List Text} (hx : '/' ∉ x) (hne : x ≠ []) :
    isAbsolute ⟨Text.joinWith ['/'] (x :: xs)⟩ = false := by
  obtain ⟨c, r, rfl⟩ := List.exists_cons_of_ne_nil hne
  have hc : c ≠ '/' := fun h => hx (h ▸ List.mem_cons_self ..)
  cases xs <;> simp [isAbsolute, Text.joinWith, List.intercalate_cons_cons, hc]

theorem not_isAbsolute_trimmed (h : p.isAbsolute = false) : p.trimmed.isAbsolute = false := by
  by_cases hnil : p.text = []
  · obtain ⟨t⟩ := p
    cases hnil
    rfl
  · have hfront : p.front ≠ [] := by
      obtain ⟨_ | ⟨c, r⟩⟩ := p
      · exact absurd rfl hnil
      · have hc : c ≠ '/' := by simpa [isAbsolute] using h
        simp [front, hc]
    unfold trimmed withTail
    rw [if_neg (by simp [h])]
    exact not_isAbsolute_pieces (noSlash_front p) hfront

theorem dropIdleEnd_isPrefix (pieces : List Text) : dropIdleEnd pieces <+: pieces := by
  unfold dropIdleEnd
  rw [← List.reverse_suffix, List.reverse_reverse]
  exact List.dropWhile_suffix isIdle

theorem mem_dropIdleEnd {pieces : List Text} {x : Text} (h : x ∈ pieces) (hx : isIdle x = false) :
    x ∈ dropIdleEnd pieces := by
  have hmem : x ∈ pieces.reverse.takeWhile isIdle ++ pieces.reverse.dropWhile isIdle := by
    rw [List.takeWhile_append_dropWhile]
    exact List.mem_reverse.2 h
  rcases List.mem_append.1 hmem with htake | hdrop
  · rw [List.mem_takeWhile_imp htake] at hx
    cases hx
  · exact List.mem_reverse.2 hdrop

theorem length_of_fileName? (h : p.isAbsolute = true) (hn : p.fileName? = some n) :
    n.length < p.trimmed.text.length ∧ n.length < p.text.length := by
  obtain ⟨hmem, hidle⟩ : n ∈ p.tail ∧ isIdle n = false := by
    have hname := mem_components_of_fileName? hn
    rw [components_eq, startComponents_of_absolute h] at hname
    rcases List.mem_cons.1 hname with hroot | hname
    · cases hroot
    · obtain ⟨x, hx, hpiece⟩ := List.mem_map.1 hname
      obtain ⟨hx, hidle⟩ := List.mem_filter.1 hx
      rw [eq_of_ofPiece_eq hpiece] at hx hidle
      exact ⟨hx, by simpa using hidle⟩
  rw [trimmed_of_isAbsolute h, text_eq_tail h, List.length_cons, List.length_cons]
  have hend := Text.length_le_joinWith ['/'] (mem_dropIdleEnd hmem hidle)
  have hall := Text.length_le_joinWith ['/'] hmem
  omega

theorem isAbsolute_setExtension (p : Path) (e : Text) : (p.setExtension e).isAbsolute = p.isAbsolute := by
  unfold setExtension
  cases hn : p.fileName? with
  | none => rfl
  | some n =>
    dsimp only
    cases h : p.isAbsolute with
    | false => exact not_isAbsolute_suffixed (not_isAbsolute_take (not_isAbsolute_trimmed h))
    | true =>
      have hlength := (length_of_fileName? h hn).1
      have htrimmed : p.trimmed.isAbsolute = true := by
        rw [isAbsolute, trimmed_of_isAbsolute h]
        rfl
      apply isAbsolute_suffixed
      rw [isAbsolute_take (by omega)]
      exact htrimmed

theorem isAbsolute_replaceExtension (p : Path) (e : Text) :
    (p.replaceExtension e).isAbsolute = p.isAbsolute := by
  unfold replaceExtension
  cases hold : p.extension? with
  | none => exact isAbsolute_setExtension p e
  | some old =>
    dsimp only
    rw [isAbsolute_setExtension]
    cases h : p.isAbsolute with
    | false => exact not_isAbsolute_take h
    | true =>
      obtain ⟨n, hn, hsplit⟩ := Option.bind_eq_some_iff.1 hold
      have hlength := (length_of_fileName? h hn).2
      have hshort : old.length ≤ n.length := by
        rcases splitName_cases n with ⟨-, hname⟩ | ⟨s, e, hdot, -, -, hname⟩ <;>
          rw [hname] at hsplit <;> cases hsplit
        rw [hdot, List.length_append, List.length_cons]
        omega
      rw [isAbsolute_take (by omega)]
      exact h

/-! ## The rest of a path -/

theorem stripPieces_suffix {cs : List Component} {pieces left : List Text}
    (h : stripPieces cs pieces = some left) : left <:+ pieces := by
  induction cs generalizing pieces with
  | nil => cases h; exact List.suffix_refl _
  | cons c cs ih =>
    have hsuffix : pieces.dropWhile isIdle <:+ pieces := List.dropWhile_suffix isIdle
    unfold stripPieces at h
    split at h
    · cases h
    · rename_i x rest hdrop
      split at h
      · rw [hdrop] at hsuffix
        exact (ih h).trans ((List.suffix_cons x rest).trans hsuffix)
      · cases h

theorem not_isAbsolute_stripPrefix? (hbase : base.isAbsolute = true) (h : p.stripPrefix? base = some rel) :
    rel.isAbsolute = false := by
  unfold stripPrefix? at h
  rw [components_eq, startComponents_of_absolute hbase] at h
  dsimp only [List.cons_append] at h
  split at h
  · obtain ⟨pieces, hpieces, rfl⟩ := Option.map_eq_some_iff.1 h
    have hdrop : pieces.dropWhile isIdle <:+ p.tail :=
      (List.dropWhile_suffix isIdle).trans (stripPieces_suffix hpieces)
    have hprefix := dropIdleEnd_isPrefix (pieces.dropWhile isIdle)
    cases hends : dropIdleEnd (pieces.dropWhile isIdle) with
    | nil => rfl
    | cons x xs =>
      rw [hends] at hprefix
      have hx : x ∈ pieces.dropWhile isIdle := hprefix.subset (List.mem_cons_self ..)
      refine not_isAbsolute_pieces (noSlash_of_mem_tail (hdrop.subset hx)) ?_
      rintro rfl
      obtain ⟨rest, hrest⟩ := hprefix
      have hidle := List.head_dropWhile_not isIdle (l := pieces) (by simp [← hrest])
      simp [← hrest, isIdle] at hidle
  · cases h

end Path

end TriBench
