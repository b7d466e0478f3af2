import TriBench.Text.Styled

/-!
# Texts without styles

A terminal takes the codes out of what it shows. Codes of the same form around a text, or next to
it, come out again, and a text without the escape character stays as it is. Main statements:
`Shows.append` and `shows_paintFilled`, styled texts show what is written without colours, also side
by side.
-/

namespace TriBench

namespace Text

def isParameter (c : Char) : Bool := c.isDigit || c = ';'

def startsWithCode : Text → Bool
  | c :: '[' :: r => c = Style.escape && (r.dropWhile isParameter).head? = some 'm'
  | _ => false

def unstyled (s : Text) : Text :=
  go false s
where
  /-- The first argument says if the text goes on within a code. -/
  go : Bool → Text → Text
    | _, [] => []
    | true, c :: r => go (c ≠ 'm') r
    | false, c :: r => if startsWithCode (c :: r) then go true r else c :: go false r

/-- On a terminal the first text shows as the second, whatever follows it. -/
def Shows (s t : Text) : Prop := ∀ rest, unstyled (s ++ rest) = t ++ unstyled rest

theorem Shows.unstyled_eq {s t : Text} (h : Shows s t) : unstyled s = t := by
  have hnil := h []
  rw [List.append_nil] at hnil
  rw [hnil]
  exact List.append_nil t

theorem Shows.append {s t s' t' : Text} (h : Shows s t) (h' : Shows s' t') : Shows (s ++ s') (t ++ t') := by
  intro rest
  rw [List.append_assoc, h, h', List.append_assoc]

theorem Shows.flatMap {α : Type} {l : List α} {f g : α → Text} (h : ∀ x ∈ l, Shows (f x) (g x)) :
    Shows (l.flatMap f) (l.flatMap g) := by
  induction l with
  | nil => exact fun _ => rfl
  | cons x l ih =>
    rw [List.flatMap_cons, List.flatMap_cons]
    exact (h x (List.mem_cons_self ..)).append (ih fun y hy => h y (List.mem_cons_of_mem x hy))

theorem not_mem_padLeft {c : Char} {s : Text} (hc : c ≠ ' ') (h : c ∉ s) (w : Nat) : c ∉ padLeft w s := by
  simp [padLeft, hc, h]

theorem not_mem_padRight {c : Char} {s : Text} (hc : c ≠ ' ') (h : c ∉ s) (w : Nat) : c ∉ padRight w s := by
  simp [padRight, hc, h]

theorem startsWithCode_of_ne {c : Char} (h : c ≠ Style.escape) (r : Text) :
    startsWithCode (c :: r) = false := by
  unfold startsWithCode
  split
  · rename_i heq
    injection heq with hc
    simp [← hc, h]
  · rfl

theorem shows_of_not_mem {s : Text} (h : Style.escape ∉ s) : Shows s s := by
  intro rest
  induction s with
  | nil => rfl
  | cons c s ih =>
    rw [List.mem_cons, not_or] at h
    have hstart := startsWithCode_of_ne (Ne.symm h.1) (s ++ rest)
    unfold unstyled at ih ⊢
    rw [List.cons_append, unstyled.go, if_neg (by simp [hstart]), ih h.2]
    rfl

theorem Shows.cons {c : Char} {s t : Text} (h : Shows s t) (hc : c ≠ Style.escape) :
    Shows (c :: s) (c :: t) :=
  (shows_of_not_mem (s := [c]) (by simpa using hc.symm)).append h

/-! ## Codes -/

def code (parameters : Text) : Text := Style.escape :: '[' :: parameters ++ ['m']

theorem go_within {ps : Text} (h : ps.all isParameter = true) (rest : Text) :
    unstyled.go true (ps ++ 'm' :: rest) = unstyled.go false rest := by
  induction ps with
  | nil => rfl
  | cons c ps ih =>
    rw [List.all_cons, Bool.and_eq_true] at h
    have hne : c ≠ 'm' := by
      rintro rfl
      exact absurd h.1 (by decide)
    rw [List.cons_append, unstyled.go, decide_eq_true hne, ih h.2]

theorem shows_code {ps : Text} (h : ps.all isParameter = true) : Shows (code ps) [] := by
  intro rest
  have hcode : code ps ++ rest = Style.escape :: '[' :: (ps ++ 'm' :: rest) := by simp [code]
  have hstart : startsWithCode (code ps ++ rest) = true := by
    rw [hcode, startsWithCode, List.dropWhile_append_of_pos (List.all_eq_true.1 h)]
    rfl
  rw [hcode] at hstart ⊢
  unfold unstyled
  rw [unstyled.go, if_pos hstart, unstyled.go]
  exact go_within h rest

theorem replaceAll_of_not_mem {c : Char} {old s : Text} (new : Text) (h : c ∉ s) :
    replaceAll (c :: old) new s = s := by
  unfold replaceAll
  induction s with
  | nil => rfl
  | cons d s ih =>
    rw [List.mem_cons, not_or] at h
    rw [replaceAll.go, if_neg (by simp [List.isPrefixOf, h.1]), ih h.2]

end Text

namespace Style

open Text

theorem shows_reset : Shows reset [] := by
  have hparameters : ['0'].all isParameter = true := by decide
  exact shows_code hparameters

theorem shows_opening (st : Style) : Shows st.opening [] := by
  let parameters : Text := (if st.bold then "1;" else "" : String).toList ++ st.colour.code
  have hparameters : parameters.all isParameter = true := by
    rcases st with ⟨colour, bold⟩
    cases colour <;> cases bold <;> decide
  have hopening : st.opening = code parameters := by simp [opening, code, parameters]
  rw [hopening]
  exact shows_code hparameters

theorem paintFilled_true (st : Style) (fill : Text → Text) {s : Text} (hs : escape ∉ s) :
    paintFilled true st fill s = st.opening ++ fill s ++ reset := by
  have hreset : Text.replaceAll reset (reset ++ st.opening) s = s := replaceAll_of_not_mem _ hs
  rw [paintFilled, if_pos rfl, hreset]

section
variable (colours : Bool) (st : Style) {fill : Text → Text} {s : Text} (hs : escape ∉ s)
include hs

/-- **A styled text shows what is written without colours**, if the text has no code of its own. -/
theorem shows_paintFilled (hfill : escape ∉ fill s) :
    Shows (paintFilled colours st fill s) (paintFilled false st fill s) := by
  cases colours with
  | false => exact shows_of_not_mem hfill
  | true =>
    have hshown := ((shows_opening st).append (shows_of_not_mem hfill)).append shows_reset
    rw [List.nil_append, List.append_nil] at hshown
    rw [paintFilled_true st fill hs]
    exact hshown

theorem noFeed_paintFilled (hfill : '\n' ∉ fill s) : '\n' ∉ paintFilled colours st fill s := by
  cases colours with
  | false => exact hfill
  | true =>
    have hopening : '\n' ∉ st.opening := by
      rcases st with ⟨colour, bold⟩
      cases colour <;> cases bold <;> decide
    rw [paintFilled_true st fill hs, List.mem_append, List.mem_append, not_or, not_or]
    exact ⟨⟨hopening, hfill⟩, by decide⟩

end

end Style

end TriBench
