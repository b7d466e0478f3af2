import TriBench.Proofs.Json.Completeness

/-!
# Reading back printed JSON

What is printed of a value whose numbers are integers of 64 bits stands in the grammar for that value,
so the reader inverts the printer. Main statement: `parse?_pretty`.
-/

namespace TriBench.Json

open Grammar

/-! ## Texts and numbers -/

theorem isHex_hexDigit : ∀ n < 16, IsHex (hexDigit n) n := by decide

theorem unit_control {c : Char} (hc : c.toNat < 32) (r : Text) :
    Unit ('\\' :: 'u' :: '0' :: '0' :: hexDigit (c.toNat / 16) :: hexDigit (c.toNat % 16) :: r)
      c.toNat r := by
  have hzero : IsHex '0' 0 := by decide
  have hunit := Unit.digits r hzero hzero (isHex_hexDigit (c.toNat / 16) (by omega))
    (isHex_hexDigit (c.toNat % 16) (by omega))
  have hn : 4096 * 0 + 256 * 0 + 16 * (c.toNat / 16) + c.toNat % 16 = c.toNat := by omega
  rwa [hn] at hunit

theorem character_escapeChar (c : Char) (r : Text) : Character (escapeChar c ++ r) c r := by
  unfold escapeChar
  by_cases h₁ : c = '"'
  · subst h₁; exact .short r (by decide)
  by_cases h₂ : c = '\\'
  · subst h₂; exact .short r (by decide)
  by_cases h₃ : c = '\x08'
  · subst h₃; exact .short r (by decide)
  by_cases h₄ : c = '\t'
  · subst h₄; exact .short r (by decide)
  by_cases h₅ : c = '\n'
  · subst h₅; exact .short r (by decide)
  by_cases h₆ : c = '\x0c'
  · subst h₆; exact .short r (by decide)
  by_cases h₇ : c = '\r'
  · subst h₇; exact .short r (by decide)
  simp only [h₁, h₂, h₃, h₄, h₅, h₆, h₇, if_false]
  split
  · rename_i hc
    have hunit := Character.unit (unit_control hc r) (.inl (by omega))
    rwa [Char.ofNat_toNat] at hunit
  · rename_i hc
    exact .plain r (Nat.not_lt.1 hc) h₁ h₂

theorem characters_escaped (s r : Text) : Characters (s.flatMap escapeChar ++ '"' :: r) s r := by
  induction s with
  | nil => exact .close r
  | cons c s ih =>
    rw [List.flatMap_cons, List.append_assoc]
    exact .cons (character_escapeChar c _) ih

theorem numeral_text {n : Number} (hn : n.IsInteger) (r : Text) : Numeral (n.text ++ r) n r := by
  cases n with
  | natural n => exact .natural r hn
  | negative i =>
    obtain ⟨m, rfl⟩ := Int.eq_negSucc_of_lt_zero hn.1
    have hm : m + 1 ≤ Nat.pow 2 63 := by simpa using hn.2
    exact .negative r (Nat.succ_pos m) hm
  | float => exact hn.elim

/-! ## The layout -/

theorem blanks_append {w : Text} (h : ∀ c ∈ w, c ∈ [' ', '\t', '\n', '\r']) (r : Text) :
    Blanks (w ++ r) r := by
  induction w with
  | nil => exact .none r
  | cons c w ih =>
    exact .more (h c (List.mem_cons_self ..)) (ih fun d hd => h d (List.mem_cons_of_mem c hd))

theorem blanks_indent (depth : Nat) (r : Text) : Blanks (indent depth ++ r) r := by
  apply blanks_append
  intro c h
  rcases List.mem_cons.1 h with rfl | h
  · decide
  · rw [List.eq_of_mem_replicate h]; decide

theorem Items.pretty_last (v : Json) (depth : Nat) :
    (Items.cons v .nil).pretty depth = indent depth ++ v.pretty depth := by
  rw [Items.pretty]

theorem Items.pretty_more (v : Json) {vs : Items} (h : vs ≠ .nil) (depth : Nat) :
    (Items.cons v vs).pretty depth = indent depth ++ v.pretty depth ++ ',' :: vs.pretty depth := by
  rw [Items.pretty]
  exact h

theorem Members.pretty_last (k : Text) (v : Json) (depth : Nat) :
    (Members.cons k v .nil).pretty depth = indent depth ++ (quote k ++ ':' :: (' ' :: v.pretty depth)) := by
  rw [Members.pretty, List.append_assoc]

theorem Members.pretty_more (k : Text) (v : Json) {ms : Members} (h : ms ≠ .nil) (depth : Nat) :
    (Members.cons k v ms).pretty depth =
      indent depth ++ (quote k ++ ':' :: (' ' :: v.pretty depth ++ ',' :: ms.pretty depth)) := by
  rw [Members.pretty]
  · simp
  · exact h

mutual

theorem value_pretty : ∀ v : Json, v.IsExact → ∀ (depth : Nat) (r : Text), Value (v.pretty depth ++ r) v r
  | .null, _, _, r => .null r
  | .bool true, _, _, r => .true r
  | .bool false, _, _, r => .false r
  | .number _, hn, _, r => .number (numeral_text hn r)
  | .string t, _, depth, r => by
    have htext : (Json.string t).pretty depth ++ r = '"' :: (t.flatMap escapeChar ++ '"' :: r) := by
      simp [pretty, quote]
    rw [htext]
    exact .string (characters_escaped t r)
  | .array .nil, _, _, r => .emptyArray (.none _)
  | .array (.cons v vs), hvs, depth, r => by
    have htext : (Json.array (.cons v vs)).pretty depth ++ r =
        '[' :: ((Items.cons v vs).pretty (depth + 1) ++ (indent depth ++ ']' :: r)) := by simp [pretty]
    rw [htext]
    exact .array (elements_pretty (.cons v vs) hvs (by simp) (depth + 1) (blanks_indent depth (']' :: r)))
  | .object .nil, _, _, r => .emptyObject (.none _)
  | .object (.cons k v ms), hms, depth, r => by
    have htext : (Json.object (.cons k v ms)).pretty depth ++ r =
        '\x7b' :: ((Members.cons k v ms).pretty (depth + 1) ++ (indent depth ++ '\x7d' :: r)) := by
          simp [pretty]
    rw [htext]
    exact .object
      (members_pretty (.cons k v ms) hms (by simp) (depth + 1) (blanks_indent depth ('\x7d' :: r)))

theorem elements_pretty : ∀ vs : Items, vs.AreExact → vs ≠ .nil → ∀ (depth : Nat) {r r' : Text},
    Blanks r r' → Elements (vs.pretty depth ++ r) vs r'
  | .cons v .nil, hvs, _, depth, r, r', hr => by
    rw [Items.pretty_last, List.append_assoc]
    exact .one (.mk (blanks_indent depth _) (value_pretty v hvs.1 depth r) hr)
  | .cons v (.cons v' vs), hvs, _, depth, r, r', hr => by
    rw [Items.pretty_more v (by simp), List.append_assoc, List.append_assoc]
    exact .more (.mk (blanks_indent depth _) (value_pretty v hvs.1 depth _) (.none _))
      (elements_pretty (.cons v' vs) hvs.2 (by simp) depth hr)

theorem members_pretty : ∀ ms : Members, ms.AreExact → ms ≠ .nil → ∀ (depth : Nat) {r r' : Text},
    Blanks r r' → Grammar.Members (ms.pretty depth ++ r) ms r'
  | .cons k v .nil, hms, _, depth, r, r', hr => by
    have htext : (Members.cons k v .nil).pretty depth ++ r =
        indent depth ++ '"' :: (k.flatMap escapeChar ++ '"' :: ':' :: ' ' :: (v.pretty depth ++ r)) := by
      simp [Members.pretty_last, quote]
    rw [htext]
    exact .one (.mk (blanks_indent depth _) (characters_escaped k _) (.none _)
      (.mk (.more (by decide) (.none _)) (value_pretty v hms.1 depth r) hr))
  | .cons k v (.cons k' v' ms), hms, _, depth, r, r', hr => by
    have htext : (Members.cons k v (.cons k' v' ms)).pretty depth ++ r =
        indent depth ++ '"' :: (k.flatMap escapeChar ++ '"' :: ':' :: ' ' ::
          (v.pretty depth ++ ',' :: ((Members.cons k' v' ms).pretty depth ++ r))) := by
      simp [Members.pretty_more, quote]
    rw [htext]
    exact .more (.mk (blanks_indent depth _) (characters_escaped k _) (.none _)
      (.mk (.more (by decide) (.none _)) (value_pretty v hms.1 depth _) (.none _)))
      (members_pretty (.cons k' v' ms) hms.2 (by simp) depth hr)

end

/-- **Round trip.** A value whose numbers are integers of 64 bits is the value of its printed text. -/
theorem parse?_pretty {v : Json} (h : v.IsExact) : parse? (v.pretty 0) = some v := by
  have hvalue := value_pretty v h 0 []
  rw [List.append_nil] at hvalue
  exact (parse?_eq_some_iff h).2 (.mk (.none _) hvalue (.none _))

end TriBench.Json
