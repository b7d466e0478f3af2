import TriBench.Proofs.Json.Scanning

/-!
# The grammar of JSON

What is JSON, said without a reader: each relation below joins a text to what it begins with and to
the text behind that. Whatever the reader reads stands in these relations. Main statement:
`element_of_parse?`.
-/

namespace TriBench.Json

namespace Grammar

inductive Blanks : Text → Text → Prop
  | none (s : Text) : Blanks s s
  | more {c : Char} {s r : Text} (h : c ∈ [' ', '\t', '\n', '\r']) : Blanks s r → Blanks (c :: s) r

def escapes : List (Char × Char) :=
  [('"', '"'), ('\\', '\\'), ('/', '/'), ('b', '\x08'), ('f', '\x0c'), ('n', '\n'), ('r', '\r'), ('t', '\t')]

def IsHex (c : Char) (n : Nat) : Prop := n < 16 ∧ (c = n.digitChar ∨ c = n.digitChar.toUpper)

instance instDecidableIsHex (c : Char) (n : Nat) : Decidable (IsHex c n) :=
  inferInstanceAs (Decidable (_ ∧ _))

inductive Unit : Text → Nat → Text → Prop
  | digits {a b c d : Char} {i j k l : Nat} (r : Text) : IsHex a i → IsHex b j → IsHex c k → IsHex d l →
      Unit ('\\' :: 'u' :: a :: b :: c :: d :: r) (4096 * i + 256 * j + 16 * k + l) r

/-- A character of a string. One outside the basic plane may be two escapes, a surrogate pair; no
escape is half of one. -/
inductive Character : Text → Char → Text → Prop
  | plain {c : Char} (r : Text) (h : 32 ≤ c.toNat) (hquote : c ≠ '"') (hslash : c ≠ '\\') :
      Character (c :: r) c r
  | short {e c : Char} (r : Text) (h : (e, c) ∈ escapes) : Character ('\\' :: e :: r) c r
  | unit {s r : Text} {n : Nat} (h : Unit s n r) (hn : n < 0xD800 ∨ 0xE000 ≤ n) :
      Character s (Char.ofNat n) r
  | pair {s s' r : Text} {n m : Nat} (h : Unit s n s') (h' : Unit s' m r)
      (hhigh : 0xD800 ≤ n ∧ n < 0xDC00) (hlow : 0xDC00 ≤ m ∧ m < 0xE000) :
      Character s (Char.ofNat (0x10000 + 1024 * (n - 0xD800) + (m - 0xDC00))) r

inductive Characters : Text → Text → Text → Prop
  | close (r : Text) : Characters ('"' :: r) [] r
  | cons {s s' r t : Text} {c : Char} : Character s c s' → Characters s' t r → Characters s (c :: t) r

def sign (minus : Bool) : Text := if minus then ['-'] else []

/-- The integer is none of 64 bits. Minus zero is no integer either. -/
def IsLarge (minus : Bool) (n : Nat) : Prop :=
  if minus then n = 0 ∨ Nat.pow 2 63 < n else Nat.pow 2 64 ≤ n

def AreDigits (ds : Text) : Prop := ds ≠ [] ∧ ∀ d ∈ ds, d.isDigit

inductive Fraction : Text → Text → Prop
  | point {ds : Text} (r : Text) (h : AreDigits ds) : Fraction ('.' :: (ds ++ r)) r

inductive Exponent : Text → Text → Prop
  | letter {e : Char} {sg ds : Text} (r : Text) (he : e = 'e' ∨ e = 'E') (hs : sg ∈ [[], ['+'], ['-']])
      (h : AreDigits ds) : Exponent (e :: (sg ++ (ds ++ r))) r

inductive Decimals : Text → Text → Prop
  | fraction {s r : Text} : Fraction s r → Decimals s r
  | exponent {s r : Text} : Exponent s r → Decimals s r
  | both {s s' r : Text} : Fraction s s' → Exponent s' r → Decimals s r

/-- A number. The relation leaves open which binary64 number one is that is no integer of 64 bits. -/
inductive Numeral : Text → Number → Text → Prop
  | natural {n : Nat} (r : Text) (h : n < Nat.pow 2 64) : Numeral (Text.ofNat n ++ r) (.natural n) r
  | negative {n : Nat} (r : Text) (hpos : 0 < n) (h : n ≤ Nat.pow 2 63) :
      Numeral ('-' :: (Text.ofNat n ++ r)) (.negative (-(n : Int))) r
  | large {minus : Bool} {n : Nat} (x : Decimal.Binary64) (r : Text) (h : IsLarge minus n) :
      Numeral (sign minus ++ (Text.ofNat n ++ r)) (.float minus x) r
  | decimal {minus : Bool} {s r : Text} (n : Nat) (x : Decimal.Binary64) :
      Decimals s r → Numeral (sign minus ++ (Text.ofNat n ++ s)) (.float minus x) r

mutual

inductive Value : Text → Json → Text → Prop
  | null (r : Text) : Value ('n' :: 'u' :: 'l' :: 'l' :: r) .null r
  | true (r : Text) : Value ('t' :: 'r' :: 'u' :: 'e' :: r) (.bool true) r
  | false (r : Text) : Value ('f' :: 'a' :: 'l' :: 's' :: 'e' :: r) (.bool false) r
  | number {s r : Text} {n : Number} : Numeral s n r → Value s (.number n) r
  | string {s t r : Text} : Characters s t r → Value ('"' :: s) (.string t) r
  | emptyArray {s r : Text} : Blanks s (']' :: r) → Value ('[' :: s) (.array .nil) r
  | array {s r : Text} {vs : Json.Items} : Elements s vs (']' :: r) → Value ('[' :: s) (.array vs) r
  | emptyObject {s r : Text} : Blanks s ('\x7d' :: r) → Value ('\x7b' :: s) (.object .nil) r
  | object {s r : Text} {ms : Json.Members} :
      Members s ms ('\x7d' :: r) → Value ('\x7b' :: s) (.object ms) r

inductive Element : Text → Json → Text → Prop
  | mk {s s' r' r : Text} {v : Json} : Blanks s s' → Value s' v r' → Blanks r' r → Element s v r

inductive Elements : Text → Json.Items → Text → Prop
  | one {s r : Text} {v : Json} : Element s v r → Elements s (.cons v .nil) r
  | more {s s' r : Text} {v : Json} {vs : Json.Items} :
      Element s v (',' :: s') → Elements s' vs r → Elements s (.cons v vs) r

inductive Member : Text → Text → Json → Text → Prop
  | mk {s s₁ s₂ s₃ r k : Text} {v : Json} : Blanks s ('"' :: s₁) → Characters s₁ k s₂ →
      Blanks s₂ (':' :: s₃) → Element s₃ v r → Member s k v r

inductive Members : Text → Json.Members → Text → Prop
  | one {s r k : Text} {v : Json} : Member s k v r → Members s (.cons k v .nil) r
  | more {s s' r k : Text} {v : Json} {ms : Json.Members} :
      Member s k v (',' :: s') → Members s' ms r → Members s (.cons k v ms) r

end

end Grammar

open Grammar

/-! ## Blanks -/

theorem blanks_skipBlank (s : Text) : Blanks s (skipBlank s) := by
  unfold skipBlank
  induction s with
  | nil => exact .none []
  | cons c s ih =>
    by_cases h : isBlank c = true
    · rw [List.dropWhile_cons_of_pos h]
      refine .more ?_ ih
      simpa [isBlank, or_assoc, or_left_comm] using h
    · rw [List.dropWhile_cons_of_neg h]
      exact .none _

theorem blanks_of_skipBlank {s r : Text} (h : skipBlank s = r) : Blanks s r := h ▸ blanks_skipBlank s

/-! ## Strings -/

theorem toNat_le_of_hexValue? {c : Char} {n : Nat} (h : hexValue? c = some n) : c.toNat ≤ 102 := by
  unfold hexValue? at h
  simp only [Char.le_def, UInt32.le_iff_toNat_le, Char.toNat_val] at h
  have h9 : ('9' : Char).toNat = 57 := rfl
  have hF : ('F' : Char).toNat = 70 := rfl
  have hf : ('f' : Char).toNat = 102 := rfl
  split at h
  · omega
  split at h
  · omega
  split at h
  · omega
  · cases h

theorem isHex_of_hexValue? {c : Char} {n : Nat} (h : hexValue? c = some n) : IsHex c n := by
  have hall : ∀ k < 103, ∀ n ∈ hexValue? (Char.ofNat k), IsHex (Char.ofNat k) n := by decide
  have hc := hall c.toNat (Nat.lt_succ_of_le (toNat_le_of_hexValue? h))
  rw [Char.ofNat_toNat] at hc
  exact hc n h

theorem unit_of_hex4? {a b c d : Char} {n : Nat} (h : hex4? a b c d = some n) (r : Text) :
    Unit ('\\' :: 'u' :: a :: b :: c :: d :: r) n r := by
  simp only [hex4?, Option.bind_eq_bind, Option.bind_eq_some_iff, pure, Option.some.injEq] at h
  obtain ⟨i, hi, j, hj, k, hk, l, hl, rfl⟩ := h
  exact .digits r (isHex_of_hexValue? hi) (isHex_of_hexValue? hj) (isHex_of_hexValue? hk)
    (isHex_of_hexValue? hl)

theorem mem_escapes {e c : Char} (h : simpleEscape? e = some c) : (e, c) ∈ escapes := by
  unfold simpleEscape? at h
  split at h <;> cases h <;> decide

theorem characters_of_map {s s' t r : Text} {c : Char} (hc : Character s c s')
    (ih : ∀ t r, quoted s' = some (t, r) → Characters s' t r)
    (h : (quoted s').map (fun p => (c :: p.1, p.2)) = some (t, r)) : Characters s t r := by
  simp only [Option.map_eq_some_iff, Prod.mk.injEq] at h
  obtain ⟨⟨t', r'⟩, hq, rfl, rfl⟩ := h
  exact .cons hc (ih t' r' hq)

theorem characters_of_quoted (s : Text) : ∀ t r, quoted s = some (t, r) → Characters s t r := by
  fun_induction quoted s with
  | case1 s =>
    intro t r h
    cases h
    exact .close s
  | case4 a b c d a' b' c' d' s n hn hhigh m hm hlow ih =>
    intro t r h
    have hc := Character.pair (unit_of_hex4? hn _) (unit_of_hex4? hm s) hhigh hlow
    exact characters_of_map hc ih h
  | case7 a b c d a' b' c' d' s n hn hhigh hlow ih =>
    intro t r h
    have hc := Character.unit (unit_of_hex4? hn ('\\' :: 'u' :: a' :: b' :: c' :: d' :: s)) (by omega)
    exact characters_of_map hc ih h
  | case10 a b c d s _ n hn hhalf ih =>
    intro t r h
    have hc := Character.unit (unit_of_hex4? hn s) (by omega)
    exact characters_of_map hc ih h
  | case12 e s _ _ c he ih =>
    intro t r h
    exact characters_of_map (.short s (mem_escapes he)) ih h
  | case14 c s hquote _ _ _ hc ih =>
    intro t r h
    rw [not_or, Nat.not_lt] at hc
    exact characters_of_map (.plain s hc.1 hquote hc.2) ih h
  | _ => intro t r h; cases h

/-! ## Numbers -/

theorem isDigit_eq (c : Char) : isDigit c = c.isDigit := by
  rw [Bool.eq_iff_iff]
  simp [isDigit, Char.isDigit, Char.le_def]

theorem areDigits_takeWhile {s : Text} (h : s.takeWhile isDigit ≠ []) : AreDigits (s.takeWhile isDigit) := by
  refine ⟨h, fun d hd => ?_⟩
  rw [← isDigit_eq]
  exact List.all_eq_true.1 List.all_takeWhile d hd

theorem ofNat_digit {d : Char} (h : d.isDigit) : Text.ofNat (d.toNat - 48) = [d] := by
  have hrange : 48 ≤ d.toNat ∧ d.toNat ≤ 57 := by
    simpa [Char.isDigit, UInt32.le_iff_toNat_le] using h
  have hall : ∀ k < 10, Text.ofNat k = [Char.ofNat (k + 48)] := by decide
  rw [hall _ (by omega), Nat.sub_add_cancel hrange.1, Char.ofNat_toNat]

theorem ofNat_append {n : Nat} (hn : 0 < n) {ds : Text} (h : ∀ d ∈ ds, d.isDigit) :
    Text.ofNat n ++ ds = Text.ofNat (Nat.ofDigitChars 10 ds n) := by
  induction ds generalizing n with
  | nil => simp
  | cons d ds ih =>
    have hd := h d (List.mem_cons_self ..)
    have hlt : d.toNat - 48 < 10 := by
      have hrange : 48 ≤ d.toNat ∧ d.toNat ≤ 57 := by
        simpa [Char.isDigit, UInt32.le_iff_toNat_le] using hd
      omega
    have hcat : Text.ofNat n ++ [d] = Text.ofNat (10 * n + (d.toNat - 48)) := by
      rw [← ofNat_digit hd]
      exact Nat.toDigits_append_toDigits (by decide) hn hlt
    rw [Nat.ofDigitChars_cons, ← List.singleton_append, ← List.append_assoc, hcat]
    exact ih (by omega) fun d' hd' => h d' (List.mem_cons_of_mem d hd')

/-- Digits without leading zeros are those of a number. -/
theorem exists_ofNat {ds : Text} (h : AreDigits ds) (hstart : ∀ d r, ds ≠ '0' :: d :: r) :
    ∃ n, ds = Text.ofNat n := by
  obtain ⟨hne, hall⟩ := h
  cases ds with
  | nil => exact absurd rfl hne
  | cons d ds =>
    have hd := hall d (List.mem_cons_self ..)
    by_cases hds : ds = []
    · rw [hds]
      exact ⟨_, (ofNat_digit hd).symm⟩
    · have hpos : 0 < d.toNat - 48 := by
        apply Nat.pos_of_ne_zero
        intro hzero
        have hd₀ : ['0'] = [d] := by rw [← ofNat_digit hd, hzero]; rfl
        cases hd₀
        cases ds with
        | nil => exact hds rfl
        | cons d' r => exact hstart d' r rfl
      have hcat := ofNat_append hpos fun d' hd' => hall d' (List.mem_cons_of_mem d hd')
      rw [ofNat_digit hd, List.singleton_append] at hcat
      exact ⟨_, hcat⟩

theorem fitting_fits {s : Text} {n m : Nat} (hn : n < Nat.pow 2 64) (h : fitting n s = (m, [])) :
    Nat.ofDigitChars 10 s n < Nat.pow 2 64 := by
  induction s generalizing n with
  | nil => simpa using hn
  | cons d s ih =>
    rw [fitting] at h
    split at h
    · rename_i hnext
      rw [Nat.ofDigitChars_cons]
      exact ih hnext h
    · cases h

theorem float?_eq_float {minus : Bool} {whole fraction : Text} {e : Int} {x : Number}
    (h : float? minus whole fraction e = some x) : ∃ y, x = .float minus y := by
  unfold float? at h
  dsimp only at h
  obtain ⟨y, -, hy⟩ := Option.map_eq_some_iff.1 h
  exact ⟨y, hy.symm⟩

theorem numeral_of_integer {minus : Bool} {n : Nat} {x : Number} (r : Text)
    (h : unsignedNumber?.integer minus (Text.ofNat n) = some x) :
    Numeral (sign minus ++ (Text.ofNat n ++ r)) x r := by
  have hn : Nat.ofDigitChars 10 (Text.ofNat n) 0 = n := Nat.ofDigitChars_ten_toDigits
  by_cases hfits : n < Nat.pow 2 64
  · rw [integer_ofNat minus hfits] at h
    cases minus with
    | false =>
      cases h
      exact .natural r hfits
    | true =>
      rw [if_neg (by decide)] at h
      by_cases hneg : 0 < n ∧ n ≤ Nat.pow 2 63
      · rw [if_pos hneg] at h
        cases h
        exact .negative r hneg.1 hneg.2
      · rw [if_neg hneg] at h
        cases h
        apply Numeral.large
        show n = 0 ∨ Nat.pow 2 63 < n
        omega
  · unfold unsignedNumber?.integer at h
    split at h
    · rename_i m hm
      have hlt := fitting_fits (by decide) hm
      rw [hn] at hlt
      exact absurd hlt hfits
    · obtain ⟨y, rfl⟩ := float?_eq_float h
      apply Numeral.large
      unfold IsLarge
      have h63 : Nat.pow 2 63 < Nat.pow 2 64 := by decide
      split
      · right; omega
      · omega

theorem fraction_of_takeWhile {s : Text} (h : s.takeWhile isDigit ≠ []) :
    Fraction ('.' :: s) (s.dropWhile isDigit) := by
  have hpoint := Fraction.point (s.dropWhile isDigit) (areDigits_takeWhile h)
  rwa [List.takeWhile_append_dropWhile] at hpoint

theorem exponent_of_exponent? {e : Char} {s r : Text} {n : Int} (he : e = 'e' ∨ e = 'E')
    (h : exponent? s = some (n, r)) : Exponent (e :: s) r := by
  have hletter : ∀ sg ∈ [[], ['+'], ['-']], ∀ ds : Text, ds.takeWhile isDigit ≠ [] →
      Exponent (e :: (sg ++ ds)) (ds.dropWhile isDigit) := by
    intro sg hsg ds hds
    have hexp := Exponent.letter (ds.dropWhile isDigit) he hsg (areDigits_takeWhile hds)
    rwa [List.takeWhile_append_dropWhile] at hexp
  unfold exponent? at h
  split at h
  rename_i _ _ ds hsplit
  dsimp only at h
  split at h
  · cases h
  rename_i hds
  cases h
  split at hsplit
  · cases hsplit
    exact hletter ['+'] (by simp) ds hds
  · cases hsplit
    exact hletter ['-'] (by simp) ds hds
  · cases hsplit
    exact hletter [] (by simp) s hds

section
variable {minus : Bool} {whole fraction s r : Text} {x : Number}

theorem eq_float_of_map (h : (float? minus whole fraction 0).map (·, s) = some (x, r)) :
    (∃ y, x = .float minus y) ∧ s = r := by
  obtain ⟨y, hy, h⟩ := Option.map_eq_some_iff.1 h
  cases h
  exact ⟨float?_eq_float hy, rfl⟩

theorem eq_float_of_bind {e : Char} (he : e = 'e' ∨ e = 'E')
    (h : ((exponent? s).bind fun n => (float? minus whole fraction n.1).map (·, n.2)) = some (x, r)) :
    (∃ y, x = .float minus y) ∧ Exponent (e :: s) r := by
  obtain ⟨⟨n, r'⟩, hn, h⟩ := Option.bind_eq_some_iff.1 h
  obtain ⟨y, hy, h⟩ := Option.map_eq_some_iff.1 h
  cases h
  exact ⟨float?_eq_float hy, exponent_of_exponent? he hn⟩

end

theorem numeral_of_unsigned {minus : Bool} {s r : Text} {x : Number}
    (h : unsignedNumber? minus s = some (x, r)) : Numeral (sign minus ++ s) x r := by
  have hs : s.takeWhile isDigit ++ s.dropWhile isDigit = s := List.takeWhile_append_dropWhile
  unfold unsignedNumber? at h
  dsimp only at h
  split at h
  · cases h
  · cases h
  rename_i hne hstart
  obtain ⟨n, hn⟩ := exists_ofNat (areDigits_takeWhile hne) fun d r => hstart d r
  rw [hn, if_neg (by decide)] at h
  rw [← hs, hn]
  generalize s.dropWhile isDigit = rest at h
  -- The digits are followed by a point, by the letter of an exponent, or by what is no part of the number.
  split at h
  · split at h
    · cases h
    rename_i hfraction
    have hf := fraction_of_takeWhile hfraction
    split at h
    · rename_i hr'
      rw [hr'] at hf
      split at h
      · rename_i he
        obtain ⟨⟨y, rfl⟩, hexp⟩ := eq_float_of_bind he h
        exact .decimal n y (.both hf hexp)
      · obtain ⟨⟨y, rfl⟩, rfl⟩ := eq_float_of_map h
        exact .decimal n y (.fraction hf)
    · rename_i hr'
      rw [hr'] at hf
      obtain ⟨⟨y, rfl⟩, rfl⟩ := eq_float_of_map h
      exact .decimal n y (.fraction hf)
  · split at h
    · rename_i he
      obtain ⟨⟨y, rfl⟩, hexp⟩ := eq_float_of_bind he h
      exact .decimal n y (.exponent hexp)
    · obtain ⟨y, hy, h⟩ := Option.map_eq_some_iff.1 h
      cases h
      exact numeral_of_integer _ hy
  · obtain ⟨y, hy, h⟩ := Option.map_eq_some_iff.1 h
    cases h
    exact numeral_of_integer _ hy

theorem numeral_of_number? {s r : Text} {x : Number} (h : number? s = some (x, r)) : Numeral s x r := by
  unfold number? at h
  split at h
  · exact numeral_of_unsigned h
  · exact numeral_of_unsigned h

/-! ## Values

One induction on the fuel carries the three functions at once; before it stands the step of each. -/

theorem readValue_skipBlank (fuel : Nat) (s : Text) :
    readValue fuel (skipBlank s) = readValue fuel s := by
  cases fuel with
  | zero => rfl
  | succ fuel => rw [readValue, readValue, skipBlank_skipBlank]

theorem readItems_skipBlank (fuel : Nat) (s : Text) :
    readItems fuel (skipBlank s) = readItems fuel s := by
  cases fuel with
  | zero => rfl
  | succ fuel => rw [readItems, readItems, readValue_skipBlank]

theorem readMembers_skipBlank (fuel : Nat) (s : Text) :
    readMembers fuel (skipBlank s) = readMembers fuel s := by
  cases fuel with
  | zero => rfl
  | succ fuel => rw [readMembers, readMembers, skipBlank_skipBlank]

section
variable {fuel : Nat}
  (hvalue : ∀ s v r, readValue fuel s = (v, some r) → ∃ s', Blanks s s' ∧ Value s' v r)
  (hitems : ∀ s vs r, readItems fuel s = (vs, some r) → Elements s vs (']' :: r))
  (hmembers : ∀ s ms r, readMembers fuel s = (ms, some r) → Grammar.Members s ms ('\x7d' :: r))

include hitems hmembers in
theorem value_of_readValue_succ (s : Text) (v : Json) (r : Text) (h : readValue (fuel + 1) s = (v, some r)) :
    ∃ s', Blanks s s' ∧ Value s' v r := by
  refine ⟨skipBlank s, blanks_skipBlank s, ?_⟩
  unfold readValue at h
  split at h
  · rename_i hs
    cases h
    rw [hs]
    exact .null r
  · rename_i hs
    cases h
    rw [hs]
    exact .true r
  · rename_i hs
    cases h
    rw [hs]
    exact .false r
  · rename_i q hs
    rw [hs]
    split at h
    · rename_i hq
      cases h
      exact .string (characters_of_quoted _ _ _ hq)
    · cases h
  · rename_i q hs
    rw [hs]
    split at h
    · rename_i hq
      cases h
      exact .emptyArray (blanks_of_skipBlank hq)
    · rw [readItems_skipBlank] at h
      cases hread : readItems fuel q with
      | mk vs r' =>
        rw [hread] at h
        cases h
        exact .array (hitems q vs r hread)
  · rename_i q hs
    rw [hs]
    split at h
    · rename_i hq
      cases h
      exact .emptyObject (blanks_of_skipBlank hq)
    · rw [readMembers_skipBlank] at h
      cases hread : readMembers fuel q with
      | mk ms r' =>
        rw [hread] at h
        cases h
        exact .object (hmembers q ms r hread)
  · split at h
    · rename_i hn
      cases h
      exact .number (numeral_of_number? hn)
    · cases h

include hvalue in
theorem element_of_readValue {s r r' : Text} {v : Json} (h : readValue fuel s = (v, some r'))
    (hr : skipBlank r' = r) : Element s v r := by
  obtain ⟨s', hs, hv⟩ := hvalue s v r' h
  exact .mk hs hv (blanks_of_skipBlank hr)

include hvalue hitems in
theorem elements_of_readItems_succ (s : Text) (vs : Items) (r : Text)
    (h : readItems (fuel + 1) s = (vs, some r)) : Elements s vs (']' :: r) := by
  unfold readItems at h
  split at h
  · cases h
  rename_i v r' hv
  split at h
  · rename_i hr
    cases h
    exact .one (element_of_readValue hvalue hv hr)
  · rename_i q hr
    have helement := element_of_readValue hvalue hv hr
    split at h
    · cases h
    rw [readItems_skipBlank] at h
    cases hread : readItems fuel q with
    | mk vs r' =>
      rw [hread] at h
      cases h
      exact .more helement (hitems q vs r hread)
  · cases h

include hvalue hmembers in
theorem members_of_readMembers_succ (s : Text) (ms : Members) (r : Text)
    (h : readMembers (fuel + 1) s = (ms, some r)) : Grammar.Members s ms ('\x7d' :: r) := by
  unfold readMembers at h
  split at h
  · rename_i hs
    split at h
    · cases h
    rename_i hq
    have hk := characters_of_quoted _ _ _ hq
    split at h
    · rename_i hcolon
      split at h
      · cases h
      rename_i hv
      split at h
      · rename_i hr
        cases h
        have helement := element_of_readValue hvalue hv hr
        exact .one (.mk (blanks_of_skipBlank hs) hk (blanks_of_skipBlank hcolon) helement)
      · rename_i q hr
        have helement := element_of_readValue hvalue hv hr
        cases hread : readMembers fuel q with
        | mk ms r' =>
          rw [hread] at h
          cases h
          exact .more (.mk (blanks_of_skipBlank hs) hk (blanks_of_skipBlank hcolon) helement)
            (hmembers q ms r hread)
      · cases h
    · cases h
  · cases h

end

theorem reading_sound (fuel : Nat) :
    (∀ s v r, readValue fuel s = (v, some r) → ∃ s', Blanks s s' ∧ Value s' v r) ∧
    (∀ s vs r, readItems fuel s = (vs, some r) → Elements s vs (']' :: r)) ∧
    (∀ s ms r, readMembers fuel s = (ms, some r) → Grammar.Members s ms ('\x7d' :: r)) := by
  induction fuel with
  | zero =>
    refine ⟨?_, ?_, ?_⟩
    · intro s v r h; cases h
    · intro s vs r h; cases h
    · intro s ms r h; cases h
  | succ fuel ih =>
    obtain ⟨hvalue, hitems, hmembers⟩ := ih
    exact ⟨value_of_readValue_succ hitems hmembers, elements_of_readItems_succ hvalue hitems,
      members_of_readMembers_succ hvalue hmembers⟩

/-- The reader takes only what is JSON, and for what it is. -/
theorem element_of_parse? {s : Text} {v : Json} (h : parse? s = some v) : Element s v [] := by
  have hvalue := (reading_sound (2 * s.length + 2)).1
  unfold parse? read at h
  cases hread : readValue (2 * s.length + 2) s with
  | mk v' o =>
    rw [hread] at h
    cases o with
    | none => cases h
    | some r =>
      by_cases hr : skipBlank r = []
      · simp only [hr, decide_true, Option.some.injEq] at h
        rw [← h]
        exact element_of_readValue hvalue hread hr
      · simp [hr] at h

end TriBench.Json
