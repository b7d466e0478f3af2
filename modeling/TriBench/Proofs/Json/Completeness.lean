import TriBench.Proofs.Json.Grammar

/-!
# The reader takes all of JSON

A value whose numbers are integers of 64 bits is read from every text that the grammar gives it. The
fuel of the reader suffices because each nested value is shorter than the text that holds it. Main
statement: `parse?_eq_some_iff`.
-/

namespace TriBench.Json

open Grammar

mutual

def IsExact : Json → Prop
  | .number n => n.IsInteger
  | .array items => items.AreExact
  | .object members => members.AreExact
  | .broken => False
  | _ => True

def Items.AreExact : Items → Prop
  | .nil => True
  | .cons v vs => v.IsExact ∧ vs.AreExact
  | .broken => False

def Members.AreExact : Members → Prop
  | .nil => True
  | .cons _ v ms => v.IsExact ∧ ms.AreExact
  | .broken => False

end

theorem Members.areExact_ofList {ms : List (Text × Json)} (h : ∀ m ∈ ms, m.2.IsExact) :
    (ofList ms).AreExact := by
  induction ms with
  | nil => trivial
  | cons m ms ih => exact ⟨h m (List.mem_cons_self ..), ih fun m' hm => h m' (List.mem_cons_of_mem m hm)⟩

def Items.toList : Items → List Json
  | .cons v vs => v :: vs.toList
  | _ => []

def Members.toList : Members → List (Text × Json)
  | .cons k v ms => (k, v) :: ms.toList
  | _ => []

theorem Items.toList_ofList (vs : List Json) : (ofList vs).toList = vs := by
  induction vs with
  | nil => rfl
  | cons v vs ih => rw [ofList, toList, ih]

theorem Members.toList_ofList (ms : List (Text × Json)) : (ofList ms).toList = ms := by
  induction ms with
  | nil => rfl
  | cons m ms ih => rw [ofList, toList, ih]

/-! ## Blanks -/

theorem isBlank_of_mem {c : Char} (h : c ∈ [' ', '\t', '\n', '\r']) : isBlank c := by
  simp only [List.mem_cons, List.not_mem_nil, or_false] at h
  rcases h with rfl | rfl | rfl | rfl <;> rfl

theorem skipBlank_of_blanks {s r : Text} (h : Blanks s r) : skipBlank s = skipBlank r := by
  induction h with
  | none s => rfl
  | more hc _ ih =>
    rw [← ih]
    exact List.dropWhile_cons_of_pos (isBlank_of_mem hc)

theorem length_of_blanks {s r : Text} (h : Blanks s r) : r.length ≤ s.length := by
  induction h with
  | none s => exact Nat.le_refl _
  | more _ _ ih => exact Nat.le_succ_of_le ih

/-- Blanks do not go on with a number. -/
theorem endsNumber_of_blanks {s r : Text} (h : Blanks s r) (hr : EndsNumber r) : EndsNumber s := by
  cases h with
  | none => exact hr
  | more hc _ =>
    simp only [List.mem_cons, List.not_mem_nil, or_false] at hc
    rcases hc with rfl | rfl | rfl | rfl <;> exact endsNumber_cons (by decide) _

/-! ## Strings -/

theorem hexValue?_of_isHex {c : Char} {n : Nat} (h : IsHex c n) : hexValue? c = some n := by
  obtain ⟨hn, hc⟩ := h
  have hall : ∀ k < 16, hexValue? k.digitChar = some k ∧ hexValue? k.digitChar.toUpper = some k := by decide
  rcases hc with rfl | rfl
  · exact (hall n hn).1
  · exact (hall n hn).2

theorem hex4?_of_isHex {a b c d : Char} {i j k l : Nat} (ha : IsHex a i) (hb : IsHex b j) (hc : IsHex c k)
    (hd : IsHex d l) : hex4? a b c d = some (4096 * i + 256 * j + 16 * k + l) := by
  simp only [hex4?, hexValue?_of_isHex ha, hexValue?_of_isHex hb, hexValue?_of_isHex hc,
    hexValue?_of_isHex hd]
  rfl

theorem quoted_of_character {s r : Text} {c : Char} (h : Character s c r) :
    quoted s = (quoted r).map fun p => (c :: p.1, p.2) := by
  cases h with
  | plain r h hquote hslash =>
    have hc : ¬ c.toNat < 32 := Nat.not_lt.2 h
    simp [quoted, hc, hslash]
  | short r h =>
    simp only [escapes, List.mem_cons, Prod.mk.injEq, List.not_mem_nil, or_false] at h
    rcases h with ⟨rfl, rfl⟩ | ⟨rfl, rfl⟩ | ⟨rfl, rfl⟩ | ⟨rfl, rfl⟩ | ⟨rfl, rfl⟩ | ⟨rfl, rfl⟩ | ⟨rfl, rfl⟩ |
      ⟨rfl, rfl⟩
    all_goals simp [quoted, simpleEscape?]
  | unit h hn =>
    cases h with
    | digits r ha hb hc hd => exact quoted_hex4 (hex4?_of_isHex ha hb hc hd) hn r
  | pair h h' hhigh hlow =>
    cases h with
    | digits r ha hb hc hd =>
      cases h' with
      | digits r ha' hb' hc' hd' =>
        rw [quoted, hex4?_of_isHex ha hb hc hd]
        simp only [hhigh, hex4?_of_isHex ha' hb' hc' hd', hlow, and_self, if_true]

theorem quoted_of_characters {s t r : Text} (h : Characters s t r) : quoted s = some (t, r) := by
  induction h with
  | close r => rw [quoted]
  | cons hc _ ih => rw [quoted_of_character hc, ih, Option.map_some]

theorem length_of_character {s r : Text} {c : Char} (h : Character s c r) : r.length < s.length := by
  cases h with
  | plain | short => simp only [List.length_cons]; omega
  | unit h => cases h; simp only [List.length_cons]; omega
  | pair h h' => cases h; cases h'; simp only [List.length_cons]; omega

theorem length_of_characters {s t r : Text} (h : Characters s t r) : r.length < s.length := by
  induction h with
  | close r => exact Nat.lt_succ_self _
  | cons hc _ ih => exact Nat.lt_trans ih (length_of_character hc)

/-! ## Numbers -/

theorem eq_text_append {s r : Text} {n : Number} (h : Numeral s n r) (hn : n.IsInteger) :
    s = n.text ++ r := by
  cases h with
  | natural => rfl
  | negative r hpos =>
    obtain ⟨k, rfl⟩ := Nat.exists_eq_add_of_lt hpos
    rw [Nat.zero_add]
    rfl
  | large => exact hn.elim
  | decimal => exact hn.elim

/-! ## Lengths -/

theorem number_text_begins {n : Number} (h : n.IsInteger) :
    ∃ c r, n.text = c :: r ∧ (isDigit c ∨ c = '-') := by
  cases n with
  | natural n =>
    cases hd : Text.ofNat n with
    | nil => exact absurd hd (Text.ofNat_ne_nil n)
    | cons c r =>
      exact ⟨c, r, hd, .inl (isDigit_of_mem_ofNat (n := n) (by rw [hd]; exact List.mem_cons_self ..))⟩
  | negative i =>
    obtain ⟨m, rfl⟩ := Int.eq_negSucc_of_lt_zero h.1
    exact ⟨'-', _, rfl, .inr rfl⟩
  | float => exact h.elim

section
variable {v : Json} (hv : ∀ {s r : Text}, Value s v r → r.length < s.length) {s r k : Text}
include hv

theorem length_of_element (h : Element s v r) : r.length < s.length := by
  obtain ⟨hb, h, hb'⟩ := h
  have h₁ := length_of_blanks hb
  have h₂ := hv h
  have h₃ := length_of_blanks hb'
  omega

theorem length_of_member (h : Member s k v r) : r.length < s.length := by
  obtain ⟨hs, hk, hc, h⟩ := h
  have h₁ := length_of_blanks hs
  have h₂ := length_of_characters hk
  have h₃ := length_of_blanks hc
  have h₄ := length_of_element hv h
  simp only [List.length_cons] at h₁ h₃
  omega

end

mutual

theorem length_of_value : ∀ v : Json, v.IsExact → ∀ {s r : Text}, Value s v r → r.length < s.length
  | .null, _, _, _, h => by cases h; simp only [List.length_cons]; omega
  | .bool b, _, _, _, h => by cases h <;> simp only [List.length_cons] <;> omega
  | .number n, hn, s, r, h => by
    cases h with
    | number h =>
      obtain ⟨c, t, ht, -⟩ := number_text_begins hn
      rw [eq_text_append h hn, ht]
      simp only [List.cons_append, List.length_cons, List.length_append]
      omega
  | .string t, _, _, _, h => by
    cases h with
    | string h => exact Nat.lt_succ_of_lt (length_of_characters h)
  | .array vs, hvs, _, _, h => by
    cases h with
    | emptyArray h => exact Nat.lt_succ_of_lt (length_of_blanks h)
    | array h => exact Nat.lt_succ_of_lt (Nat.lt_of_succ_lt (length_of_elements vs hvs h))
  | .object ms, hms, _, _, h => by
    cases h with
    | emptyObject h => exact Nat.lt_succ_of_lt (length_of_blanks h)
    | object h => exact Nat.lt_succ_of_lt (Nat.lt_of_succ_lt (length_of_members ms hms h))

theorem length_of_elements : ∀ vs : Items, vs.AreExact → ∀ {s r : Text}, Elements s vs r → r.length < s.length
  | .nil, _, _, _, h => by cases h
  | .cons v vs, hvs, s, r, h => by
    cases h with
    | one h => exact length_of_element (length_of_value v hvs.1) h
    | more h h' =>
      have h₁ := length_of_element (length_of_value v hvs.1) h
      have h₂ := length_of_elements vs hvs.2 h'
      rw [List.length_cons] at h₁
      omega

theorem length_of_members : ∀ ms : Members, ms.AreExact →
    ∀ {s r : Text}, Grammar.Members s ms r → r.length < s.length
  | .nil, _, _, _, h => by cases h
  | .cons k v ms, hms, s, r, h => by
    cases h with
    | one h => exact length_of_member (length_of_value v hms.1) h
    | more h h' =>
      have h₁ := length_of_member (length_of_value v hms.1) h
      have h₂ := length_of_members ms hms.2 h'
      rw [List.length_cons] at h₁
      omega

end

/-! ## How values begin -/

theorem not_special {c : Char} (h : isDigit c ∨ c = '-') :
    isBlank c = false ∧ c ∉ ['n', 't', 'f', '"', '[', ']', '\x7b'] := by
  constructor
  · rw [Bool.eq_false_iff]
    intro hc
    simp only [isBlank, Bool.or_eq_true, decide_eq_true_eq] at hc
    rcases hc with ((rfl | rfl) | rfl) | rfl <;> exact absurd h (by decide)
  · intro hc
    simp only [List.mem_cons, List.not_mem_nil, or_false] at hc
    rcases hc with rfl | rfl | rfl | rfl | rfl | rfl | rfl <;> exact absurd h (by decide)

/-- A value does not start with a blank or with the end of an array. -/
theorem value_begins {s r : Text} {v : Json} (h : Value s v r) (hv : v.IsExact) :
    ∃ c t, s = c :: t ∧ isBlank c = false ∧ c ≠ ']' := by
  cases h with
  | number h =>
    obtain ⟨c, t, ht, hc⟩ := number_text_begins hv
    obtain ⟨hblank, hspecial⟩ := not_special hc
    rw [eq_text_append h hv, ht]
    exact ⟨c, t ++ r, rfl, hblank, fun he => hspecial (by simp [he])⟩
  | _ => exact ⟨_, _, rfl, rfl, by decide⟩

theorem skipBlank_of_elements {s r : Text} {vs : Items} (h : Elements s vs r) (hvs : vs.AreExact)
    (r' : Text) :
    skipBlank s ≠ ']' :: r' := by
  have hone : ∀ {r v}, Element s v r → v.IsExact → skipBlank s ≠ ']' :: r' := by
    intro r v h hv he
    obtain ⟨hb, h, -⟩ := h
    obtain ⟨c, t, ht, hblank, hc⟩ := value_begins h hv
    rw [skipBlank_of_blanks hb, ht, skipBlank_cons hblank] at he
    cases he
    exact hc rfl
  cases h with
  | one h => exact hone h hvs.1
  | more h _ => exact hone h hvs.1

theorem skipBlank_of_members {s r : Text} {ms : Members} (h : Grammar.Members s ms r) (r' : Text) :
    skipBlank s ≠ '\x7d' :: r' := by
  have hone : ∀ {r k v}, Member s k v r → skipBlank s ≠ '\x7d' :: r' := by
    intro r k v h he
    obtain ⟨hs, -, -, -⟩ := h
    rw [skipBlank_of_blanks hs, skipBlank_cons (by decide)] at he
    cases he
  cases h with
  | one h => exact hone h
  | more h _ => exact hone h

/-! ## Steps of the reader -/

theorem readValue_number {fuel : Nat} {n : Number} (h : n.IsInteger) {r : Text} (hr : EndsNumber r) :
    readValue (fuel + 1) (n.text ++ r) = (.number n, some r) := by
  have hn := number?_text h hr
  obtain ⟨c, r', ht, hc⟩ := number_text_begins h
  obtain ⟨hblank, hspecial⟩ := not_special hc
  rw [ht] at hn ⊢
  rw [readValue, List.cons_append, skipBlank_cons hblank]
  have hne : ∀ {d : Char} {s s' : Text}, c :: s = d :: s' →
      d ∈ ['n', 't', 'f', '"', '[', ']', '\x7b'] → False := by
    intro d s s' h hd
    cases h
    exact hspecial hd
  split
  · exact (hne ‹_› (by simp)).elim
  · exact (hne ‹_› (by simp)).elim
  · exact (hne ‹_› (by simp)).elim
  · exact (hne ‹_› (by simp)).elim
  · exact (hne ‹_› (by simp)).elim
  · exact (hne ‹_› (by simp)).elim
  · rw [← List.cons_append, hn]

theorem readValue_string {fuel : Nat} {s t r : Text} (h : quoted s = some (t, r)) :
    readValue (fuel + 1) ('"' :: s) = (.string t, some r) := by
  rw [readValue, skipBlank_cons (by decide)]
  simp only [h]

theorem readValue_array {fuel : Nat} {s : Text} (h : ∀ r, skipBlank s ≠ ']' :: r) :
    readValue (fuel + 1) ('[' :: s) = (.array (readItems fuel s).1, (readItems fuel s).2) := by
  rw [readValue, skipBlank_cons (by decide)]
  simp only [readItems_skipBlank]

theorem readValue_object {fuel : Nat} {s : Text} (h : ∀ r, skipBlank s ≠ '\x7d' :: r) :
    readValue (fuel + 1) ('\x7b' :: s) = (.object (readMembers fuel s).1, (readMembers fuel s).2) := by
  rw [readValue, skipBlank_cons (by decide)]
  simp only [readMembers_skipBlank]

theorem readValue_empty {fuel : Nat} {s r : Text} (h : skipBlank s = ']' :: r) :
    readValue (fuel + 1) ('[' :: s) = (.array .nil, some r) := by
  rw [readValue, skipBlank_cons (by decide)]
  simp only [h]

theorem readValue_memberless {fuel : Nat} {s r : Text} (h : skipBlank s = '\x7d' :: r) :
    readValue (fuel + 1) ('\x7b' :: s) = (.object .nil, some r) := by
  rw [readValue, skipBlank_cons (by decide)]
  simp only [h]

section
variable {fuel : Nat} {s e r : Text} {v : Json}

theorem readItems_last (hv : readValue fuel s = (v, some e)) (he : skipBlank e = ']' :: r) :
    readItems (fuel + 1) s = (.cons v .nil, some r) := by
  rw [readItems, hv]
  dsimp only
  rw [he]
  rfl

theorem readItems_more (hv : readValue fuel s = (v, some e)) (he : skipBlank e = ',' :: r)
    (hr : ∀ r', skipBlank r ≠ ']' :: r') :
    readItems (fuel + 1) s = (.cons v (readItems fuel r).1, (readItems fuel r).2) := by
  rw [readItems, hv]
  dsimp only
  rw [he]
  simp only [readItems_skipBlank]

variable {k q q' p : Text} (hs : skipBlank s = '"' :: q) (hq : quoted q = some (k, q'))
  (hc : skipBlank q' = ':' :: p) (hv : readValue fuel p = (v, some e))
include hs hq hc hv

theorem readMembers_last (he : skipBlank e = '\x7d' :: r) :
    readMembers (fuel + 1) s = (.cons k v .nil, some r) := by
  rw [readMembers, hs]
  simp only [hq, hc, hv, he]

theorem readMembers_more (he : skipBlank e = ',' :: r) :
    readMembers (fuel + 1) s = (.cons k v (readMembers fuel r).1, (readMembers fuel r).2) := by
  rw [readMembers, hs]
  simp only [hq, hc, hv, he]

end

/-! ## Reading what the grammar gives -/

def IsRead (fuel : Nat) (v : Json) : Prop :=
  ∀ ⦃s r : Text⦄, Value s v r → s.length ≤ fuel + r.length → EndsNumber r → readValue fuel s = (v, some r)

/-- A value between blanks. What follows is no blank. -/
theorem readValue_of_element {v : Json} {fuel : Nat} {s r : Text} (hv : IsRead fuel v)
    (h : Element s v r) (hf : s.length ≤ fuel + r.length) (hr : EndsNumber r) (hb : skipBlank r = r) :
    ∃ e, readValue fuel s = (v, some e) ∧ skipBlank e = r := by
  obtain ⟨hs, h, he⟩ := h
  have h₁ := length_of_blanks hs
  have h₂ := length_of_blanks he
  have hread := hv h (by omega) (endsNumber_of_blanks he hr)
  rw [← readValue_skipBlank, ← skipBlank_of_blanks hs, readValue_skipBlank] at hread
  exact ⟨_, hread, by rw [skipBlank_of_blanks he, hb]⟩

theorem readValue_before {v : Json} {fuel : Nat} {s r : Text} {c : Char} (hv : IsRead fuel v)
    (h : Element s v (c :: r)) (hc : c ∈ [',', ']', '\x7d']) (hf : s.length ≤ fuel + r.length + 1) :
    ∃ e, readValue fuel s = (v, some e) ∧ skipBlank e = c :: r := by
  have hends : isBlank c = false ∧ isDigit c = false ∧ c ≠ '.' ∧ c ≠ 'e' ∧ c ≠ 'E' := by
    simp only [List.mem_cons, List.not_mem_nil, or_false] at hc
    rcases hc with rfl | rfl | rfl <;> decide
  apply readValue_of_element hv h
  · rw [List.length_cons]; omega
  · exact endsNumber_cons hends.2 r
  · exact skipBlank_cons hends.1 r

theorem scan_of_member {s r k : Text} {v : Json} (h : Member s k v r) :
    ∃ q q' p, skipBlank s = '"' :: q ∧ quoted q = some (k, q') ∧ skipBlank q' = ':' :: p ∧
      Element p v r ∧ p.length < s.length := by
  obtain ⟨hs, hk, hc, helement⟩ := h
  have h₁ := length_of_blanks hs
  have h₂ := length_of_characters hk
  have h₃ := length_of_blanks hc
  simp only [List.length_cons] at h₁ h₃
  refine ⟨_, _, _, ?_, quoted_of_characters hk, ?_, helement, by omega⟩
  · rw [skipBlank_of_blanks hs, skipBlank_cons (by decide)]
  · rw [skipBlank_of_blanks hc, skipBlank_cons (by decide)]

mutual

theorem readValue_of_value : ∀ v : Json, v.IsExact → ∀ {fuel : Nat} {s r : Text}, Value s v r →
    s.length ≤ fuel + r.length → EndsNumber r → readValue fuel s = (v, some r)
  | v, hv, 0, s, r, h, hf, _ => by
    have hlt := length_of_value v hv h
    omega
  | .null, _, fuel + 1, _, _, h, _, _ => by cases h; rfl
  | .bool b, _, fuel + 1, _, _, h, _, _ => by cases h <;> rfl
  | .number n, hn, fuel + 1, s, r, h, _, hr => by
    cases h with
    | number h =>
      rw [eq_text_append h hn]
      exact readValue_number hn hr
  | .string t, _, fuel + 1, _, _, h, _, _ => by
    cases h with
    | string h => exact readValue_string (quoted_of_characters h)
  | .array vs, hvs, fuel + 1, _, r, h, hf, _ => by
    cases h with
    | emptyArray h =>
      apply readValue_empty
      rw [skipBlank_of_blanks h, skipBlank_cons (by decide)]
    | array h =>
      rw [List.length_cons] at hf
      rw [readValue_array (skipBlank_of_elements h hvs), readItems_of_elements vs hvs h (by omega)]
  | .object ms, hms, fuel + 1, _, r, h, hf, _ => by
    cases h with
    | emptyObject h =>
      apply readValue_memberless
      rw [skipBlank_of_blanks h, skipBlank_cons (by decide)]
    | object h =>
      rw [List.length_cons] at hf
      rw [readValue_object (skipBlank_of_members h), readMembers_of_members ms hms h (by omega)]

theorem readItems_of_elements : ∀ vs : Items, vs.AreExact → ∀ {fuel : Nat} {s r : Text},
    Elements s vs (']' :: r) → s.length ≤ fuel + r.length → readItems fuel s = (vs, some r)
  | vs, hvs, 0, s, r, h, hf => by
    have hlt := length_of_elements vs hvs h
    rw [List.length_cons] at hlt
    omega
  | .nil, _, fuel + 1, _, _, h, _ => by cases h
  | .cons v vs, hvs, fuel + 1, s, r, h, hf => by
    have hv : IsRead fuel v := fun _ _ => readValue_of_value v hvs.1
    cases h with
    | one h =>
      obtain ⟨e, hread, he⟩ := readValue_before hv h (by simp) (by omega)
      exact readItems_last hread he
    | more h h' =>
      -- The value and the items after it are each shorter than the text, by the comma at least.
      have hlt := length_of_elements vs hvs.2 h'
      have hlt' := length_of_element (length_of_value v hvs.1) h
      simp only [List.length_cons] at hlt hlt'
      obtain ⟨e, hread, he⟩ := readValue_before hv h (by simp) (by omega)
      rw [readItems_more hread he (skipBlank_of_elements h' hvs.2),
        readItems_of_elements vs hvs.2 h' (by omega)]

theorem readMembers_of_members : ∀ ms : Members, ms.AreExact → ∀ {fuel : Nat} {s r : Text},
    Grammar.Members s ms ('\x7d' :: r) → s.length ≤ fuel + r.length → readMembers fuel s = (ms, some r)
  | ms, hms, 0, s, r, h, hf => by
    have hlt := length_of_members ms hms h
    rw [List.length_cons] at hlt
    omega
  | .nil, _, fuel + 1, _, _, h, _ => by cases h
  | .cons k v ms, hms, fuel + 1, s, r, h, hf => by
    have hv : IsRead fuel v := fun _ _ => readValue_of_value v hms.1
    cases h with
    | one h =>
      obtain ⟨q, q', p, hs, hq, hc, helement, hp⟩ := scan_of_member h
      obtain ⟨e, hread, he⟩ := readValue_before hv helement (by simp) (by omega)
      exact readMembers_last hs hq hc hread he
    | more h h' =>
      have hlt := length_of_members ms hms.2 h'
      have hlt' := length_of_member (length_of_value v hms.1) h
      simp only [List.length_cons] at hlt hlt'
      obtain ⟨q, q', p, hs, hq, hc, helement, hp⟩ := scan_of_member h
      obtain ⟨e, hread, he⟩ := readValue_before hv helement (by simp) (by omega)
      rw [readMembers_more hs hq hc hread he, readMembers_of_members ms hms.2 h' (by omega)]

end

/-- A value whose numbers are integers of 64 bits is what a text reads as exactly where the grammar
says so. -/
theorem parse?_eq_some_iff {s : Text} {v : Json} (hv : v.IsExact) : parse? s = some v ↔ Element s v [] := by
  refine ⟨element_of_parse?, fun h => ?_⟩
  have hf : s.length ≤ 2 * s.length + 2 + ([] : Text).length := by rw [List.length_nil]; omega
  obtain ⟨e, hread, he⟩ := readValue_of_element (fun _ _ => readValue_of_value v hv) h hf endsNumber_nil rfl
  unfold parse? read
  rw [hread]
  simp only [he, decide_true]

/-! ## What is in an object -/

theorem exists_element_of_mem : ∀ (members : Members) {s r : Text}, Grammar.Members s members r →
    ∀ m ∈ members.toList, ∃ s' r', Element s' m.2 r'
  | .nil, _, _, h => by cases h
  | .broken, _, _, h => by cases h
  | .cons k v members, s, r, h => by
    intro m hm
    rcases List.mem_cons.1 hm with rfl | hm
    · have hmember : ∃ r', Member s k v r' := by
        cases h with
        | one h => exact ⟨r, h⟩
        | more h _ => exact ⟨_, h⟩
      obtain ⟨r', -, -, -, helement⟩ := hmember
      exact ⟨_, r', helement⟩
    · cases h with
      | one => cases hm
      | more _ h => exact exists_element_of_mem members h m hm

/-- A natural number in an object fits in 64 bits. -/
theorem natural_lt_of_mem {s r k : Text} {members : Members} {n : Nat} (h : Element s (.object members) r)
    (hm : (k, .number (.natural n)) ∈ members.toList) : n < Nat.pow 2 64 := by
  obtain ⟨-, hobject, -⟩ := h
  cases hobject with
  | emptyObject => cases hm
  | object hmembers =>
    obtain ⟨_, _, -, hvalue, -⟩ := exists_element_of_mem members hmembers _ hm
    cases hvalue with
    | number hnumber =>
      cases hnumber with
      | natural _ hn => exact hn

end TriBench.Json
