import Mathlib.Data.List.Forall2
import Mathlib.Data.List.Nodup
import TriBench.Json.Schema
import TriBench.Proofs.Json.Completeness

/-!
# What a record type takes from JSON

A record is read from members under distinct names that the type has, and from the items of an array
as the members under its first names. Main statements: `Lawful.readMembers_eq_ok` and
`Lawful.readItems_eq_ok`, for a type of which it is known which values its fields take and what they
do to a record.
-/

namespace TriBench.Json

def ofTexts (ss : List Text) : Json := .array (Items.ofList (ss.map .string))

/-! ## Values that decode -/

theorem mismatch_ne_ok {α : Type} (expected : Text) (v : Json) (x : α) : mismatch expected v ≠ .ok x := by
  cases v <;> exact nofun

theorem textAs_eq_ok {expected : Text} {v : Json} {s : Text} :
    textAs expected v = .ok s ↔ v = .string s := by
  constructor
  · intro h
    cases v with
    | string t => cases h; rfl
    | _ => cases h
  · rintro rfl
    rfl

theorem decodeText_eq_ok (v : Json) (s : Text) : decodeText v = .ok s ↔ v = .string s := textAs_eq_ok

theorem decodeChar_eq_ok (v : Json) (c : Char) : decodeChar v = .ok c ↔ v = .string [c] := by
  constructor
  · intro h
    unfold decodeChar at h
    split at h
    · cases h; rfl
    · cases h
    · exact absurd h (mismatch_ne_ok _ _ _)
  · rintro rfl
    rfl

theorem decodeNat_eq_ok (v : Json) (n : Nat) : decodeNat v = .ok n ↔ v = .number (.natural n) := by
  constructor
  · intro h
    unfold decodeNat at h
    split at h
    · cases h; rfl
    · cases h
    · exact absurd h (mismatch_ne_ok _ _ _)
  · rintro rfl
    rfl

theorem decodeItems_ofList (ss : List Text) : decodeItems decodeText (.ofList (ss.map .string)) = .ok ss := by
  induction ss with
  | nil => rfl
  | cons s ss ih =>
    rw [List.map_cons, Items.ofList, decodeItems, decodeText, textAs]
    dsimp only
    rw [← decodeText, ih]
    rfl

theorem eq_ofList_of_decodeItems : ∀ {vs : Items} {ss : List Text},
    decodeItems decodeText vs = .ok ss → vs = .ofList (ss.map .string)
  | .nil, _, h => by cases h; rfl
  | .broken, _, h => by cases h
  | .cons v vs, ss, h => by
    rw [decodeItems] at h
    split at h
    · cases h
    rename_i s hs
    cases hvs : decodeItems decodeText vs with
    | error e => rw [hvs] at h; cases h
    | ok ss' =>
      rw [hvs] at h
      cases h
      rw [textAs_eq_ok.1 hs, eq_ofList_of_decodeItems hvs]
      rfl

theorem decodeTexts_eq_ok (v : Json) (ss : List Text) :
    decodeList decodeText v = .ok ss ↔ v = ofTexts ss := by
  constructor
  · intro h
    cases v with
    | array vs => exact congrArg Json.array (eq_ofList_of_decodeItems h)
    | _ => cases h
  · rintro rfl
    exact decodeItems_ofList ss

theorem ok_of_map_ok {α β : Type} {x : Except ReadError α} {f : α → β} {b : β} (h : x.map f = .ok b) :
    ∃ a, x = .ok a ∧ f a = b := by
  cases x with
  | error e => cases h
  | ok a => cases h; exact ⟨a, rfl, rfl⟩

namespace Schema

variable {σ : Type} {sc : Schema σ}

/-! ## The members of an object -/

theorem exists_ofList_of_readMembers : ∀ {members : Members} {seen : List Text} {s s' : σ},
    sc.readMembers seen s members = .ok s' → ∃ ms, members = .ofList ms
  | .nil, _, _, _, _ => ⟨[], rfl⟩
  | .broken, _, _, _, h => by cases h
  | .cons k v members, seen, s, s', h => by
    rw [readMembers] at h
    split at h
    · cases h
    split at h
    · cases h
    split at h
    · cases h
    obtain ⟨ms, rfl⟩ := exists_ofList_of_readMembers h
    exact ⟨(k, v) :: ms, rfl⟩

theorem find?_name {f : Field σ} : ∀ {fs : List (Field σ)}, (fs.map Field.name).Nodup → f ∈ fs →
    fs.find? (fun g => g.name = f.name) = some f
  | g :: fs, hnames, hf => by
    obtain ⟨hg, hnames⟩ := List.nodup_cons.1 hnames
    rcases List.mem_cons.1 hf with rfl | hf
    · exact List.find?_cons_of_pos (decide_eq_true rfl)
    · have hne : g.name ≠ f.name := by
        intro hname
        exact hg (hname ▸ List.mem_map_of_mem hf)
      rw [List.find?_cons_of_neg (by simpa using hne)]
      exact find?_name hnames hf

theorem exists_ofList_of_readItems : ∀ {fs : List (Field σ)} {items : Items} {s s' : σ},
    readItems fs s items = .ok s' → ∃ vs, items = .ofList vs
  | _, .nil, _, _, _ => ⟨[], rfl⟩
  | [], .cons .., _, _, h => by cases h
  | [], .broken, _, _, h => by cases h
  | _ :: _, .broken, _, _, h => by cases h
  | f :: fs, .cons v items, s, s', h => by
    rw [readItems] at h
    split at h
    · cases h
    obtain ⟨vs, rfl⟩ := exists_ofList_of_readItems h
    exact ⟨v :: vs, rfl⟩

/-- The first of the members is taken in, and the others after it. -/
theorem readMembers_cons_eq_ok (hnames : sc.names.Nodup) {k : Text} {v : Json} {rest : Members}
    {seen : List Text} {s s' : σ} :
    sc.readMembers seen s (.cons k v rest) = .ok s' ↔
      k ∉ seen ∧ ∃ f ∈ sc.fields, f.name = k ∧ ∃ s₁, f.assign v s = .ok s₁ ∧
        sc.readMembers (k :: seen) s₁ rest = .ok s' := by
  rw [readMembers]
  constructor
  · intro h
    split at h
    · cases h
    rename_i f hfind
    have hname : f.name = k := by simpa using List.find?_some hfind
    split at h
    · cases h
    rename_i hseen
    split at h
    · cases h
    rename_i s₁ hassign
    exact ⟨hseen, f, List.mem_of_find?_eq_some hfind, hname, s₁, hassign, h⟩
  · rintro ⟨hseen, f, hf, rfl, s₁, hassign, h⟩
    rw [find?_name hnames hf]
    simp only [hseen, if_false, hassign, h]

/-! ## Types of which the fields are known -/

/-- A field takes the values that `Takes` tells for its name, and with members in place of some of its
fields a record becomes what `overlay` tells. -/
structure Lawful (sc : Schema σ) (Takes : Text → Json → Prop) (overlay : List (Text × Json) → σ → σ) :
    Prop where
  nodup : sc.names.Nodup
  known : ∀ k v, Takes k v → k ∈ sc.names
  takes : ∀ f ∈ sc.fields, ∀ v s, (∃ s', f.assign v s = .ok s') ↔ Takes f.name v
  overlay_nil : ∀ s, overlay [] s = s
  overlay_cons : ∀ f ∈ sc.fields, ∀ v s s', f.assign v s = .ok s' → ∀ ms, f.name ∉ ms.map Prod.fst →
    overlay ((f.name, v) :: ms) s = overlay ms s'

namespace Lawful

variable {Takes : Text → Json → Prop} {overlay : List (Text × Json) → σ → σ} (h : sc.Lawful Takes overlay)
include h

theorem readMembers_ofList (ms : List (Text × Json)) : ∀ (seen : List Text) (s s' : σ),
    sc.readMembers seen s (.ofList ms) = .ok s' ↔
      (ms.map Prod.fst).Nodup ∧ (∀ m ∈ ms, m.1 ∉ seen ∧ Takes m.1 m.2) ∧ s' = overlay ms s := by
  induction ms with
  | nil =>
    intro seen s s'
    simp [Members.ofList, readMembers, h.overlay_nil, eq_comm]
  | cons m ms ih =>
    intro seen s s'
    obtain ⟨k, v⟩ := m
    rw [Members.ofList, readMembers_cons_eq_ok h.nodup]
    constructor
    · rintro ⟨hseen, f, hf, rfl, s₁, hassign, hrest⟩
      obtain ⟨hnodup, htakes, rfl⟩ := (ih _ _ _).1 hrest
      -- A later member under this name would find it among the seen ones.
      have hfresh : f.name ∉ ms.map Prod.fst := by
        intro hmem
        obtain ⟨m, hm, hname⟩ := List.mem_map.1 hmem
        exact (htakes m hm).1 (by rw [hname]; exact List.mem_cons_self ..)
      refine ⟨List.nodup_cons.2 ⟨hfresh, hnodup⟩, ?_, (h.overlay_cons f hf v s s₁ hassign ms hfresh).symm⟩
      intro m hm
      rcases List.mem_cons.1 hm with rfl | hm
      · exact ⟨hseen, (h.takes f hf v s).1 ⟨s₁, hassign⟩⟩
      · obtain ⟨hm₁, hm₂⟩ := htakes m hm
        exact ⟨fun hmem => hm₁ (List.mem_cons_of_mem _ hmem), hm₂⟩
    · rintro ⟨hnodup, htakes, rfl⟩
      obtain ⟨hfresh, hms⟩ := List.nodup_cons.1 hnodup
      obtain ⟨hseen, hk⟩ := htakes (k, v) (List.mem_cons_self ..)
      obtain ⟨f, hf, rfl⟩ := List.mem_map.1 (h.known k v hk)
      obtain ⟨s₁, hassign⟩ := (h.takes f hf v s).2 hk
      have hoverlay := h.overlay_cons f hf v s s₁ hassign ms hfresh
      refine ⟨hseen, f, hf, rfl, s₁, hassign, (ih _ _ _).2 ⟨hms, ?_, hoverlay⟩⟩
      intro m hm
      obtain ⟨hm₁, hm₂⟩ := htakes m (List.mem_cons_of_mem _ hm)
      refine ⟨fun hmem => ?_, hm₂⟩
      rcases List.mem_cons.1 hmem with hname | hmem
      · exact hfresh (List.mem_map.2 ⟨m, hm, hname⟩)
      · exact hm₁ hmem

theorem readMembers_eq_ok {members : Members} {s s' : σ} :
    sc.readMembers [] s members = .ok s' ↔ ∃ ms, members = .ofList ms ∧ (ms.map Prod.fst).Nodup ∧
      (∀ m ∈ ms, Takes m.1 m.2) ∧ s' = overlay ms s := by
  constructor
  · intro hread
    obtain ⟨ms, rfl⟩ := exists_ofList_of_readMembers hread
    obtain ⟨hnodup, htakes, hs⟩ := (h.readMembers_ofList ms [] s s').1 hread
    exact ⟨ms, rfl, hnodup, fun m hm => (htakes m hm).2, hs⟩
  · rintro ⟨ms, rfl, hnodup, htakes, hs⟩
    exact (h.readMembers_ofList ms [] s s').2 ⟨hnodup, fun m hm => ⟨List.not_mem_nil, htakes m hm⟩, hs⟩

/-! ## The items of an array -/

theorem readItems_ofList : ∀ (fs : List (Field σ)), (∀ f ∈ fs, f ∈ sc.fields) → (fs.map Field.name).Nodup →
    ∀ (vs : List Json) (s s' : σ), readItems fs s (.ofList vs) = .ok s' ↔
      vs.length ≤ fs.length ∧ (∀ m ∈ (fs.map Field.name).zip vs, Takes m.1 m.2) ∧
        s' = overlay ((fs.map Field.name).zip vs) s
  | fs, _, _, [], s, s' => by simp [Items.ofList, readItems, h.overlay_nil, eq_comm]
  | [], _, _, v :: vs, s, s' => by simp [Items.ofList, readItems]
  | f :: fs, hfs, hnodup, v :: vs, s, s' => by
    have hf := hfs f (List.mem_cons_self ..)
    obtain ⟨hfresh, hnodup⟩ := List.nodup_cons.1 hnodup
    have ih := readItems_ofList fs (fun g hg => hfs g (List.mem_cons_of_mem f hg)) hnodup vs
    have hfresh' : f.name ∉ ((fs.map Field.name).zip vs).map Prod.fst := by
      intro hmem
      obtain ⟨m, hm, hname⟩ := List.mem_map.1 hmem
      exact hfresh (hname ▸ (List.of_mem_zip hm).1)
    rw [Items.ofList, readItems, List.map_cons, List.zip_cons_cons, List.forall_mem_cons]
    constructor
    · intro hread
      split at hread
      · cases hread
      rename_i s₁ hassign
      obtain ⟨hlen, htakes, hs⟩ := (ih s₁ s').1 hread
      rw [h.overlay_cons f hf v s s₁ hassign _ hfresh']
      exact ⟨Nat.succ_le_succ hlen, ⟨(h.takes f hf v s).1 ⟨s₁, hassign⟩, htakes⟩, hs⟩
    · rintro ⟨hlen, ⟨hv, htakes⟩, hs⟩
      obtain ⟨s₁, hassign⟩ := (h.takes f hf v s).2 hv
      rw [h.overlay_cons f hf v s s₁ hassign _ hfresh'] at hs
      rw [hassign]
      exact (ih s₁ s').2 ⟨Nat.le_of_succ_le_succ hlen, htakes, hs⟩

theorem readItems_eq_ok {items : Items} {s s' : σ} :
    readItems sc.fields s items = .ok s' ↔ ∃ vs, items = .ofList vs ∧ vs.length ≤ sc.names.length ∧
      (∀ m ∈ sc.names.zip vs, Takes m.1 m.2) ∧ s' = overlay (sc.names.zip vs) s := by
  have hitems := h.readItems_ofList sc.fields (fun _ hf => hf) h.nodup
  rw [names, List.length_map]
  constructor
  · intro hread
    obtain ⟨vs, rfl⟩ := exists_ofList_of_readItems hread
    exact ⟨vs, rfl, (hitems vs s s').1 hread⟩
  · rintro ⟨vs, rfl, hread⟩
    exact (hitems vs s s').2 hread

end Lawful

end Schema

/-! ## Kinds of values -/

inductive Kind
  | text
  | character
  | natural
  | texts
  | record (names : List Text)

inductive Kind.Holds : Kind → Json → Prop
  | text (s : Text) : Holds .text (.string s)
  | character (c : Char) : Holds .character (.string [c])
  | natural (n : Nat) : Holds .natural (.number (.natural n))
  | texts (ss : List Text) : Holds .texts (ofTexts ss)
  | object {names : List Text} {ms : List (Text × Json)} (hkeys : (ms.map Prod.fst).Nodup)
      (h : ∀ m ∈ ms, m.1 ∈ names ∧ ∃ s, m.2 = .string s) : Holds (.record names) (ofMembers ms)
  | array {names ss : List Text} (h : ss.length ≤ names.length) : Holds (.record names) (ofTexts ss)

theorem holds_text (v : Json) : Kind.text.Holds v ↔ ∃ s, v = .string s := by
  constructor
  · intro h
    cases h with
    | text s => exact ⟨s, rfl⟩
  · rintro ⟨s, rfl⟩
    exact .text s

theorem holds_character (v : Json) : Kind.character.Holds v ↔ ∃ c, v = .string [c] := by
  constructor
  · intro h
    cases h with
    | character c => exact ⟨c, rfl⟩
  · rintro ⟨c, rfl⟩
    exact .character c

theorem holds_natural (v : Json) : Kind.natural.Holds v ↔ ∃ n, v = .number (.natural n) := by
  constructor
  · intro h
    cases h with
    | natural n => exact ⟨n, rfl⟩
  · rintro ⟨n, rfl⟩
    exact .natural n

theorem holds_texts (v : Json) : Kind.texts.Holds v ↔ ∃ ss, v = ofTexts ss := by
  constructor
  · intro h
    cases h with
    | texts ss => exact ⟨ss, rfl⟩
  · rintro ⟨ss, rfl⟩
    exact .texts ss

def Takes (kinds : List (Text × Kind)) (k : Text) (v : Json) : Prop :=
  ∃ kind, (k, kind) ∈ kinds ∧ kind.Holds v

def given (ms : List (Text × Json)) (name : Text) : Option Json := ms.lookup name

/-- The members that a value gives to a record: those of an object, and the items of an array under
the first names. -/
def entries (names : List Text) : Json → List (Text × Json)
  | .object ms => ms.toList
  | .array vs => names.zip vs.toList
  | _ => []

theorem given_self (k : Text) (v : Json) (ms : List (Text × Json)) : given ((k, v) :: ms) k = some v := by
  simp [given]

theorem given_of_ne {k k' : Text} (h : k' ≠ k) (v : Json) (ms : List (Text × Json)) :
    given ((k, v) :: ms) k' = given ms k' := by
  simp [given, List.lookup_cons, beq_false_of_ne h]

theorem given_eq_none {k : Text} {ms : List (Text × Json)} (h : k ∉ ms.map Prod.fst) : given ms k = none := by
  rw [given, List.lookup_eq_none_iff]
  intro m hm
  rw [bne_iff_ne]
  intro hk
  exact h (hk ▸ List.mem_map_of_mem hm)

namespace Schema

variable {σ : Type} {sc : Schema σ} {overlay : List (Text × Json) → σ → σ}

structure Row (overlay : List (Text × Json) → σ → σ) (f : Field σ) (x : Text × Kind) : Prop where
  name : f.name = x.1
  takes : ∀ v s, (∃ s', f.assign v s = .ok s') ↔ x.2.Holds v
  overlay_cons : ∀ v s s', f.assign v s = .ok s' → ∀ ms, given ms x.1 = none →
    overlay ((x.1, v) :: ms) s = overlay ms s'

theorem assign_of_eq_ok {α : Type} {name : Text} {decode : Decoder α} {set : α → σ → σ} {v : Json}
    {s s' : σ} :
    (Field.of name decode set).assign v s = .ok s' ↔ ∃ x, decode v = .ok x ∧ set x s = s' := by
  constructor
  · intro h
    exact ok_of_map_ok h
  · rintro ⟨x, hx, rfl⟩
    simp only [Field.of, hx]
    rfl

theorem row_of {α : Type} {name : Text} {decode : Decoder α} {set : α → σ → σ} {kind : Kind}
    (hdecode : ∀ v, (∃ x, decode v = .ok x) ↔ kind.Holds v)
    (hset : ∀ v x, decode v = .ok x → ∀ s ms, given ms name = none →
      overlay ((name, v) :: ms) s = overlay ms (set x s)) :
    Row overlay (Field.of name decode set) (name, kind) where
  name := rfl
  takes v s := by
    rw [← hdecode v]
    constructor
    · rintro ⟨s', h⟩
      obtain ⟨x, hx, -⟩ := assign_of_eq_ok.1 h
      exact ⟨x, hx⟩
    · rintro ⟨x, hx⟩
      exact ⟨set x s, assign_of_eq_ok.2 ⟨x, hx, rfl⟩⟩
  overlay_cons v s s' h ms hms := by
    obtain ⟨x, hx, rfl⟩ := assign_of_eq_ok.1 h
    exact hset v x hx s ms hms

/-- The row of a kind whose values are those of one form. -/
theorem row_form {α : Type} {name : Text} {decode : Decoder α} {set : α → σ → σ} {kind : Kind}
    {form : α → Json} (hkind : ∀ v, kind.Holds v ↔ ∃ x, v = form x)
    (hdecode : ∀ v x, decode v = .ok x ↔ v = form x)
    (hset : ∀ x s ms, given ms name = none → overlay ((name, form x) :: ms) s = overlay ms (set x s)) :
    Row overlay (Field.of name decode set) (name, kind) := by
  apply row_of
  · intro v
    simp only [hkind v, hdecode v]
  · intro v x hx
    rw [(hdecode v x).1 hx]
    exact hset x

theorem row_record {α : Type} {name : Text} {decode : Decoder α} {set : α → σ → σ} {names : List Text}
    {get : Json → α} (hdecode : ∀ v x, decode v = .ok x ↔ (Kind.record names).Holds v ∧ x = get v)
    (hset : ∀ v s ms, given ms name = none → overlay ((name, v) :: ms) s = overlay ms (set (get v) s)) :
    Row overlay (Field.of name decode set) (name, .record names) := by
  apply row_of
  · intro v
    constructor
    · rintro ⟨x, hx⟩
      exact ((hdecode v x).1 hx).1
    · intro hv
      exact ⟨get v, (hdecode v _).2 ⟨hv, rfl⟩⟩
  · intro v x hx
    rw [((hdecode v x).1 hx).2]
    exact hset v

theorem names_of_rows {fs : List (Field σ)} {kinds : List (Text × Kind)}
    (h : List.Forall₂ (Row overlay) fs kinds) : fs.map Field.name = kinds.map Prod.fst := by
  induction h with
  | nil => rfl
  | cons hrow _ ih => rw [List.map_cons, List.map_cons, hrow.name, ih]

theorem exists_row {fs : List (Field σ)} {kinds : List (Text × Kind)}
    (h : List.Forall₂ (Row overlay) fs kinds) {f : Field σ} (hf : f ∈ fs) : ∃ x ∈ kinds, Row overlay f x := by
  induction h with
  | nil => cases hf
  | @cons g x _ _ hrow _ ih =>
    rcases List.mem_cons.1 hf with rfl | hf
    · exact ⟨x, List.mem_cons_self .., hrow⟩
    · obtain ⟨y, hy, hrow⟩ := ih hf
      exact ⟨y, List.mem_cons_of_mem _ hy, hrow⟩

theorem Lawful.of_rows {kinds : List (Text × Kind)} (hrows : List.Forall₂ (Row overlay) sc.fields kinds)
    (hnodup : (kinds.map Prod.fst).Nodup) (hnil : ∀ s, overlay [] s = s) :
    sc.Lawful (Takes kinds) overlay := by
  have hnames : sc.names = kinds.map Prod.fst := names_of_rows hrows
  refine ⟨hnames ▸ hnodup, ?_, ?_, hnil, ?_⟩
  · rintro k v ⟨kind, hk, -⟩
    rw [hnames]
    exact List.mem_map_of_mem hk
  · intro f hf v s
    obtain ⟨x, hx, h⟩ := exists_row hrows hf
    rw [h.takes v s, h.name]
    constructor
    · intro hv
      exact ⟨x.2, hx, hv⟩
    · rintro ⟨kind, hk, hv⟩
      have heq := List.inj_on_of_nodup_map hnodup hk hx rfl
      rw [← heq]
      exact hv
  · intro f hf v s s' hassign ms hfresh
    obtain ⟨x, hx, h⟩ := exists_row hrows hf
    rw [h.name] at hfresh ⊢
    exact h.overlay_cons v s s' hassign ms (given_eq_none hfresh)

/-! ## Records of texts -/

theorem takes_texts {names : List Text} {k : Text} {v : Json} :
    Takes (names.map (·, .text)) k v ↔ k ∈ names ∧ ∃ s, v = .string s := by
  constructor
  · rintro ⟨kind, hk, hv⟩
    obtain ⟨name, hname, heq⟩ := List.mem_map.1 hk
    cases heq
    exact ⟨hname, (holds_text v).1 hv⟩
  · rintro ⟨hk, s, rfl⟩
    exact ⟨.text, List.mem_map_of_mem hk, .text s⟩

theorem exists_texts {vs : List Json} (h : ∀ v ∈ vs, ∃ s, v = .string s) :
    ∃ ss : List Text, vs = ss.map .string := by
  induction vs with
  | nil => exact ⟨[], rfl⟩
  | cons v vs ih =>
    obtain ⟨s, rfl⟩ := h v (List.mem_cons_self ..)
    obtain ⟨ss, rfl⟩ := ih fun v' hv' => h v' (List.mem_cons_of_mem _ hv')
    exact ⟨s :: ss, rfl⟩

/-- A record of texts is read from the members of an object and from the items of an array. -/
theorem Lawful.read_eq_ok {names : List Text} (h : sc.Lawful (Takes (names.map (·, .text))) overlay)
    (hnames : sc.names = names) (s : σ) (v : Json) (s' : σ) :
    sc.read s v = .ok s' ↔ (Kind.record names).Holds v ∧ s' = overlay (entries names v) s := by
  subst hnames
  constructor
  · intro hread
    cases v with
    | object members =>
      obtain ⟨ms, rfl, hnodup, htakes, hs⟩ := h.readMembers_eq_ok.1 hread
      rw [entries, Members.toList_ofList]
      exact ⟨.object hnodup fun m hm => takes_texts.1 (htakes m hm), hs⟩
    | array items =>
      obtain ⟨vs, rfl, hlen, htakes, hs⟩ := h.readItems_eq_ok.1 hread
      have hall : ∀ v ∈ vs, ∃ s, v = .string s := by
        intro v hv
        rw [← List.map_snd_zip hlen] at hv
        obtain ⟨m, hm, rfl⟩ := List.mem_map.1 hv
        exact (takes_texts.1 (htakes m hm)).2
      obtain ⟨ss, rfl⟩ := exists_texts hall
      rw [entries, Items.toList_ofList]
      exact ⟨.array (by simpa using hlen), hs⟩
    | _ => cases hread
  · rintro ⟨hv, rfl⟩
    cases hv with
    | @object _ ms hkeys hall =>
      rw [ofMembers, entries, Members.toList_ofList]
      exact h.readMembers_eq_ok.2 ⟨ms, rfl, hkeys, fun m hm => takes_texts.2 (hall m hm), rfl⟩
    | @array _ ss hlen =>
      rw [ofTexts, entries, Items.toList_ofList]
      refine h.readItems_eq_ok.2 ⟨_, rfl, by simpa using hlen, ?_, rfl⟩
      intro m hm
      obtain ⟨hname, hv⟩ := List.of_mem_zip hm
      obtain ⟨s, -, hs⟩ := List.mem_map.1 hv
      exact takes_texts.2 ⟨hname, s, hs.symm⟩

end Schema

end TriBench.Json
