import Mathlib
import TriBench.Config.Reader
import TriBench.Proofs.Json.Schema
import TriBench.Proofs.Text.Utf8

/-!
# What a configuration file changes

A configuration file is taken exactly when it is JSON with known settings of the right kinds, each of
them once, and it changes these settings and no others. Main statement: `load_eq_ok_iff`.
-/

namespace TriBench

open Json (Kind Takes entries given)

/-! ## Given values -/

namespace Json

def textOr (t : Text) : Option Json → Text
  | some (.string s) => s
  | _ => t

def charOr (c : Char) : Option Json → Char
  | some (.string [d]) => d
  | _ => c

def natOr (n : Nat) : Option Json → Nat
  | some (.number (.natural m)) => m
  | _ => n

def textsOr (ts : List Text) : Option Json → List Text
  | some (.array vs) => vs.toList.map fun v => textOr [] (some v)
  | _ => ts

@[simp] theorem textOr_string (t s : Text) : textOr t (some (.string s)) = s := rfl

@[simp] theorem textOr_none (t : Text) : textOr t none = t := rfl

@[simp] theorem charOr_string (c d : Char) : charOr c (some (.string [d])) = d := rfl

@[simp] theorem charOr_none (c : Char) : charOr c none = c := rfl

@[simp] theorem natOr_natural (n m : Nat) : natOr n (some (.number (.natural m))) = m := rfl

@[simp] theorem natOr_none (n : Nat) : natOr n none = n := rfl

@[simp] theorem textsOr_ofTexts (ts ss : List Text) : textsOr ts (some (ofTexts ss)) = ss := by
  rw [ofTexts, textsOr, Items.toList_ofList, List.map_map]
  exact List.map_id ss

@[simp] theorem textsOr_none (ts : List Text) : textsOr ts none = ts := rfl

end Json

open Json (textOr charOr natOr textsOr)

/-! ## The records -/

namespace Tools

def names : List Text :=
  ["native_compiler", "sandbox_compiler", "sandbox_boot", "shell", "shim_build_script", "version_control",
    "elevation"]

def overlay (ms : List (Text × Json)) (t : Tools) : Tools where
  nativeCompiler := textOr t.nativeCompiler (given ms "native_compiler")
  sandboxCompiler := textOr t.sandboxCompiler (given ms "sandbox_compiler")
  sandboxBoot := textOr t.sandboxBoot (given ms "sandbox_boot")
  shell := textOr t.shell (given ms "shell")
  shimBuildScript := textOr t.shimBuildScript (given ms "shim_build_script")
  versionControl := textOr t.versionControl (given ms "version_control")
  elevation := textOr t.elevation (given ms "elevation")

end Tools

namespace Repository

def names : List Text := ["url", "branch", "working_copy"]

def overlay (ms : List (Text × Json)) (r : Repository) : Repository where
  url := textOr r.url (given ms "url")
  branch := textOr r.branch (given ms "branch")
  workingCopy := ⟨textOr r.workingCopy.text (given ms "working_copy")⟩

end Repository

namespace Config

def settings : List (Text × Kind) :=
  [("benchmark_directory", .text), ("sandbox_root", .text), ("support_sources", .texts),
    ("source_extension", .text), ("composite_extension", .text), ("module_extension", .text),
    ("shim_suffix", .text), ("composite_delimiter", .character), ("tools", .record Tools.names),
    ("repository", .record Repository.names), ("timeout", .natural)]

/-- The configuration with the settings that members give in their place. Of the tools and of the
repository what is not given has its default. -/
def overlay (ms : List (Text × Json)) (c : Config) : Config where
  benchmarkDirectory := ⟨textOr c.benchmarkDirectory.text (given ms "benchmark_directory")⟩
  sandboxRoot := ⟨textOr c.sandboxRoot.text (given ms "sandbox_root")⟩
  supportSources := textsOr c.supportSources (given ms "support_sources")
  sourceExtension := textOr c.sourceExtension (given ms "source_extension")
  compositeExtension := textOr c.compositeExtension (given ms "composite_extension")
  moduleExtension := textOr c.moduleExtension (given ms "module_extension")
  shimSuffix := textOr c.shimSuffix (given ms "shim_suffix")
  compositeDelimiter := charOr c.compositeDelimiter (given ms "composite_delimiter")
  tools := (given ms "tools").elim c.tools fun v => Tools.overlay (entries Tools.names v) {}
  repository := (given ms "repository").elim c.repository fun v =>
    Repository.overlay (entries Repository.names v) {}
  timeout := natOr c.timeout (given ms "timeout")

end Config

/-! ## The fields of the records -/

namespace Json

theorem decodePath_eq_ok (v : Json) (p : Path) : decodePath v = .ok p ↔ v = .string p.text := by
  unfold decodePath
  constructor
  · intro h
    obtain ⟨s, hs, rfl⟩ := ok_of_map_ok h
    exact textAs_eq_ok.1 hs
  · rintro rfl
    rfl

theorem holds_path (v : Json) : Kind.text.Holds v ↔ ∃ p : Path, v = .string p.text := by
  rw [holds_text]
  constructor
  · rintro ⟨s, rfl⟩
    exact ⟨⟨s⟩, rfl⟩
  · rintro ⟨p, rfl⟩
    exact ⟨p.text, rfl⟩

end Json

open Json (given_self given_of_ne holds_text holds_path holds_texts holds_character holds_natural
  decodeText_eq_ok decodePath_eq_ok decodeTexts_eq_ok decodeChar_eq_ok decodeNat_eq_ok)
open Json.Schema (Row row_form row_record)

namespace Tools

theorem rows : List.Forall₂ (Row overlay) schema.fields (names.map (·, .text)) := by
  refine .cons (row_form holds_text decodeText_eq_ok ?_) (.cons (row_form holds_text decodeText_eq_ok ?_)
    (.cons (row_form holds_text decodeText_eq_ok ?_) (.cons (row_form holds_text decodeText_eq_ok ?_)
    (.cons (row_form holds_text decodeText_eq_ok ?_) (.cons (row_form holds_text decodeText_eq_ok ?_)
    (.cons (row_form holds_text decodeText_eq_ok ?_) .nil))))))
  all_goals
    intro t s ms hms
    unfold overlay
    rw [given_self, hms]
    simp [given_of_ne]

theorem lawful : schema.Lawful (Takes (names.map (·, .text))) overlay :=
  .of_rows rows (by simp [names]) fun _ => rfl

theorem read_eq_ok (v : Json) (t : Tools) :
    schema.read {} v = .ok t ↔ (Kind.record names).Holds v ∧ t = overlay (entries names v) {} :=
  lawful.read_eq_ok rfl {} v t

end Tools

namespace Repository

theorem rows : List.Forall₂ (Row overlay) schema.fields (names.map (·, .text)) := by
  refine .cons (row_form holds_text decodeText_eq_ok ?_) (.cons (row_form holds_text decodeText_eq_ok ?_)
    (.cons (row_form holds_path decodePath_eq_ok ?_) .nil))
  all_goals
    intro t s ms hms
    unfold overlay
    rw [given_self, hms]
    simp [given_of_ne]

theorem lawful : schema.Lawful (Takes (names.map (·, .text))) overlay :=
  .of_rows rows (by simp [names]) fun _ => rfl

theorem read_eq_ok (v : Json) (r : Repository) :
    schema.read {} v = .ok r ↔ (Kind.record names).Holds v ∧ r = overlay (entries names v) {} :=
  lawful.read_eq_ok rfl {} v r

end Repository

namespace Config

theorem rows : List.Forall₂ (Row overlay) schema.fields settings := by
  -- The names differ, so a value under one of them leaves the look-ups of the others as they are.
  refine .cons (row_form holds_path decodePath_eq_ok ?_) (.cons (row_form holds_path decodePath_eq_ok ?_)
    (.cons (row_form holds_texts decodeTexts_eq_ok ?_) (.cons (row_form holds_text decodeText_eq_ok ?_)
    (.cons (row_form holds_text decodeText_eq_ok ?_) (.cons (row_form holds_text decodeText_eq_ok ?_)
    (.cons (row_form holds_text decodeText_eq_ok ?_) (.cons (row_form holds_character decodeChar_eq_ok ?_)
    (.cons (row_record Tools.read_eq_ok ?_) (.cons (row_record Repository.read_eq_ok ?_)
    (.cons (row_form holds_natural decodeNat_eq_ok ?_) .nil))))))))))
  all_goals
    intro y s ms hms
    unfold overlay
    rw [given_self, hms]
    simp [given_of_ne]

theorem lawful : schema.Lawful (Takes settings) overlay :=
  .of_rows rows (by simp [settings]) fun _ => rfl

/-! ## Members that fit -/

/-- The members set known settings, each of them once, to values of their kinds. A natural number is
one that is written without sign, fraction and exponent. -/
structure Fits (ms : List (Text × Json)) : Prop where
  distinct : (ms.map Prod.fst).Nodup
  kinds : ∀ m ∈ ms, Takes settings m.1 m.2
  range : ∀ n, (("timeout" : Text), Json.number (.natural n)) ∈ ms → n < Nat.pow 2 64

theorem isExact_ofTexts (ss : List Text) : (Json.ofTexts ss).IsExact := by
  induction ss with
  | nil => trivial
  | cons s ss ih => exact ⟨trivial, ih⟩

theorem Fits.isExact {ms : List (Text × Json)} (h : Fits ms) : (Json.ofMembers ms).IsExact := by
  apply Json.Members.areExact_ofList
  intro m hm
  obtain ⟨k, v⟩ := m
  obtain ⟨kind, hk, hv⟩ := h.kinds _ hm
  cases hv with
  | text | character => trivial
  | natural n =>
    have hname : k = "timeout" := by simpa [settings] using hk
    subst hname
    exact h.range n hm
  | texts ss => exact isExact_ofTexts ss
  | object hkeys hall =>
    apply Json.Members.areExact_ofList
    intro m hm
    obtain ⟨-, s, hs⟩ := hall m hm
    rw [hs]
    trivial
  | array => exact isExact_ofTexts _

/-! ## Reading the file -/

theorem parse_eq_ok {text : Text} {c : Config} :
    parse text = .ok c ↔ ∃ v, Json.parse? text = some v ∧ schema.read {} v = .ok c := by
  unfold parse Json.parse?
  cases Json.read text with
  | mk v whole =>
    constructor
    · intro h
      dsimp only at h
      cases hread : schema.read {} v with
      | error e => rw [hread] at h; cases h
      | ok c' =>
        rw [hread] at h
        cases whole with
        | false => cases h
        | true => cases h; exact ⟨v, rfl, hread⟩
    · rintro ⟨v', hv, hread⟩
      cases whole with
      | false => cases hv
      | true =>
        cases hv
        dsimp only
        rw [hread]
        rfl

theorem load_eq_ok {fs : FileSystem} {p : Path} {text : Text} (hfile : fs.read p = .ok text.toBytes)
    (c : Config) : load fs p = .ok c ↔ parse text = .ok c := by
  have htext : fs.readText p = .ok text := by
    rw [FileSystem.readText, hfile, Except.bind, Utf8.decode?_toBytes]
    rfl
  unfold load
  rw [htext]
  dsimp only
  cases parse text <;> simp [Except.mapError]

open Json.Grammar

theorem eq_object {text r : Text} {v : Json} {c : Config} (hobject : Blanks text ('\x7b' :: r))
    (h : Element text v []) (hread : schema.read {} v = .ok c) : ∃ members, v = .object members := by
  cases v with
  | object members => exact ⟨members, rfl⟩
  | array vs =>
    obtain ⟨hs, hv, -⟩ := h
    have hskip := (Json.skipBlank_of_blanks hobject).symm.trans (Json.skipBlank_of_blanks hs)
    cases hv <;> cases hskip
  | _ => cases hread

/-- **Overrides.** A file with an object is taken exactly when it is JSON and its members fit, in whatever
order and spelling they stand, and the result is the default configuration with the given settings. -/
theorem load_eq_ok_iff (fs : FileSystem) (p : Path) (text r : Text) (hfile : fs.read p = .ok text.toBytes)
    (hobject : Blanks text ('\x7b' :: r)) (c : Config) :
    load fs p = .ok c ↔ ∃ ms, Element text (Json.ofMembers ms) [] ∧ Fits ms ∧ c = overlay ms {} := by
  rw [load_eq_ok hfile, parse_eq_ok]
  constructor
  · rintro ⟨v, hv, hread⟩
    have helement := Json.element_of_parse? hv
    obtain ⟨members, rfl⟩ := eq_object hobject helement hread
    obtain ⟨ms, rfl, hdistinct, hkinds, hc⟩ := lawful.readMembers_eq_ok.1 hread
    refine ⟨ms, helement, ⟨hdistinct, hkinds, ?_⟩, hc⟩
    intro n hn
    rw [← Json.Members.toList_ofList ms] at hn
    exact Json.natural_lt_of_mem helement hn
  · rintro ⟨ms, helement, hfits, hc⟩
    refine ⟨_, (Json.parse?_eq_some_iff hfits.isExact).2 helement, ?_⟩
    exact lawful.readMembers_eq_ok.2 ⟨ms, rfl, hfits.distinct, hfits.kinds, hc⟩

theorem eq_ok_of_toOption {ε α : Type} {x : Except ε α} {a : α} (h : x.toOption = some a) : x = .ok a := by
  cases x with
  | error e => cases h
  | ok b => cases h; rfl

def someOverrides : Text :=
  "\x7b \"tim\\u0065out\": 30, \"tools\": [\"clang\"],\n  \"repository\": \x7b \"branch\": \"dev\" \x7d \x7d"

def someFiles : FileSystem := FileSystem.putNode ⟨[], .empty⟩ ["c.json"] (.file someOverrides.toBytes false)

theorem load_eq_ok_iff_overrides :
    let c : Config :=
      { timeout := 30, tools := { nativeCompiler := "clang" }, repository := { branch := "dev" } }
    someFiles.read "c.json" = .ok someOverrides.toBytes ∧
      Blanks someOverrides ('\x7b' :: someOverrides.tail) ∧
      load someFiles "c.json" = .ok c ∧
      ∃ ms, Element someOverrides (Json.ofMembers ms) [] ∧ Fits ms ∧ c = overlay ms {} := by
  intro c
  have hfile : someFiles.read "c.json" = .ok someOverrides.toBytes := by cbv
  have hobject : Blanks someOverrides ('\x7b' :: someOverrides.tail) := .none _
  have hparse : parse someOverrides = .ok c := eq_ok_of_toOption (by decide +kernel)
  have hload : load someFiles "c.json" = .ok c := (load_eq_ok hfile c).2 hparse
  exact ⟨hfile, hobject, hload, (load_eq_ok_iff someFiles "c.json" someOverrides _ hfile hobject c).1 hload⟩

end Config

end TriBench
