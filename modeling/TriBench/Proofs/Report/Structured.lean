import TriBench.Report.Structured
import TriBench.Proofs.Json.RoundTrip
import TriBench.Proofs.OrderedMap
import TriBench.Proofs.Text.ByteOrder

/-!
# Reading back the structured report

The report is JSON that holds all of the results: what a reader of JSON finds in it, taken for tests,
parameters and records, is the table again. Main statement: `structured_round_trip`.
-/

namespace TriBench

namespace Json

def Members.toList? : Members → Option (List (Text × Json))
  | .nil => some []
  | .cons k v ms => ms.toList?.map ((k, v) :: ·)
  | .broken => none

def members? : Json → Option (List (Text × Json))
  | .object ms => ms.toList?
  | _ => none

def keys (v : Json) : List Text := (v.members?.getD []).map Prod.fst

def values (v : Json) : List Json := (v.members?.getD []).map Prod.snd

theorem members?_ofMembers (ms : List (Text × Json)) : (ofMembers ms).members? = some ms := by
  change (Members.ofList ms).toList? = some ms
  induction ms with
  | nil => rfl
  | cons m ms ih =>
    rw [Members.ofList, Members.toList?, ih]
    rfl

@[simp] theorem keys_ofMembers (ms : List (Text × Json)) : (ofMembers ms).keys = ms.map Prod.fst := by
  rw [keys, members?_ofMembers]; rfl

@[simp] theorem values_ofMembers (ms : List (Text × Json)) :
    (ofMembers ms).values = ms.map Prod.snd := by
  rw [values, members?_ofMembers]; rfl

theorem isExact_ofMembers {ms : List (Text × Json)} (h : ∀ m ∈ ms, m.2.IsExact) :
    (ofMembers ms).IsExact :=
  Members.areExact_ofList h

end Json

namespace Report

/-! ## What the report means -/

/-- The number −1 is a missing value and a text a reported one. -/
def measurementOf? : Json → Option Measurement
  | .number n => if n = .negative Measurement.sentinel then some .notMeasured else none
  | .string value => some (.reported value)
  | _ => none

def fieldOf? (ms : List (Text × Json)) (name : Text) : Option Measurement :=
  (ms.lookup name).bind measurementOf?

def recordOf? (v : Json) : Option Record := do
  let ms ← v.members?
  let grate ← fieldOf? ms "grate"
  let lind ← fieldOf? ms "lind"
  let linux ← fieldOf? ms "linux"
  let loops ← fieldOf? ms "loops"
  pure ⟨grate, lind, linux, loops⟩

def mapOf? {κ ν : Type} [Ord κ] [Std.TransOrd κ] (key? : Text → Option κ) (value? : Json → Option ν)
    (v : Json) :
    Option (OrderedMap κ ν) := do
  let ms ← v.members?
  let entries ← ms.mapM fun m => do
    let k ← key? m.1
    let x ← value? m.2
    pure (k, x)
  pure (OrderedMap.ofList entries)

def resultsOf? : Json → Option Results := mapOf? some (mapOf? Text.decimal? recordOf?)

theorem measurementOf?_measurementValue (m : Measurement) :
    measurementOf? (measurementValue m) = some m := by
  cases m <;> rfl

theorem recordOf?_recordValue (r : Record) : recordOf? (recordValue r) = some r := by
  unfold recordOf? recordValue
  rw [Json.members?_ofMembers]
  -- the names are given, so that looking them up is evaluation
  change (do
    let grate ← measurementOf? (measurementValue r.grate)
    let lind ← measurementOf? (measurementValue r.lind)
    let linux ← measurementOf? (measurementValue r.linux)
    let loops ← measurementOf? (measurementValue r.loops)
    pure (Record.mk grate lind linux loops)) = some r
  simp only [measurementOf?_measurementValue]
  rfl

theorem mapOf?_ofMembers {κ ν : Type} [Ord κ] [Std.TransOrd κ] {key? : Text → Option κ}
    {value? : Json → Option ν}
    {key : κ → Text} {value : ν → Json} (hk : ∀ k, key? (key k) = some k)
    (hv : ∀ x, value? (value x) = some x)
    (m : OrderedMap κ ν) :
    mapOf? key? value? (.ofMembers (m.entries.map fun e => (key e.1, value e.2))) = some m := by
  have hentries : ∀ l : List (κ × ν), (l.map fun e => (key e.1, value e.2)).mapM (fun m => do
      let k ← key? m.1
      let x ← value? m.2
      pure (k, x)) = some l := by
    intro l
    induction l with
    | nil => rfl
    | cons e l ih => rw [List.map_cons, List.mapM_cons, hk, hv, ih]; rfl
  unfold mapOf?
  rw [Json.members?_ofMembers]
  simp only [Option.bind_eq_bind, Option.bind_some] at hentries ⊢
  rw [hentries, Option.bind_some, OrderedMap.ofList_entries]
  rfl

theorem resultsOf?_resultsValue (t : Results) : resultsOf? (resultsValue t) = some t :=
  mapOf?_ofMembers (fun _ => rfl) (mapOf?_ofMembers Text.decimal?_ofInt recordOf?_recordValue) t

/-! ## The order of the report -/

theorem isExact_recordValue (r : Record) : (recordValue r).IsExact := by
  have hm : ∀ m, (measurementValue m).IsExact := by
    intro m
    cases m with
    | notMeasured => exact ⟨by decide, by decide⟩
    | reported value => trivial
  exact ⟨hm _, hm _, hm _, hm _, trivial⟩

theorem isExact_resultsValue (t : Results) : (resultsValue t).IsExact := by
  refine Json.isExact_ofMembers fun m hm => ?_
  obtain ⟨e, -, rfl⟩ := List.mem_map.1 hm
  refine Json.isExact_ofMembers fun m hm => ?_
  obtain ⟨e', -, rfl⟩ := List.mem_map.1 hm
  exact isExact_recordValue e'.2

theorem keys_resultsValue (t : Results) : (resultsValue t).keys = t.keys := by
  rw [resultsValue, Json.keys_ofMembers, List.map_map]
  rfl

theorem values_resultsValue (t : Results) :
    (resultsValue t).values = t.values.map fun params =>
      .ofMembers (params.entries.map fun e => (Text.ofInt e.1, recordValue e.2)) := by
  rw [resultsValue, Json.values_ofMembers, List.map_map, OrderedMap.values, List.map_map]
  rfl

def recordNames : List Text := ["grate", "lind", "linux", "loops"]

theorem keys_recordValue (r : Record) : (recordValue r).keys = recordNames := by
  rw [recordValue, Json.keys_ofMembers]
  rfl

def BytesBefore (a b : Text) : Prop := a.toBytes < b.toBytes

/-- Keys are in ascending order: tests by their bytes, parameters as numbers, and the names of a record
by their bytes. -/
structure Sorted (v : Json) : Prop where
  tests : v.keys.Pairwise BytesBefore
  params : ∀ params ∈ v.values, ∃ ks : List Int, params.keys = ks.map Text.ofInt ∧ ks.Pairwise (· < ·)
  names : ∀ params ∈ v.values, ∀ r ∈ params.values,
    r.keys = recordNames ∧ r.keys.Pairwise BytesBefore

theorem sorted_resultsValue (t : Results) : Sorted (resultsValue t) where
  tests := by
    rw [keys_resultsValue]
    exact t.keys_ascending.imp Text.toBytes_lt
  params := by
    rw [values_resultsValue]
    intro params hp
    obtain ⟨m, -, rfl⟩ := List.mem_map.1 hp
    refine ⟨m.keys, ?_, m.keys_ascending.imp fun h => Std.compare_eq_lt.1 h⟩
    rw [Json.keys_ofMembers, OrderedMap.keys, List.map_map, List.map_map]
    rfl
  names := by
    rw [values_resultsValue]
    intro params hp r hr
    obtain ⟨m, -, rfl⟩ := List.mem_map.1 hp
    rw [Json.values_ofMembers, List.map_map] at hr
    obtain ⟨e, -, rfl⟩ := List.mem_map.1 hr
    refine ⟨keys_recordValue e.2, ?_⟩
    have hsorted : recordNames.Pairwise fun a b => compare a b = .lt := by decide
    rw [Function.comp_apply, keys_recordValue]
    exact hsorted.imp Text.toBytes_lt

/-! ## The text of the report -/

def objectText (depth : Nat) (ms : List (Text × Text)) : Text :=
  if ms = [] then ['\x7b', '\x7d']
  else
    '\x7b' :: Text.joinWith [','] (ms.map fun m =>
      Json.indent (depth + 1) ++ Json.quote m.1 ++ ':' :: ' ' :: m.2) ++
      Json.indent depth ++ ['\x7d']

def measurementText : Measurement → Text
  | .notMeasured => "-1"
  | .reported value => Json.quote value

/-- The tests in the order of the table, each with its parameters in their order and four measurements. -/
def layout (t : Results) : Text :=
  objectText 0 <| t.entries.map fun e => (e.1, objectText 1 <| e.2.entries.map fun e =>
    (Text.ofInt e.1, objectText 2
      [("grate", measurementText e.2.grate), ("lind", measurementText e.2.lind),
       ("linux", measurementText e.2.linux), ("loops", measurementText e.2.loops)]))

theorem pretty_ofList {ms : List (Text × Json)} (h : ms ≠ []) (depth : Nat) :
    (Json.Members.ofList ms).pretty depth =
      Text.joinWith [','] (ms.map fun m =>
        Json.indent depth ++ Json.quote m.1 ++ ':' :: ' ' :: m.2.pretty depth) := by
  induction ms with
  | nil => exact absurd rfl h
  | cons m ms ih =>
    cases ms with
    | nil =>
      rw [Json.Members.ofList, Json.Members.ofList, Json.Members.pretty_last]
      simp [Text.joinWith]
    | cons m' ms =>
      rw [Json.Members.ofList, Json.Members.pretty_more _ _ (by simp [Json.Members.ofList]), ih (by simp)]
      simp [Text.joinWith, List.intercalate_cons_cons]

theorem pretty_ofMembers (ms : List (Text × Json)) (depth : Nat) :
    (Json.ofMembers ms).pretty depth = objectText depth (ms.map fun m => (m.1, m.2.pretty (depth + 1))) := by
  unfold objectText
  cases ms with
  | nil => rfl
  | cons m ms =>
    have h := pretty_ofList (List.cons_ne_nil m ms) (depth + 1)
    rw [if_neg (by simp), List.map_map]
    rw [Json.ofMembers, Json.Members.ofList, Json.pretty]
    · rw [← Json.Members.ofList, h]; rfl
    · simp

theorem structured_eq_layout (t : Results) : structured t = layout t := by
  have hm : ∀ m depth, (measurementValue m).pretty depth = measurementText m := by
    intro m depth
    cases m <;> rfl
  unfold structured resultsValue layout
  simp only [pretty_ofMembers, List.map_map, recordValue, Function.comp_def, List.map_cons, List.map_nil, hm]

/-- **The report holds the results.** Its text has the tests, parameters and measurements in the order of
the table, which is that of bytes for tests and of numbers for parameters. A reader of JSON finds in
it the keys in this order, and the table that it was made of. -/
theorem structured_round_trip (t : Results) :
    structured t = layout t ∧ t.keys.Pairwise BytesBefore ∧
      (∀ params ∈ t.values, params.keys.Pairwise (· < ·)) ∧
    ∃ v, Json.parse? (structured t) = some v ∧ resultsOf? v = some t ∧ Sorted v := by
  refine ⟨structured_eq_layout t, t.keys_ascending.imp Text.toBytes_lt, fun params _ => ?_, resultsValue t,
    Json.parse?_pretty (isExact_resultsValue t), resultsOf?_resultsValue t, sorted_resultsValue t⟩
  exact params.keys_ascending.imp fun h => Std.compare_eq_lt.1 h

end Report

end TriBench
