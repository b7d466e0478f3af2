import Mathlib.Data.List.Dedup
import Mathlib.Data.Finset.Card
import TriBench.Proofs.Results.Records

/-!
# Results as a history of outputs

Outputs arrive one after another, each for one platform, and some are rejected. What the table holds
is then read off the accepted samples in order: a column has the average of the last sample of its
own platform, the iteration count is that of the last sample of any.
-/

namespace TriBench

structure Delivery where
  platform : Platform
  output : Text

def Sample.isAt (test : Text) (param : Int) (s : Sample) : Bool := s.test = test ∧ s.param = param

namespace Results

def ofHistory (ds : List Delivery) : Results := ds.foldl (fun t d => t.after d.platform d.output) empty

def samplesOf (ds : List Delivery) : List Sample := ds.flatMap fun d => accepted d.output

def lastSample? (ds : List Delivery) (test : Text) (param : Int) : Option Sample :=
  ((samplesOf ds).filter (Sample.isAt test param)).getLast?

def deliveriesTo (p : Platform) (ds : List Delivery) : List Delivery := ds.filter (·.platform = p)

def valueOf (value : Sample → Text) : Option Sample → Measurement
  | none => .notMeasured
  | some s => .reported (value s)

/-! ## One write after another -/

def writesOf (ds : List Delivery) : List (Platform × Sample) :=
  ds.flatMap fun d => (accepted d.output).map (d.platform, ·)

def ofWrites (ws : List (Platform × Sample)) : Results := ws.foldl (fun t w => putSample w.1 t w.2) empty

theorem ofHistory_eq (ds : List Delivery) : ofHistory ds = ofWrites (writesOf ds) := by
  unfold ofHistory ofWrites
  generalize empty = t
  induction ds generalizing t with
  | nil => rfl
  | cons d ds ih =>
    rw [List.foldl_cons, ih, after_eq, writesOf, writesOf, List.flatMap_cons,
      List.foldl_append, List.foldl_map]

theorem map_snd_writesOf (ds : List Delivery) : (writesOf ds).map Prod.snd = samplesOf ds := by
  simp [writesOf, samplesOf, List.map_flatMap]

theorem writesOf_filter (p : Platform) (ds : List Delivery) :
    (writesOf ds).filter (·.1 = p) = writesOf (deliveriesTo p ds) := by
  induction ds with
  | nil => rfl
  | cons d ds ih =>
    simp only [writesOf, deliveriesTo, List.flatMap_cons, List.filter_append, List.filter_cons] at ih ⊢
    rw [ih]
    by_cases hd : d.platform = p
    · subst hd; simp [List.filter_map, Function.comp_def]
    · simp [hd, List.filter_map, Function.comp_def]

section
variable (test : Text) (param : Int)

def lastWrite? (ws : List (Platform × Sample)) : Option (Platform × Sample) :=
  (ws.filter (·.2.isAt test param)).getLast?

theorem lastWrite?_append (ws : List (Platform × Sample)) (w : Platform × Sample) :
    lastWrite? test param (ws ++ [w]) = if w.2.isAt test param then some w else lastWrite? test param ws := by
  unfold lastWrite?
  rw [List.filter_append]
  by_cases h : w.2.isAt test param = true <;> simp [h]

theorem map_lastWrite? (ds : List Delivery) :
    (lastWrite? test param (writesOf ds)).map Prod.snd = lastSample? ds test param := by
  rw [lastWrite?, lastSample?, ← map_snd_writesOf, List.filter_map, List.getLast?_map]
  rfl

theorem record?_putSample (p : Platform) (t : Results) (s : Sample) :
    (putSample p t s).record? test param =
      if s.isAt test param then
        some (((t.record? test param).getD .blank).set p (.reported s.average) (.reported s.loops))
      else t.record? test param := by
  rw [putSample, record?_put]
  by_cases h : s.isAt test param = true
  · have hk := of_decide_eq_true h
    rw [hk.1, hk.2]; simp [h]
  · have hk : ¬ (test = s.test ∧ param = s.param) := fun e => h (decide_eq_true ⟨e.1.symm, e.2.symm⟩)
    simp [h, hk]

theorem record?_ofWrites_isSome (ws : List (Platform × Sample)) :
    ((ofWrites ws).record? test param).isSome = (lastWrite? test param ws).isSome := by
  induction ws using List.reverseRecOn with
  | nil => rfl
  | append_singleton ws w ih =>
    rw [ofWrites, List.foldl_append, List.foldl_cons, List.foldl_nil, record?_putSample, lastWrite?_append]
    split
    · rfl
    · exact ih

/-- Each column follows the writes of its platform alone. -/
theorem columnAt_ofWrites (ws : List (Platform × Sample)) (p : Platform) :
    (ofWrites ws).columnAt test param p =
      valueOf Sample.average ((lastWrite? test param (ws.filter (·.1 = p))).map Prod.snd) := by
  induction ws using List.reverseRecOn with
  | nil => cases p <;> rfl
  | append_singleton ws w ih =>
    rw [ofWrites, List.foldl_append, List.foldl_cons, List.foldl_nil, List.filter_append]
    by_cases hp : w.1 = p
    · rw [List.filter_cons_of_pos (by simp [hp]), List.filter_nil, lastWrite?_append, columnAt,
        record?_putSample]
      split
      · simp [Record.column_set, hp, valueOf]
      · exact ih
    · rw [List.filter_cons_of_neg (by simp [hp]), List.filter_nil, List.append_nil,
        columnAt_putSample test param (Ne.symm hp)]
      exact ih

/-- The iteration count follows the writes of all platforms. -/
theorem loops_ofWrites (ws : List (Platform × Sample)) :
    (((ofWrites ws).record? test param).getD .blank).loops =
      valueOf Sample.loops ((lastWrite? test param ws).map Prod.snd) := by
  induction ws using List.reverseRecOn with
  | nil => rfl
  | append_singleton ws w ih =>
    rw [ofWrites, List.foldl_append, List.foldl_cons, List.foldl_nil, record?_putSample, lastWrite?_append]
    split
    · simp [Record.loops_set, valueOf]
    · exact ih

end

theorem filled_ofWrites (ws : List (Platform × Sample)) : (ofWrites ws).Filled := by
  induction ws using List.reverseRecOn with
  | nil => exact filled_empty
  | append_singleton ws w ih =>
    rw [ofWrites, List.foldl_append, List.foldl_cons, List.foldl_nil]
    exact filled_put ih _ _ _ _ _

/-! ## The table after a history -/

theorem lastSample?_isSome_iff (ds : List Delivery) (test : Text) (param : Int) :
    (lastSample? ds test param).isSome ↔ ∃ s ∈ samplesOf ds, s.isAt test param := by
  rw [lastSample?, List.getLast?_isSome, ne_eq, List.filter_eq_nil_iff]
  simp

theorem mem_samplesOf_iff (ds : List Delivery) (s : Sample) :
    s ∈ samplesOf ds ↔ ∃ d ∈ ds, ∃ ss, Sample.parseBatch d.output = .ok ss ∧ s ∈ ss := by
  simp only [samplesOf, List.mem_flatMap]
  refine exists_congr fun d => and_congr_right fun _ => ?_
  cases h : Sample.parseBatch d.output with
  | error e => simp [accepted_of_error h]
  | ok ss => simp [accepted_of_ok h]

theorem record?_ofHistory_isSome (ds : List Delivery) (test : Text) (param : Int) :
    ((ofHistory ds).record? test param).isSome ↔ ∃ s ∈ samplesOf ds, s.isAt test param := by
  rw [← lastSample?_isSome_iff, ← map_lastWrite?, Option.isSome_map, ofHistory_eq, record?_ofWrites_isSome]

theorem size_ofHistory (ds : List Delivery) :
    (ofHistory ds).size = ((samplesOf ds).map fun s => (s.test, s.param)).dedup.length := by
  have hmem : ∀ k, k ∈ (ofHistory ds).recordKeys ↔
      k ∈ ((samplesOf ds).map fun s => (s.test, s.param)).dedup := by
    rintro ⟨test, param⟩
    rw [mem_recordKeys_iff, record?_ofHistory_isSome, List.mem_dedup, List.mem_map]
    simp [Sample.isAt]
  rw [size_eq_length]
  exact ((List.perm_ext_iff_of_nodup (recordKeys_nodup _) (List.nodup_dedup _)).2 hmem).length_eq

theorem ofHistory_of_rejected (ds₁ ds₂ : List Delivery) {d : Delivery} {e : BatchError}
    (h : (ofHistory ds₁).absorb d.platform d.output = .error e) :
    ofHistory (ds₁ ++ d :: ds₂) = ofHistory (ds₁ ++ ds₂) := by
  have hd : (ofHistory ds₁).after d.platform d.output = ofHistory ds₁ := by rw [after, h]
  unfold ofHistory at hd ⊢
  rw [List.foldl_append, List.foldl_cons, hd, List.foldl_append]

/-- **History to table.** A record is there iff an accepted output has a sample with its key; its
columns have the last average of their own platform and its iteration count is the last of all
platforms; a rejected output might as well not have come; the size is the number of distinct keys,
and no test is without a record. -/
theorem history_determines_results (ds : List Delivery) :
    (∀ test param, ((ofHistory ds).record? test param).isSome ↔
      ∃ d ∈ ds, ∃ ss, Sample.parseBatch d.output = .ok ss ∧ ∃ s ∈ ss, s.test = test ∧ s.param = param) ∧
    (∀ test param r, (ofHistory ds).record? test param = some r →
      (∀ p, r.column p = valueOf Sample.average (lastSample? (deliveriesTo p ds) test param)) ∧
        r.loops = valueOf Sample.loops (lastSample? ds test param)) ∧
    (∀ ds₁ d ds₂ e, ds = ds₁ ++ d :: ds₂ → (ofHistory ds₁).absorb d.platform d.output = .error e →
      ofHistory ds = ofHistory (ds₁ ++ ds₂)) ∧
    (ofHistory ds).size = ((samplesOf ds).map fun s => (s.test, s.param)).dedup.length ∧
    (∀ test params, (ofHistory ds).get? test = some params → params.entries ≠ []) ∧
    ((ofHistory ds).isEmpty ↔ (ofHistory ds).size = 0) := by
  have hfilled : (ofHistory ds).Filled := by rw [ofHistory_eq]; exact filled_ofWrites _
  refine ⟨fun test param => ?_, fun test param r hr => ⟨fun p => ?_, ?_⟩, ?_, size_ofHistory ds, hfilled,
    isEmpty_iff hfilled⟩
  · rw [record?_ofHistory_isSome]
    simp only [mem_samplesOf_iff, Sample.isAt, decide_eq_true_eq]
    constructor
    · rintro ⟨s, ⟨d, hd, ss, hss, hs⟩, hk⟩
      exact ⟨d, hd, ss, hss, s, hs, hk⟩
    · rintro ⟨d, hd, ss, hss, s, hs, hk⟩
      exact ⟨s, ⟨d, hd, ss, hss, hs⟩, hk⟩
  · have h := columnAt_ofWrites test param (writesOf ds) p
    rwa [← ofHistory_eq, columnAt, hr, Option.getD_some, writesOf_filter, map_lastWrite?] at h
  · have h := loops_ofWrites test param (writesOf ds)
    rwa [← ofHistory_eq, hr, Option.getD_some, map_lastWrite?] at h
  · rintro ds₁ d ds₂ e rfl he
    exact ofHistory_of_rejected ds₁ ds₂ he

end Results

end TriBench
